import NodeManagement.MeaninglessDatagrams
import NodeManagement.SendPipeline
import NodeManagement.TimeStamps

/-!
What goes out on the wire, over every run: nothing but PINGs and TIMEOUT NOTIFYs, each to a client
whose REGISTER came in before, and each NOTIFY about such a client.
-/

namespace NodeManagement

open Transition

def Reception.registers (received : Reception) : Option (TypeNode × SockaddrIn) :=
  match decodeReceived received.dataUDP with
  | some (.rigister packet) =>
      if packet.typeNode.isMonitored then some (packet.typeNode, packet.clientAddr) else none
  | _ => none

def Registered (reception : List Reception) (type : TypeNode) (clientAddr : SockaddrIn) : Prop :=
  ∃ received ∈ reception, received.registers = some (type, clientAddr)

theorem Registered.mono {reception later : List Reception} {type : TypeNode}
    {clientAddr : SockaddrIn} (known : Registered reception type clientAddr)
    (grows : reception ⊆ later) : Registered later type clientAddr := by
  obtain ⟨received, member, registers⟩ := known
  exact ⟨received, grows member, registers⟩

theorem Registered.isMonitored {reception : List Reception} {type : TypeNode}
    {clientAddr : SockaddrIn} (known : Registered reception type clientAddr) :
    type.isMonitored = true := by
  obtain ⟨received, _, registers⟩ := known
  unfold Reception.registers at registers
  split at registers
  · simp only [Option.ite_none_right_eq_some, Option.some.injEq, Prod.mk.injEq] at registers
    exact registers.2.1 ▸ registers.1
  · simp at registers

theorem TypeNode.value_lt_of_isMonitored {type : TypeNode} (monitored : type.isMonitored = true) :
    type.value < 256 := by
  cases type <;> simp_all [isMonitored, value]

/-- A message of a registered client: a ping with the text of every ping, the TIMEOUT of a node
with a time stamp, or a message that sends nothing. -/
structure StrMessageState.Genuine (stamp : Bytes → Prop) (reception : List Reception)
    (message : StrMessageState) : Prop where
  sender : Registered reception message.typeNode message.clientAddr
  ping : message.isPing = true → message.message = pingText
  timeout : message.messageType = 1 → message.state = .timeout →
    ∃ now, stamp now ∧ message.message = timeoutText ++ now

def notifyText (message : Bytes) : Bytes :=
  messageField message (writtenSize message.length 34) 34

/-- A datagram that the client at its target can read: a PING, or the NOTIFY that the client of
some node timed out. -/
inductive WellSent (stamp : Bytes → Prop) (reception : List Reception) :
    SockaddrIn × Bytes → Prop
  | ping {type : TypeNode} {target : SockaddrIn} {stBuffer : Bytes}
      (registered : Registered reception type target) (length : stBuffer.length = 20)
      (parsed : parseIncomingPacket stBuffer =
        some (.ping (pingText ++ List.replicate 14 0))) :
      WellSent stamp reception (target, stBuffer)
  | notify {type subject : TypeNode} {target subjectAddr : SockaddrIn} {stBuffer now : Bytes}
      (registered : Registered reception type target)
      (about : Registered reception subject subjectAddr) (stamped : stamp now)
      (length : stBuffer.length = 40)
      (parsed : parseIncomingPacket stBuffer = some (.notify subject.value
        (ntohs subjectAddr.sinPort).toNat StateList.timeout.value
        (notifyText (timeoutText ++ now)))) :
      WellSent stamp reception (target, stBuffer)

variable {stamp : Bytes → Prop} {reception later : List Reception}

theorem WellSent.mono {entry : SockaddrIn × Bytes} (sent : WellSent stamp reception entry)
    (grows : reception ⊆ later) : WellSent stamp later entry := by
  cases sent with
  | ping registered length parsed => exact .ping (registered.mono grows) length parsed
  | notify registered about stamped length parsed =>
      exact .notify (registered.mono grows) (about.mono grows) stamped length parsed

theorem StrMessageState.Genuine.mono {message : StrMessageState}
    (genuine : message.Genuine stamp reception) (grows : reception ⊆ later) :
    message.Genuine stamp later :=
  ⟨genuine.sender.mono grows, genuine.ping, genuine.timeout⟩

theorem NodeBase.posts_genuine {node : NodeBase} {now : Bytes}
    {message : StrMessageState} (coherent : node.Coherent)
    (known : Registered reception node.type node.clientAddr) (stamped : stamp now)
    (posted : node.posts now = some message) : message.Genuine stamp reception := by
  unfold posts at posted
  split at posted
  next site position =>
    obtain rfl := Option.some.inj posted
    exact ⟨known, fun _ => rfl, fun notify => by simp [pingMessage] at notify⟩
  next position =>
    obtain rfl := Option.some.inj posted
    exact ⟨known, fun ping => by simp [StrMessageState.isPing, timeoutMessage,
      StrMessageState.saveTime] at ping, fun _ _ => ⟨now, stamped, rfl⟩⟩
  next position =>
    obtain rfl := Option.some.inj posted
    simp only [Coherent, position] at coherent
    exact ⟨known, fun ping => by simp [StrMessageState.isPing, deadMessage,
      StrMessageState.saveTime] at ping, fun _ state => by simp [deadMessage,
      StrMessageState.saveTime, coherent.2] at state⟩
  next => simp at posted

theorem pingText_field :
    messageField pingText (writtenSize pingText.length 18) 18 =
      pingText ++ List.replicate 14 0 := by
  decide

theorem Registry.handleMessage_wellSent {registry : Registry} {message : StrMessageState}
    (genuine : message.Genuine stamp reception)
    (receivers : ∀ node ∈ registry.vecNodeBase, Registered reception node.type node.clientAddr)
    {entry : SockaddrIn × Bytes}
    (made : entry ∈ (registry.handleMessage message).2.flatMap PacketObject.datagrams) :
    WellSent stamp reception entry := by
  rw [handleMessage_packets] at made
  split at made
  next ping =>
    obtain ⟨stBuffer, sent, length, parsed⟩ := ping_datagrams message
    rw [genuine.ping ping, pingText_field] at parsed
    simp only [List.flatMap_cons, List.flatMap_nil, List.append_nil, sent,
      List.mem_singleton] at made
    subst made
    exact .ping genuine.sender length parsed
  next =>
    split at made
    next notifies =>
      simp only [List.flatMap_map, List.mem_flatMap] at made
      obtain ⟨receiver, member, told⟩ := made
      obtain ⟨stBuffer, sent, length, parsed⟩ := notify_datagrams message receiver
      obtain rfl := List.mem_singleton.mp (sent ▸ told)
      obtain ⟨now, stamped, text⟩ := genuine.timeout notifies.1 notifies.2
      have type := TypeNode.value_lt_of_isMonitored genuine.sender.isMonitored
      rw [Nat.mod_eq_of_lt type, notifies.2, text] at parsed
      exact .notify (receivers receiver member) genuine.sender stamped length parsed
    next => simp at made

namespace System

def Stamped (stamp : Bytes → Prop) (_ : System) : SystemEvent → Prop
  | .nodeStep _ now _ => stamp now
  | _ => True

structure Traceable (stamp : Bytes → Prop) (system : System) : Prop where
  entries : ∀ node ∈ system.monitor.registry.vecNodeBase,
    Registered system.reception node.type node.clientAddr
  messages : ∀ posted ∈ system.monitor.pending,
    posted.message.Genuine stamp system.reception
  outgoing : ∀ entry ∈ system.outgoing, WellSent stamp system.reception entry

variable {system after : System}

theorem initial_traceable : initial.Traceable stamp := by
  refine ⟨?_, ?_, ?_⟩
  · simp [initial, Monitor.initial, Registry.empty]
  · simp [initial, Monitor.initial, Monitor.pending, ConsumerThread.held, ConsumerThread.absent]
  · simp [outgoing, initial, Consumer.packets]

theorem step_reception {event : SystemEvent} (taken : system.step event = some after) :
    system.reception ⊆ after.reception := by
  cases step_move taken with
  | receive => exact List.subset_append_left _ _
  | _ => exact List.Subset.refl _

inductive EntryOrigin (system : System) (node : NodeBase) : SystemEvent → Prop
  | kept {event : SystemEvent} (member : node ∈ system.monitor.registry.vecNodeBase) :
      EntryOrigin system node event
  | moved {index : Nat} {now : Bytes} {timedOut : Bool} {old : NodeBase}
      {pushed : Option StrMessageState} (member : old ∈ system.monitor.registry.vecNodeBase)
      (step : old.threadStep system.monitor.registry.nodeID now timedOut = some (node, pushed)) :
      EntryOrigin system node (.nodeStep index now timedOut)
  | answered {old : NodeBase} {object : PacketObject}
      (member : old ∈ system.monitor.registry.vecNodeBase)
      (working : system.receivedIOQueue.thread.pc = .working)
      (points : system.receivedIOQueue.thread.item.pointee = some object)
      (type : object.base.typeMessage = .pong)
      (port : old.getPortInfo = object.base.clientAddr.sinPort)
      (flagged : node = old.setPongState true) : EntryOrigin system node .handleReceived
  | registered {packet : RigisterPacket}
      (working : system.receivedIOQueue.thread.pc = .working)
      (points : system.receivedIOQueue.thread.item.pointee = some (.rigister packet))
      (monitored : packet.typeNode.isMonitored = true)
      (fresh : node = packet.newNode (system.monitor.registry.made + 1)) :
      EntryOrigin system node .handleReceived

theorem step_entries {event : SystemEvent} (taken : system.step event = some after)
    {node : NodeBase} (member : node ∈ after.monitor.registry.vecNodeBase) :
    system.EntryOrigin node event := by
  cases step_move taken with
  | nodeStep index now timedOut stepped =>
      cases Monitor.step_move stepped with
      | nodeStep moved =>
          obtain ⟨old, next, pushed, found, step, rfl⟩ := Monitor.nodeStep_cases moved
          rcases List.mem_or_eq_of_mem_set member with inside | rfl
          · exact .kept inside
          · exact .moved (List.mem_of_getElem? found) step
  | popMessage _ stepped =>
      cases Monitor.step_move stepped with
      | waitAndPop => exact .kept member
  | checkMessage stepped =>
      cases Monitor.step_move stepped with
      | checkRunning => exact .kept member
  | handleMessage stepped =>
      cases Monitor.step_move stepped with
      | handleMessage =>
          simp only [Registry.handleMessage_registry] at member
          split at member
          · exact .kept (KeyedList.eraseFirst_sublist.subset member)
          · exact .kept member
  | handleReceived working points dispatched =>
      obtain ⟨registry, rfl, same | ⟨packet, rfl, rfl⟩ | ⟨type, _, rfl⟩⟩ :=
        Monitor.handlePacket_registry dispatched
      · exact .kept (same ▸ member)
      · simp only [Registry.checkRegisterMessage_eq] at member
        split at member
        next added =>
          rcases List.mem_append.mp member with inside | new
          · exact .kept inside
          · simp only [Bool.and_eq_true] at added
            exact .registered working points added.1 (List.mem_singleton.mp new)
        next => exact .kept member
      · simp only [Registry.checkPongMessage_eq] at member
        rcases KeyedList.mem_updateFirst member with inside | ⟨old, inside, port, flagged⟩
        · exact .kept inside
        · exact .answered inside working points type port flagged
  | startNodeManagament _ stepped =>
      cases Monitor.step_move stepped with
      | startAgain | start => exact .kept member
  | stopNodeManagament _ stepped =>
      cases Monitor.step_move stepped with
      | stopAgain | stop => exact .kept member
  | proceedNodeManagament _ proceeded =>
      rw [(Monitor.proceed_cases proceeded).2.2.2.1] at member
      exact .kept member
  | _ => exact .kept member

theorem registered_of_working (reached : Reachable system) {packet : RigisterPacket}
    (working : system.receivedIOQueue.thread.pc = .working)
    (points : system.receivedIOQueue.thread.item.pointee = some (.rigister packet))
    (monitored : packet.typeNode.isMonitored = true) :
    Registered system.reception packet.typeNode packet.clientAddr := by
  obtain ⟨received, member, held, inHand, _, decoded⟩ := received_of_working reached working
  rw [inHand] at points
  have object : held.object = .rigister packet := Option.some.inj points
  refine ⟨received, member, ?_⟩
  simp [Reception.registers, decoded, object, monitored]

theorem posts_genuine (sound : system.Sound) {event : SystemEvent}
    (entries : ∀ node ∈ system.monitor.registry.vecNodeBase,
      Registered reception node.type node.clientAddr)
    (stamped : system.Stamped stamp event) {posted : PostedMessage}
    (posts : posted ∈ (system.posts event).toList) : posted.message.Genuine stamp reception := by
  cases event with
  | nodeStep index now timedOut =>
      simp only [System.posts, Monitor.posts, Option.mem_toList, Option.bind_eq_some_iff,
        Option.map_eq_some_iff] at posts
      obtain ⟨node, found, message, made, rfl⟩ := posts
      have member := List.mem_of_getElem? found
      exact NodeBase.posts_genuine (sound.monitor.formed.coherent node member)
        (entries node member) stamped made
  | _ => simp [System.posts] at posts

theorem step_traceable {event : SystemEvent} (reached : Reachable system) (sound : system.Sound)
    (traceable : system.Traceable stamp) (stamped : system.Stamped stamp event)
    (taken : system.step event = some after) : after.Traceable stamp := by
  have grows := step_reception taken
  refine ⟨?_, ?_, ?_⟩
  · intro node member
    have known (old : NodeBase) (inside : old ∈ system.monitor.registry.vecNodeBase)
        (same : old.SameIdentity node) : Registered after.reception node.type node.clientAddr :=
      same.1 ▸ same.2.2 ▸ (traceable.entries old inside).mono grows
    cases step_entries taken member with
    | kept inside => exact known node inside (.refl node)
    | moved inside step => exact known _ inside (NodeBase.threadStep_identity step)
    | answered inside _ _ _ _ flagged =>
        exact known _ inside (flagged ▸ NodeBase.setPongState_identity _ true)
    | registered working points monitored fresh =>
        subst fresh
        exact (registered_of_working reached working points monitored).mono grows
  · intro posted member
    have known := (step_pending sound taken).1.subset (List.mem_append_right _ member)
    rcases List.mem_append.mp known with old | new
    · exact (traceable.messages posted old).mono grows
    · exact (posts_genuine sound traceable.entries stamped new).mono grows
  · intro entry member
    rcases List.mem_append.mp ((step_outgoing sound.program taken).1.subset member) with old | new
    · exact (traceable.outgoing entry old).mono grows
    · cases event with
      | handleMessage =>
          cases step_move taken with
          | handleMessage stepped =>
              cases Monitor.step_move stepped with
              | handleMessage working =>
                  have genuine := traceable.messages _ (sound.monitor.item_mem_pending working)
                  exact (Registry.handleMessage_wellSent genuine traceable.entries new).mono grows
      | _ => simp [made] at new

theorem reachableBy_traceable (reached : ReachableBy (Stamped stamp) system) :
    Reachable system ∧ system.Sound ∧ system.Traceable stamp :=
  Transition.Reaches.invariant
    (fun system => Reachable system ∧ system.Sound ∧ system.Traceable stamp) reached
    ⟨.refl, initial_sound, initial_traceable⟩
    fun _ _ _ known stamped taken => ⟨.step known.1 trivial taken, step_sound known.2.1 taken,
      step_traceable known.1 known.2.1 known.2.2 stamped taken⟩

/-- Over every run: each datagram that has gone out is a PING or a TIMEOUT NOTIFY, as the client
reads them, and each client told or told about has registered before. -/
theorem sent_wellSent (reached : ReachableBy (Stamped stamp) system) :
    ∀ entry ∈ system.sent, WellSent stamp system.reception entry := by
  intro entry member
  exact (reachableBy_traceable reached).2.2.outgoing entry (List.mem_append_left _ member)

end System

def timeoutSentEvents : List SystemEvent :=
  startNodeManagamentEvents ++ startIOHandlerEvents ++ receiveEvents ++
    [.popReceived, .checkReceived, .handleReceived] ++
    List.replicate 7 (.nodeStep 0 timeoutTime.putTime true) ++
    [.popMessage, .checkMessage, .handleMessage, .pushPacket,
      .popMessage, .checkMessage, .handleMessage, .pushPacket,
      .popSend, .checkSend, .transmit, .popSend, .checkSend, .transmit]

def System.stampedBy (time : Tm) (_ : System) : SystemEvent → Bool
  | .nodeStep _ now _ => now == time.putTime
  | _ => true

theorem System.stamped_of_stampedBy {time : Tm} (system : System) (event : SystemEvent)
    (checked : system.stampedBy time event = true) : system.Stamped IsLocalTime event := by
  cases event with
  | nodeStep index now timedOut => exact ⟨time, beq_iff_eq.mp checked⟩
  | _ => trivial

def tellsTimeout (entry : SockaddrIn × Bytes) : Bool :=
  match parseIncomingPacket entry.2 with
  | some (.notify typeNode port state _) => typeNode == 1 && (port == 20000 && state == 2)
  | _ => false

theorem sent_wellSent_ping_and_notify :
    ∃ system : System, system.sent.any isPingDatagram = true ∧
      system.sent.any tellsTimeout = true ∧
      ∀ entry ∈ system.sent, WellSent IsLocalTime system.reception entry := by
  obtain ⟨system, reached, found⟩ := exists_reaches System.step (System.stampedBy timeoutTime)
    (fun system => system.sent.any isPingDatagram && system.sent.any tellsTimeout) .initial
    timeoutSentEvents System.stamped_of_stampedBy (by decide +kernel) (by decide +kernel)
  simp only [Bool.and_eq_true] at found
  exact ⟨system, found.1, found.2, System.sent_wellSent reached⟩

theorem notifyText_stamped (now : Tm) :
    notifyText (timeoutText ++ now.putTime) =
      timeoutText ++ now.putTime ++ List.replicate 7 0 := by
  have size : (timeoutText ++ now.putTime).length = 27 := rfl
  have written : writtenSize 27 34 = 27 := by decide
  rw [notifyText, size, written, messageField, List.take_of_length_le (by rw [size])]
  rfl

/-- Over every run whose clock gives local times: the client reads from each NOTIFY the text of
the TIMEOUT with its time stamp uncut, and no other time gives the same text. -/
theorem System.sent_notify_time {system : System}
    (reached : System.ReachableBy (System.Stamped IsLocalTime) system) :
    ∀ entry ∈ system.sent, ∀ typeNode port state message,
      parseIncomingPacket entry.2 = some (.notify typeNode port state message) →
      ∃! time : Tm, message = timeoutText ++ time.putTime ++ List.replicate 7 0 := by
  intro entry member typeNode port state message read
  have sent := (reachableBy_traceable reached).2.2.outgoing entry
    (List.mem_append_left _ member)
  cases sent with
  | ping _ _ parsed => simp [parsed] at read
  | notify _ _ stamped _ parsed =>
      obtain ⟨time, rfl⟩ := stamped
      have text : message = notifyText (timeoutText ++ time.putTime) := by
        simp only [parsed, Option.some.injEq, ParsedPacket.notify.injEq] at read
        exact read.2.2.2.symm
      rw [notifyText_stamped] at text
      refine ⟨time, text, ?_⟩
      intro other same
      rw [text, List.append_left_inj, List.append_right_inj] at same
      exact (Tm.putTime_inj same).symm

theorem sent_notify_time_one_node :
    ∃ system : System, ∃ entry ∈ system.sent, ∃ message,
      parseIncomingPacket entry.2 = some (.notify 1 20000 2 message) ∧
      ∃! time : Tm, message = timeoutText ++ time.putTime ++ List.replicate 7 0 := by
  obtain ⟨system, reached, found⟩ := exists_reaches System.step (System.stampedBy timeoutTime)
    (fun system => system.sent.any tellsTimeout) .initial timeoutSentEvents
    System.stamped_of_stampedBy (by decide +kernel) (by decide +kernel)
  obtain ⟨entry, member, read⟩ := List.any_eq_true.mp found
  unfold tellsTimeout at read
  split at read
  next typeNode port state message parsed =>
    simp only [Bool.and_eq_true, beq_iff_eq] at read
    obtain ⟨rfl, rfl, rfl⟩ := read
    exact ⟨system, entry, member, message, parsed,
      System.sent_notify_time reached entry member _ _ _ _ parsed⟩
  next => simp at read

end NodeManagement
