import NodeManagement.Encoding
import NodeManagement.ReceivePipeline

/-!
The send pipeline: what the node threads ask for goes through `g_messageNodeQueue`, the
`handleSendData` thread, `g_sendIOQueue` and the `handleTxThread` thread to the socket, in the
order in which it was asked for.
-/

namespace NodeManagement

open Transition

def PacketObject.datagrams (object : PacketObject) : List (SockaddrIn × Bytes) :=
  object.transmit.getD []

namespace Monitor

variable {monitor after : Monitor}

theorem handlePacket_registry {object : PacketObject}
    (taken : monitor.handlePacket object = some after) :
    ∃ registry, after = { monitor with registry := registry } ∧
      (registry = monitor.registry ∨
        (∃ packet, object = .rigister packet ∧
          registry = monitor.registry.checkRegisterMessage packet) ∨
        (object.base.typeMessage = .pong ∧
          monitor.registry.pongBlocked object.base = false ∧
          registry = monitor.registry.checkPongMessage object.base)) := by
  unfold handlePacket at taken
  split at taken
  next type =>
    cases step_move taken with
    | pong _ free => exact ⟨_, rfl, .inr (.inr ⟨type, free, rfl⟩)⟩
  next =>
    split at taken
    next =>
      split at taken
      next packet _ _ =>
        cases step_move taken with
        | register => exact ⟨_, rfl, .inr (.inl ⟨packet, rfl, rfl⟩)⟩
      next => simp at taken
    next =>
      obtain rfl := Option.some.inj taken
      exact ⟨_, rfl, .inl rfl⟩

end Monitor

namespace System

def outgoing (system : System) : List (SockaddrIn × Bytes) :=
  system.sent ++ (system.sendIOQueue.packets.map HeapPacket.object ++ system.outbox).flatMap
    PacketObject.datagrams

def made (system : System) : SystemEvent → List PacketObject
  | .handleMessage =>
      (system.monitor.registry.handleMessage system.monitor.nodeHandleThread.item.message).2
  | _ => []

end System

def SystemEvent.isSendtoFails : SystemEvent → Bool
  | .sendtoFails => true
  | _ => false

namespace System

def sendsAll (system : System) : SystemEvent → Bool
  | .pushPacket => system.sendIOQueue.accepts
  | .checkSend => system.ioRunning
  | .sendtoFails => false
  | _ => true

def PushesFirst (system : System) : Prop :=
  system.monitor.nodeHandleThread.pc ≠ .waiting → system.outbox = []

variable {system after : System}

theorem step_pushesFirst {event : SystemEvent} (first : system.PushesFirst)
    (taken : system.step event = some after) : after.PushesFirst := by
  cases step_move taken with
  | nodeStep index now timedOut stepped =>
      cases Monitor.step_move stepped with
      | nodeStep moved =>
          obtain ⟨node, next, pushed, _, _, rfl⟩ := Monitor.nodeStep_cases moved
          exact first
  | popMessage pushedAll => exact fun _ => pushedAll
  | checkMessage stepped =>
      cases Monitor.step_move stepped with
      | checkRunning checked =>
          obtain ⟨checking, rfl⟩ := ConsumerThread.check_cases checked
          exact fun _ => first (by simp [checking])
  | handleMessage stepped =>
      cases Monitor.step_move stepped with
      | handleMessage => exact fun waiting => absurd rfl waiting
  | pushPacket contents =>
      intro busy
      have empty := first busy
      simp [contents] at empty
  | handleReceived _ _ dispatched =>
      obtain ⟨registry, rfl, _⟩ := Monitor.handlePacket_registry dispatched
      exact first
  | startNodeManagament _ stepped =>
      cases Monitor.step_move stepped with
      | startAgain | start => exact first
  | stopNodeManagament _ stepped =>
      cases Monitor.step_move stepped with
      | stopAgain | stop => exact first
  | proceedNodeManagament _ proceeded =>
      have moved := (Monitor.proceed_cases proceeded).2.2.2.2
      have thread := (Consumer.proceed_cases moved).2.2.2
      simp only [Monitor.consumer] at thread
      intro busy
      rw [thread] at busy
      split at busy
      · exact absurd rfl busy
      · exact first busy
  | _ => exact first

theorem packets_append_object {packets sending : List HeapPacket} {packet : HeapPacket}
    {outbox : List PacketObject} {accepted : Bool}
    (effect : Consumer.PushEffect accepted packets packet sending) :
    (sending.map HeapPacket.object ++ outbox).Sublist
        (packets.map HeapPacket.object ++ packet.object :: outbox) ∧
      (accepted = true → sending.map HeapPacket.object ++ outbox =
        packets.map HeapPacket.object ++ packet.object :: outbox) := by
  constructor
  · have fewer := (effect.sublist.map HeapPacket.object).append_right outbox
    simpa using fewer
  · rintro rfl
    simp [effect.eq_of_accepted]

theorem datagrams_of_pointee {pointer : PacketPointer} {object : PacketObject}
    (points : pointer.pointee = some object) :
    object.datagrams =
      (pointer.owned.map HeapPacket.object).flatMap PacketObject.datagrams := by
  cases pointer with
  | null => simp [PacketPointer.pointee] at points
  | initial =>
      obtain rfl := Option.some.inj points
      rfl
  | heap packet =>
      obtain rfl := Option.some.inj points
      simp [PacketPointer.owned]

theorem transmit_outgoing (inv : system.Invariant) (taken : system.transmit = some after) :
    after.outgoing = system.outgoing := by
  obtain ⟨working, ⟨null, rfl⟩ | ⟨object, datagrams, points, encoded, rfl⟩⟩ :=
    transmit_cases taken
  · have none := owned_of_pointee_none null
    simp [outgoing, Consumer.packets_of_working inv.send working, none]
  · have sent : object.datagrams = datagrams := by simp [PacketObject.datagrams, encoded]
    simp [outgoing, Consumer.packets_of_working inv.send working, ← sent,
      datagrams_of_pointee points]

theorem step_outgoing {event : SystemEvent} (inv : system.Invariant)
    (taken : system.step event = some after) :
    after.outgoing.Sublist
        (system.outgoing ++ (system.made event).flatMap PacketObject.datagrams) ∧
      (system.PushesFirst → system.sendsAll event = true →
        after.outgoing =
          system.outgoing ++ (system.made event).flatMap PacketObject.datagrams) := by
  have same (equal : after.outgoing = system.outgoing) (none : system.made event = []) :
      after.outgoing.Sublist
          (system.outgoing ++ (system.made event).flatMap PacketObject.datagrams) ∧
        (system.PushesFirst → system.sendsAll event = true → after.outgoing =
          system.outgoing ++ (system.made event).flatMap PacketObject.datagrams) := by
    simp [equal, none]
  cases step_move taken with
  | handleMessage stepped =>
      cases Monitor.step_move stepped with
      | handleMessage working =>
          simp only [outgoing, made, List.flatMap_append, List.append_assoc]
          constructor
          · exact ((List.sublist_append_right _ _).append_left _).append_left _
          · intro first _
            have empty := first (by simp [working])
            simp [empty]
  | @pushPacket object rest contents =>
      have effect := @packets_append_object _ _ _ rest _
        (Consumer.push_packets_effect inv.sendPointers ⟨system.nextIdentity, object, none⟩)
      simp only [outgoing, made, contents, List.flatMap_nil, List.append_nil]
      refine ⟨(effect.1.flatMap _).append_left _, fun _ accepted => ?_⟩
      rw [effect.2 accepted]
  | popSend popped =>
      exact same (by simp [outgoing, Consumer.packets, Consumer.pop_items inv.send popped]) rfl
  | checkSend checked =>
      obtain ⟨_, _, split, kept⟩ := Consumer.checkPointer_spec inv.sendPointers inv.send checked
      simp only [outgoing, made, split, List.map_append, List.append_assoc, List.flatMap_append,
        List.flatMap_nil, List.append_nil]
      refine ⟨(List.sublist_append_right _ _).append_left _, fun _ running => ?_⟩
      simp [kept running]
  | skipSend | transmit => exact same (transmit_outgoing inv taken) rfl
  | sendtoFails working =>
      simp only [outgoing, made, Consumer.packets_of_working inv.send working, List.map_append,
        List.flatMap_append, List.append_assoc, List.flatMap_nil, List.append_nil]
      exact ⟨(List.sublist_append_right _ _).append_left _, by simp [sendsAll]⟩
  | proceedIOHandler _ _ second =>
      exact same
        (by simp [outgoing, Consumer.packets, Consumer.proceed_items inv.send second]) rfl
  | _ => exact same rfl rfl

end System

def NodeBase.posts (node : NodeBase) (now : Bytes) : Option StrMessageState :=
  match node.pc with
  | .pushPing _ readID => some (node.pingMessage readID)
  | .notifyTimeout => some (node.timeoutMessage now)
  | .notifyDead => some (node.deadMessage now)
  | _ => none

theorem NodeBase.threadStep_posts {node after : NodeBase} {nodeID : Int} {now : Bytes}
    {timedOut : Bool} {pushed : Option StrMessageState}
    (step : node.threadStep nodeID now timedOut = some (after, pushed)) :
    pushed = node.posts now := by
  cases threadStep_move step <;> simp_all [posts]

namespace Monitor

def posts (monitor : Monitor) : MonitorEvent → Option PostedMessage
  | .nodeStep index now _ =>
      monitor.registry.vecNodeBase[index]?.bind fun node =>
        (node.posts now).map fun message => ⟨message, node.serial⟩
  | _ => none

def takes (monitor : Monitor) : MonitorEvent → Option PostedMessage
  | .handleMessage => some monitor.nodeHandleThread.item
  | _ => none

def postsAll (monitor : Monitor) : MonitorEvent → Bool
  | .nodeStep _ _ _ => monitor.messageNodeQueue.running && !monitor.messageNodeQueue.isFull
  | .checkRunning => monitor.running
  | _ => true

variable {monitor after : Monitor}

theorem step_pending {event : MonitorEvent} (inv : monitor.Invariant)
    (taken : monitor.step event = some after) :
    ((monitor.takes event).toList ++ after.pending).Sublist
        (monitor.pending ++ (monitor.posts event).toList) ∧
      (monitor.postsAll event = true → (monitor.takes event).toList ++ after.pending =
        monitor.pending ++ (monitor.posts event).toList) := by
  have same (equal : after.pending = monitor.pending) (idle : monitor.takes event = none)
      (silent : monitor.posts event = none) :
      ((monitor.takes event).toList ++ after.pending).Sublist
          (monitor.pending ++ (monitor.posts event).toList) ∧
        (monitor.postsAll event = true → (monitor.takes event).toList ++ after.pending =
          monitor.pending ++ (monitor.posts event).toList) := by
    simp [equal, idle, silent]
  cases step_move taken with
  | @nodeStep index now timedOut _ stepped =>
      obtain ⟨node, moved, pushed, found, step, rfl⟩ := nodeStep_cases stepped
      obtain rfl := NodeBase.threadStep_posts step
      simp only [takes, posts, postsAll, found, Option.bind_some, Option.toList_none,
        List.nil_append]
      cases posted : node.posts now with
      | none => simp [pending]
      | some message =>
          have effect := Consumer.push_items_effect monitor.consumer ⟨message, node.serial⟩
          refine ⟨effect.sublist, fun all => ?_⟩
          have accepted : monitor.consumer.accepts = true := all
          rw [accepted] at effect
          exact effect.eq_of_accepted
  | waitAndPop popped =>
      exact same (by simp only [pending, inv.handshake.pop_held popped]) rfl rfl
  | checkRunning checked =>
      simp only [takes, posts, postsAll, Option.toList_none, List.nil_append, List.append_nil,
        pending, ConsumerThread.check_held checked]
      constructor
      · split
        · exact List.Sublist.refl _
        · exact List.sublist_append_right _ _
      · intro running
        rw [if_pos running]
  | handleMessage working =>
      have front := inv.pending_of_working working
      simp only [takes, posts, front, Option.toList_some, Option.toList_none, List.append_nil,
        List.singleton_append]
      simp [pending]
  | proceed proceeded => exact same (proceed_pending inv proceeded) rfl rfl
  | _ => exact same rfl rfl rfl

end Monitor

def isPingDatagram (entry : SockaddrIn × Bytes) : Bool :=
  match parseIncomingPacket entry.2 with
  | some (.ping _) => true
  | _ => false

def pingTargets (datagrams : List (SockaddrIn × Bytes)) : List SockaddrIn :=
  (datagrams.filter isPingDatagram).map Prod.fst

def pingSources (posted : List PostedMessage) : List SockaddrIn :=
  (posted.filter fun posted => posted.message.isPing).map fun posted => posted.message.clientAddr

theorem pingTargets_append (first second : List (SockaddrIn × Bytes)) :
    pingTargets (first ++ second) = pingTargets first ++ pingTargets second := by
  simp [pingTargets]

theorem pingSources_append (first second : List PostedMessage) :
    pingSources (first ++ second) = pingSources first ++ pingSources second := by
  simp [pingSources]

theorem pingTargets_sublist {first second : List (SockaddrIn × Bytes)}
    (fewer : first.Sublist second) : (pingTargets first).Sublist (pingTargets second) :=
  (fewer.filter _).map _

theorem pingSources_sublist {first second : List PostedMessage} (fewer : first.Sublist second) :
    (pingSources first).Sublist (pingSources second) :=
  (fewer.filter _).map _

theorem ping_datagrams (message : StrMessageState) :
    ∃ stBuffer, (PacketObject.ping (checkPingMessage message)).datagrams =
        [(message.clientAddr, stBuffer)] ∧ stBuffer.length = 20 ∧
      parseIncomingPacket stBuffer = some (.ping (messageField message.message
        (writtenSize message.message.length 18) 18)) := by
  obtain ⟨stBuffer, encoded, length, parsed⟩ := ping_parsed message
  have type : (checkPingMessage message).typeMessage = .ping := rfl
  refine ⟨stBuffer, ?_, length, parsed⟩
  simp only [PacketObject.datagrams, PacketObject.transmit, PacketObject.base, type, encoded]
  rfl

theorem notify_datagrams (message : StrMessageState) (receiver : NodeBase) :
    ∃ stBuffer, (PacketObject.notify (notifyPacketTo message receiver)).datagrams =
        [(receiver.clientAddr, stBuffer)] ∧ stBuffer.length = 40 ∧
      parseIncomingPacket stBuffer = some (.notify (message.typeNode.value % 256)
        (ntohs message.clientAddr.sinPort).toNat message.state.value
        (messageField message.message (writtenSize message.message.length 34) 34)) := by
  obtain ⟨stBuffer, encoded, length, parsed⟩ := notify_parsed message receiver
  have type : (notifyPacketTo message receiver).typeMessage = .notify := rfl
  refine ⟨stBuffer, ?_, length, parsed⟩
  simp only [PacketObject.datagrams, PacketObject.transmit, PacketObject.base, type, encoded]
  rfl

theorem Registry.handleMessage_packets (registry : Registry) (message : StrMessageState) :
    (registry.handleMessage message).2 =
      if message.isPing then [.ping (checkPingMessage message)]
      else if message.messageType = 1 ∧ message.state = .timeout then
        registry.vecNodeBase.map fun receiver => .notify (notifyPacketTo message receiver)
      else [] := by
  unfold handleMessage checkNotifyMessage StrMessageState.isPing
  by_cases ping : message.messageType = 0#8
  · simp [ping]
  · by_cases notify : message.messageType = 1#8
    · cases state : message.state <;> simp [notify]
    · simp [ping, notify]

theorem handleMessage_pingTargets (registry : Registry) (posted : PostedMessage) :
    pingTargets ((registry.handleMessage posted.message).2.flatMap PacketObject.datagrams) =
      pingSources [posted] := by
  rw [Registry.handleMessage_packets]
  cases ping : posted.message.isPing with
  | true =>
      obtain ⟨stBuffer, sent, _, parsed⟩ := ping_datagrams posted.message
      simp [sent, pingTargets, pingSources, isPingDatagram, parsed, ping]
  | false =>
      simp only [Bool.false_eq_true, if_false, pingSources, List.filter_cons, ping,
        List.filter_nil, List.map_nil, pingTargets, List.map_eq_nil_iff, List.filter_eq_nil_iff]
      intro entry member
      split at member
      · simp only [List.flatMap_map, List.mem_flatMap] at member
        obtain ⟨receiver, _, told⟩ := member
        obtain ⟨stBuffer, sent, _, parsed⟩ := notify_datagrams posted.message receiver
        obtain rfl := List.mem_singleton.mp (sent ▸ told)
        simp [isPingDatagram, parsed]
      · simp at member

namespace System

structure Sound (system : System) : Prop where
  program : system.Invariant
  monitor : system.monitor.Invariant
  first : system.PushesFirst

variable {system after : System}

theorem initial_sound : initial.Sound :=
  ⟨initial_invariant, Monitor.initial_invariant, fun _ => rfl⟩

theorem step_sound {event : SystemEvent} (sound : system.Sound)
    (taken : system.step event = some after) : after.Sound := by
  refine ⟨step_invariant sound.program taken, ?_, step_pushesFirst sound.first taken⟩
  rcases step_monitor taken with same | ⟨inner, _, stepped⟩
  · exact same ▸ sound.monitor
  · exact Monitor.step_invariant sound.monitor stepped

def posts (system : System) : SystemEvent → Option PostedMessage
  | .nodeStep index now timedOut => system.monitor.posts (.nodeStep index now timedOut)
  | _ => none

def takes (system : System) : SystemEvent → Option PostedMessage
  | .handleMessage => some system.monitor.nodeHandleThread.item
  | _ => none

def postsAll (system : System) : SystemEvent → Bool
  | .nodeStep index now timedOut => system.monitor.postsAll (.nodeStep index now timedOut)
  | .checkMessage => system.monitor.running
  | _ => true

theorem step_pending {event : SystemEvent} (sound : system.Sound)
    (taken : system.step event = some after) :
    ((system.takes event).toList ++ after.monitor.pending).Sublist
        (system.monitor.pending ++ (system.posts event).toList) ∧
      (system.postsAll event = true → (system.takes event).toList ++ after.monitor.pending =
        system.monitor.pending ++ (system.posts event).toList) := by
  cases step_move taken with
  | nodeStep _ _ _ stepped | popMessage _ stepped | checkMessage stepped | handleMessage stepped
    | startNodeManagament _ stepped | stopNodeManagament _ stepped =>
      exact Monitor.step_pending sound.monitor stepped
  | proceedNodeManagament _ proceeded =>
      exact Monitor.step_pending sound.monitor
        (show system.monitor.step .proceed = _ from proceeded)
  | handleReceived _ _ dispatched =>
      obtain ⟨registry, rfl, _⟩ := Monitor.handlePacket_registry dispatched
      simp [takes, posts, Monitor.pending]
  | _ => simp [takes, posts]

def pings (system : System) : List SockaddrIn :=
  pingTargets system.outgoing ++ pingSources system.monitor.pending

def asksPing (system : System) (event : SystemEvent) : Option SockaddrIn :=
  ((system.posts event).filter fun posted => posted.message.isPing).map fun posted =>
    posted.message.clientAddr

theorem asksPing_toList (system : System) (event : SystemEvent) :
    (system.asksPing event).toList = pingSources (system.posts event).toList := by
  unfold asksPing pingSources
  cases system.posts event with
  | none => rfl
  | some posted => cases ping : posted.message.isPing <;> simp [ping]

theorem made_pingTargets (system : System) (event : SystemEvent) :
    pingTargets ((system.made event).flatMap PacketObject.datagrams) =
      pingSources (system.takes event).toList := by
  cases event with
  | handleMessage => exact handleMessage_pingTargets _ _
  | _ => rfl

theorem step_pings {event : SystemEvent} (sound : system.Sound)
    (taken : system.step event = some after) :
    after.pings.Sublist (system.pings ++ (system.asksPing event).toList) ∧
      (system.sendsAll event = true → system.postsAll event = true →
        after.pings = system.pings ++ (system.asksPing event).toList) := by
  have outgoing := step_outgoing sound.program taken
  have pending := step_pending sound taken
  rw [asksPing_toList]
  constructor
  · have first := pingTargets_sublist outgoing.1
    have second := pingSources_sublist pending.1
    rw [pingTargets_append, made_pingTargets] at first
    rw [pingSources_append, pingSources_append] at second
    have joined := (first.append_right _).trans
      (List.append_assoc _ _ _ ▸ second.append_left (pingTargets system.outgoing))
    simpa [pings] using joined
  · intro sends posts
    have first := congrArg pingTargets (outgoing.2 sound.first sends)
    have second := congrArg pingSources (pending.2 posts)
    rw [pingTargets_append, made_pingTargets] at first
    rw [pingSources_append, pingSources_append] at second
    rw [pings, first, List.append_assoc, second, pings, List.append_assoc]

structure CalmSending (system : System) : Prop extends system.Calm where
  messages : system.monitor.messageNodeQueue.running = true
  send : system.sendIOQueue.queue.running = true

def undisturbedSending (system : System) (event : SystemEvent) : Bool :=
  !event.isStop && !event.isSendtoFails && !system.monitor.messageNodeQueue.isFull &&
    !system.sendIOQueue.queue.isFull

theorem initial_calmSending : initial.CalmSending := ⟨initial_calm, rfl, rfl⟩

theorem step_calmSending {event : SystemEvent} (calm : system.CalmSending)
    (noStop : event.isStop = false) (taken : system.step event = some after) :
    after.CalmSending := by
  refine ⟨step_calm calm.toCalm noStop taken, ?_, ?_⟩
  · cases step_move taken with
    | nodeStep _ _ _ stepped =>
        cases Monitor.step_move stepped with
        | nodeStep moved =>
            obtain ⟨node, next, pushed, _, _, rfl⟩ := Monitor.nodeStep_cases moved
            cases pushed with
            | none => exact calm.messages
            | some message => exact (ThreadSafeQueue.push_running _ _ _).trans calm.messages
    | popMessage _ stepped =>
        cases Monitor.step_move stepped with
        | waitAndPop popped => exact (ConsumerThread.pop_running popped).trans calm.messages
    | checkMessage stepped =>
        cases Monitor.step_move stepped with
        | checkRunning => exact calm.messages
    | handleMessage stepped =>
        cases Monitor.step_move stepped with
        | handleMessage => exact calm.messages
    | handleReceived _ _ dispatched =>
        obtain ⟨registry, rfl, _⟩ := Monitor.handlePacket_registry dispatched
        exact calm.messages
    | startNodeManagament _ stepped =>
        cases Monitor.step_move stepped with
        | startAgain | start => exact calm.messages
    | stopNodeManagament => simp [SystemEvent.isStop] at noStop
    | proceedNodeManagament _ proceeded =>
        exact Consumer.proceed_running calm.nodeManagament calm.messages
          (Monitor.proceed_cases proceeded).2.2.2.2
    | _ => exact calm.messages
  · cases step_move taken with
    | pushPacket => exact (Consumer.push_queue_running _).trans calm.send
    | popSend popped => exact (Consumer.pop_running popped).trans calm.send
    | checkSend checked => exact (Consumer.checkPointer_running checked).trans calm.send
    | proceedIOHandler _ _ second => exact Consumer.proceed_running calm.ioHandler calm.send second
    | _ => exact calm.send

theorem sendsAll_of_undisturbed {event : SystemEvent} (sound : system.Sound)
    (calm : system.CalmSending) (undisturbed : system.undisturbedSending event = true)
    (taken : system.step event = some after) : system.sendsAll event = true := by
  simp only [undisturbedSending, Bool.and_eq_true] at undisturbed
  cases step_move taken with
  | pushPacket => simpa [sendsAll, Consumer.accepts, calm.send] using undisturbed.2
  | checkSend checked =>
      obtain ⟨passed, moved, _⟩ := Option.map_eq_some_iff.mp checked
      obtain ⟨thread, moved, _⟩ := Option.map_eq_some_iff.mp moved
      exact Consumer.running_of_live sound.program.send calm.ioHandler
        (ConsumerThread.live_of_check moved)
  | sendtoFails => simp [SystemEvent.isSendtoFails] at undisturbed
  | _ => rfl

theorem postsAll_of_undisturbed {event : SystemEvent} (sound : system.Sound)
    (calm : system.CalmSending) (undisturbed : system.undisturbedSending event = true)
    (taken : system.step event = some after) : system.postsAll event = true := by
  simp only [undisturbedSending, Bool.and_eq_true] at undisturbed
  cases step_move taken with
  | nodeStep => simpa [postsAll, Monitor.postsAll, calm.messages] using undisturbed.1.2
  | checkMessage stepped =>
      cases Monitor.step_move stepped with
      | checkRunning checked =>
          exact Consumer.running_of_live sound.monitor.agrees calm.nodeManagament
            (ConsumerThread.live_of_check checked)
  | _ => rfl

/-- Over every run, with stops, restarts and overflow: the PING datagrams go out in the order in
which the node threads asked for them, none of them twice and none unasked.  Undisturbed, those
sent and those on their way are all that were asked for. -/
theorem pings_in_order {events : List SystemEvent} {final : System}
    (replay : runFrom step initial events = some final) :
    (pingTargets final.sent).Sublist (labelsFrom step asksPing initial events) ∧
      (checkFrom step undisturbedSending initial events = true →
        final.pings = labelsFrom step asksPing initial events) := by
  constructor
  · have ordered := (labelsFrom_invariant asksPing (fun _ _ => true)
      (fun log system => system.Sound ∧ system.pings.Sublist log)
      (fun log before event after known _ taken => ⟨step_sound known.1 taken,
        (step_pings known.1 taken).1.trans (known.2.append_right _)⟩)
      ⟨initial_sound, List.Sublist.refl _⟩ (checkFrom_of_always (fun _ _ => rfl) _) replay).2
    refine List.Sublist.trans ?_ ordered
    simp [pings, outgoing, pingTargets_append]
  · intro undisturbed
    refine (labelsFrom_invariant asksPing undisturbedSending
      (fun log system => system.Sound ∧ system.CalmSending ∧ system.pings = log) ?_
      ⟨initial_sound, initial_calmSending, rfl⟩ undisturbed replay).2.2
    intro log before event after ⟨sound, calm, complete⟩ allowed taken
    have noStop : event.isStop = false := by
      simp only [undisturbedSending, Bool.and_eq_true, Bool.not_eq_true'] at allowed
      exact allowed.1.1.1
    refine ⟨step_sound sound taken, step_calmSending calm noStop taken, ?_⟩
    rw [(step_pings sound taken).2 (sendsAll_of_undisturbed sound calm allowed taken)
      (postsAll_of_undisturbed sound calm allowed taken), complete]

end System

def pingSentEvents : List SystemEvent :=
  startNodeManagamentEvents ++ startIOHandlerEvents ++ receiveEvents ++
    [.popReceived, .checkReceived, .handleReceived] ++ List.replicate 4 (.nodeStep 0 [] false) ++
    [.popMessage, .checkMessage, .handleMessage, .pushPacket, .popSend, .checkSend, .transmit]

theorem pings_in_order_one_node :
    ∃ final : System, runFrom System.step .initial pingSentEvents = some final ∧
      pingTargets final.sent = [⟨0x0100007f, 0x204e⟩] ∧
      (pingTargets final.sent).Sublist
        (labelsFrom System.step System.asksPing .initial pingSentEvents) ∧
      final.pings = labelsFrom System.step System.asksPing .initial pingSentEvents := by
  have ends : (runFrom System.step .initial pingSentEvents).any
      (fun system => decide (pingTargets system.sent = [⟨0x0100007f, 0x204e⟩])) = true := by
    decide +kernel
  obtain ⟨final, replay, sent⟩ := (Option.any_eq_true _ _).mp ends
  have ordered := System.pings_in_order replay
  exact ⟨final, replay, by simpa using sent, ordered.1, ordered.2 (by decide +kernel)⟩

end NodeManagement
