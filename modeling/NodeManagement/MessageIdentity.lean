import NodeManagement.DeadDelivery

/-!
Whose identity a message in `g_messageNodeQueue` carries.  `sendPing` takes the NodeID from the
static counter, so a ping names the node registered last at that moment, whoever pushes it.
-/

namespace NodeManagement

open KeyedList Transition

/-- The monitoring system with two ghosts: a log of the registrations that created a node, its
serial number and the packet, and for each node whether `m_nodeID` was its own NodeID when its
last `sendPing` read it. -/
structure LoggedMonitor where
  monitor : Monitor
  created : List (Nat × RigisterPacket)
  readOwn : Nat → Bool

def LoggedMonitor.initial : LoggedMonitor := ⟨.initial, [], fun _ => false⟩

def MonitorEvent.creates (before after : Registry) : MonitorEvent → List (Nat × RigisterPacket)
  | .register packet => if after.made = before.made then [] else [(after.made, packet)]
  | _ => []

namespace LoggedMonitor

def readOwnAfter (logged : LoggedMonitor) : MonitorEvent → Nat → Bool
  | .nodeStep index _ _ =>
      match logged.monitor.registry.vecNodeBase[index]? with
      | some node =>
          match node.pc with
          | .sendPing _ => Function.update logged.readOwn node.serial
              (logged.monitor.registry.nodeID == node.getObjectNodeID)
          | _ => logged.readOwn
      | none => logged.readOwn
  | _ => logged.readOwn

def step (logged : LoggedMonitor) (event : MonitorEvent) : Option LoggedMonitor :=
  (logged.monitor.step event).map fun after =>
    { monitor := after
      created := logged.created ++ event.creates logged.monitor.registry after.registry
      readOwn := logged.readOwnAfter event }

/-- The message was pushed by the node that this registration created, and carries its identity:
`sender` is the serial number of the node whose thread pushed the message, and gives its object
NodeID. -/
def Identifies (created : List (Nat × RigisterPacket)) (posted : PostedMessage) : Prop :=
  posted.message.nodeID = int32 posted.sender ∧ ∃ packet, (posted.sender, packet) ∈ created ∧
    posted.message.typeNode = packet.typeNode ∧ posted.message.clientAddr = packet.clientAddr

def AllIdentified (logged : LoggedMonitor) : Prop :=
  ∀ posted ∈ logged.monitor.messageNodeQueue.queue, Identifies logged.created posted

/-- A ping that gets into the queue was built while its node was the one registered last. -/
def pingsAsLast (logged : LoggedMonitor) : MonitorEvent → Bool
  | .nodeStep index _ _ =>
      match logged.monitor.registry.vecNodeBase[index]? with
      | some node =>
          match node.pc with
          | .pushPing _ _ =>
              !logged.monitor.messageNodeQueue.running || logged.readOwn node.serial
          | _ => true
      | none => true
  | _ => true

structure Logged (logged : LoggedMonitor) : Prop where
  inner : logged.monitor.Invariant
  entries : ∀ node ∈ logged.monitor.registry.vecNodeBase, ∃ packet,
    (node.serial, packet) ∈ logged.created ∧ node.type = packet.typeNode ∧
      node.clientAddr = packet.clientAddr
  distinct : (logged.created.map Prod.fst).Nodup
  counted : ∀ entry ∈ logged.created, entry.1 ≤ logged.monitor.registry.made
  reads : ∀ node ∈ logged.monitor.registry.vecNodeBase, ∀ site readID,
    node.pc = .pushPing site readID →
      logged.readOwn node.serial = (readID == node.getObjectNodeID)

variable {logged after : LoggedMonitor}

theorem initial_logged : initial.Logged :=
  ⟨Monitor.initial_invariant, by simp [initial, Monitor.initial, Registry.empty],
    by simp [initial], by simp [initial], by simp [initial, Monitor.initial, Registry.empty]⟩

theorem step_cases {event : MonitorEvent} (taken : logged.step event = some after) :
    ∃ monitor, logged.monitor.step event = some monitor ∧
      after = ⟨monitor, logged.created ++ event.creates logged.monitor.registry
        monitor.registry, logged.readOwnAfter event⟩ := by
  obtain ⟨monitor, moved, same⟩ := Option.map_eq_some_iff.mp taken
  exact ⟨monitor, moved, same.symm⟩

end LoggedMonitor

namespace NodeBase

def pushedNodeID (node : NodeBase) : Int :=
  match node.pc with
  | .pushPing _ readID => readID
  | _ => node.getObjectNodeID

theorem threadStep_messageNodeID {node after : NodeBase} {nodeID : Int} {now : Bytes}
    {timedOut : Bool} {message : StrMessageState}
    (step : node.threadStep nodeID now timedOut = some (after, some message)) :
    message.nodeID = node.pushedNodeID := by
  cases threadStep_move step with
  | pushPing _ _ position | notifyTimeout position | notifyDead position =>
      simp [pushedNodeID, position, pingMessage, timeoutMessage, deadMessage,
        StrMessageState.saveTime]

theorem threadStep_pushPing {node after : NodeBase} {nodeID readID : Int} {now : Bytes}
    {timedOut : Bool} {pushed : Option StrMessageState} {site : PingSite}
    (step : node.threadStep nodeID now timedOut = some (after, pushed))
    (next : after.pc = .pushPing site readID) : node.pc = .sendPing site ∧ readID = nodeID := by
  cases threadStep_move step with
  | sendPing _ position =>
      simp only [goto_pc, NodePc.pushPing.injEq] at next
      exact ⟨next.1 ▸ position, next.2.symm⟩
  | loopHead =>
      unfold handleThread at next
      split at next
      · simp at next
      · split at next <;> simp_all
  | waitPong site woken =>
      cases site with
      | init => simp only [afterWait, initAfterWait] at next; split_ifs at next <;> simp at next
      | alive => simp only [afterWait, aliveAfterWait] at next; split_ifs at next <;> simp at next
      | retry =>
          simp only [afterWait, retryAfterWait, retryLoop] at next
          split_ifs at next <;> simp at next
  | retriesOver retryTime =>
      unfold afterRetries at next
      split at next <;> simp at next
  | notifyTimeout =>
      unfold retryLoop at next
      split at next <;> simp at next
  | resetPong | pushPing | sleepPing | notifyDead | deadToInit | deadStop => simp at next

end NodeBase

namespace Monitor

variable {monitor after : Monitor}

theorem step_made {event : MonitorEvent} (other : ∀ packet, event ≠ .register packet)
    (taken : monitor.step event = some after) :
    after.registry.made = monitor.registry.made := by
  cases step_move taken with
  | register packet => exact absurd rfl (other packet)
  | pong packet => simp [Registry.checkPongMessage_eq]
  | handleMessage =>
      simp only [Registry.handleMessage_registry]
      split <;> rfl
  | proceed proceeded => rw [(proceed_cases proceeded).2.2.2.1]
  | nodeStep stepped =>
      obtain ⟨node, moved, pushed, _, _, rfl⟩ := nodeStep_cases stepped
      rfl
  | waitAndPop | checkRunning | startAgain | start | stopAgain | stop => rfl

theorem step_places {event : MonitorEvent}
    (other : ∀ index now timedOut, event ≠ .nodeStep index now timedOut)
    (taken : monitor.step event = some after) :
    ∀ entry ∈ after.registry.vecNodeBase, entry.pc = .loopHead ∨
      ∃ node ∈ monitor.registry.vecNodeBase, node.SameIdentity entry ∧ entry.pc = node.pc := by
  have same (unchanged : after.registry = monitor.registry) :
      ∀ entry ∈ after.registry.vecNodeBase, entry.pc = .loopHead ∨
        ∃ node ∈ monitor.registry.vecNodeBase, node.SameIdentity entry ∧ entry.pc = node.pc := by
    rw [unchanged]
    exact fun entry member => .inr ⟨entry, member, .refl entry, rfl⟩
  cases step_move taken with
  | nodeStep => exact absurd rfl (other _ _ _)
  | register packet =>
      simp only [Registry.checkRegisterMessage_eq]
      intro entry member
      split at member
      · rcases List.mem_append.mp member with old | new
        · exact .inr ⟨entry, old, .refl entry, rfl⟩
        · exact .inl (List.mem_singleton.mp new ▸ rfl)
      · exact .inr ⟨entry, member, .refl entry, rfl⟩
  | pong packet =>
      intro entry member
      obtain ⟨node, old, identity, _, _, position⟩ := Registry.mem_checkPongMessage member
      exact .inr ⟨node, old, identity, position⟩
  | handleMessage =>
      intro entry member
      simp only [Registry.handleMessage_registry] at member
      split at member
      · exact .inr ⟨entry, eraseFirst_sublist.subset member, .refl entry, rfl⟩
      · exact .inr ⟨entry, member, .refl entry, rfl⟩
  | proceed proceeded => exact same (proceed_cases proceeded).2.2.2.1
  | waitAndPop | checkRunning | startAgain | start | stopAgain | stop => exact same rfl

theorem step_queue {event : MonitorEvent}
    (other : ∀ index now timedOut, event ≠ .nodeStep index now timedOut)
    (taken : monitor.step event = some after) :
    after.messageNodeQueue.queue.Sublist monitor.messageNodeQueue.queue := by
  cases step_move taken with
  | nodeStep => exact absurd rfl (other _ _ _)
  | waitAndPop popped =>
      obtain ⟨_, ⟨_, _, rfl⟩ | ⟨_, front, others, contents, _, rfl⟩⟩ :=
        ConsumerThread.pop_cases popped
      · exact List.Sublist.refl _
      · rw [contents]
        exact List.sublist_cons_self front others
  | proceed proceeded =>
      have queue := (Consumer.proceed_cases (proceed_cases proceeded).2.2.2.2).2.1
      simp only [consumer] at queue
      rw [queue]
  | register | pong | checkRunning | handleMessage | startAgain | start | stopAgain | stop =>
      exact List.Sublist.refl _

end Monitor

namespace LoggedMonitor

variable {logged after : LoggedMonitor}

theorem creates_of_other {event : MonitorEvent} (other : ∀ packet, event ≠ .register packet)
    (before after : Registry) : event.creates before after = [] := by
  cases event with
  | register packet => exact absurd rfl (other packet)
  | _ => rfl

theorem readOwnAfter_of_ne (now : Bytes) (timedOut : Bool) {index serial : Nat} {node : NodeBase}
    (found : logged.monitor.registry.vecNodeBase[index]? = some node)
    (differs : serial ≠ node.serial) :
    logged.readOwnAfter (.nodeStep index now timedOut) serial = logged.readOwn serial := by
  simp only [readOwnAfter, found]
  cases node.pc with
  | sendPing site => exact Function.update_of_ne differs _ _
  | _ => rfl

theorem step_reads {event : MonitorEvent} (known : logged.Logged)
    (taken : logged.step event = some after) :
    ∀ entry ∈ after.monitor.registry.vecNodeBase, ∀ site readID,
      entry.pc = .pushPing site readID →
        after.readOwn entry.serial = (readID == entry.getObjectNodeID) := by
  obtain ⟨monitor, moved, rfl⟩ := step_cases taken
  intro entry member site readID position
  by_cases steps : ∃ index now timedOut, event = .nodeStep index now timedOut
  · obtain ⟨index, now, timedOut, rfl⟩ := steps
    have inner := Monitor.step_invariant known.inner moved
    obtain ⟨node, stepped, pushed, found, step, rfl⟩ := Monitor.nodeStep_cases moved
    have same := NodeBase.threadStep_identity step
    have inside := (List.getElem?_eq_some_iff.mp found).1
    by_cases own : entry.serial = node.serial
    · obtain rfl : entry = stepped := inner.formed.eq_of_serial member
        (List.mem_set inside stepped) (own.trans same.2.1.symm)
      obtain ⟨before, rfl⟩ := NodeBase.threadStep_pushPing step position
      simp [readOwnAfter, found, before, own, NodeBase.getObjectNodeID]
    · refine (readOwnAfter_of_ne now timedOut found own).trans ?_
      rcases List.mem_or_eq_of_mem_set member with old | rfl
      · exact known.reads entry old site readID position
      · exact absurd same.2.1 own
  · have other : ∀ index now timedOut, event ≠ .nodeStep index now timedOut :=
      fun index now timedOut same => steps ⟨index, now, timedOut, same⟩
    have unread : logged.readOwnAfter event = logged.readOwn := by
      cases event with
      | nodeStep index now timedOut => exact absurd rfl (other index now timedOut)
      | _ => rfl
    rcases Monitor.step_places other moved entry member with head | ⟨node, old, same, place⟩
    · simp [head] at position
    · have read := known.reads node old site readID (place ▸ position)
      simpa only [unread, same.2.1, NodeBase.getObjectNodeID] using read

theorem register_logged (known : logged.Logged) (packet : RigisterPacket)
    (taken : logged.step (.register packet) = some after) : after.Logged := by
  have reads := step_reads known taken
  obtain ⟨monitor, moved, rfl⟩ := step_cases taken
  have inner := Monitor.step_invariant known.inner moved
  obtain rfl := Option.some.inj moved
  by_cases added : packet.typeNode.isMonitored && !hasKey NodeBase.getPortInfo
      packet.clientAddr.sinPort logged.monitor.registry.vecNodeBase
  · have grown : logged.monitor.registry.checkRegisterMessage packet =
        { vecNodeBase := logged.monitor.registry.vecNodeBase ++
            [packet.newNode (logged.monitor.registry.made + 1)]
          made := logged.monitor.registry.made + 1 } := by
      rw [Registry.checkRegisterMessage_eq, if_pos added]
    simp only [grown, MonitorEvent.creates] at inner reads ⊢
    rw [if_neg (by omega)]
    refine ⟨inner, ?_, ?_, ?_, reads⟩
    · intro node member
      rcases List.mem_append.mp member with old | new
      · obtain ⟨origin, made, same⟩ := known.entries node old
        exact ⟨origin, List.mem_append_left _ made, same⟩
      · obtain rfl := List.mem_singleton.mp new
        exact ⟨packet, List.mem_append_right _ (List.mem_singleton.mpr rfl), rfl, rfl⟩
    · rw [List.map_append]
      refine List.nodup_append.mpr ⟨known.distinct, by simp, ?_⟩
      intro id old other new same
      obtain ⟨entry, made, rfl⟩ := List.mem_map.mp old
      have bound := known.counted entry made
      simp only [List.map_cons, List.map_nil, List.mem_singleton] at new
      omega
    · intro entry member
      rcases List.mem_append.mp member with old | new
      · have bound := known.counted entry old
        simp only
        omega
      · obtain rfl := List.mem_singleton.mp new
        exact le_refl _
  · have same : logged.monitor.registry.checkRegisterMessage packet =
        logged.monitor.registry := by
      rw [Registry.checkRegisterMessage_eq, if_neg added]
    simp only [same, MonitorEvent.creates, if_true, List.append_nil] at inner ⊢
    exact ⟨inner, known.entries, known.distinct, known.counted, known.reads⟩

theorem step_logged {event : MonitorEvent} (known : logged.Logged)
    (taken : logged.step event = some after) : after.Logged := by
  by_cases registers : ∃ packet, event = .register packet
  · obtain ⟨packet, rfl⟩ := registers
    exact register_logged known packet taken
  · have other : ∀ packet, event ≠ .register packet := fun packet same => registers ⟨packet, same⟩
    have reads := step_reads known taken
    obtain ⟨monitor, moved, rfl⟩ := step_cases taken
    have inner := Monitor.step_invariant known.inner moved
    have counter := Monitor.step_made other moved
    rw [creates_of_other other, List.append_nil]
    refine ⟨inner, ?_, known.distinct, fun entry made => ?_, reads⟩
    · intro entry member
      rcases (Monitor.step_origin known.inner moved).2 entry member with ⟨new, _⟩ | origin
      · have bound := inner.formed.counted entry member
        omega
      · obtain ⟨node, old, ⟨type, id, address⟩, _⟩ := origin
        obtain ⟨packet, made, sameType, sameAddress⟩ := known.entries node old
        exact ⟨packet, id ▸ made, type.trans sameType, address.trans sameAddress⟩
    · have bound := known.counted entry made
      simp only
      omega

theorem Identifies.mono {created : List (Nat × RigisterPacket)} {posted : PostedMessage}
    (identified : Identifies created posted) (more : List (Nat × RigisterPacket)) :
    Identifies (created ++ more) posted := by
  obtain ⟨id, packet, made, same⟩ := identified
  exact ⟨id, packet, List.mem_append_left _ made, same⟩

theorem identifies_pushed_iff (known : logged.Logged) {node moved : NodeBase} {now : Bytes}
    {timedOut : Bool} {message : StrMessageState}
    (member : node ∈ logged.monitor.registry.vecNodeBase)
    (step : node.threadStep logged.monitor.registry.nodeID now timedOut =
      some (moved, some message)) :
    Identifies logged.created ⟨message, node.serial⟩ ↔
      node.pushedNodeID = node.getObjectNodeID := by
  have order := (NodeBase.threadStep_spec (known.inner.formed.coherent node member) step).2
  obtain ⟨packet, made, type, address⟩ := known.entries node member
  rw [← NodeBase.threadStep_messageNodeID step]
  constructor
  · exact fun identified => identified.1
  · exact fun same => ⟨same, packet, made, order.2.1.trans type, order.1.trans address⟩

theorem nodeStep_identified_iff (known : logged.Logged) (identified : logged.AllIdentified)
    {index : Nat} {now : Bytes} {timedOut : Bool}
    (taken : logged.step (.nodeStep index now timedOut) = some after) :
    after.AllIdentified ↔ logged.pingsAsLast (.nodeStep index now timedOut) = true := by
  obtain ⟨monitor, moved, rfl⟩ := step_cases taken
  obtain ⟨node, stepped, pushed, found, step, rfl⟩ := Monitor.nodeStep_cases moved
  have member := List.mem_of_getElem? found
  have counts : logged.pingsAsLast (.nodeStep index now timedOut) = true ↔
      (logged.monitor.messageNodeQueue.running = true →
        node.pushedNodeID = node.getObjectNodeID) := by
    simp only [pingsAsLast, found, NodeBase.pushedNodeID]
    cases position : node.pc with
    | pushPing site readID =>
        cases running : logged.monitor.messageNodeQueue.running <;>
          simp [known.reads node member site readID position]
    | _ => simp
  rw [counts]
  simp only [MonitorEvent.creates, List.append_nil]
  cases pushed with
  | none =>
      have silent : ∀ site readID, node.pc ≠ .pushPing site readID := by
        intro site readID position
        simp [NodeBase.threadStep, position] at step
      refine iff_of_true identified fun _ => ?_
      unfold NodeBase.pushedNodeID
      split
      next site readID position => exact absurd position (silent site readID)
      next => rfl
  | some message =>
      have names := identifies_pushed_iff known member step
      cases running : logged.monitor.messageNodeQueue.running with
      | false =>
          refine iff_of_true ?_ (by simp)
          simpa only [AllIdentified, ThreadSafeQueue.push_of_stopped running] using identified
      | true =>
          have queue := ThreadSafeQueue.push_force_queue running
            (⟨message, node.serial⟩ : PostedMessage)
          simp only [AllIdentified, queue, forall_const]
          rw [← names]
          constructor
          · intro all
            exact all _ (List.mem_append_right _ (List.mem_singleton.mpr rfl))
          · intro last posted waiting
            rcases List.mem_append.mp waiting with old | new
            · refine identified posted ?_
              split at old
              · exact List.mem_of_mem_tail old
              · exact old
            · exact List.mem_singleton.mp new ▸ last

theorem step_identified_iff {event : MonitorEvent} (known : logged.Logged)
    (identified : logged.AllIdentified) (taken : logged.step event = some after) :
    after.AllIdentified ↔ logged.pingsAsLast event = true := by
  by_cases steps : ∃ index now timedOut, event = .nodeStep index now timedOut
  · obtain ⟨index, now, timedOut, rfl⟩ := steps
    exact nodeStep_identified_iff known identified taken
  · have other : ∀ index now timedOut, event ≠ .nodeStep index now timedOut :=
      fun index now timedOut same => steps ⟨index, now, timedOut, same⟩
    obtain ⟨monitor, moved, rfl⟩ := step_cases taken
    refine iff_of_true ?_ ?_
    · intro posted waiting
      exact (identified posted ((Monitor.step_queue other moved).subset waiting)).mono _
    · cases event with
      | nodeStep index now timedOut => exact absurd rfl (other index now timedOut)
      | _ => rfl

/-- All messages in the queue identify their senders throughout a run exactly when every ping that
gets into the queue was built while its node was the one registered last. -/
theorem messages_identified_iff {events : List MonitorEvent} {final : LoggedMonitor}
    (replay : runFrom step .initial events = some final) :
    (∀ first second middle, events = first ++ second →
        runFrom step .initial first = some middle → middle.AllIdentified) ↔
      checkFrom step pingsAsLast .initial events = true :=
  always_iff_checkFrom Logged AllIdentified (fun _ _ _ known taken => step_logged known taken)
    (fun _ _ _ known identified taken => step_identified_iff known identified taken)
    initial_logged (by simp [AllIdentified, initial, Monitor.initial]) replay

end LoggedMonitor

def twoNodesInTurn : List MonitorEvent :=
  startEvents ++ [.register localRegister] ++ List.replicate 4 (.nodeStep 0 [] false) ++
    [.register otherRegister] ++ List.replicate 4 (.nodeStep 1 [] false) ++
    List.replicate 3 (.nodeStep 0 [] true)

theorem messages_identified_twoNodesInTurn :
    ∃ final : LoggedMonitor,
      runFrom LoggedMonitor.step .initial twoNodesInTurn = some final ∧
      final.monitor.messageNodeQueue.queue.map PostedMessage.sender = [1, 2, 1] ∧
      final.AllIdentified := by
  have ended : (runFrom LoggedMonitor.step .initial twoNodesInTurn).any (fun final =>
      final.monitor.messageNodeQueue.queue.map PostedMessage.sender == [1, 2, 1]) = true := by
    decide +kernel
  obtain ⟨final, replay, waiting⟩ := (Option.any_eq_true _ _).mp ended
  refine ⟨final, replay, by simpa using waiting, ?_⟩
  exact (LoggedMonitor.messages_identified_iff replay).mpr (by decide +kernel) twoNodesInTurn []
    final (List.append_nil _).symm replay

def pingOfFirstOfTwo : List MonitorEvent :=
  startEvents ++ [.register localRegister, .register otherRegister] ++
    List.replicate 4 (.nodeStep 0 [] false)

theorem ping_names_last_node :
    ∃ final : LoggedMonitor, runFrom LoggedMonitor.step .initial pingOfFirstOfTwo = some final ∧
      ¬final.AllIdentified := by
  have ended : (runFrom LoggedMonitor.step .initial pingOfFirstOfTwo).any
      (fun final => final.monitor.messageNodeQueue.queue.any
        fun posted => posted.message.nodeID != int32 posted.sender) = true := by decide +kernel
  obtain ⟨final, replay, wrong⟩ := (Option.any_eq_true _ _).mp ended
  refine ⟨final, replay, fun identified => ?_⟩
  obtain ⟨posted, waiting, differs⟩ := List.any_eq_true.mp wrong
  simp [(identified posted waiting).1] at differs

end NodeManagement
