import NodeManagement.Consumer
import NodeManagement.RegistryInvariant

/-!
The invariant of the monitoring system over every run, with stops, restarts and overflow:
the registry is well formed and the pending messages are those of its entries.
-/

namespace NodeManagement

namespace Monitor

structure Invariant (monitor : Monitor) : Prop where
  handshake : Handshake .second .second monitor.phase monitor.running
    monitor.messageNodeQueue.running monitor.nodeHandleThread
  formed : monitor.registry.WellFormed
  sent : MessagesFrom monitor.registry.vecNodeBase monitor.pending

theorem initial_invariant : initial.Invariant :=
  ⟨.absent _, .empty, ⟨by simp [pending, initial, ConsumerThread.held, ConsumerThread.absent],
    by simp [pending, initial, ConsumerThread.held, ConsumerThread.absent],
    by simp [pending, initial, ConsumerThread.held, ConsumerThread.absent]⟩⟩

variable {monitor after : Monitor}

theorem nodeStep_cases {index : Nat} {now : Bytes} {timedOut : Bool}
    (taken : monitor.nodeStep index now timedOut = some after) :
    ∃ node moved pushed, monitor.registry.vecNodeBase[index]? = some node ∧
      node.threadStep monitor.registry.nodeID now timedOut = some (moved, pushed) ∧
      after = { monitor with
        registry := { monitor.registry with
          vecNodeBase := monitor.registry.vecNodeBase.set index moved }
        messageNodeQueue :=
          match pushed with
          | some message => monitor.messageNodeQueue.push ⟨message, node.serial⟩ true
          | none => monitor.messageNodeQueue } := by
  unfold nodeStep at taken
  split at taken
  next => simp at taken
  next node found =>
    obtain ⟨⟨moved, pushed⟩, step, same⟩ := Option.map_eq_some_iff.mp taken
    exact ⟨node, moved, pushed, found, step, same.symm⟩

theorem push_pending (held : List PostedMessage) (q : ThreadSafeQueue PostedMessage)
    (posted : PostedMessage) :
    ∃ kept : List PostedMessage, kept.Sublist (held ++ q.queue) ∧
      (held ++ (q.push posted true).queue = kept ∨
        held ++ (q.push posted true).queue = kept ++ [posted]) := by
  cases running : q.running with
  | false =>
      exact ⟨held ++ q.queue, List.Sublist.refl _, .inl (by
        rw [ThreadSafeQueue.push_of_stopped running])⟩
  | true =>
      rw [ThreadSafeQueue.push_force_queue running]
      split
      · exact ⟨held ++ q.queue.tail, (List.tail_sublist _).append_left _, .inr (by simp)⟩
      · exact ⟨held ++ q.queue, List.Sublist.refl _, .inr (by simp)⟩

theorem nodeStep_invariant (inv : monitor.Invariant) {index : Nat} {now : Bytes}
    {timedOut : Bool} (taken : monitor.nodeStep index now timedOut = some after) :
    after.Invariant := by
  obtain ⟨node, moved, pushed, found, step, rfl⟩ := nodeStep_cases taken
  have member := List.mem_of_getElem? found
  have same := NodeBase.threadStep_identity step
  have order := NodeBase.threadStep_spec (inv.formed.coherent node member) step
  refine ⟨?_, inv.formed.set found same order.1, ?_⟩
  · cases pushed with
    | none => exact inv.handshake
    | some message => simpa using inv.handshake
  · cases pushed with
    | none => exact inv.sent.set found same fun was => order.2.trans was
    | some message =>
        obtain ⟨address, _, first, last⟩ := order.2
        have moves := inv.sent.set found same fun was => absurd was (by simp [first])
        have placed : moved ∈ monitor.registry.vecNodeBase.set index moved := by
          obtain ⟨inside, _⟩ := List.getElem?_eq_some_iff.mp found
          exact List.mem_set inside moved
        obtain ⟨kept, fewer, pending⟩ := push_pending monitor.nodeHandleThread.held
          monitor.messageNodeQueue ⟨message, node.serial⟩
        have rest := moves.sublist fewer
        unfold Monitor.pending
        rcases pending with pending | pending <;> rw [pending]
        · exact rest
        · apply rest.append
          · exact ⟨moved, placed, same.2.1, same.2.2.trans address.symm⟩
          · intro earlier inKept sender
            by_contra dead
            have past := inv.sent.deadPushed earlier (fewer.subset inKept) (by simpa using dead)
              node member sender.symm
            simp [first] at past
          · intro dead other inside sender
            have unique := (inv.formed.set found same order.1).eq_of_serial inside placed
              (sender.trans same.2.1.symm)
            rw [unique, last]
            exact dead

/-- What a step of the monitoring system does, for each way its event can go. -/
inductive StepMove (monitor : Monitor) : MonitorEvent → Monitor → Prop
  | nodeStep {index : Nat} {now : Bytes} {timedOut : Bool} {after : Monitor}
      (stepped : monitor.nodeStep index now timedOut = some after) :
      StepMove monitor (.nodeStep index now timedOut) after
  | register (packet : RigisterPacket) :
      StepMove monitor (.register packet) { monitor with
        registry := monitor.registry.checkRegisterMessage packet }
  | pong (packet : Packet) (free : monitor.registry.pongBlocked packet = false) :
      StepMove monitor (.pong packet) { monitor with
        registry := monitor.registry.checkPongMessage packet }
  | waitAndPop {thread : ConsumerThread PostedMessage} {rest : ThreadSafeQueue PostedMessage}
      (popped : monitor.nodeHandleThread.pop monitor.messageNodeQueue = some (thread, rest)) :
      StepMove monitor .waitAndPop { monitor with
        nodeHandleThread := thread, messageNodeQueue := rest }
  | checkRunning {thread : ConsumerThread PostedMessage}
      (checked : monitor.nodeHandleThread.check monitor.running = some thread) :
      StepMove monitor .checkRunning { monitor with nodeHandleThread := thread }
  | handleMessage (working : monitor.nodeHandleThread.pc = .working) :
      StepMove monitor .handleMessage { monitor with
        registry := (monitor.registry.handleMessage monitor.nodeHandleThread.item.message).1
        nodeHandleThread := monitor.nodeHandleThread.finish monitor.nodeHandleThread.item }
  | startAgain (idle : monitor.phase = .idle) (running : monitor.running = true) :
      StepMove monitor .start monitor
  | start (idle : monitor.phase = .idle) (stopped : monitor.running = false) :
      StepMove monitor .start { monitor with running := true, phase := .startFirstQueue }
  | stopAgain (idle : monitor.phase = .idle) (stopped : monitor.running = false) :
      StepMove monitor .stop monitor
  | stop (idle : monitor.phase = .idle) (running : monitor.running = true) :
      StepMove monitor .stop { monitor with running := false, phase := .stopFirstQueue }
  | proceed {after : Monitor} (proceeded : monitor.proceed = some after) :
      StepMove monitor .proceed after

theorem step_move {event : MonitorEvent} (taken : monitor.step event = some after) :
    monitor.StepMove event after := by
  cases event with
  | nodeStep index now timedOut => exact .nodeStep taken
  | register packet =>
      obtain rfl := Option.some.inj taken
      exact .register packet
  | pong packet =>
      simp only [step, Option.ite_none_left_eq_some, Option.some.injEq, Bool.not_eq_true] at taken
      obtain ⟨free, rfl⟩ := taken
      exact .pong packet free
  | waitAndPop =>
      obtain ⟨⟨thread, rest⟩, popped, rfl⟩ := Option.map_eq_some_iff.mp taken
      exact .waitAndPop popped
  | checkRunning =>
      obtain ⟨thread, checked, rfl⟩ := Option.map_eq_some_iff.mp taken
      exact .checkRunning checked
  | handleMessage =>
      simp only [step, Option.ite_none_right_eq_some, Option.some.injEq] at taken
      obtain ⟨working, rfl⟩ := taken
      exact .handleMessage working
  | start =>
      simp only [step, Option.ite_none_right_eq_some] at taken
      obtain ⟨idle, moved⟩ := taken
      cases running : monitor.running with
      | true =>
          obtain rfl : monitor = after := by simpa [running] using moved
          exact .startAgain idle running
      | false =>
          obtain rfl : _ = after := by simpa [running] using moved
          exact .start idle running
  | stop =>
      simp only [step, Option.ite_none_right_eq_some] at taken
      obtain ⟨idle, moved⟩ := taken
      cases running : monitor.running with
      | true =>
          obtain rfl : _ = after := by simpa [running] using moved
          exact .stop idle running
      | false =>
          obtain rfl : monitor = after := by simpa [running] using moved
          exact .stopAgain idle running
  | proceed => exact .proceed taken

/-- `NodeManagament` starts and stops `g_messageNodeQueue` second, and `m_nodeHandleThread` is
the second of its threads. -/
def messageRole : Role := ⟨.second, .second, .second⟩

def consumer (monitor : Monitor) : Consumer PostedMessage :=
  ⟨monitor.messageNodeQueue, monitor.nodeHandleThread⟩

theorem Invariant.agrees (inv : monitor.Invariant) :
    monitor.consumer.Agrees messageRole monitor.phase monitor.running := inv.handshake

theorem Invariant.pending_of_working (inv : monitor.Invariant)
    (working : monitor.nodeHandleThread.pc = .working) :
    monitor.pending = monitor.nodeHandleThread.item :: monitor.messageNodeQueue.queue :=
  Consumer.items_of_working inv.agrees working

theorem Invariant.item_mem_pending (inv : monitor.Invariant)
    (working : monitor.nodeHandleThread.pc = .working) :
    monitor.nodeHandleThread.item ∈ monitor.pending :=
  inv.pending_of_working working ▸ List.mem_cons_self

theorem proceed_cases (taken : monitor.proceed = some after) :
    monitor.phase ≠ .idle ∧ after.phase = monitor.phase.next ∧
      after.running = monitor.running ∧ after.registry = monitor.registry ∧
      monitor.consumer.proceed messageRole monitor.phase .initial = some after.consumer := by
  unfold proceed at taken
  split at taken
  next => simp at taken
  next phase =>
    simp only [Option.some.injEq] at taken
    subst taken
    simp [phase, consumer, Consumer.proceed, messageRole, Turn.joinsIn, Turn.startsQueueIn,
      Turn.spawnsIn]
  next phase =>
    simp only [Option.some.injEq] at taken
    subst taken
    simp [phase, consumer, Consumer.proceed, messageRole, Turn.joinsIn, Turn.startsQueueIn,
      Turn.stopsQueueIn, Turn.spawnsIn]
  next phase =>
    simp only [Option.some.injEq] at taken
    subst taken
    simp [phase, consumer, Consumer.proceed, messageRole, Turn.joinsIn, Turn.startsQueueIn,
      Turn.stopsQueueIn, Turn.spawnsIn]
  next phase =>
    simp only [Option.ite_none_left_eq_some, Option.some.injEq] at taken
    obtain ⟨ended, rfl⟩ := taken
    simp [phase, ended, consumer, Consumer.proceed, messageRole, Turn.joinsIn,
      Turn.startsQueueIn, Turn.stopsQueueIn, Turn.spawnsIn]
  next busy starts spawn stops join =>
    simp only [Option.some.injEq] at taken
    subst taken
    refine ⟨busy, rfl, rfl, rfl, ?_⟩
    cases phase : monitor.phase <;>
      simp_all [consumer, Consumer.proceed, messageRole, Turn.joinsIn, Turn.startsQueueIn,
        Turn.stopsQueueIn, Turn.spawnsIn]

theorem proceed_pending (inv : monitor.Invariant) (taken : monitor.proceed = some after) :
    after.pending = monitor.pending :=
  Consumer.proceed_items inv.agrees (proceed_cases taken).2.2.2.2

theorem proceed_invariant (inv : monitor.Invariant) (taken : monitor.proceed = some after) :
    after.Invariant := by
  obtain ⟨busy, phase, running, registry, moved⟩ := proceed_cases taken
  have agrees := Consumer.proceed_agrees inv.agrees busy moved
  rw [← phase, ← running] at agrees
  refine ⟨agrees, registry ▸ inv.formed, ?_⟩
  rw [registry, proceed_pending inv taken]
  exact inv.sent

theorem step_invariant {event : MonitorEvent} (inv : monitor.Invariant)
    (taken : monitor.step event = some after) : after.Invariant := by
  cases step_move taken with
  | nodeStep stepped => exact nodeStep_invariant inv stepped
  | register packet =>
      exact ⟨inv.handshake, inv.formed.register packet, inv.sent.register inv.formed packet⟩
  | pong packet => exact ⟨inv.handshake, inv.formed.pong packet, inv.sent.pong packet⟩
  | waitAndPop popped =>
      refine ⟨inv.handshake.pop_agrees popped, inv.formed, ?_⟩
      simp only [pending, inv.handshake.pop_held popped]
      exact inv.sent
  | checkRunning checked =>
      refine ⟨inv.handshake.check_agrees checked, inv.formed, inv.sent.sublist ?_⟩
      simp only [pending, ConsumerThread.check_held checked]
      split
      · exact List.Sublist.refl _
      · exact List.sublist_append_right _ _
  | handleMessage working =>
      have sent := inv.sent
      rw [inv.pending_of_working working] at sent
      refine ⟨inv.handshake.finish_agrees working _, inv.formed.handleMessage _, ?_⟩
      simpa [pending] using sent.handleMessage inv.formed
  | startAgain | stopAgain => exact inv
  | start idle stopped =>
      have agrees := inv.handshake
      rw [idle, stopped] at agrees
      exact ⟨agrees.start_agrees, inv.formed, inv.sent⟩
  | stop idle started =>
      have agrees := inv.handshake
      rw [idle, started] at agrees
      exact ⟨agrees.stop_agrees, inv.formed, inv.sent⟩
  | proceed proceeded => exact proceed_invariant inv proceeded

theorem reachableBy_invariant {allowed : Monitor → MonitorEvent → Prop}
    (reached : ReachableBy allowed monitor) : monitor.Invariant :=
  Transition.Reaches.invariant Invariant reached initial_invariant
    fun _ _ _ inv _ taken => step_invariant inv taken

end Monitor

end NodeManagement
