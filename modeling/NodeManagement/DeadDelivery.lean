import NodeManagement.RegistryConsistency

/-!
Whether the DEAD message of a node reaches `handleSendData`.  A node whose thread has ended is
erased by that one message, so a run that loses it keeps an entry nobody monitors.
-/

namespace NodeManagement

open KeyedList Transition

def ThreadSafeQueue.keepsDead (q : ThreadSafeQueue PostedMessage) (pc : NodePc) : Bool :=
  if q.running then
    !(pc.pushes && q.isFull) || q.queue.head?.all (fun front => !front.message.isDead)
  else pc != .notifyDead

namespace Monitor

/-- The step loses no DEAD message.  Besides a push only the exit from the loop of
`handleSendData`, which drops the message just popped, can lose one. -/
def deliversDead (monitor : Monitor) : MonitorEvent → Bool
  | .nodeStep index _ _ =>
      match monitor.registry.vecNodeBase[index]? with
      | some node => monitor.messageNodeQueue.keepsDead node.pc
      | none => true
  | .checkRunning =>
      monitor.running || monitor.nodeHandleThread.held.all (fun posted => !posted.message.isDead)
  | _ => true

def DeadPending (monitor : Monitor) (node : NodeBase) : Prop :=
  ∃ posted ∈ monitor.pending, posted.message.isDead = true ∧ posted.SentBy node

def NoneLost (monitor : Monitor) : Prop :=
  ∀ node ∈ monitor.registry.vecNodeBase, node.pushedDead = true → monitor.DeadPending node

variable {monitor after : Monitor}

theorem step_origin {event : MonitorEvent} (inv : monitor.Invariant)
    (taken : monitor.step event = some after) :
    monitor.registry.made ≤ after.registry.made ∧
      ∀ entry ∈ after.registry.vecNodeBase,
        (monitor.registry.made < entry.serial ∧ entry.pushedDead = false) ∨
          ∃ node ∈ monitor.registry.vecNodeBase, node.SameIdentity entry ∧
            (node.pushedDead = true → entry.pushedDead = true) := by
  have same (unchanged : after.registry = monitor.registry) :
      monitor.registry.made ≤ after.registry.made ∧
        ∀ entry ∈ after.registry.vecNodeBase,
          (monitor.registry.made < entry.serial ∧ entry.pushedDead = false) ∨
            ∃ node ∈ monitor.registry.vecNodeBase, node.SameIdentity entry ∧
              (node.pushedDead = true → entry.pushedDead = true) := by
    rw [unchanged]
    exact ⟨le_refl _, fun entry member => .inr ⟨entry, member, .refl entry, id⟩⟩
  cases step_move taken with
  | nodeStep stepped =>
      obtain ⟨node, moved, pushed, found, step, rfl⟩ := nodeStep_cases stepped
      have member := List.mem_of_getElem? found
      have order := (NodeBase.threadStep_spec (inv.formed.coherent node member) step).2
      refine ⟨le_refl _, fun entry inside => .inr ?_⟩
      rcases List.mem_or_eq_of_mem_set inside with old | rfl
      · exact ⟨entry, old, .refl entry, id⟩
      · refine ⟨node, member, NodeBase.threadStep_identity step, fun past => ?_⟩
        cases pushed with
        | none => exact order.trans past
        | some message => exact absurd order.2.2.1 (by simp [past])
  | register packet =>
      simp only [Registry.checkRegisterMessage_eq]
      split
      · refine ⟨by simp, fun entry inside => ?_⟩
        rcases List.mem_append.mp inside with old | new
        · exact .inr ⟨entry, old, .refl entry, id⟩
        · simp only [List.mem_singleton] at new
          exact .inl ⟨by simp [new], by rw [new]; exact packet.newNode_pushedDead _⟩
      · exact ⟨le_refl _, fun entry inside => .inr ⟨entry, inside, .refl entry, id⟩⟩
  | pong packet =>
      refine ⟨by simp [Registry.checkPongMessage_eq], fun entry inside => .inr ?_⟩
      obtain ⟨node, old, identity, _, dead, _⟩ := Registry.mem_checkPongMessage inside
      exact ⟨node, old, identity, fun past => dead.trans past⟩
  | handleMessage =>
      simp only [Registry.handleMessage_registry]
      split
      · exact ⟨le_refl _, fun entry inside =>
          .inr ⟨entry, eraseFirst_sublist.subset inside, .refl entry, id⟩⟩
      · exact ⟨le_refl _, fun entry inside => .inr ⟨entry, inside, .refl entry, id⟩⟩
  | waitAndPop | checkRunning | startAgain | start | stopAgain | stop => exact same rfl
  | proceed proceeded => exact same (proceed_cases proceeded).2.2.2.1

theorem keepsDead_mem {q : ThreadSafeQueue PostedMessage} {pc : NodePc}
    (keeps : q.keepsDead pc = true) (pushes : pc.pushes = true) (held : List PostedMessage)
    (pushed : PostedMessage) {posted : PostedMessage} (dead : posted.message.isDead = true)
    (waiting : posted ∈ held ++ q.queue) : posted ∈ held ++ (q.push pushed true).queue := by
  cases running : q.running with
  | false => rwa [ThreadSafeQueue.push_of_stopped running]
  | true =>
      rw [ThreadSafeQueue.push_force_queue running]
      split
      next full =>
        cases contents : q.queue with
        | nil => simp_all
        | cons front rest =>
            have other : posted ≠ front := by
              rintro rfl
              simp [ThreadSafeQueue.keepsDead, running, pushes, full, contents, dead] at keeps
            simp only [contents, List.mem_append, List.mem_cons, other, false_or] at waiting
            simp only [List.tail_cons, List.mem_append]
            tauto
      next =>
        simp only [List.mem_append] at waiting ⊢
        tauto

theorem DeadPending.kept {node moved : NodeBase} (delivered : monitor.DeadPending node)
    (identity : node.SameIdentity moved)
    (kept : ∀ posted ∈ monitor.pending, posted.message.isDead = true → posted ∈ after.pending) :
    after.DeadPending moved := by
  obtain ⟨posted, waiting, dead, sender, address⟩ := delivered
  exact ⟨posted, kept posted waiting dead, dead, identity.2.1.trans sender,
    identity.2.2.trans address⟩

theorem nodeStep_noneLost (inv : monitor.Invariant) (safe : monitor.NoneLost) {index : Nat}
    {now : Bytes} {timedOut : Bool}
    (delivers : monitor.deliversDead (.nodeStep index now timedOut) = true)
    (taken : monitor.nodeStep index now timedOut = some after) : after.NoneLost := by
  obtain ⟨node, moved, pushed, found, step, rfl⟩ := nodeStep_cases taken
  have member := List.mem_of_getElem? found
  have coherent := inv.formed.coherent node member
  have identity := NodeBase.threadStep_identity step
  have order := (NodeBase.threadStep_spec coherent step).2
  obtain ⟨pushes, atDead⟩ := NodeBase.threadStep_pushes coherent step
  simp only [deliversDead, found] at delivers
  cases pushed with
  | none =>
      intro entry inside past
      rcases List.mem_or_eq_of_mem_set inside with old | rfl
      · exact safe entry old past
      · exact (safe node member (order.symm.trans past)).kept identity fun _ waiting _ => waiting
  | some message =>
      have kept : ∀ posted ∈ monitor.pending, posted.message.isDead = true →
          posted ∈ monitor.nodeHandleThread.held ++
            (monitor.messageNodeQueue.push ⟨message, node.serial⟩ true).queue :=
        fun posted waiting dead => keepsDead_mem delivers (by simpa using pushes.symm) _ _ dead
          waiting
      intro entry inside past
      rcases List.mem_or_eq_of_mem_set inside with old | rfl
      · exact (safe entry old past).kept (.refl entry) kept
      · have dead : message.isDead = true := order.2.2.2.symm.trans past
        have here : node.pc = .notifyDead := by simpa [dead] using atDead message rfl
        have running : monitor.messageNodeQueue.running = true := by
          by_contra stopped
          simp [ThreadSafeQueue.keepsDead, stopped, here] at delivers
        refine ⟨⟨message, node.serial⟩, ?_, dead, identity.2.1,
          identity.2.2.trans order.1.symm⟩
        simp [pending, ThreadSafeQueue.push_force_queue running]

theorem step_noneLost {event : MonitorEvent} (inv : monitor.Invariant) (safe : monitor.NoneLost)
    (delivers : monitor.deliversDead event = true) (taken : monitor.step event = some after) :
    after.NoneLost := by
  cases step_move taken with
  | nodeStep stepped => exact nodeStep_noneLost inv safe delivers stepped
  | register packet =>
      intro entry inside past
      simp only [Registry.checkRegisterMessage_eq] at inside
      split at inside
      · rcases List.mem_append.mp inside with old | new
        · exact safe entry old past
        · simp only [List.mem_singleton] at new
          simp [new, packet.newNode_pushedDead] at past
      · exact safe entry inside past
  | pong packet =>
      intro entry inside past
      obtain ⟨node, old, identity, _, dead, _⟩ := Registry.mem_checkPongMessage inside
      exact (safe node old (dead.symm.trans past)).kept identity fun _ waiting _ => waiting
  | waitAndPop popped =>
      intro entry inside past
      refine (safe entry inside past).kept (.refl entry) fun posted waiting _ => ?_
      simpa only [pending, inv.handshake.pop_held popped] using waiting
  | checkRunning checked =>
      intro entry inside past
      refine (safe entry inside past).kept (.refl entry) fun posted waiting dead => ?_
      simp only [pending, ConsumerThread.check_held checked]
      split
      · exact waiting
      · rename_i stopped
        simp only [deliversDead, stopped, Bool.false_or, List.all_eq_true] at delivers
        rcases List.mem_append.mp waiting with inHand | queued
        · have notDead := delivers posted inHand
          simp [dead] at notDead
        · simpa using queued
  | handleMessage working =>
      intro entry inside past
      simp only [Registry.handleMessage_registry] at inside
      have old : entry ∈ monitor.registry.vecNodeBase := by
        split at inside
        · exact eraseFirst_sublist.subset inside
        · exact inside
      obtain ⟨posted, waiting, dead, sender, address⟩ := safe entry old past
      refine ⟨posted, ?_, dead, sender, address⟩
      rw [inv.pending_of_working working, List.mem_cons] at waiting
      rcases waiting with rfl | queued
      · -- its own DEAD message has just erased the entry
        rw [if_pos dead] at inside
        exact absurd (congrArg SockaddrIn.sinPort address)
          ((mem_eraseFirst_iff inv.formed.ports).mp inside).2
      · simpa [pending] using queued
  | startAgain | start | stopAgain | stop => exact safe
  | proceed proceeded =>
      have registry := (proceed_cases proceeded).2.2.2.1
      have same := proceed_pending inv proceeded
      intro entry inside past
      rw [registry] at inside
      exact (safe entry inside past).kept (.refl entry) fun posted waiting _ => same.symm ▸ waiting

def Lost (monitor : Monitor) (node : NodeBase) : Prop :=
  node ∈ monitor.registry.vecNodeBase ∧ node.pushedDead = true ∧ ¬monitor.DeadPending node

theorem not_noneLost_iff : ¬monitor.NoneLost ↔ ∃ node, monitor.Lost node := by
  simp only [NoneLost, Lost, not_forall, exists_prop]

theorem Lost.kept {node moved : NodeBase} (lost : monitor.Lost node)
    (member : moved ∈ after.registry.vecNodeBase) (identity : node.SameIdentity moved)
    (past : moved.pushedDead = true)
    (origin : ∀ posted ∈ after.pending, posted.message.isDead = true → posted.SentBy node →
      posted ∈ monitor.pending) : after.Lost moved := by
  refine ⟨member, past, ?_⟩
  rintro ⟨posted, waiting, dead, sender, address⟩
  have sent : posted.SentBy node :=
    ⟨identity.2.1.symm.trans sender, identity.2.2.symm.trans address⟩
  exact lost.2.2 ⟨posted, origin posted waiting dead sent, dead, sent⟩

theorem nodeStep_lost (inv : monitor.Invariant) {node : NodeBase} (lost : monitor.Lost node)
    {index : Nat} {now : Bytes} {timedOut : Bool}
    (taken : monitor.nodeStep index now timedOut = some after) :
    ∃ moved, after.Lost moved := by
  obtain ⟨worker, moved, pushed, found, step, becomes⟩ := nodeStep_cases taken
  obtain ⟨inside, here⟩ := List.getElem?_eq_some_iff.mp found
  have member := List.mem_of_getElem? found
  have identity := NodeBase.threadStep_identity step
  have order := (NodeBase.threadStep_spec (inv.formed.coherent worker member) step).2
  have origin : ∀ posted ∈ after.pending, posted.SentBy node → posted ∈ monitor.pending := by
    subst becomes
    intro posted waiting sent
    cases pushed with
    | none => exact waiting
    | some message =>
        obtain ⟨kept, fewer, pending⟩ := push_pending monitor.nodeHandleThread.held
          monitor.messageNodeQueue ⟨message, worker.serial⟩
        rcases pending with pending | pending <;> rw [Monitor.pending, pending] at waiting
        · exact fewer.subset waiting
        · rcases List.mem_append.mp waiting with old | new
          · exact fewer.subset old
          · simp only [List.mem_singleton] at new
            have same := inv.formed.eq_of_serial lost.1 member (by rw [sent.1, new])
            exact absurd order.2.2.1 (by simp [← same, lost.2.1])
  subst becomes
  by_cases same : node = worker
  · subst same
    refine ⟨moved, lost.kept (List.mem_set inside moved) identity ?_
      fun posted waiting _ => origin posted waiting⟩
    cases pushed with
    | none => exact order.trans lost.2.1
    | some message => exact absurd order.2.2.1 (by simp [lost.2.1])
  · refine ⟨node, lost.kept ?_ (.refl node) lost.2.1 fun posted waiting _ => origin posted waiting⟩
    obtain ⟨place, bound, equal⟩ := List.mem_iff_getElem.mp lost.1
    have other : index ≠ place := by
      rintro rfl
      exact same (equal.symm.trans here)
    rw [← equal, ← List.getElem_set_of_ne other moved (by simpa using bound)]
    exact List.getElem_mem _

theorem step_lost {event : MonitorEvent} (inv : monitor.Invariant) {node : NodeBase}
    (lost : monitor.Lost node) (taken : monitor.step event = some after) :
    ∃ moved, after.Lost moved := by
  cases step_move taken with
  | nodeStep stepped => exact nodeStep_lost inv lost stepped
  | register packet =>
      refine ⟨node, lost.kept ?_ (.refl node) lost.2.1 fun _ waiting _ _ => waiting⟩
      simp only [Registry.checkRegisterMessage_eq]
      split
      · exact List.mem_append_left _ lost.1
      · exact lost.1
  | pong packet =>
      obtain ⟨moved, member, identity, past⟩ := Registry.mem_checkPongMessage_of_mem packet lost.1
      exact ⟨moved, lost.kept member identity (past.trans lost.2.1) fun _ waiting _ _ => waiting⟩
  | waitAndPop popped =>
      refine ⟨node, lost.kept lost.1 (.refl node) lost.2.1 fun posted waiting _ _ => ?_⟩
      simpa only [pending, inv.handshake.pop_held popped] using waiting
  | checkRunning checked =>
      refine ⟨node, lost.kept lost.1 (.refl node) lost.2.1 fun posted waiting _ _ => ?_⟩
      simp only [pending, ConsumerThread.check_held checked] at waiting
      split at waiting
      · exact waiting
      · exact List.mem_append_right _ waiting
  | handleMessage working =>
      have inHand := inv.item_mem_pending working
      refine ⟨node, lost.kept ?_ (.refl node) lost.2.1 fun posted waiting _ _ => ?_⟩
      · simp only [Registry.handleMessage_registry]
        split
        next dead =>
          refine (mem_eraseFirst_iff inv.formed.ports).mpr ⟨lost.1, fun port => ?_⟩
          obtain ⟨sender, present, sent⟩ := inv.sent.senders _ inHand
          have same : node = sender := inv.formed.eq_of_getPortInfo lost.1 present
            (port.trans (congrArg SockaddrIn.sinPort sent.2.symm))
          exact lost.2.2 ⟨_, inHand, dead, same ▸ sent⟩
        next => exact lost.1
      · simp only [pending, ConsumerThread.finish_held, List.nil_append] at waiting
        exact List.mem_append_right _ waiting
  | startAgain | start | stopAgain | stop => exact ⟨node, lost⟩
  | proceed proceeded =>
      have registry := (proceed_cases proceeded).2.2.2.1
      have same := proceed_pending inv proceeded
      refine ⟨node, lost.kept (registry ▸ lost.1) (.refl node) lost.2.1
        fun posted waiting _ _ => ?_⟩
      exact same ▸ waiting

theorem Invariant.dead_alone (inv : monitor.Invariant) {front back : List PostedMessage}
    {posted other : PostedMessage} (split : monitor.pending = front ++ posted :: back)
    (dead : posted.message.isDead = true) (elsewhere : other ∈ front ++ back)
    (same : other.sender = posted.sender) : other.message.isDead = false := by
  have order := inv.sent.deadLast
  rw [split] at order
  obtain ⟨_, later, across⟩ := List.pairwise_append.mp order
  rcases List.mem_append.mp elsewhere with before | behind
  · exact across other before posted (by simp) same
  · have notDead := (List.pairwise_cons.mp later).1 other behind same.symm
    simp [notDead] at dead

theorem lost_of_not_deliversDead {event : MonitorEvent} (inv : monitor.Invariant)
    (loses : monitor.deliversDead event = false) (taken : monitor.step event = some after) :
    ∃ node, after.Lost node := by
  cases step_move taken with
  | @nodeStep index _ _ _ stepped =>
      obtain ⟨worker, moved, pushed, found, step, rfl⟩ := nodeStep_cases stepped
      obtain ⟨inside, here⟩ := List.getElem?_eq_some_iff.mp found
      have member := List.mem_of_getElem? found
      have coherent := inv.formed.coherent worker member
      have identity := NodeBase.threadStep_identity step
      have order := (NodeBase.threadStep_spec coherent step).2
      obtain ⟨pushes, atDead⟩ := NodeBase.threadStep_pushes coherent step
      simp only [deliversDead, found, ThreadSafeQueue.keepsDead] at loses
      cases running : monitor.messageNodeQueue.running with
      | false =>
          have position : worker.pc = .notifyDead := by simpa [running] using loses
          cases pushed with
          | none => simp [position, NodePc.pushes] at pushes
          | some message =>
              have dead : message.isDead = true := by simpa [position] using atDead message rfl
              refine ⟨moved, List.mem_set inside moved, order.2.2.2.trans dead, ?_⟩
              rintro ⟨posted, waiting, dead, sender, _⟩
              simp only [pending, ThreadSafeQueue.push_of_stopped running] at waiting
              have past := inv.sent.deadPushed posted waiting dead worker member
                (identity.2.1.symm.trans sender)
              simp [order.2.2.1] at past
      | true =>
          simp only [running, if_true, Bool.or_eq_false_iff, Bool.not_eq_false',
            Bool.and_eq_true] at loses
          obtain ⟨⟨_, full⟩, frontDead⟩ := loses
          cases pushed with
          | none => simp_all
          | some message =>
              cases contents : monitor.messageNodeQueue.queue with
              | nil => simp [contents] at frontDead
              | cons front rest =>
                  have dead : front.message.isDead = true := by simpa [contents] using frontDead
                  have split : monitor.pending =
                      monitor.nodeHandleThread.held ++ front :: rest := by
                    simp [pending, contents]
                  have waiting : front ∈ monitor.pending := by simp [split]
                  obtain ⟨sender, present, sent⟩ := inv.sent.senders front waiting
                  have past := inv.sent.deadPushed front waiting dead sender present sent.1
                  have other : sender ≠ worker := by
                    rintro rfl
                    simp [order.2.2.1] at past
                  obtain ⟨place, bound, equal⟩ := List.mem_iff_getElem.mp present
                  have elsewhere : index ≠ place := by
                    rintro rfl
                    exact other (equal.symm.trans here)
                  refine ⟨sender, ?_, past, ?_⟩
                  · rw [← equal, ← List.getElem_set_of_ne elsewhere moved (by simpa using bound)]
                    exact List.getElem_mem _
                  rintro ⟨posted, queued, postedDead, from_, _⟩
                  simp only [pending, ThreadSafeQueue.push_force_queue running, full, if_true,
                    contents, List.tail_cons, ← List.append_assoc] at queued
                  rcases List.mem_append.mp queued with old | new
                  · have notDead := inv.dead_alone split dead old (from_.symm.trans sent.1)
                    simp [notDead] at postedDead
                  · simp only [List.mem_singleton] at new
                    subst new
                    exact other (inv.formed.eq_of_serial present member from_)
  | checkRunning checked =>
      simp only [deliversDead, Bool.or_eq_false_iff] at loses
      obtain ⟨stopped, dropped⟩ := loses
      obtain ⟨posted, inHand, dead⟩ : ∃ posted ∈ monitor.nodeHandleThread.held,
          posted.message.isDead = true := by
        simpa using dropped
      obtain ⟨front, back, split⟩ := List.append_of_mem inHand
      have whole : monitor.pending =
          front ++ posted :: (back ++ monitor.messageNodeQueue.queue) := by
        simp [pending, split]
      have waiting : posted ∈ monitor.pending := by simp [whole]
      obtain ⟨sender, present, sent⟩ := inv.sent.senders posted waiting
      refine ⟨sender, present, inv.sent.deadPushed posted waiting dead sender present sent.1, ?_⟩
      rintro ⟨other, queued, otherDead, from_, _⟩
      simp only [pending, ConsumerThread.check_held checked, stopped, Bool.false_eq_true,
        if_false, List.nil_append] at queued
      have notDead := inv.dead_alone whole dead (by simp [queued]) (from_.symm.trans sent.1)
      simp [notDead] at otherDead
  | _ => simp [deliversDead] at loses

theorem run_lost {events : List MonitorEvent} (inv : monitor.Invariant) {node : NodeBase}
    (lost : monitor.Lost node) (replay : runFrom step monitor events = some after) :
    ∃ moved, after.Lost moved := by
  induction events generalizing monitor node with
  | nil =>
      simp only [runFrom, Option.some.injEq] at replay
      exact ⟨node, replay ▸ lost⟩
  | cons event rest ih =>
      simp only [runFrom, Option.bind_eq_some_iff] at replay
      obtain ⟨middle, taken, tail⟩ := replay
      obtain ⟨moved, lost⟩ := step_lost inv lost taken
      exact ih (step_invariant inv taken) lost tail

theorem noneLost_iff_delivers {events : List MonitorEvent} (inv : monitor.Invariant)
    (safe : monitor.NoneLost) (replay : runFrom step monitor events = some after) :
    after.NoneLost ↔ checkFrom step deliversDead monitor events = true := by
  induction events generalizing monitor with
  | nil =>
      simp only [runFrom, Option.some.injEq] at replay
      simpa [checkFrom] using replay ▸ safe
  | cons event rest ih =>
      simp only [runFrom, Option.bind_eq_some_iff] at replay
      obtain ⟨middle, taken, tail⟩ := replay
      have next := step_invariant inv taken
      simp only [checkFrom, taken, Bool.and_eq_true]
      cases delivers : monitor.deliversDead event with
      | true => simpa using ih next (step_noneLost inv safe delivers taken) tail
      | false =>
          obtain ⟨node, lost⟩ := lost_of_not_deliversDead inv delivers taken
          simpa using not_noneLost_iff.mpr (run_lost next lost tail)

def Delivers (monitor : Monitor) (event : MonitorEvent) : Prop :=
  monitor.deliversDead event = true

theorem initial_noneLost : initial.NoneLost := by
  simp [NoneLost, initial, Registry.empty]

theorem reachableBy_noneLost (reached : ReachableBy Delivers monitor) :
    monitor.Invariant ∧ monitor.NoneLost :=
  Transition.Reaches.invariant (fun monitor => monitor.Invariant ∧ monitor.NoneLost) reached
    ⟨initial_invariant, initial_noneLost⟩ fun _ _ _ before delivers taken =>
      ⟨step_invariant before.1 taken, step_noneLost before.1 before.2 delivers taken⟩

theorem step_past {event : MonitorEvent} (inv : monitor.Invariant) {id : Nat}
    (counted : id ≤ monitor.registry.made)
    (past : ∀ node ∈ monitor.registry.vecNodeBase, node.serial = id →
      node.pushedDead = true)
    (taken : monitor.step event = some after) :
    id ≤ after.registry.made ∧ ∀ node ∈ after.registry.vecNodeBase, node.serial = id →
      node.pushedDead = true := by
  obtain ⟨grows, origin⟩ := step_origin inv taken
  refine ⟨counted.trans grows, fun entry inside same => ?_⟩
  rcases origin entry inside with ⟨fresh, _⟩ | ⟨node, old, identity, keeps⟩
  · omega
  · exact keeps (past node old (identity.2.1.symm.trans same))

theorem registered_after (registry : Registry) {packet : RigisterPacket}
    (monitored : packet.typeNode.isMonitored = true) :
    ∃ entry ∈ (registry.checkRegisterMessage packet).vecNodeBase,
      entry.getPortInfo = packet.clientAddr.sinPort ∧
        (entry ∈ registry.vecNodeBase ∨
          (entry = packet.newNode (registry.made + 1) ∧
            ∀ node ∈ registry.vecNodeBase, node.getPortInfo ≠ packet.clientAddr.sinPort)) := by
  rw [Registry.checkRegisterMessage_eq, monitored, Bool.true_and]
  cases known : hasKey NodeBase.getPortInfo packet.clientAddr.sinPort registry.vecNodeBase with
  | true =>
      obtain ⟨node, member, port⟩ := hasKey_iff.mp known
      exact ⟨node, by simpa using member, port, .inl member⟩
  | false =>
      refine ⟨packet.newNode (registry.made + 1), ?_, rfl, .inr ⟨rfl, ?_⟩⟩
      · simp
      · exact hasKey_eq_false_iff.mp known

/-- In a run that loses no DEAD message a dead entry waits for its own, and once the queue is
drained the entry is erased and a REGISTER from its port is monitored again. -/
theorem dead_delivered (reached : ReachableBy Delivers monitor) :
    ∀ node ∈ monitor.registry.vecNodeBase, node.pc = .exited →
      monitor.DeadPending node ∧
      ∀ later, Reaches step Delivers monitor later → later.pending = [] →
        (∀ entry ∈ later.registry.vecNodeBase, entry.serial ≠ node.serial) ∧
        ∀ packet : RigisterPacket, packet.typeNode.isMonitored = true →
          packet.clientAddr.sinPort = node.getPortInfo →
          ∃ entry ∈ (later.registry.checkRegisterMessage packet).vecNodeBase,
            entry.getPortInfo = node.getPortInfo ∧ entry.serial ≠ node.serial ∧
              entry.pushedDead = false := by
  obtain ⟨inv, safe⟩ := reachableBy_noneLost reached
  intro node member ended
  have past : node.pushedDead = true := by simp [NodeBase.pushedDead, ended]
  refine ⟨safe node member past, fun later run drained => ?_⟩
  obtain ⟨invLater, safeLater⟩ := reachableBy_noneLost (reached.trans run)
  have alive : ∀ entry ∈ later.registry.vecNodeBase, entry.pushedDead = false := by
    intro entry inside
    by_contra dead
    obtain ⟨posted, waiting, _⟩ := safeLater entry inside (by simpa using dead)
    simp [drained] at waiting
  obtain ⟨_, counted, silent⟩ := by
    refine Transition.Reaches.invariant (fun state => state.Invariant ∧
      node.serial ≤ state.registry.made ∧ ∀ entry ∈ state.registry.vecNodeBase,
        entry.serial = node.serial → entry.pushedDead = true) run
      ⟨inv, inv.formed.counted node member, ?_⟩ fun _ _ _ before _ taken =>
        ⟨step_invariant before.1 taken, step_past before.1 before.2.1 before.2.2 taken⟩
    intro entry inside same
    rw [inv.formed.eq_of_serial inside member same]
    exact past
  have erased : ∀ entry ∈ later.registry.vecNodeBase,
      entry.serial ≠ node.serial := by
    intro entry inside same
    simpa [alive entry inside] using silent entry inside same
  refine ⟨erased, fun packet monitored port => ?_⟩
  obtain ⟨entry, inside, samePort, old | ⟨rfl, _⟩⟩ :=
    registered_after later.registry monitored
  · exact ⟨entry, inside, samePort.trans port, erased entry old, alive entry old⟩
  · refine ⟨_, inside, samePort.trans port, ?_, packet.newNode_pushedDead _⟩
    simp only [RigisterPacket.newNode_serial]
    omega

end Monitor

theorem dead_delivered_silent_node :
    ∃ monitor : Monitor, ∃ node ∈ monitor.registry.vecNodeBase,
      node.pc = .exited ∧ monitor.DeadPending node := by
  obtain ⟨monitor, reached, found⟩ := exists_reaches Monitor.step Monitor.deliversDead
    (fun monitor => monitor.registry.vecNodeBase.any fun node => node.pc == .exited) .initial
    (startEvents ++ [.register localRegister] ++ silentSteps ++
      frontSteps 3)
    (fun _ _ => id) (by decide +kernel) (by decide +kernel)
  simp only [List.any_eq_true, beq_iff_eq] at found
  obtain ⟨node, member, ended⟩ := found
  exact ⟨monitor, node, member, ended,
    (Monitor.dead_delivered reached node member ended).1⟩

def stopBeforeDead : List MonitorEvent :=
  startEvents ++ [.register localRegister] ++ frontSteps 27 ++
    [.stop, .proceed, .proceed] ++ frontSteps 6

theorem dead_not_delivered :
    ¬∀ monitor : Monitor, monitor.Reachable → ∀ node ∈ monitor.registry.vecNodeBase,
      node.pc = .exited → monitor.DeadPending node := by
  intro delivered
  obtain ⟨monitor, reached, found⟩ := exists_reaches Monitor.step (fun _ _ => true)
    (fun monitor => monitor.registry.vecNodeBase.any (fun node => node.pc == .exited) &&
      monitor.pending.all fun posted => !posted.message.isDead)
    .initial stopBeforeDead (fun _ _ _ => trivial) (by decide +kernel) (by decide +kernel)
  simp only [Bool.and_eq_true, List.any_eq_true, beq_iff_eq, List.all_eq_true] at found
  obtain ⟨⟨node, member, ended⟩, none⟩ := found
  obtain ⟨posted, waiting, dead, _⟩ := delivered monitor reached node member ended
  simpa [dead] using none posted waiting

end NodeManagement
