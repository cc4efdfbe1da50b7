import NodeManagement.SystemInvariant
import NodeManagement.Library.ScopedLock

/-!
The mutex `m_mtx` of every node, as its thread and `handleReceivedData` take it and give it back.
The thread locks it in `setPongState`, in `stop` and around each wait; the lock of a wait lasts to
the end of its block, and in `AliveState` and `TimeoutState` the sleep belongs to the block.
-/

namespace NodeManagement

open KeyedList Transition

namespace NodeBase

def asleep (node : NodeBase) : Bool :=
  match node.pc with
  | .sleepPing _ => true
  | _ => false

def locksNext (node : NodeBase) : Bool :=
  match node.pc with
  | .resetPong _ | .waitPong _ | .deadStop => true
  | _ => false

def staysWaiting (node : NodeBase) : Bool :=
  match node.pc with
  | .waitPong _ => node.waitFor false == none
  | _ => false

/-- What a step of the thread needs of its lock, and the lock after it.  `wait_for` returns false
only after it has waited. -/
def lockAfter (node : NodeBase) (lock : ScopedLock Unit) (timedOut : Bool) :
    Option (ScopedLock Unit) :=
  match node.pc with
  | .resetPong _ | .deadStop | .sleepPing _ => lock.close
  | .waitPong site =>
      (node.waitFor timedOut).bind fun woken =>
        if !woken && lock.scope != .woken then none
        else if (node.afterWait site woken).asleep then
          if lock.scope.inside then some lock else none
        else lock.close
  | _ => if lock.scope = .outside then some lock else none

def answeredAwake (node : NodeBase) : Bool :=
  match node.pc with
  | .waitPong .alive | .waitPong (.retry _) => node.running && node.pongState
  | _ => false

end NodeBase

/-- The mutexes are known by the NodeID of their node object. -/
structure LockedSystem where
  system : System
  locks : Nat → ScopedLock Unit

def LockedSystem.initial : LockedSystem := ⟨.initial, fun _ => .free⟩

inductive LockedEvent
  | run (event : SystemEvent)
  | lock (index : Nat)
  | wait (index : Nat)
  | wake (index : Nat)
  | unlock (index : Nat)
  | lockReceived

namespace LockedSystem

def nodeAt (locked : LockedSystem) (index : Nat) : Option NodeBase :=
  locked.system.monitor.registry.vecNodeBase[index]?

def lockOf (locked : LockedSystem) (node : NodeBase) : ScopedLock Unit :=
  locked.locks node.serial

def withLock (locked : LockedSystem) (node : NodeBase) (lock : ScopedLock Unit) : LockedSystem :=
  { locked with locks := Function.update locked.locks node.serial lock }

def pongReceiver (system : System) : Option NodeBase :=
  if system.receivedIOQueue.thread.pc = .working then
    match system.receivedIOQueue.thread.item.pointee with
    | some object =>
        if object.base.typeMessage = .pong then
          toMap NodeBase.getPortInfo system.monitor.registry.vecNodeBase
            object.base.clientAddr.sinPort
        else none
    | none => none
  else none

def nodeStep (locked : LockedSystem) (index : Nat) (now : Bytes) (timedOut : Bool) :
    Option LockedSystem :=
  match locked.nodeAt index with
  | none => none
  | some node =>
      (node.lockAfter (locked.lockOf node) timedOut).bind fun lock =>
        (locked.system.step (.nodeStep index now timedOut)).map fun system =>
          { locked.withLock node lock with system := system }

/-- `setPongState(true)` runs under the mutex, which is given back behind it. -/
def handleReceived (locked : LockedSystem) : Option LockedSystem :=
  match pongReceiver locked.system with
  | none =>
      (locked.system.step .handleReceived).map fun system => { locked with system := system }
  | some node =>
      ((locked.lockOf node).release ()).bind fun lock =>
        (locked.system.step .handleReceived).map fun system =>
          { locked.withLock node lock with system := system }

def step (locked : LockedSystem) : LockedEvent → Option LockedSystem
  | .run (.nodeStep index now timedOut) => locked.nodeStep index now timedOut
  | .run .handleReceived => locked.handleReceived
  | .run event => (locked.system.step event).map fun system => { locked with system := system }
  | .lock index =>
      (locked.nodeAt index).bind fun node =>
        if node.locksNext then (locked.lockOf node).enter.map (locked.withLock node) else none
  | .wait index =>
      (locked.nodeAt index).bind fun node =>
        if node.staysWaiting then (locked.lockOf node).wait.map (locked.withLock node) else none
  | .wake index =>
      (locked.nodeAt index).bind fun node => (locked.lockOf node).wake.map (locked.withLock node)
  | .unlock index =>
      (locked.nodeAt index).bind fun node => (locked.lockOf node).leave.map (locked.withLock node)
  | .lockReceived =>
      (pongReceiver locked.system).bind fun node =>
        ((locked.lockOf node).acquire ()).map (locked.withLock node)

/-- No node sleeps with its mutex, and `handleReceivedData` waits for no sleeping node. -/
structure Unstalled (locked : LockedSystem) : Prop where
  sleepers : ∀ node ∈ locked.system.monitor.registry.vecNodeBase, node.asleep = true →
    (locked.lockOf node).owner ≠ some .scoped
  receiver : ∀ node, pongReceiver locked.system = some node →
    ¬(node.asleep = true ∧ (locked.lockOf node).owner = some .scoped)

def answersAsleep (locked : LockedSystem) : LockedEvent → Bool
  | .run (.nodeStep index _ _) =>
      match locked.nodeAt index with
      | some node => !node.answeredAwake
      | none => true
  | _ => true

end LockedSystem

namespace NodeBase

variable {node after : NodeBase}

theorem retryLoop_asleep (retryTime : Nat) : (node.retryLoop retryTime).asleep = false := by
  unfold retryLoop
  split_ifs <;> rfl

theorem threadStep_asleep {nodeID : Int} {now : Bytes} {timedOut : Bool}
    {pushed : Option StrMessageState} (coherent : node.Coherent)
    (step : node.threadStep nodeID now timedOut = some (after, pushed)) :
    after.asleep = node.answeredAwake := by
  cases threadStep_move step with
  | waitPong site woken position ended =>
      simp only [Coherent, position] at coherent
      obtain ⟨running, _⟩ := coherent
      have answered : woken = node.pongState := by
        cases pong : node.pongState <;> cases timedOut <;> simp_all [waitFor]
      subst answered
      cases pong : node.pongState with
      | true =>
          cases site <;>
            simp [afterWait, initAfterWait, aliveAfterWait, retryAfterWait, running, pong,
              answeredAwake, position, asleep]
      | false =>
          cases site with
          | init => simp [afterWait, initAfterWait, answeredAwake, position, asleep]
          | alive => simp [afterWait, aliveAfterWait, pong, answeredAwake, position, asleep]
          | retry retryTime =>
              simp [afterWait, retryAfterWait, pong, answeredAwake, position, retryLoop_asleep]
  | loopHead position =>
      cases running : node.running <;> cases state : node.currentState <;>
        simp [handleThread, running, state, asleep, answeredAwake, position]
  | notifyTimeout position =>
      simp [retryLoop_asleep, answeredAwake, position]
  | retriesOver retryTime position =>
      unfold afterRetries
      split <;> simp [asleep, answeredAwake, position]
  | resetPong _ position | sendPing _ position | pushPing _ _ position | sleepPing _ position
  | notifyDead position | deadToInit position | deadStop position =>
      simp [asleep, answeredAwake, position]

theorem inside_of_lockAfter {lock lockAfter : ScopedLock Unit} {nodeID : Int} {now : Bytes}
    {timedOut : Bool} {pushed : Option StrMessageState}
    (step : node.threadStep nodeID now timedOut = some (after, pushed))
    (kept : node.lockAfter lock timedOut = some lockAfter) (sleeps : after.asleep = true)
    (waits : ∃ site, node.pc = .waitPong site) : lockAfter = lock ∧ lock.scope.inside = true := by
  obtain ⟨site, position⟩ := waits
  simp only [threadStep, position, Option.map_eq_some_iff, Prod.mk.injEq] at step
  obtain ⟨woken, ended, rfl, _⟩ := step
  simp only [NodeBase.lockAfter, position, ended, Option.bind_some, sleeps, if_true,
    Option.ite_none_left_eq_some, Option.ite_none_right_eq_some, Option.some.injEq] at kept
  exact ⟨kept.2.2.symm, kept.2.1⟩

theorem lockAfter_consistent (node : NodeBase) {lock lockAfter : ScopedLock Unit}
    {timedOut : Bool} (consistent : lock.Consistent)
    (kept : node.lockAfter lock timedOut = some lockAfter) : lockAfter.Consistent := by
  unfold NodeBase.lockAfter at kept
  split at kept
  case h_4 site =>
      obtain ⟨woken, _, kept⟩ := Option.bind_eq_some_iff.mp kept
      simp only [Option.ite_none_left_eq_some] at kept
      obtain ⟨_, kept⟩ := kept
      split at kept
      · simp only [Option.ite_none_right_eq_some, Option.some.injEq] at kept
        exact kept.2 ▸ consistent
      · exact consistent.close kept
  case h_5 =>
      simp only [Option.ite_none_right_eq_some, Option.some.injEq] at kept
      exact kept.2 ▸ consistent
  all_goals exact consistent.close kept

end NodeBase

theorem Monitor.asleep_before {monitor after : Monitor} {event : MonitorEvent}
    (other : event.isNodeStep = false) (taken : monitor.step event = some after) {node : NodeBase}
    (member : node ∈ after.registry.vecNodeBase) (sleeps : node.asleep = true) :
    ∃ old ∈ monitor.registry.vecNodeBase, old.serial = node.serial ∧
      old.asleep = true := by
  cases step_move taken with
  | nodeStep => simp [MonitorEvent.isNodeStep] at other
  | register packet =>
      simp only [Registry.checkRegisterMessage_eq] at member
      split at member
      · rcases List.mem_append.mp member with old | new
        · exact ⟨node, old, rfl, sleeps⟩
        · obtain rfl := List.mem_singleton.mp new
          simp [RigisterPacket.newNode, NodeBase.create, NodeBase.setClientInfor, NodeBase.start,
            NodeBase.asleep] at sleeps
      · exact ⟨node, member, rfl, sleeps⟩
  | pong packet =>
      simp only [Registry.checkPongMessage_eq] at member
      rcases mem_updateFirst member with old | ⟨old, present, _, rfl⟩
      · exact ⟨node, old, rfl, sleeps⟩
      · exact ⟨old, present, rfl, sleeps⟩
  | handleMessage =>
      simp only [Registry.handleMessage_registry] at member
      split at member
      · exact ⟨node, eraseFirst_sublist.subset member, rfl, sleeps⟩
      · exact ⟨node, member, rfl, sleeps⟩
  | waitAndPop | checkRunning | startAgain | start | stopAgain | stop =>
      exact ⟨node, member, rfl, sleeps⟩
  | proceed proceeded =>
      rw [(proceed_cases proceeded).2.2.2.1] at member
      exact ⟨node, member, rfl, sleeps⟩

theorem System.asleep_before {system after : System} {event : SystemEvent}
    (other : event.isNodeStep = false) (taken : system.step event = some after) {node : NodeBase}
    (member : node ∈ after.monitor.registry.vecNodeBase) (sleeps : node.asleep = true) :
    ∃ old ∈ system.monitor.registry.vecNodeBase, old.serial = node.serial ∧
      old.asleep = true := by
  rcases step_monitor taken with same | ⟨inner, kind, stepped⟩
  · exact ⟨node, same ▸ member, rfl, sleeps⟩
  · exact Monitor.asleep_before (kind.trans other) stepped member sleeps

theorem System.step_monitorInvariant {system after : System} {event : SystemEvent}
    (inv : system.monitor.Invariant) (taken : system.step event = some after) :
    after.monitor.Invariant := by
  rcases step_monitor taken with same | ⟨inner, _, stepped⟩
  · exact same ▸ inv
  · exact Monitor.step_invariant inv stepped

namespace LockedSystem

structure Invariant (locked : LockedSystem) : Prop where
  monitored : locked.system.monitor.Invariant
  consistent : ∀ nodeID, (locked.locks nodeID).Consistent
  sleeping : ∀ node ∈ locked.system.monitor.registry.vecNodeBase, node.asleep = true →
    (locked.lockOf node).scope.inside = true

theorem initial_invariant : initial.Invariant :=
  ⟨Monitor.initial_invariant, fun _ => ScopedLock.free_consistent,
    by simp [initial, System.initial, Monitor.initial, Registry.empty]⟩

variable {locked after : LockedSystem}

theorem Invariant.unstalled_iff (inv : locked.Invariant) :
    locked.Unstalled ↔
      ∀ node ∈ locked.system.monitor.registry.vecNodeBase, node.asleep = false := by
  have owned : ∀ node ∈ locked.system.monitor.registry.vecNodeBase, node.asleep = true →
      (locked.lockOf node).owner = some .scoped := by
    intro node member sleeps
    exact (inv.consistent _).mpr (LockScope.owns_of_inside (inv.sleeping node member sleeps))
  constructor
  · intro free node member
    cases sleeps : node.asleep with
    | false => rfl
    | true => exact absurd (owned node member sleeps) (free.sleepers node member sleeps)
  · intro awake
    refine ⟨?_, ?_⟩
    · intro node member sleeps
      simp [awake node member] at sleeps
    · rintro node receives ⟨sleeps, _⟩
      have member : node ∈ locked.system.monitor.registry.vecNodeBase := by
        unfold pongReceiver at receives
        split at receives
        · split at receives
          · split at receives
            · exact List.mem_of_find?_eq_some receives
            · simp at receives
          · simp at receives
        · simp at receives
      simp [awake node member] at sleeps

theorem nodeStep_cases {index : Nat} {now : Bytes} {timedOut : Bool}
    (taken : locked.nodeStep index now timedOut = some after) :
    ∃ node moved pushed lock, locked.nodeAt index = some node ∧
      node.threadStep locked.system.monitor.registry.nodeID now timedOut = some (moved, pushed) ∧
      node.lockAfter (locked.lockOf node) timedOut = some lock ∧
      after.locks = Function.update locked.locks node.serial lock ∧
      after.system.monitor.registry.vecNodeBase =
        locked.system.monitor.registry.vecNodeBase.set index moved ∧
      locked.system.step (.nodeStep index now timedOut) = some after.system := by
  unfold nodeStep at taken
  split at taken
  next => simp at taken
  next node found =>
    obtain ⟨lock, kept, taken⟩ := Option.bind_eq_some_iff.mp taken
    obtain ⟨system, stepped, rfl⟩ := Option.map_eq_some_iff.mp taken
    obtain ⟨monitor, moves, same⟩ := System.monitorStep_cases stepped
    obtain ⟨old, moved, pushed, here, step, rfl⟩ := Monitor.nodeStep_cases moves
    obtain rfl : node = old := Option.some.inj (found.symm.trans here)
    exact ⟨node, moved, pushed, lock, found, step, kept, rfl, by rw [same], stepped⟩

theorem handleReceived_cases (taken : locked.handleReceived = some after) :
    locked.system.step .handleReceived = some after.system ∧
      (after.locks = locked.locks ∨ ∃ node lock, pongReceiver locked.system = some node ∧
        (locked.lockOf node).release () = some lock ∧
        after.locks = Function.update locked.locks node.serial lock) := by
  unfold handleReceived at taken
  split at taken
  next =>
    obtain ⟨system, stepped, rfl⟩ := Option.map_eq_some_iff.mp taken
    exact ⟨stepped, .inl rfl⟩
  next node receives =>
    obtain ⟨lock, released, taken⟩ := Option.bind_eq_some_iff.mp taken
    obtain ⟨system, stepped, rfl⟩ := Option.map_eq_some_iff.mp taken
    exact ⟨stepped, .inr ⟨node, lock, receives, released, rfl⟩⟩

theorem Invariant.withLock (inv : locked.Invariant) {node : NodeBase} {lock : ScopedLock Unit}
    (consistent : lock.Consistent)
    (same : (locked.lockOf node).scope.inside = true → ∀ other ∈
      locked.system.monitor.registry.vecNodeBase, other.serial = node.serial →
        other.asleep = true → lock.scope.inside = true) :
    (locked.withLock node lock).Invariant := by
  refine ⟨inv.monitored, ?_, ?_⟩
  · intro nodeID
    by_cases here : nodeID = node.serial
    · simpa only [LockedSystem.withLock, here, Function.update_self] using consistent
    · simpa only [LockedSystem.withLock, Function.update_of_ne here] using inv.consistent nodeID
  · intro other member sleeps
    have inner := inv.sleeping other member sleeps
    by_cases here : other.serial = node.serial
    · have kept := same (by simpa only [lockOf, here] using inner) other member here sleeps
      simpa only [LockedSystem.withLock, lockOf, here, Function.update_self] using kept
    · simpa only [LockedSystem.withLock, lockOf, Function.update_of_ne here] using inner

theorem Invariant.ofSystem (inv : locked.Invariant) {event : SystemEvent}
    (other : event.isNodeStep = false) (stepped : locked.system.step event = some after.system)
    (consistent : ∀ nodeID, (after.locks nodeID).Consistent)
    (scopes : ∀ nodeID, (after.locks nodeID).scope = (locked.locks nodeID).scope) :
    after.Invariant := by
  refine ⟨System.step_monitorInvariant inv.monitored stepped, consistent, ?_⟩
  intro node member sleeps
  obtain ⟨old, present, same, slept⟩ := System.asleep_before other stepped member sleeps
  have inner := inv.sleeping old present slept
  simpa only [lockOf, scopes, same] using inner

theorem nodeStep_invariant (inv : locked.Invariant) {index : Nat} {now : Bytes}
    {timedOut : Bool} (taken : locked.nodeStep index now timedOut = some after) :
    after.Invariant := by
  obtain ⟨node, moved, pushed, lock, found, step, kept, locks, nodes, stepped⟩ :=
    nodeStep_cases taken
  have member : node ∈ locked.system.monitor.registry.vecNodeBase := List.mem_of_getElem? found
  have coherent := inv.monitored.formed.coherent node member
  have same := NodeBase.threadStep_identity step
  have monitored := System.step_monitorInvariant inv.monitored stepped
  have inside : moved.asleep = true → lock.scope.inside = true := by
    intro sleeps
    have awake := (NodeBase.threadStep_asleep coherent step).symm.trans sleeps
    have waits : ∃ site, node.pc = .waitPong site := by
      cases position : node.pc <;> simp_all [NodeBase.answeredAwake]
    obtain ⟨rfl, inner⟩ := NodeBase.inside_of_lockAfter step kept sleeps waits
    exact inner
  refine ⟨monitored, ?_, ?_⟩
  · intro nodeID
    rw [locks]
    by_cases here : nodeID = node.serial
    · rw [here, Function.update_self]
      exact node.lockAfter_consistent (inv.consistent _) kept
    · rw [Function.update_of_ne here]
      exact inv.consistent nodeID
  · intro other present sleeps
    have placed : moved ∈ after.system.monitor.registry.vecNodeBase := by
      rw [nodes]
      exact List.mem_set (List.getElem?_eq_some_iff.mp found).1 moved
    unfold lockOf
    rw [locks]
    by_cases here : other.serial = node.serial
    · have equal := monitored.formed.eq_of_serial present placed (here.trans same.2.1.symm)
      rw [here, Function.update_self]
      exact inside (equal ▸ sleeps)
    · rw [Function.update_of_ne here]
      rw [nodes] at present
      rcases List.mem_or_eq_of_mem_set present with old | rfl
      · exact inv.sleeping other old sleeps
      · exact absurd same.2.1 here

theorem locksStep_invariant (inv : locked.Invariant) {index : Nat} {node : NodeBase}
    (found : locked.nodeAt index = some node) {lock : ScopedLock Unit}
    (consistent : lock.Consistent)
    (same : node.asleep = true → (locked.lockOf node).scope.inside = true →
      lock.scope.inside = true) : (locked.withLock node lock).Invariant := by
  refine inv.withLock consistent fun inner other member equal sleeps => ?_
  have one := inv.monitored.formed.eq_of_serial member (List.mem_of_getElem? found) equal
  exact same (one ▸ sleeps) inner

theorem step_run_cases {event : SystemEvent} (taken : locked.step (.run event) = some after) :
    (∃ index now timedOut, event = .nodeStep index now timedOut ∧
        locked.nodeStep index now timedOut = some after) ∨
      event = .handleReceived ∧ locked.handleReceived = some after ∨
      event.isNodeStep = false ∧ locked.system.step event = some after.system ∧
        after.locks = locked.locks := by
  cases event with
  | nodeStep index now timedOut => exact .inl ⟨index, now, timedOut, rfl, taken⟩
  | handleReceived => exact .inr (.inl ⟨rfl, taken⟩)
  | _ =>
      obtain ⟨system, stepped, rfl⟩ := Option.map_eq_some_iff.mp taken
      exact .inr (.inr ⟨rfl, stepped, rfl⟩)

theorem handleReceived_invariant (inv : locked.Invariant)
    (taken : locked.handleReceived = some after) : after.Invariant := by
  obtain ⟨stepped, locks | ⟨node, lock, _, released, locks⟩⟩ := handleReceived_cases taken
  · exact inv.ofSystem rfl stepped (locks ▸ inv.consistent) (by simp [locks])
  · refine inv.ofSystem rfl stepped ?_ ?_
    · intro nodeID
      rw [locks]
      by_cases here : nodeID = node.serial
      · rw [here, Function.update_self]
        exact ScopedLock.Consistent.release (inv.consistent _) released
      · rw [Function.update_of_ne here]
        exact inv.consistent nodeID
    · intro nodeID
      rw [locks]
      by_cases here : nodeID = node.serial
      · rw [here, Function.update_self]
        simp only [ScopedLock.release, Option.ite_none_right_eq_some, Option.some.injEq] at released
        exact released.2 ▸ rfl
      · rw [Function.update_of_ne here]

theorem step_invariant {event : LockedEvent} (inv : locked.Invariant)
    (taken : locked.step event = some after) : after.Invariant := by
  cases event with
  | run event =>
      rcases step_run_cases taken with ⟨index, now, timedOut, rfl, moves⟩ | ⟨rfl, handles⟩ |
        ⟨other, stepped, locks⟩
      · exact nodeStep_invariant inv moves
      · exact handleReceived_invariant inv handles
      · exact inv.ofSystem other stepped (locks ▸ inv.consistent) (by simp [locks])
  | lock index =>
      obtain ⟨node, found, taken⟩ := Option.bind_eq_some_iff.mp taken
      simp only [Option.ite_none_right_eq_some] at taken
      obtain ⟨lock, entered, rfl⟩ := Option.map_eq_some_iff.mp taken.2
      refine locksStep_invariant inv found (ScopedLock.Consistent.enter entered) ?_
      simp only [ScopedLock.enter, Option.ite_none_right_eq_some, Option.some.injEq] at entered
      exact fun _ _ => entered.2 ▸ rfl
  | wait index =>
      obtain ⟨node, found, taken⟩ := Option.bind_eq_some_iff.mp taken
      simp only [Option.ite_none_right_eq_some] at taken
      obtain ⟨lock, waits, rfl⟩ := Option.map_eq_some_iff.mp taken.2
      refine locksStep_invariant inv found (ScopedLock.Consistent.wait waits) ?_
      intro sleeps
      cases position : node.pc <;>
        simp [NodeBase.asleep, NodeBase.staysWaiting, position] at sleeps taken
  | wake index =>
      obtain ⟨node, found, taken⟩ := Option.bind_eq_some_iff.mp taken
      obtain ⟨lock, woken, rfl⟩ := Option.map_eq_some_iff.mp taken
      refine locksStep_invariant inv found (ScopedLock.Consistent.wake woken) ?_
      simp only [ScopedLock.wake, Option.ite_none_right_eq_some, Option.some.injEq] at woken
      exact fun _ _ => woken.2 ▸ rfl
  | unlock index =>
      obtain ⟨node, found, taken⟩ := Option.bind_eq_some_iff.mp taken
      obtain ⟨lock, left, rfl⟩ := Option.map_eq_some_iff.mp taken
      refine locksStep_invariant inv found (ScopedLock.Consistent.leave left) ?_
      simp only [ScopedLock.leave, Option.ite_none_right_eq_some, Option.some.injEq] at left
      intro _ inner
      simp [left.1, LockScope.inside] at inner
  | lockReceived =>
      obtain ⟨node, receives, taken⟩ := Option.bind_eq_some_iff.mp taken
      obtain ⟨lock, acquired, rfl⟩ := Option.map_eq_some_iff.mp taken
      refine inv.withLock (ScopedLock.Consistent.acquire (inv.consistent _) acquired) ?_
      simp only [ScopedLock.acquire, Option.ite_none_right_eq_some, Option.some.injEq] at acquired
      exact fun inner _ _ _ _ => acquired.2 ▸ inner

theorem step_unstalled_iff {event : LockedEvent} (inv : locked.Invariant)
    (free : locked.Unstalled) (taken : locked.step event = some after) :
    after.Unstalled ↔ locked.answersAsleep event = true := by
  have awake := inv.unstalled_iff.mp free
  rw [(step_invariant inv taken).unstalled_iff]
  have quiet {inner : SystemEvent} (other : inner.isNodeStep = false)
      (stepped : locked.system.step inner = some after.system) :
      ∀ node ∈ after.system.monitor.registry.vecNodeBase, node.asleep = false := by
    intro node member
    by_contra sleeps
    obtain ⟨old, present, _, slept⟩ :=
      System.asleep_before other stepped member (by simpa using sleeps)
    simp [awake old present] at slept
  cases event with
  | run event =>
      rcases step_run_cases taken with ⟨index, now, timedOut, rfl, moves⟩ | ⟨rfl, handles⟩ |
        ⟨other, stepped, locks⟩
      · obtain ⟨node, moved, pushed, lock, found, step, _, _, nodes, _⟩ := nodeStep_cases moves
        have member : node ∈ locked.system.monitor.registry.vecNodeBase :=
          List.mem_of_getElem? found
        have answered := NodeBase.threadStep_asleep (inv.monitored.formed.coherent node member) step
        simp only [answersAsleep, found, Bool.not_eq_true', ← answered, nodes]
        constructor
        · intro all
          exact all moved (List.mem_set (List.getElem?_eq_some_iff.mp found).1 moved)
        · intro falls other present
          rcases List.mem_or_eq_of_mem_set present with old | rfl
          · exact awake other old
          · exact falls
      · exact iff_of_true (quiet rfl (handleReceived_cases handles).1) rfl
      · refine iff_of_true (quiet other stepped) ?_
        cases event <;> first | rfl | simp [SystemEvent.isNodeStep] at other
  | lock index | wait index =>
      obtain ⟨node, _, taken⟩ := Option.bind_eq_some_iff.mp taken
      simp only [Option.ite_none_right_eq_some] at taken
      obtain ⟨_, _, rfl⟩ := Option.map_eq_some_iff.mp taken.2
      exact iff_of_true awake rfl
  | wake index | unlock index | lockReceived =>
      obtain ⟨node, _, taken⟩ := Option.bind_eq_some_iff.mp taken
      obtain ⟨_, _, rfl⟩ := Option.map_eq_some_iff.mp taken
      exact iff_of_true awake rfl

/-- No node sleeps with its mutex and no PONG waits for a sleeping node, all through a run, exactly
when no PONG ends a wait of `AliveState` or `TimeoutState` in the run. -/
theorem unstalled_iff_answersAsleep {events : List LockedEvent} {final : LockedSystem}
    (replay : runFrom step initial events = some final) :
    (∀ first second middle, events = first ++ second →
        runFrom step initial first = some middle → middle.Unstalled) ↔
      checkFrom step answersAsleep initial events = true :=
  always_iff_checkFrom Invariant Unstalled (fun _ _ _ inv taken => step_invariant inv taken)
    (fun _ _ _ inv free taken => step_unstalled_iff inv free taken) initial_invariant
    (initial_invariant.unstalled_iff.mpr
      (by simp [initial, System.initial, Monitor.initial, Registry.empty])) replay

end LockedSystem

def pongDatagram (port : BitVec 16) : Recvfrom :=
  .received [0x02, 0x02] ⟨0x0100007f, port⟩ (by decide)

def takeDatagram (datagram : Recvfrom) : List LockedEvent :=
  [.run (.receive datagram), .run .popBuffer, .run .checkBuffer, .run .pushMessageReceived]

def popReceived : List LockedEvent := [.run .popReceived, .run .checkReceived]

def twoRegistered : List LockedEvent :=
  (startNodeManagamentEvents ++ startIOHandlerEvents).map .run ++
    takeDatagram registerDatagram ++ popReceived ++ [.run .handleReceived] ++
    takeDatagram otherRegisterDatagram ++ popReceived ++ [.run .handleReceived]

def answeredPing : List LockedEvent :=
  [.run (.nodeStep 0 [] false), .lock 0, .run (.nodeStep 0 [] false), .unlock 0,
    .run (.nodeStep 0 [] false), .run (.nodeStep 0 [] false), .lock 0, .wait 0] ++
    takeDatagram (pongDatagram 0x204e) ++ popReceived ++ [.lockReceived, .run .handleReceived,
    .wake 0, .run (.nodeStep 0 [] false)]

theorem unstalled_firstAnswer :
    ∃ final : LockedSystem,
      runFrom LockedSystem.step .initial (twoRegistered ++ answeredPing) = some final ∧
      (∃ node ∈ final.system.monitor.registry.vecNodeBase, node.currentState = .alive) ∧
      final.Unstalled := by
  have ended : (runFrom LockedSystem.step .initial (twoRegistered ++ answeredPing)).any
      (fun final => final.system.monitor.registry.vecNodeBase.any
        fun node => node.currentState == .alive) = true := by decide +kernel
  obtain ⟨final, replay, alive⟩ := (Option.any_eq_true _ _).mp ended
  obtain ⟨node, member, state⟩ := List.any_eq_true.mp alive
  refine ⟨final, replay, ⟨node, member, by simpa using state⟩, ?_⟩
  exact (LockedSystem.unstalled_iff_answersAsleep replay).mpr (by decide +kernel)
    (twoRegistered ++ answeredPing) [] final (List.append_nil _).symm replay

def pongInSleep : List LockedEvent :=
  twoRegistered ++ answeredPing ++ [.unlock 0] ++ answeredPing ++
    takeDatagram (pongDatagram 0x204e) ++ takeDatagram (pongDatagram 0x214e) ++ popReceived

theorem pong_stalled :
    ∃ final : LockedSystem, runFrom LockedSystem.step .initial pongInSleep = some final ∧
      ¬final.Unstalled ∧ final.step .lockReceived = none ∧
      final.step (.run .handleReceived) = none ∧
      ∃ pointer ∈ final.system.receivedIOQueue.queue.queue, ∃ object,
        pointer.pointee = some object ∧ object.base.typeMessage = .pong ∧
          object.base.clientAddr.sinPort = 0x214e := by
  have ended : (runFrom LockedSystem.step .initial pongInSleep).any (fun final =>
      (LockedSystem.pongReceiver final.system).any (fun node =>
        node.asleep && (final.lockOf node).owner == some .scoped) &&
      ((final.step .lockReceived).isNone && ((final.step (.run .handleReceived)).isNone &&
      final.system.receivedIOQueue.queue.queue.any fun pointer => pointer.pointee.any fun object =>
        object.base.typeMessage == .pong && object.base.clientAddr.sinPort == 0x214e))) = true := by
    decide +kernel
  obtain ⟨final, replay, found⟩ := (Option.any_eq_true _ _).mp ended
  simp only [Bool.and_eq_true, Option.isNone_iff_eq_none] at found
  obtain ⟨sleeper, noLock, noHandling, behind⟩ := found
  obtain ⟨node, receives, sleeps⟩ := (Option.any_eq_true _ _).mp sleeper
  obtain ⟨pointer, member, waiting⟩ := List.any_eq_true.mp behind
  obtain ⟨object, points, other⟩ := (Option.any_eq_true _ _).mp waiting
  simp only [Bool.and_eq_true, beq_iff_eq] at sleeps other
  exact ⟨final, replay, fun free => free.receiver node receives sleeps, noLock, noHandling, pointer,
    member, object, points, other⟩

end NodeManagement
