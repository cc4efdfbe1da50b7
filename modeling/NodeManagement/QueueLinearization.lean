import NodeManagement.QueueWaits

/-!
`ThreadSafeQueue` is linearizable: whatever the threads interleave, their calls have the results and
leave the content behind that they would have as single steps.  A `push` that has read `m_running`
before a `stop` and appends after it takes place just before that `stop`.
-/

namespace NodeManagement

open Linearization Transition

namespace ThreadSafeQueue

variable {α : Type} {q after : ThreadSafeQueue α}

def Idle (operation : Operation (SharedCall α) (Option (Int × α))) : Prop :=
  ∀ q : ThreadSafeQueue α, q.running = false →
    q.answer operation.call = some (operation.result, q)

theorem answer_of_stopped {call : SharedCall α} {result : Option (Int × α)}
    (stopped : q.running = false) (still : after.running = false)
    (answered : q.answer call = some (result, after)) :
    after = q ∧ ∀ other : ThreadSafeQueue α, other.running = false →
      other.answer call = some (result, other) := by
  cases call with
  | push value bForce =>
      simp only [answer, push_of_stopped stopped, Option.some.injEq, Prod.mk.injEq] at answered
      refine ⟨answered.2.symm, fun other stoppedToo => ?_⟩
      simp [answer, push_of_stopped stoppedToo, answered.1]
  | waitAndPop value =>
      simp only [answer, waitAndPop, stopped, Bool.not_false, Bool.true_or, if_true,
        Option.map_some, Option.some.injEq, Prod.mk.injEq] at answered
      refine ⟨answered.2.symm, fun other stoppedToo => ?_⟩
      simp [answer, waitAndPop, stoppedToo, ← answered.1]
  | stop =>
      simp only [answer, stop, stopped, Bool.false_eq_true, if_false, Option.some.injEq,
        Prod.mk.injEq] at answered
      refine ⟨answered.2.symm, fun other stoppedToo => ?_⟩
      simp [answer, stop, stoppedToo, answered.1]
  | start =>
      obtain ⟨_, rfl⟩ := Prod.mk.inj (Option.some.inj answered)
      simp at still

theorem answer_stops {call : SharedCall α} {result : Option (Int × α)} (running : q.running = true)
    (stopped : after.running = false) (answered : q.answer call = some (result, after)) :
    call = .stop ∧ result = none ∧ after.queue = q.queue := by
  cases call with
  | push value bForce =>
      obtain ⟨_, rfl⟩ := Prod.mk.inj (Option.some.inj answered)
      simp [running] at stopped
  | waitAndPop value =>
      obtain ⟨⟨code, item, rest⟩, returned, same⟩ := Option.map_eq_some_iff.mp answered
      obtain ⟨_, rfl⟩ := Prod.mk.inj same
      rcases waitAndPop_cases returned with ⟨still, _⟩ | ⟨_, _, _, _, rfl⟩
      · simp [running] at still
      · simp [running] at stopped
  | stop =>
      obtain ⟨rfl, rfl⟩ := Prod.mk.inj (Option.some.inj answered)
      exact ⟨rfl, rfl, q.stop_queue⟩
  | start =>
      obtain ⟨_, rfl⟩ := Prod.mk.inj (Option.some.inj answered)
      simp at stopped

theorem answer_push_running (q : ThreadSafeQueue α) (value : α) (bForce : Bool) :
    answer ⟨q.queue, true⟩ (.push value bForce) =
      some (none, ⟨if q.isFull && !bForce then q.queue
        else (if q.isFull then q.queue.tail else q.queue) ++ [value], true⟩) := by
  have full : isFull ⟨q.queue, true⟩ = q.isFull := rfl
  simp only [answer, push, full]
  cases q.isFull <;> cases bForce <;> rfl

end ThreadSafeQueue

def CallPc.pushing {α : Type} : CallPc α → Bool
  | .locks (.push _ _) | .works (.push _ _) => true
  | _ => false

namespace SharedQueue

variable {α : Type}

/-- The calls that have had their effect and have still to notify. -/
def Pending (shared : SharedQueue α) (operation : Operation (SharedCall α) (Option (Int × α))) :
    Prop :=
  shared.pc operation.thread = .notifies operation.call ∧ operation.result = none ∧
    operation.invoked = shared.invoked operation.thread

def Done (shared : SharedQueue α) (thread : Nat) (call : SharedCall α) (result : Option (Int × α))
    (after : SharedQueue α) : Prop :=
  after.history = shared.history ++ [⟨shared.operation thread call result, shared.clock⟩] ∧
      after.pc thread = .idle ∨
    after.history = shared.history ∧ after.pc thread = .notifies call ∧ result = none

inductive Effect (shared : SharedQueue α) (thread : Nat) (after : SharedQueue α) : Prop
  | silent (before : ∀ call, shared.pc thread ≠ .notifies call)
      (behind : ∀ call, after.pc thread ≠ .notifies call)
      (content : after.content = shared.content) (history : after.history = shared.history)
      (pushes : (after.pc thread).pushing = true →
        shared.content.running = true ∨ (shared.pc thread).pushing = true)
  | performs {call : SharedCall α} {result : Option (Int × α)} (inside : shared.pc thread ≠ .idle)
      (before : ∀ call, shared.pc thread ≠ .notifies call)
      (answered : shared.content.answer call = some (result, after.content))
      (done : shared.Done thread call result after)
  | late {value : α} {bForce : Bool} (here : (shared.pc thread).pushing = true)
      (stopped : shared.content.running = false)
      (content : after.content = ⟨if shared.content.isFull && !bForce then shared.content.queue
        else (if shared.content.isFull then shared.content.queue.tail
          else shared.content.queue) ++ [value], false⟩)
      (done : shared.Done thread (.push value bForce) none after)
  | notified {call : SharedCall α} (here : shared.pc thread = .notifies call)
      (content : after.content = shared.content)
      (history : after.history =
        shared.history ++ [⟨shared.operation thread call none, shared.clock⟩])
      (idle : after.pc thread = .idle)

structure Moves (shared : SharedQueue α) (thread : Nat) (after : SharedQueue α) : Prop where
  others : ∀ other ≠ thread, after.pc other = shared.pc other ∨
    after.pc other = (shared.pc other).woken
  invoked : ∀ other, shared.pc other ≠ .idle → after.invoked other = shared.invoked other
  begins : shared.pc thread = .idle → after.invoked thread = shared.clock
  clock : after.clock = shared.clock + 1

variable {shared after : SharedQueue α} {thread : Nat}

theorem Moves.of_goto {pc : CallPc α} (inside : shared.pc thread ≠ .idle)
    (pcs : after.pc = Function.update shared.pc thread pc)
    (invoked : after.invoked = shared.invoked) (clock : after.clock = shared.clock + 1) :
    shared.Moves thread after where
  others := fun other apart => .inl (by rw [pcs, Function.update_of_ne apart])
  invoked := fun _ _ => by rw [invoked]
  begins := fun idle => absurd idle inside
  clock := clock

theorem done_of_leave {call : SharedCall α} {result : Option (Int × α)}
    {content : ThreadSafeQueue α} :
    shared.Done thread call result (shared.leave thread call result content) :=
  .inl ⟨rfl, Function.update_self ..⟩

theorem done_of_notifies {call : SharedCall α} (history : after.history = shared.history)
    (pcs : after.pc = Function.update shared.pc thread (.notifies call)) :
    shared.Done thread call none after :=
  .inr ⟨history, by rw [pcs, Function.update_self], rfl⟩

theorem push_effect {value : α} {bForce : Bool}
    (here : shared.pc thread = .works (.push value bForce))
    (content : after.content = ⟨if shared.content.isFull && !bForce then shared.content.queue
      else (if shared.content.isFull then shared.content.queue.tail
        else shared.content.queue) ++ [value], shared.content.running⟩)
    (done : shared.Done thread (.push value bForce) none after) : shared.Effect thread after := by
  cases running : shared.content.running with
  | true =>
      refine .performs (by simp [here]) (by simp [here]) ?_ done
      have answered := shared.content.answer_push_running value bForce
      rw [content, running, ← answered, ← running]
  | false => exact .late (by rw [here]; rfl) running (running ▸ content) done

theorem step_effect {event : SharedEvent α} (guarded : shared.Guarded)
    (taken : shared.step event = some after) :
    ∃ thread, shared.Moves thread after ∧ shared.Effect thread after := by
  cases step_move taken with
  | @begins thread pc idle head =>
      refine ⟨thread, ⟨fun other apart => .inl ?_, fun other inside => ?_, fun _ => ?_, rfl⟩, ?_⟩
      · exact Function.update_of_ne apart _ _
      · exact Function.update_of_ne (by rintro rfl; exact inside idle) _ _
      · exact Function.update_self ..
      · have own : Function.update shared.pc thread pc thread = pc := Function.update_self ..
        rcases head with ⟨value, bForce, rfl⟩ | ⟨call, rfl, noPush⟩
        · exact .silent (by simp [idle]) (by simp [goto]) rfl rfl
            (by simp [goto, CallPc.pushing])
        · refine .silent (by simp [idle]) (by simp [goto]) rfl rfl ?_
          cases call with
          | push value bForce => exact absurd rfl (noPush value bForce)
          | _ => simp [goto, CallPc.pushing]
  | @refused thread value bForce here stopped =>
      refine ⟨thread, .of_goto (by simp [here]) rfl rfl rfl,
        .performs (by simp [here]) (by simp [here]) (?_ : _ = some (none, _))
          (.inl ⟨rfl, Function.update_self ..⟩)⟩
      simp [ThreadSafeQueue.answer, ThreadSafeQueue.push_of_stopped stopped, finish, goto]
  | @admitted thread value bForce here running =>
      exact ⟨thread, .of_goto (by simp [here]) rfl rfl rfl,
        .silent (by simp [here]) (by simp [goto]) rfl rfl fun _ => .inl running⟩
  | @locked thread call here =>
      refine ⟨thread, .of_goto (by simp [here]) rfl rfl rfl,
        .silent (by simp [here]) ?_ rfl rfl ?_⟩ <;> cases call <;>
        simp [goto, CallPc.enter, CallPc.pushing, here]
  | @relocked thread value here =>
      exact ⟨thread, .of_goto (by simp [here]) rfl rfl rfl,
        .silent (by simp [here]) (by simp [goto]) rfl rfl (by simp [goto, CallPc.pushing])⟩
  | @ready thread value here =>
      exact ⟨thread, .of_goto (by simp [here]) rfl rfl rfl,
        .silent (by simp [here]) (by simp [goto]) rfl rfl (by simp [goto, CallPc.pushing])⟩
  | @sleeps thread value here =>
      exact ⟨thread, .of_goto (by simp [here]) rfl rfl rfl,
        .silent (by simp [here]) (by simp [goto]) rfl rfl (by simp [goto, CallPc.pushing])⟩
  | @wakes thread value here =>
      exact ⟨thread, .of_goto (by simp [here]) rfl rfl rfl,
        .silent (by simp [here]) (by simp [goto]) rfl rfl (by simp [goto, CallPc.pushing])⟩
  | @dropped thread value bForce here full unforced =>
      refine ⟨thread, .of_goto (by simp [here]) rfl rfl rfl, push_effect here ?_ done_of_leave⟩
      simp [leave, full, unforced]
  | @pushed thread value bForce here room =>
      refine ⟨thread, .of_goto (by simp [here]) rfl rfl rfl,
        push_effect here ?_ (done_of_notifies rfl rfl)⟩
      cases full : shared.content.isFull with
      | false => simp
      | true => simp [room full]
  | @answered thread value result content here running returned =>
      exact ⟨thread, .of_goto (by simp [here]) rfl rfl rfl,
        .performs (by simp [here]) (by simp [here])
          (returned (guarded.ready thread value here)) done_of_leave⟩
  | @again thread call here flag =>
      refine ⟨thread, .of_goto (by simp [here]) rfl rfl rfl,
        .performs (by simp [here]) (by simp [here]) ?_ done_of_leave⟩
      rcases flag with ⟨rfl, stopped⟩ | ⟨rfl, running⟩
      · simp [ThreadSafeQueue.answer, ThreadSafeQueue.stop, stopped, leave]
      · simp [ThreadSafeQueue.answer, ThreadSafeQueue.start, running, leave]
  | @stopped thread here running =>
      refine ⟨thread, .of_goto (by simp [here]) rfl rfl rfl,
        .performs (by simp [here]) (by simp [here]) ?_ (done_of_notifies rfl rfl)⟩
      simp [ThreadSafeQueue.answer, ThreadSafeQueue.stop, running]
  | @started thread here stopped =>
      refine ⟨thread, .of_goto (by simp [here]) rfl rfl rfl,
        .performs (by simp [here]) (by simp [here]) ?_ (done_of_notifies rfl rfl)⟩
      simp [ThreadSafeQueue.answer, ThreadSafeQueue.start, stopped]
  | @notified thread call here =>
      refine ⟨thread, ⟨fun other apart => .inr ?_, fun _ _ => rfl, ?_, rfl⟩,
        .notified here rfl rfl (Function.update_self ..)⟩
      · exact Function.update_of_ne apart _ _
      · simp [here]


theorem Moves.notifies_iff (moves : shared.Moves thread after) {other : Nat}
    (apart : other ≠ thread) {call : SharedCall α} :
    after.pc other = .notifies call ↔ shared.pc other = .notifies call := by
  rcases moves.others other apart with same | same
  · rw [same]
  · rw [same]
    cases shared.pc other <;> simp [CallPc.woken]

theorem Moves.pushing_eq (moves : shared.Moves thread after) {other : Nat}
    (apart : other ≠ thread) : (after.pc other).pushing = (shared.pc other).pushing := by
  rcases moves.others other apart with same | same
  · rw [same]
  · rw [same]
    cases shared.pc other <;> rfl

theorem Moves.idle_iff (moves : shared.Moves thread after) {other : Nat} (apart : other ≠ thread) :
    after.pc other = .idle ↔ shared.pc other = .idle := by
  rcases moves.others other apart with same | same
  · rw [same]
  · rw [same]
    cases shared.pc other <;> simp [CallPc.woken]

structure Timed (shared : SharedQueue α) : Prop where
  current : ∀ thread, shared.pc thread ≠ .idle → shared.invoked thread < shared.clock
  past : ∀ completed ∈ shared.history, completed.operation.invoked < shared.clock
  fresh : ∀ completed ∈ shared.history, shared.pc completed.operation.thread ≠ .idle →
    completed.operation.invoked < shared.invoked completed.operation.thread

theorem create_timed : (create : SharedQueue α).Timed where
  current := by simp [create]
  past := by simp [create]
  fresh := by simp [create]

theorem Effect.history_cases (effect : shared.Effect thread after) :
    after.history = shared.history ∨
      shared.pc thread ≠ .idle ∧ after.pc thread = .idle ∧ ∃ call result, after.history =
        shared.history ++ [⟨shared.operation thread call result, shared.clock⟩] := by
  cases effect with
  | silent _ _ _ history => exact .inl history
  | performs inside _ _ done =>
      rcases done with ⟨history, idle⟩ | ⟨history, _⟩
      · exact .inr ⟨inside, idle, _, _, history⟩
      · exact .inl history
  | late here _ _ done =>
      have inside : shared.pc thread ≠ .idle := by
        intro idle
        simp [idle, CallPc.pushing] at here
      rcases done with ⟨history, idle⟩ | ⟨history, _⟩
      · exact .inr ⟨inside, idle, _, _, history⟩
      · exact .inl history
  | notified here _ history idle => exact .inr ⟨by simp [here], idle, _, _, history⟩

theorem Timed.step (timed : shared.Timed) (moves : shared.Moves thread after)
    (effect : shared.Effect thread after) : after.Timed := by
  have later {time : Nat} (before : time < shared.clock) : time < after.clock :=
    moves.clock ▸ Nat.lt_succ_of_lt before
  have invoked (other : Nat) (inside : after.pc other ≠ .idle) :
      after.invoked other = shared.clock ∨
        shared.pc other ≠ .idle ∧ after.invoked other = shared.invoked other := by
    by_cases own : other = thread
    · subst own
      by_cases idle : shared.pc other = .idle
      · exact .inl (moves.begins idle)
      · exact .inr ⟨idle, moves.invoked other idle⟩
    · have insideBefore := (moves.idle_iff own).not.mp inside
      exact .inr ⟨insideBefore, moves.invoked other insideBefore⟩
  have kept_fresh {completed : Completed (SharedCall α) (Option (Int × α))}
      (member : completed ∈ shared.history) (inside : after.pc completed.operation.thread ≠ .idle) :
      completed.operation.invoked < after.invoked completed.operation.thread := by
    rcases invoked _ inside with now | ⟨insideBefore, same⟩
    · exact now ▸ timed.past completed member
    · exact same ▸ timed.fresh completed member insideBefore
  refine ⟨fun other inside => ?_, ?_, ?_⟩
  · rcases invoked other inside with now | ⟨insideBefore, same⟩
    · rw [now, moves.clock]
      exact Nat.lt_succ_self _
    · exact same ▸ later (timed.current other insideBefore)
  all_goals
    rcases effect.history_cases with history | ⟨inside, idle, call, result, history⟩
    all_goals simp only [history, List.forall_mem_append, List.forall_mem_singleton]
  · exact fun completed member => later (timed.past completed member)
  · exact ⟨fun completed member => later (timed.past completed member),
      later (timed.current thread inside)⟩
  · exact fun completed member => kept_fresh member
  · exact ⟨fun completed member => kept_fresh member, fun busy => absurd idle busy⟩

structure Booked (shared : SharedQueue α)
    (order : List (Placed (SharedCall α) (Option (Int × α)))) : Prop where
  sorted : order.Pairwise fun earlier later => earlier.point ≤ later.point
  past : ∀ placed ∈ order, placed.point < shared.clock
  begun : ∀ placed ∈ order, placed.operation.invoked ≤ placed.point
  ended : ∀ completed ∈ shared.history, ∃ placed ∈ order,
    placed.operation = completed.operation ∧ placed.point ≤ completed.returned
  genuine : ∀ placed ∈ order,
    (∃ completed ∈ shared.history, completed.operation = placed.operation) ∨
      shared.Pending placed.operation
  once : (order.map fun placed => placed.operation.name).Nodup
  awaited : ∀ thread call, shared.pc thread = .notifies call →
    ∃ placed ∈ order, placed.operation = shared.operation thread call none

variable {order front back : List (Placed (SharedCall α) (Option (Int × α)))}

theorem Booked.kept_genuine (booked : shared.Booked order) (moves : shared.Moves thread after)
    (before : ∀ call, shared.pc thread ≠ .notifies call)
    (grows : ∀ completed ∈ shared.history, completed ∈ after.history)
    {placed : Placed (SharedCall α) (Option (Int × α))} (member : placed ∈ order) :
    (∃ completed ∈ after.history, completed.operation = placed.operation) ∨
      after.Pending placed.operation := by
  rcases booked.genuine placed member with ⟨completed, old, same⟩ | ⟨notifies, result, invoked⟩
  · exact .inl ⟨completed, grows completed old, same⟩
  · have apart : placed.operation.thread ≠ thread := by
      rintro rfl
      exact before _ notifies
    exact .inr ⟨(moves.notifies_iff apart).mpr notifies, result,
      invoked.trans (moves.invoked _ (by simp [notifies])).symm⟩

theorem Booked.kept_awaited (booked : shared.Booked order) (moves : shared.Moves thread after)
    {other : Nat} (apart : other ≠ thread) {call : SharedCall α}
    (notifies : after.pc other = .notifies call) :
    ∃ placed ∈ order, placed.operation = after.operation other call none := by
  have notifiesBefore := (moves.notifies_iff apart).mp notifies
  obtain ⟨placed, member, same⟩ := booked.awaited other call notifiesBefore
  refine ⟨placed, member, ?_⟩
  rw [same, operation, operation, moves.invoked other (by simp [notifiesBefore])]

theorem Booked.silent (booked : shared.Booked order) (moves : shared.Moves thread after)
    (before : ∀ call, shared.pc thread ≠ .notifies call)
    (behind : ∀ call, after.pc thread ≠ .notifies call)
    (history : after.history = shared.history) : after.Booked order where
  sorted := booked.sorted
  past := fun placed member => moves.clock ▸ Nat.lt_succ_of_lt (booked.past placed member)
  begun := booked.begun
  ended := by rw [history]; exact booked.ended
  genuine := fun placed => booked.kept_genuine moves before (by simp [history])
  once := booked.once
  awaited := by
    intro other call notifies
    refine booked.kept_awaited moves ?_ notifies
    rintro rfl
    exact behind call notifies

theorem Booked.notified (booked : shared.Booked order) (moves : shared.Moves thread after)
    {call : SharedCall α} (here : shared.pc thread = .notifies call)
    (history : after.history =
      shared.history ++ [⟨shared.operation thread call none, shared.clock⟩])
    (idle : after.pc thread = .idle) : after.Booked order where
  sorted := booked.sorted
  past := fun placed member => moves.clock ▸ Nat.lt_succ_of_lt (booked.past placed member)
  begun := booked.begun
  ended := by
    rw [history]
    simp only [List.forall_mem_append, List.forall_mem_singleton]
    refine ⟨booked.ended, ?_⟩
    obtain ⟨placed, member, same⟩ := booked.awaited thread call here
    exact ⟨placed, member, same, (booked.past placed member).le⟩
  genuine := by
    intro placed member
    rcases booked.genuine placed member with ⟨completed, old, same⟩ | ⟨notifies, result, invoked⟩
    · exact .inl ⟨completed, by simp [history, old], same⟩
    · by_cases own : placed.operation.thread = thread
      · refine .inl ⟨⟨shared.operation thread call none, shared.clock⟩, by simp [history], ?_⟩
        obtain ⟨⟨owner, began, called, answered⟩, point⟩ := placed
        dsimp only at own notifies result invoked ⊢
        subst own
        obtain rfl := CallPc.notifies.inj (here.symm.trans notifies)
        rw [operation, result, invoked]
      · exact .inr ⟨(moves.notifies_iff own).mpr notifies, result,
          invoked.trans (moves.invoked _ (by simp [notifies])).symm⟩
  once := booked.once
  awaited := by
    intro other called notifies
    refine booked.kept_awaited moves ?_ notifies
    rintro rfl
    simp [idle] at notifies

theorem Booked.insert (booked : shared.Booked (front ++ back)) (timed : shared.Timed)
    (moves : shared.Moves thread after) (inside : shared.pc thread ≠ .idle)
    (before : ∀ call, shared.pc thread ≠ .notifies call) {call : SharedCall α}
    {result : Option (Int × α)} (done : shared.Done thread call result after) {point : Nat}
    (began : shared.invoked thread ≤ point) (now : point ≤ shared.clock)
    (behind : ∀ placed ∈ front, placed.point ≤ point) (ahead : ∀ placed ∈ back,
      point ≤ placed.point) :
    after.Booked (front ++ ⟨shared.operation thread call result, point⟩ :: back) := by
  have split {P : Placed (SharedCall α) (Option (Int × α)) → Prop}
      (old : ∀ placed ∈ front ++ back, P placed)
      (new : P ⟨shared.operation thread call result, point⟩) :
      ∀ placed ∈ front ++ ⟨shared.operation thread call result, point⟩ :: back, P placed := by
    intro placed member
    rcases List.mem_append.mp member with earlier | rest
    · exact old placed (List.mem_append_left _ earlier)
    · rcases List.mem_cons.mp rest with rfl | later
      · exact new
      · exact old placed (List.mem_append_right _ later)
  have kept {placed : Placed (SharedCall α) (Option (Int × α))} (member : placed ∈ front ++ back) :
      placed ∈ front ++ ⟨shared.operation thread call result, point⟩ :: back := by
    rcases List.mem_append.mp member with earlier | later
    · exact List.mem_append_left _ earlier
    · exact List.mem_append_right _ (List.mem_cons_of_mem _ later)
  have own : (⟨shared.operation thread call result, point⟩ : Placed _ _) ∈
      front ++ ⟨shared.operation thread call result, point⟩ :: back :=
    List.mem_append_right _ List.mem_cons_self
  have grows : ∀ completed ∈ shared.history, completed ∈ after.history := by
    rcases done with ⟨history, _⟩ | ⟨history, _⟩ <;> rw [history]
    · exact fun completed member => List.mem_append_left _ member
    · exact fun completed member => member
  refine ⟨?_, split (fun placed member => ?_) ?_, split booked.begun began, ?_, split ?_ ?_, ?_, ?_⟩
  · obtain ⟨sortedFront, sortedBack, apart⟩ := List.pairwise_append.mp booked.sorted
    refine List.pairwise_append.mpr ⟨sortedFront, List.pairwise_cons.mpr ⟨ahead, sortedBack⟩, ?_⟩
    intro earlier member
    simp only [List.forall_mem_cons]
    exact ⟨behind earlier member, apart earlier member⟩
  · exact moves.clock ▸ Nat.lt_succ_of_lt (booked.past placed member)
  · exact moves.clock ▸ Nat.lt_succ_of_le now
  · have old : ∀ completed ∈ shared.history, ∃ placed ∈
        front ++ ⟨shared.operation thread call result, point⟩ :: back,
        placed.operation = completed.operation ∧ placed.point ≤ completed.returned := by
      intro completed member
      obtain ⟨placed, booked, same, ended⟩ := booked.ended completed member
      exact ⟨placed, kept booked, same, ended⟩
    rcases done with ⟨history, _⟩ | ⟨history, _⟩ <;> rw [history]
    · simp only [List.forall_mem_append, List.forall_mem_singleton]
      exact ⟨old, _, own, rfl, now⟩
    · exact old
  · exact fun placed => booked.kept_genuine moves before grows
  · rcases done with ⟨history, _⟩ | ⟨_, notifies, none⟩
    · exact .inl ⟨_, by rw [history]; exact List.mem_append_right _ List.mem_cons_self, rfl⟩
    · exact .inr ⟨notifies, none, (moves.invoked thread inside).symm⟩
  · have fresh : (shared.operation thread call result).name ∉
        (front ++ back).map fun placed => placed.operation.name := by
      intro taken
      obtain ⟨placed, member, same⟩ := List.mem_map.mp taken
      obtain ⟨sameThread, sameTime⟩ := Prod.mk.inj same
      dsimp only [operation] at sameThread sameTime
      rcases booked.genuine placed member with ⟨completed, old, operation⟩ | ⟨notifies, _⟩
      · have earlier := timed.fresh completed old (by rwa [operation, sameThread])
        rw [operation, sameThread] at earlier
        omega
      · exact before _ (sameThread ▸ notifies)
    have once := booked.once
    rw [List.map_append] at once fresh
    rw [List.map_append, List.map_cons]
    exact List.nodup_middle.mpr (List.nodup_cons.mpr ⟨fresh, once⟩)
  · intro other called notifies
    by_cases same : other = thread
    · subst same
      rcases done with ⟨_, idle⟩ | ⟨_, notifiesOwn, rfl⟩
      · simp [idle] at notifies
      · obtain rfl := CallPc.notifies.inj (notifies.symm.trans notifiesOwn)
        refine ⟨_, own, ?_⟩
        rw [operation, operation, moves.invoked other inside]
    · obtain ⟨placed, member, equal⟩ := booked.kept_awaited moves same notifies
      exact ⟨placed, kept member, equal⟩

/-- Since the last `stop` of a stopped queue nothing has changed its content but calls that are
settled before that `stop`. -/
inductive Since (shared : SharedQueue α) :
    List (Placed (SharedCall α) (Option (Int × α))) → Prop
  | running (flag : shared.content.running = true) : Since shared []
  | stopped {stop : Placed (SharedCall α) (Option (Int × α))}
      {rest : List (Placed (SharedCall α) (Option (Int × α)))}
      (flag : shared.content.running = false) (call : stop.operation.call = .stop)
      (result : stop.operation.result = none)
      (idle : ∀ placed ∈ rest, ThreadSafeQueue.Idle placed.operation)
      (pushes : ∀ thread, (shared.pc thread).pushing = true →
        shared.invoked thread ≤ stop.point) : Since shared (stop :: rest)

structure Ordered (shared : SharedQueue α)
    (settled since : List (Placed (SharedCall α) (Option (Int × α)))) : Prop where
  performs : Performs ThreadSafeQueue.answer .create (settled.map Placed.operation)
    ⟨shared.content.queue, true⟩
  tail : shared.Since since
  booked : shared.Booked (settled ++ since)

variable {settled since : List (Placed (SharedCall α) (Option (Int × α)))}

theorem create_ordered : (create : SharedQueue α).Ordered [] [] where
  performs := .nil _
  tail := .running rfl
  booked := ⟨.nil, by simp, by simp, by simp [create], by simp, .nil, by simp [create]⟩

theorem Ordered.performs_all (ordered : shared.Ordered settled since) :
    Performs ThreadSafeQueue.answer .create ((settled ++ since).map Placed.operation)
      shared.content := by
  have settledFirst := ordered.performs
  rw [List.map_append]
  cases ordered.tail with
  | running flag =>
      rw [List.map_nil, List.append_nil]
      rwa [← flag] at settledFirst
  | @stopped stop rest flag call result idle _ =>
      refine settledFirst.append (.cons (?_ : _ = some (_, shared.content)) (.of_idle ?_))
      · simp [call, result, ThreadSafeQueue.answer, ThreadSafeQueue.stop, ← flag]
      · intro operation member
        obtain ⟨placed, inside, rfl⟩ := List.mem_map.mp member
        exact idle placed inside _ flag

theorem Moves.kept_pushes (moves : shared.Moves thread after) {point : Nat}
    (pushes : ∀ other, (shared.pc other).pushing = true → shared.invoked other ≤ point)
    (own : (after.pc thread).pushing = true → (shared.pc thread).pushing = true) (other : Nat)
    (pushing : (after.pc other).pushing = true) : after.invoked other ≤ point := by
  have pushingBefore : (shared.pc other).pushing = true := by
    by_cases same : other = thread
    · subst same
      exact own pushing
    · rwa [← moves.pushing_eq same]
  have inside : shared.pc other ≠ .idle := by
    intro idle
    simp [idle, CallPc.pushing] at pushingBefore
  exact moves.invoked other inside ▸ pushes other pushingBefore

theorem Done.not_pushing {call : SharedCall α} {result : Option (Int × α)}
    (done : shared.Done thread call result after) : (after.pc thread).pushing = false := by
  rcases done with ⟨_, here⟩ | ⟨_, here, _⟩ <;> rw [here] <;> rfl

theorem Since.of_silent (tail : shared.Since since) (moves : shared.Moves thread after)
    (content : after.content = shared.content) (pushes : (after.pc thread).pushing = true →
      shared.content.running = true ∨ (shared.pc thread).pushing = true) : after.Since since := by
  cases tail with
  | running flag => exact .running (content ▸ flag)
  | stopped flag call result idle earlier =>
      refine .stopped (content ▸ flag) call result idle (moves.kept_pushes earlier ?_)
      intro pushing
      exact (pushes pushing).resolve_left (by simp [flag])

theorem Ordered.performs_now (ordered : shared.Ordered settled since) (timed : shared.Timed)
    (moves : shared.Moves thread after) (inside : shared.pc thread ≠ .idle)
    (before : ∀ call, shared.pc thread ≠ .notifies call) {call : SharedCall α}
    {result : Option (Int × α)}
    (answered : shared.content.answer call = some (result, after.content))
    (done : shared.Done thread call result after) :
    ∃ settled since, after.Ordered settled since := by
  set placed : Placed (SharedCall α) (Option (Int × α)) :=
    ⟨shared.operation thread call result, shared.clock⟩ with place
  have booked : after.Booked (settled ++ since ++ [placed]) :=
    Booked.insert (by rw [List.append_nil]; exact ordered.booked) timed moves inside before done
      (timed.current thread inside).le le_rfl
      (fun other member => (ordered.booked.past other member).le) (by simp)
  cases still : after.content.running with
  | true =>
      refine ⟨settled ++ since ++ [placed], [], ?_, .running still, by simpa using booked⟩
      rw [List.map_append, ← still]
      exact ordered.performs_all.concat answered
  | false =>
      cases ordered.tail with
      | running flag =>
          obtain ⟨rfl, rfl, same⟩ := ThreadSafeQueue.answer_stops flag still answered
          refine ⟨settled, [placed], same ▸ ordered.performs, ?_, by simpa using booked⟩
          refine .stopped still rfl rfl (by simp) fun other pushing => ?_
          by_cases own : other = thread
          · subst own
            simp [done.not_pushing] at pushing
          · have pushingBefore := moves.pushing_eq own ▸ pushing
            have busy : shared.pc other ≠ .idle := by
              intro idle
              simp [idle, CallPc.pushing] at pushingBefore
            exact moves.invoked other busy ▸ (timed.current other busy).le
      | @stopped stop rest flag stops none idle earlier =>
          obtain ⟨same, always⟩ := ThreadSafeQueue.answer_of_stopped flag still answered
          refine ⟨settled, stop :: (rest ++ [placed]), same ▸ ordered.performs, ?_,
            by simpa using booked⟩
          refine .stopped still stops none ?_ (moves.kept_pushes earlier ?_)
          · simp only [List.forall_mem_append, List.forall_mem_singleton]
            exact ⟨idle, always⟩
          · simp [done.not_pushing]

theorem Ordered.performs_late (ordered : shared.Ordered settled since) (timed : shared.Timed)
    (moves : shared.Moves thread after) {value : α} {bForce : Bool}
    (here : (shared.pc thread).pushing = true) (flag : shared.content.running = false)
    (content : after.content = ⟨if shared.content.isFull && !bForce then shared.content.queue
      else (if shared.content.isFull then shared.content.queue.tail
        else shared.content.queue) ++ [value], false⟩)
    (done : shared.Done thread (.push value bForce) none after) :
    ∃ settled since, after.Ordered settled since := by
  cases ordered.tail with
  | running running => simp [running] at flag
  | @stopped stop rest _ stops none idle earlier =>
      obtain ⟨_, sortedBack, sortedApart⟩ := List.pairwise_append.mp ordered.booked.sorted
      have inside : shared.pc thread ≠ .idle := by
        intro idle
        simp [idle, CallPc.pushing] at here
      have before : ∀ call, shared.pc thread ≠ .notifies call := by
        intro call notifies
        simp [notifies, CallPc.pushing] at here
      have booked := Booked.insert ordered.booked timed moves inside before done
        (earlier thread here)
        (ordered.booked.past stop (List.mem_append_right _ List.mem_cons_self)).le
        (fun placed member => sortedApart placed member stop List.mem_cons_self)
        (List.forall_mem_cons.mpr ⟨le_rfl, (List.pairwise_cons.mp sortedBack).1⟩)
      refine ⟨settled ++ [⟨shared.operation thread (.push value bForce) .none, stop.point⟩],
        stop :: rest, ?_, ?_, by simpa using booked⟩
      · rw [List.map_append, content]
        exact ordered.performs.concat (shared.content.answer_push_running value bForce)
      · refine .stopped (by rw [content]) stops none idle (moves.kept_pushes earlier ?_)
        simp [done.not_pushing]

theorem Ordered.step (ordered : shared.Ordered settled since) (timed : shared.Timed)
    (moves : shared.Moves thread after) (effect : shared.Effect thread after) :
    ∃ settled since, after.Ordered settled since := by
  cases effect with
  | silent before behind content history pushes =>
      exact ⟨settled, since, content ▸ ordered.performs,
        ordered.tail.of_silent moves content pushes,
        ordered.booked.silent moves before behind history⟩
  | performs inside before answered done =>
      exact ordered.performs_now timed moves inside before answered done
  | late here stopped content done =>
      exact ordered.performs_late timed moves here stopped content done
  | notified here content history idle =>
      exact ⟨settled, since, content ▸ ordered.performs,
        ordered.tail.of_silent moves content (by simp [idle, CallPc.pushing]),
        ordered.booked.notified moves here history idle⟩

theorem Ordered.linearizes (ordered : shared.Ordered settled since) :
    Linearizes ThreadSafeQueue.answer .create shared.history shared.Pending shared.content
      (settled ++ since) where
  performs := ordered.performs_all
  sorted := ordered.booked.sorted
  begun := ordered.booked.begun
  ended := ordered.booked.ended
  genuine := ordered.booked.genuine
  once := ordered.booked.once

/-- Over every run of any number of threads, the calls have one after the other, in an order that
respects time, the results that the threads have seen, and leave the content behind. -/
theorem linearizable (reached : Reachable shared) :
    ∃ order, Explains ThreadSafeQueue.answer .create shared.history shared.Pending shared.content
      order := by
  have invariant : shared.Guarded ∧ shared.Timed ∧ ∃ settled since, shared.Ordered settled since :=
    Reaches.invariant (fun shared => shared.Guarded ∧ shared.Timed ∧
        ∃ settled since, shared.Ordered settled since) reached
      ⟨create_guarded, create_timed, [], [], create_ordered⟩ (by
        rintro before event after ⟨guarded, timed, settled, since, ordered⟩ _ taken
        obtain ⟨thread, moves, effect⟩ := step_effect guarded taken
        exact ⟨step_guarded guarded taken, timed.step moves effect,
          ordered.step timed moves effect⟩)
  obtain ⟨_, _, settled, since, ordered⟩ := invariant
  exact ⟨_, ordered.linearizes.explains⟩

def latePushEvents : List (SharedEvent Nat) :=
  [.call 0 (.push 7 true), .next 0, .call 1 .stop, .next 1, .next 1, .next 1, .next 0, .next 0,
    .next 0]

theorem linearizable_late_push :
    ∃ shared : SharedQueue Nat, Reachable shared ∧ shared.content = ⟨[7], false⟩ ∧
      shared.history.map (fun completed => completed.operation.call) = [.stop, .push 7 true] ∧
      ∃ order, Explains ThreadSafeQueue.answer .create shared.history shared.Pending
        shared.content order := by
  obtain ⟨shared, reached, found⟩ := exists_reaches step (fun _ _ => true)
    (fun shared => decide (shared.content = ⟨[7], false⟩ ∧
      shared.history.map (fun completed => completed.operation.call) = [.stop, .push 7 true]))
    create latePushEvents (fun _ _ _ => trivial) (by decide) (by decide)
  obtain ⟨content, history⟩ := of_decide_eq_true found
  exact ⟨shared, reached, content, history, linearizable reached⟩

end SharedQueue

end NodeManagement
