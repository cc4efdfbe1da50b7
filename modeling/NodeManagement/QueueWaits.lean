import NodeManagement.SharedQueue

/-!
The mutex and the condition variable of `ThreadSafeQueue`: one thread at a time is in a critical
section, no wake-up is lost, and no thread is stuck but in a wait that the call as one step would
be in as well.
-/

namespace NodeManagement

open Transition

def Owned {α : Type} (owner : Option Nat) (pc : Nat → CallPc α) : Prop :=
  ∀ thread, owner = some thread ↔ (pc thread).holds = true

namespace Owned

variable {α : Type} {owner : Option Nat} {pc : Nat → CallPc α} {thread : Nat} {moved : CallPc α}

theorem keep (owned : Owned owner pc) (same : moved.holds = (pc thread).holds) :
    Owned owner (Function.update pc thread moved) := by
  intro other
  rw [Function.update_apply]
  split
  next own => rw [own, same]; exact owned thread
  next => exact owned other

theorem acquire (owned : Owned none pc) (holds : moved.holds = true) :
    Owned (some thread) (Function.update pc thread moved) := by
  intro other
  rw [Function.update_apply]
  split
  next own => simp [own, holds]
  next apart =>
    have free := (owned other).not.mp (by simp)
    exact ⟨fun same => absurd (Option.some.inj same).symm apart, fun holds => absurd holds free⟩

theorem release (owned : Owned owner pc) (holds : (pc thread).holds = true)
    (free : moved.holds = false) : Owned none (Function.update pc thread moved) := by
  intro other
  rw [Function.update_apply]
  split
  next => simp [free]
  next apart =>
    simp only [reduceCtorEq, false_iff]
    intro holdsToo
    have same := ((owned thread).mpr holds).symm.trans ((owned other).mpr holdsToo)
    exact apart (Option.some.inj same).symm

theorem woken (owned : Owned owner pc) : Owned owner fun other => (pc other).woken := by
  intro other
  have same : (pc other).woken.holds = (pc other).holds := by cases pc other <;> rfl
  rw [same]
  exact owned other

theorem alone (owned : Owned owner pc) (holds : (pc thread).holds = true) {other : Nat}
    (apart : other ≠ thread) : (pc other).holds = false := by
  cases holdsToo : (pc other).holds with
  | false => rfl
  | true =>
      have same := ((owned thread).mpr holds).symm.trans ((owned other).mpr holdsToo)
      exact absurd (Option.some.inj same).symm apart

end Owned

namespace SharedQueue

variable {α : Type}

def Wanted (content : ThreadSafeQueue α) : Prop := content.running = false ∨ content.queue ≠ []

structure Guarded (shared : SharedQueue α) : Prop where
  owned : Owned shared.owner shared.pc
  ready : ∀ thread value, shared.pc thread = .works (.waitAndPop value) → Wanted shared.content
  asleep : ∀ thread value, shared.pc thread = .waits value →
    ¬Wanted shared.content ∨ ∃ other call, shared.pc other = .notifies call

variable {shared after : SharedQueue α}

theorem create_guarded : (create : SharedQueue α).Guarded where
  owned := by simp [Owned, create, CallPc.holds]
  ready := by simp [create]
  asleep := by simp [create]

theorem Guarded.of_moved (guarded : shared.Guarded) {thread : Nat} {pc : CallPc α}
    {owner : Option Nat} (owned : Owned owner (Function.update shared.pc thread pc))
    (pcs : after.pc = Function.update shared.pc thread pc) (owners : after.owner = owner)
    (content : after.content = shared.content)
    (quiet : ∀ call, shared.pc thread ≠ .notifies call)
    (ready : ∀ value, pc = .works (.waitAndPop value) → Wanted shared.content)
    (asleep : ∀ value, pc = .waits value → ¬Wanted shared.content) : after.Guarded := by
  refine ⟨by rw [pcs, owners]; exact owned, fun other value here => ?_, fun other value here => ?_⟩
  · rw [pcs, Function.update_apply] at here
    rw [content]
    split at here
    · exact ready value here
    · exact guarded.ready other value here
  · rw [pcs, Function.update_apply] at here
    rw [content]
    split at here
    · exact .inl (asleep value here)
    · refine (guarded.asleep other value here).imp_right ?_
      rintro ⟨notifier, call, notifies⟩
      refine ⟨notifier, call, ?_⟩
      rw [pcs, Function.update_of_ne, notifies]
      rintro rfl
      exact quiet call notifies

theorem Guarded.of_notifies (guarded : shared.Guarded) {thread : Nat} {call other : SharedCall α}
    (here : shared.pc thread = .works other)
    (pcs : after.pc = Function.update shared.pc thread (.notifies call))
    (owners : after.owner = shared.owner) : after.Guarded := by
  have holds : (shared.pc thread).holds = true := by rw [here]; rfl
  refine ⟨?_, fun worker value works => ?_, fun sleeper value sleeps => ?_⟩
  · rw [pcs, owners]
    exact guarded.owned.keep holds.symm
  · rw [pcs, Function.update_apply] at works
    split at works
    · simp at works
    next apart =>
      have free := guarded.owned.alone holds apart
      rw [works] at free
      simp [CallPc.holds] at free
  · exact .inr ⟨thread, call, by rw [pcs, Function.update_self]⟩

theorem step_guarded {event : SharedEvent α} (guarded : shared.Guarded)
    (taken : shared.step event = some after) : after.Guarded := by
  have owned := guarded.owned
  cases step_move taken with
  | begins idle head =>
      rcases head with ⟨value, bForce, rfl⟩ | ⟨call, rfl, _⟩
      · exact guarded.of_moved (owned.keep (by rw [idle]; rfl)) rfl rfl rfl (by simp [idle])
          (by simp) (by simp)
      · exact guarded.of_moved (owned.keep (by rw [idle]; rfl)) rfl rfl rfl (by simp [idle])
          (by simp) (by simp)
  | refused here =>
      exact guarded.of_moved (owned.keep (by rw [here]; rfl)) rfl rfl rfl (by simp [here])
        (by simp) (by simp)
  | admitted here =>
      exact guarded.of_moved (owned.keep (by rw [here]; rfl)) rfl rfl rfl (by simp [here])
        (by simp) (by simp)
  | @locked thread call here free =>
      have holds : (CallPc.enter call).holds = true := by cases call <;> rfl
      refine guarded.of_moved (Owned.acquire (free ▸ owned) holds) rfl rfl rfl (by simp [here])
        ?_ ?_ <;> cases call <;> simp [CallPc.enter]
  | relocked here free =>
      exact guarded.of_moved (Owned.acquire (free ▸ owned) rfl) rfl rfl rfl (by simp [here])
        (by simp) (by simp)
  | ready here holds =>
      exact guarded.of_moved (owned.keep (by rw [here]; rfl)) rfl rfl rfl (by simp [here])
        (fun _ _ => holds) (by simp)
  | sleeps here running empty =>
      refine guarded.of_moved (owned.release (by rw [here]; rfl) rfl) rfl rfl rfl (by simp [here])
        (by simp) fun _ _ => ?_
      simp [Wanted, running, empty]
  | wakes here =>
      exact guarded.of_moved (owned.keep (by rw [here]; rfl)) rfl rfl rfl (by simp [here])
        (by simp) (by simp)
  | dropped here | again here =>
      exact guarded.of_moved (owned.release (by rw [here]; rfl) rfl) rfl rfl rfl (by simp [here])
        (by simp) (by simp)
  | pushed here | stopped here | started here => exact guarded.of_notifies here rfl rfl
  | @answered thread value result content here running =>
      have holds : (shared.pc thread).holds = true := by rw [here]; rfl
      have wanted := guarded.ready thread value here
      refine ⟨owned.release holds rfl, fun other value works => ?_, fun other value sleeps => ?_⟩
      · have works : Function.update shared.pc thread .idle other = .works (.waitAndPop value) :=
          works
        rw [Function.update_apply] at works
        split at works
        · simp at works
        next apart =>
          have free := owned.alone holds apart
          rw [works] at free
          simp [CallPc.holds] at free
      · have sleeps : Function.update shared.pc thread .idle other = .waits value := sleeps
        rw [Function.update_apply] at sleeps
        split at sleeps
        · simp at sleeps
        next =>
          rcases guarded.asleep other value sleeps with fails | ⟨notifier, call, notifies⟩
          · exact absurd wanted fails
          · have apart : notifier ≠ thread := by
              rintro rfl
              rw [here] at notifies
              simp at notifies
            have free := owned.alone holds apart
            rw [notifies] at free
            simp [CallPc.holds] at free
  | @notified thread call here =>
      have holds : ((shared.pc thread).woken).holds = true := by rw [here]; rfl
      refine ⟨owned.woken.release holds rfl, fun other value works => ?_,
        fun other value sleeps => ?_⟩
      · have works : Function.update (fun other => (shared.pc other).woken) thread .idle other =
            .works (.waitAndPop value) := works
        rw [Function.update_apply] at works
        split at works
        · simp at works
        next apart =>
          have free := owned.woken.alone holds apart
          rw [works] at free
          simp [CallPc.holds] at free
      · have sleeps : Function.update (fun other => (shared.pc other).woken) thread .idle other =
            .waits value := sleeps
        rw [Function.update_apply] at sleeps
        split at sleeps
        · simp at sleeps
        · cases there : shared.pc other <;> simp [there, CallPc.woken] at sleeps

theorem reachable_guarded (reached : Reachable shared) : shared.Guarded :=
  Reaches.invariant Guarded reached create_guarded
    fun _ _ _ guarded _ taken => step_guarded guarded taken

/-- Over every run of any number of threads: a thread within a call can take its next step, or the
mutex is with another thread, which can; or it waits in `waitAndPop`, and unless a notification is
under way, the call as one step would wait as well. -/
theorem never_stuck (reached : Reachable shared) (thread : Nat) :
    shared.pc thread = .idle ∨ (shared.next thread).isSome = true ∨
      (∃ holder ≠ thread, shared.owner = some holder ∧ (shared.next holder).isSome = true) ∨
      ∃ value, shared.pc thread = .waits value ∧
        ((∀ other call, shared.pc other ≠ .notifies call) →
          shared.content.waitAndPop value = none) := by
  have guarded := reachable_guarded reached
  have holder_steps {holder : Nat} (holds : shared.owner = some holder) :
      (shared.next holder).isSome = true := by
    have critical := (guarded.owned holder).mp holds
    cases here : shared.pc holder with
    | tests | works | notifies =>
        simp only [next, here]
        first | rfl | (split <;> rfl)
    | _ => simp [here, CallPc.holds] at critical
  have takes_mutex (notMine : shared.owner ≠ some thread)
      (steps : shared.owner = none → (shared.next thread).isSome = true) :
      (shared.next thread).isSome = true ∨
        ∃ holder ≠ thread, shared.owner = some holder ∧ (shared.next holder).isSome = true := by
    cases owner : shared.owner with
    | none => exact .inl (steps owner)
    | some holder =>
        exact .inr ⟨holder, fun same => notMine (same ▸ owner), owner ▸ rfl, holder_steps owner⟩
  have notMine (free : (shared.pc thread).holds = false) : shared.owner ≠ some thread := by
    intro mine
    rw [(guarded.owned thread).mp mine] at free
    simp at free
  cases here : shared.pc thread with
  | idle => exact .inl rfl
  | loads =>
      refine .inr (.inl ?_)
      simp only [next, here]
      split <;> rfl
  | tests | works | notifies =>
      exact .inr (.inl (holder_steps ((guarded.owned thread).mpr (by rw [here]; rfl))))
  | locks | relocks =>
      rcases takes_mutex (notMine (by rw [here]; rfl))
        (fun free => by simp [next, here, acquire, free]) with steps | waits
      · exact .inr (.inl steps)
      · exact .inr (.inr (.inl waits))
  | waits value =>
      refine .inr (.inr (.inr ⟨value, rfl, fun quiet => ?_⟩))
      have fails : ¬Wanted shared.content := by
        refine (guarded.asleep thread value here).resolve_right ?_
        rintro ⟨other, call, notifies⟩
        exact quiet other call notifies
      simp only [Wanted, not_or, not_not, Bool.not_eq_false] at fails
      simp [ThreadSafeQueue.waitAndPop, fails]

def contendedEvents : List (SharedEvent Nat) :=
  [.call 0 (.waitAndPop 0), .next 0, .next 0, .call 1 (.push 7 true), .next 1, .next 1,
    .call 2 .stop]

theorem never_stuck_contended :
    ∃ shared : SharedQueue Nat, Reachable shared ∧ shared.pc 0 = .waits 0 ∧
      shared.pc 2 = .locks .stop ∧ shared.owner = some 1 ∧
      ∀ thread, shared.pc thread = .idle ∨ (shared.next thread).isSome = true ∨
        (∃ holder ≠ thread, shared.owner = some holder ∧ (shared.next holder).isSome = true) ∨
        ∃ value, shared.pc thread = .waits value ∧
          ((∀ other call, shared.pc other ≠ .notifies call) →
            shared.content.waitAndPop value = none) := by
  obtain ⟨shared, reached, found⟩ := exists_reaches step
    (fun _ _ => true) (fun shared => decide (shared.pc 0 = .waits 0 ∧
      shared.pc 2 = .locks .stop ∧ shared.owner = some 1)) create contendedEvents
    (fun _ _ _ => trivial) (by decide) (by decide)
  obtain ⟨waits, locks, owner⟩ := of_decide_eq_true found
  exact ⟨shared, reached, waits, locks, owner, fun thread => never_stuck reached thread⟩

end SharedQueue

end NodeManagement
