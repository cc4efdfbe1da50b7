import NodeManagement.ThreadSafeQueue
import NodeManagement.Library.Linearization
import NodeManagement.Library.Transition
import Mathlib.Logic.Function.Basic

/-!
`ThreadSafeQueue<T>` statement by statement: its mutex, its condition variable and any number of
threads in the four methods that the program calls.
-/

namespace NodeManagement

open Linearization Transition

inductive SharedCall (α : Type)
  | push (value : α) (bForce : Bool)
  | waitAndPop (value : α)
  | stop
  | start
deriving DecidableEq

/-- What a thread does next: read `m_running` at the head of `push`, take the mutex, evaluate the
predicate of the wait, wait, take the mutex again, execute the rest of the method, or notify. -/
inductive CallPc (α : Type)
  | idle
  | loads (value : α) (bForce : Bool)
  | locks (call : SharedCall α)
  | tests (value : α)
  | waits (value : α)
  | relocks (value : α)
  | works (call : SharedCall α)
  | notifies (call : SharedCall α)
deriving DecidableEq

/-- A result is what `waitAndPop` returns and leaves in its argument.  The ghost fields are a clock
that counts the steps, the time at which each thread began its call, and the calls that have
returned. -/
structure SharedQueue (α : Type) where
  content : ThreadSafeQueue α
  owner : Option Nat
  pc : Nat → CallPc α
  clock : Nat
  invoked : Nat → Nat
  history : List (Completed (SharedCall α) (Option (Int × α)))

inductive SharedEvent (α : Type)
  | call (thread : Nat) (call : SharedCall α)
  | next (thread : Nat)
  | wake (thread : Nat)

def ThreadSafeQueue.answer {α : Type} (q : ThreadSafeQueue α) :
    SharedCall α → Option (Option (Int × α) × ThreadSafeQueue α)
  | .push value bForce => some (none, q.push value bForce)
  | .waitAndPop value =>
      (q.waitAndPop value).map fun (code, item, rest) => (some (code, item), rest)
  | .stop => some (none, q.stop)
  | .start => some (none, q.start)

namespace CallPc

variable {α : Type}

def holds : CallPc α → Bool
  | tests _ | works _ | notifies _ => true
  | _ => false

def woken : CallPc α → CallPc α
  | waits value => relocks value
  | pc => pc

def enter : SharedCall α → CallPc α
  | .waitAndPop value => tests value
  | call => works call

end CallPc

namespace SharedQueue

variable {α : Type}

def create : SharedQueue α where
  content := .create
  owner := none
  pc := fun _ => .idle
  clock := 0
  invoked := fun _ => 0
  history := []

def goto (shared : SharedQueue α) (thread : Nat) (pc : CallPc α) : SharedQueue α :=
  { shared with pc := Function.update shared.pc thread pc, clock := shared.clock + 1 }

def acquire (shared : SharedQueue α) (thread : Nat) (pc : CallPc α) : Option (SharedQueue α) :=
  if shared.owner = none then some { shared.goto thread pc with owner := some thread } else none

def operation (shared : SharedQueue α) (thread : Nat) (call : SharedCall α)
    (result : Option (Int × α)) : Operation (SharedCall α) (Option (Int × α)) :=
  ⟨thread, shared.invoked thread, call, result⟩

def finish (shared : SharedQueue α) (thread : Nat) (call : SharedCall α)
    (result : Option (Int × α)) : SharedQueue α :=
  { shared.goto thread .idle with
    history := shared.history ++ [⟨shared.operation thread call result, shared.clock⟩] }

def leave (shared : SharedQueue α) (thread : Nat) (call : SharedCall α)
    (result : Option (Int × α)) (content : ThreadSafeQueue α) : SharedQueue α :=
  { shared.finish thread call result with owner := none, content := content }

def work (shared : SharedQueue α) (thread : Nat) : SharedCall α → SharedQueue α
  | .push value bForce =>
      let q := shared.content
      if q.isFull && !bForce then shared.leave thread (.push value bForce) none q
      else
        { shared.goto thread (.notifies (.push value bForce)) with
          content := { q with queue := (if q.isFull then q.queue.tail else q.queue) ++ [value] } }
  | .waitAndPop value =>
      let q := shared.content
      if !q.running then shared.leave thread (.waitAndPop value) (some (-1, value)) q
      else match q.queue with
        | front :: rest =>
            shared.leave thread (.waitAndPop value) (some (0, front)) { q with queue := rest }
        | [] => shared.leave thread (.waitAndPop value) (some (0, value)) q
  | .stop =>
      if shared.content.running then
        { shared.goto thread (.notifies .stop) with
          content := { shared.content with running := false } }
      else shared.leave thread .stop none shared.content
  | .start =>
      if !shared.content.running then
        { shared.goto thread (.notifies .start) with
          content := { shared.content with running := true } }
      else shared.leave thread .start none shared.content

def next (shared : SharedQueue α) (thread : Nat) : Option (SharedQueue α) :=
  match shared.pc thread with
  | .idle | .waits _ => none
  | .loads value bForce =>
      if !shared.content.running then some (shared.finish thread (.push value bForce) none)
      else some (shared.goto thread (.locks (.push value bForce)))
  | .locks call => shared.acquire thread (.enter call)
  | .relocks value => shared.acquire thread (.tests value)
  | .tests value =>
      if !shared.content.running || !shared.content.queue.isEmpty then
        some (shared.goto thread (.works (.waitAndPop value)))
      else some { shared.goto thread (.waits value) with owner := none }
  | .works call => some (shared.work thread call)
  | .notifies call =>
      some ({ shared with pc := fun other => (shared.pc other).woken }.leave thread call none
        shared.content)

def step (shared : SharedQueue α) : SharedEvent α → Option (SharedQueue α)
  | .call thread call =>
      if shared.pc thread matches .idle then
        let pc := match call with
          | .push value bForce => .loads value bForce
          | _ => .locks call
        some { shared.goto thread pc with
          invoked := Function.update shared.invoked thread shared.clock }
      else none
  | .next thread => shared.next thread
  | .wake thread =>
      match shared.pc thread with
      | .waits value => some (shared.goto thread (.relocks value))
      | _ => none

def Reachable (shared : SharedQueue α) : Prop := Reaches step anyStep create shared

inductive StepMove (shared : SharedQueue α) : SharedQueue α → Prop
  | begins {thread : Nat} {pc : CallPc α} (idle : shared.pc thread = .idle)
      (head : (∃ value bForce, pc = .loads value bForce) ∨
        ∃ call, pc = .locks call ∧ ∀ value bForce, call ≠ .push value bForce) :
      StepMove shared { shared.goto thread pc with
        invoked := Function.update shared.invoked thread shared.clock }
  | refused {thread : Nat} {value : α} {bForce : Bool}
      (here : shared.pc thread = .loads value bForce) (stopped : shared.content.running = false) :
      StepMove shared (shared.finish thread (.push value bForce) none)
  | admitted {thread : Nat} {value : α} {bForce : Bool}
      (here : shared.pc thread = .loads value bForce) (running : shared.content.running = true) :
      StepMove shared (shared.goto thread (.locks (.push value bForce)))
  | locked {thread : Nat} {call : SharedCall α} (here : shared.pc thread = .locks call)
      (free : shared.owner = none) :
      StepMove shared { shared.goto thread (.enter call) with owner := some thread }
  | relocked {thread : Nat} {value : α} (here : shared.pc thread = .relocks value)
      (free : shared.owner = none) :
      StepMove shared { shared.goto thread (.tests value) with owner := some thread }
  | ready {thread : Nat} {value : α} (here : shared.pc thread = .tests value)
      (holds : shared.content.running = false ∨ shared.content.queue ≠ []) :
      StepMove shared (shared.goto thread (.works (.waitAndPop value)))
  | sleeps {thread : Nat} {value : α} (here : shared.pc thread = .tests value)
      (running : shared.content.running = true) (empty : shared.content.queue = []) :
      StepMove shared { shared.goto thread (.waits value) with owner := none }
  | wakes {thread : Nat} {value : α} (here : shared.pc thread = .waits value) :
      StepMove shared (shared.goto thread (.relocks value))
  | dropped {thread : Nat} {value : α} {bForce : Bool}
      (here : shared.pc thread = .works (.push value bForce))
      (full : shared.content.isFull = true) (unforced : bForce = false) :
      StepMove shared (shared.leave thread (.push value bForce) none shared.content)
  | pushed {thread : Nat} {value : α} {bForce : Bool}
      (here : shared.pc thread = .works (.push value bForce))
      (room : shared.content.isFull = true → bForce = true) :
      StepMove shared { shared.goto thread (.notifies (.push value bForce)) with
        content := { shared.content with
          queue := (if shared.content.isFull then shared.content.queue.tail
            else shared.content.queue) ++ [value] } }
  | answered {thread : Nat} {value : α} {result : Option (Int × α)} {after : ThreadSafeQueue α}
      (here : shared.pc thread = .works (.waitAndPop value))
      (running : after.running = shared.content.running)
      (returned : shared.content.running = false ∨ shared.content.queue ≠ [] →
        shared.content.answer (.waitAndPop value) = some (result, after)) :
      StepMove shared (shared.leave thread (.waitAndPop value) result after)
  | again {thread : Nat} {call : SharedCall α} (here : shared.pc thread = .works call)
      (flag : call = .stop ∧ shared.content.running = false ∨
        call = .start ∧ shared.content.running = true) :
      StepMove shared (shared.leave thread call none shared.content)
  | stopped {thread : Nat} (here : shared.pc thread = .works .stop)
      (running : shared.content.running = true) :
      StepMove shared { shared.goto thread (.notifies .stop) with
        content := { shared.content with running := false } }
  | started {thread : Nat} (here : shared.pc thread = .works .start)
      (stopped : shared.content.running = false) :
      StepMove shared { shared.goto thread (.notifies .start) with
        content := { shared.content with running := true } }
  | notified {thread : Nat} {call : SharedCall α} (here : shared.pc thread = .notifies call) :
      StepMove shared ({ shared with pc := fun other => (shared.pc other).woken }.leave thread call
        none shared.content)

variable {shared after : SharedQueue α}

theorem acquire_cases {thread : Nat} {pc : CallPc α}
    (taken : shared.acquire thread pc = some after) :
    shared.owner = none ∧ after = { shared.goto thread pc with owner := some thread } := by
  obtain ⟨free, same⟩ := Option.ite_none_right_eq_some.mp taken
  exact ⟨free, (Option.some.inj same).symm⟩

theorem work_move {thread : Nat} {call : SharedCall α} (here : shared.pc thread = .works call) :
    shared.StepMove (shared.work thread call) := by
  cases call with
  | push value bForce =>
      simp only [work]
      split
      next full =>
        simp only [Bool.and_eq_true, Bool.not_eq_true'] at full
        exact .dropped here full.1 full.2
      next room =>
        exact .pushed here fun full => by simpa [full] using room
  | waitAndPop value =>
      simp only [work]
      cases running : shared.content.running with
      | false =>
          refine .answered here rfl fun _ => ?_
          simp [ThreadSafeQueue.answer, ThreadSafeQueue.waitAndPop, running]
      | true =>
          cases contents : shared.content.queue with
          | nil => exact .answered here rfl fun holds => by simp [running, contents] at holds
          | cons front rest =>
              refine .answered here running.symm fun _ => ?_
              simp [ThreadSafeQueue.answer, ThreadSafeQueue.waitAndPop, running, contents]
  | stop =>
      simp only [work]
      split
      next running => exact .stopped here running
      next stopped => exact .again here (.inl ⟨rfl, by simpa using stopped⟩)
  | start =>
      simp only [work]
      split
      next stopped => exact .started here (by simpa using stopped)
      next running => exact .again here (.inr ⟨rfl, by simpa using running⟩)

theorem step_move {event : SharedEvent α} (taken : shared.step event = some after) :
    shared.StepMove after := by
  cases event with
  | call thread call =>
      obtain ⟨idle, same⟩ := Option.ite_none_right_eq_some.mp taken
      have idle : shared.pc thread = .idle := by
        cases here : shared.pc thread <;> simp_all
      obtain rfl := Option.some.inj same
      refine .begins idle ?_
      cases call with
      | push value bForce => exact .inl ⟨value, bForce, rfl⟩
      | _ => exact .inr ⟨_, rfl, by simp⟩
  | next thread =>
      simp only [step, next] at taken
      split at taken
      next => simp at taken
      next => simp at taken
      next value bForce here =>
        split at taken
        next stopped => exact Option.some.inj taken ▸ .refused here (by simpa using stopped)
        next running => exact Option.some.inj taken ▸ .admitted here (by simpa using running)
      next call here =>
        obtain ⟨free, rfl⟩ := acquire_cases taken
        exact .locked here free
      next value here =>
        obtain ⟨free, rfl⟩ := acquire_cases taken
        exact .relocked here free
      next value here =>
        split at taken
        next holds => exact Option.some.inj taken ▸ .ready here (by simpa using holds)
        next fails =>
          simp only [Bool.or_eq_true, Bool.not_eq_true', not_or, Bool.not_eq_false,
            List.isEmpty_iff] at fails
          exact Option.some.inj taken ▸ .sleeps here fails.1 fails.2
      next call here => exact Option.some.inj taken ▸ work_move here
      next call here => exact Option.some.inj taken ▸ .notified here
  | wake thread =>
      simp only [step] at taken
      split at taken
      next value here => exact Option.some.inj taken ▸ .wakes here
      next => simp at taken

end SharedQueue

end NodeManagement
