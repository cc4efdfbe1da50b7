import NodeManagement.Utils

/-!
`ThreadSafeQueue<T>` of `Utils.h`.  Every method holds the queue's mutex for its whole
effect, so each is one function on the contents and the running flag.
-/

namespace NodeManagement

/-- `std::queue` with its front first, and the flag `m_running`. -/
structure ThreadSafeQueue (α : Type) where
  queue : List α
  running : Bool
deriving DecidableEq

namespace ThreadSafeQueue

variable {α : Type}

def create : ThreadSafeQueue α := ⟨[], true⟩

def isFull (q : ThreadSafeQueue α) : Bool := decide (maxSafeQueue ≤ q.queue.length)

def push (q : ThreadSafeQueue α) (value : α) (bForce : Bool) : ThreadSafeQueue α :=
  if !q.running then q
  else if q.isFull then
    if bForce then { q with queue := q.queue.tail ++ [value] } else q
  else { q with queue := q.queue ++ [value] }

def peek (q : ThreadSafeQueue α) (value : α) : Bool × α :=
  match q.queue with
  | [] => (false, value)
  | front :: _ => (true, front)

def pop (q : ThreadSafeQueue α) : Bool × ThreadSafeQueue α :=
  if !q.running then (false, q)
  else match q.queue with
    | [] => (false, q)
    | _ :: rest => (true, { q with queue := rest })

def resetQueue (q : ThreadSafeQueue α) : ThreadSafeQueue α := { q with queue := [] }

def tryPop (q : ThreadSafeQueue α) (value : α) : Bool × α × ThreadSafeQueue α :=
  if !q.running then (false, value, q)
  else match q.queue with
    | [] => (false, value, q)
    | front :: rest => (true, front, { q with queue := rest })

def getSize (q : ThreadSafeQueue α) : Int := q.queue.length

/-- `none` while the caller waits; otherwise the return code, the caller's variable after
the call and the queue after it. -/
def waitAndPop (q : ThreadSafeQueue α) (value : α) : Option (Int × α × ThreadSafeQueue α) :=
  if !q.running || !q.queue.isEmpty then
    if !q.running then some (-1, value, q)
    else match q.queue with
      | front :: rest => some (0, front, { q with queue := rest })
      | [] => some (0, value, q)
  else none

def stop (q : ThreadSafeQueue α) : ThreadSafeQueue α :=
  if q.running then { q with running := false } else q

def start (q : ThreadSafeQueue α) : ThreadSafeQueue α :=
  if !q.running then { q with running := true } else q

@[simp] theorem create_queue : (create : ThreadSafeQueue α).queue = [] := rfl
@[simp] theorem create_running : (create : ThreadSafeQueue α).running = true := rfl

@[simp] theorem stop_queue (q : ThreadSafeQueue α) : q.stop.queue = q.queue := by
  unfold stop; split <;> rfl

@[simp] theorem stop_running (q : ThreadSafeQueue α) : q.stop.running = false := by
  unfold stop; split <;> simp_all

@[simp] theorem start_queue (q : ThreadSafeQueue α) : q.start.queue = q.queue := by
  unfold start; split <;> rfl

@[simp] theorem start_running (q : ThreadSafeQueue α) : q.start.running = true := by
  unfold start; split <;> simp_all

@[simp] theorem push_running (q : ThreadSafeQueue α) (value : α) (bForce : Bool) :
    (q.push value bForce).running = q.running := by
  unfold push
  split
  · rfl
  · split
    · split <;> rfl
    · rfl

theorem push_of_stopped {q : ThreadSafeQueue α} (stopped : q.running = false) (value : α)
    (bForce : Bool) : q.push value bForce = q := by
  simp [push, stopped]

theorem push_force_queue {q : ThreadSafeQueue α} (running : q.running = true) (value : α) :
    (q.push value true).queue = (if q.isFull then q.queue.tail else q.queue) ++ [value] := by
  unfold push
  simp only [running, Bool.not_true, Bool.false_eq_true, if_false, if_true]
  split <;> rfl

theorem waitAndPop_cases {q after : ThreadSafeQueue α} {value delivered : α} {code : Int}
    (returned : q.waitAndPop value = some (code, delivered, after)) :
    (q.running = false ∧ code = -1 ∧ delivered = value ∧ after = q) ∨
      (q.running = true ∧ code = 0 ∧ ∃ rest, q.queue = delivered :: rest ∧
        after = { q with queue := rest }) := by
  unfold waitAndPop at returned
  cases running : q.running with
  | false =>
      simp [running] at returned
      exact .inl ⟨rfl, returned.1.symm, returned.2.1.symm, returned.2.2.symm⟩
  | true =>
      cases contents : q.queue with
      | nil => simp [running, contents] at returned
      | cons front rest =>
          simp [running, contents] at returned
          obtain ⟨rfl, rfl, rfl⟩ := returned
          exact .inr ⟨rfl, rfl, rest, rfl, rfl⟩

end ThreadSafeQueue

end NodeManagement
