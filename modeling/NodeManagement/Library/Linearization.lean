import Mathlib.Data.List.Nodup
import Mathlib.Data.List.Pairwise

/-!
Linearizability: calls of several threads that overlap in time have the results, and leave the
object behind, that they would have one after the other in an order that respects time.  Such an
order is found by giving each call a moment between its beginning and its end.
-/

namespace Linearization

variable {Object Call Result : Type}

structure Operation (Call Result : Type) where
  thread : Nat
  invoked : Nat
  call : Call
  result : Result
deriving DecidableEq

def Operation.name (operation : Operation Call Result) : Nat × Nat :=
  (operation.thread, operation.invoked)

structure Completed (Call Result : Type) where
  operation : Operation Call Result
  returned : Nat
deriving DecidableEq

inductive Performs (perform : Object → Call → Option (Result × Object)) :
    Object → List (Operation Call Result) → Object → Prop
  | nil (object : Object) : Performs perform object [] object
  | cons {object middle final : Object} {operation : Operation Call Result}
      {rest : List (Operation Call Result)}
      (first : perform object operation.call = some (operation.result, middle))
      (later : Performs perform middle rest final) :
      Performs perform object (operation :: rest) final

/-- The order of the operations explains what the threads have seen: `history` are the calls that
have returned, and `pending` tells which others may have had their effect. -/
structure Explains (perform : Object → Call → Option (Result × Object)) (start : Object)
    (history : List (Completed Call Result)) (pending : Operation Call Result → Prop)
    (final : Object) (order : List (Operation Call Result)) : Prop where
  performs : Performs perform start order final
  complete : ∀ completed ∈ history, completed.operation ∈ order
  genuine : ∀ operation ∈ order,
    (∃ completed ∈ history, completed.operation = operation) ∨ pending operation
  once : (order.map Operation.name).Nodup
  realTime : ∀ first ∈ history, ∀ second : Operation Call Result,
    first.returned < second.invoked → ∀ place other : Nat,
    order[place]? = some first.operation → order[other]? = some second → place < other

structure Placed (Call Result : Type) where
  operation : Operation Call Result
  point : Nat

structure Linearizes (perform : Object → Call → Option (Result × Object)) (start : Object)
    (history : List (Completed Call Result)) (pending : Operation Call Result → Prop)
    (final : Object) (order : List (Placed Call Result)) : Prop where
  performs : Performs perform start (order.map Placed.operation) final
  sorted : order.Pairwise fun earlier later => earlier.point ≤ later.point
  begun : ∀ placed ∈ order, placed.operation.invoked ≤ placed.point
  ended : ∀ completed ∈ history, ∃ placed ∈ order,
    placed.operation = completed.operation ∧ placed.point ≤ completed.returned
  genuine : ∀ placed ∈ order, (∃ completed ∈ history, completed.operation = placed.operation) ∨
    pending placed.operation
  once : (order.map fun placed => placed.operation.name).Nodup

variable {perform : Object → Call → Option (Result × Object)} {start middle final : Object}
  {history : List (Completed Call Result)} {pending : Operation Call Result → Prop}

theorem Performs.append {earlier later : List (Operation Call Result)}
    (first : Performs perform start earlier middle) (second : Performs perform middle later final) :
    Performs perform start (earlier ++ later) final := by
  induction first with
  | nil => exact second
  | cons called _ ih => exact .cons called (ih second)

theorem Performs.concat {earlier : List (Operation Call Result)}
    (first : Performs perform start earlier middle) {operation : Operation Call Result}
    (called : perform middle operation.call = some (operation.result, final)) :
    Performs perform start (earlier ++ [operation]) final :=
  first.append (.cons called (.nil final))

theorem Performs.of_idle {order : List (Operation Call Result)}
    (idle : ∀ operation ∈ order,
      perform final operation.call = some (operation.result, final)) :
    Performs perform final order final := by
  induction order with
  | nil => exact .nil final
  | cons operation rest ih =>
      exact .cons (idle operation List.mem_cons_self)
        (ih fun other member => idle other (List.mem_cons_of_mem _ member))

/-- Moments within the calls put the operations into an order that respects time. -/
theorem Linearizes.explains {order : List (Placed Call Result)}
    (linearizes : Linearizes perform start history pending final order) :
    Explains perform start history pending final (order.map Placed.operation) where
  performs := linearizes.performs
  complete := by
    intro completed member
    obtain ⟨placed, inside, same, _⟩ := linearizes.ended completed member
    exact same ▸ List.mem_map_of_mem inside
  genuine := by
    intro operation member
    obtain ⟨placed, inside, rfl⟩ := List.mem_map.mp member
    exact linearizes.genuine placed inside
  once := by
    rw [List.map_map]
    exact linearizes.once
  realTime := by
    intro first member second before place other here there
    rw [List.getElem?_map, Option.map_eq_some_iff] at here there
    obtain ⟨early, found, earlySame⟩ := here
    obtain ⟨late, foundToo, lateSame⟩ := there
    have lateBegun := linearizes.begun late (List.mem_of_getElem? foundToo)
    have earlyEnded : early.point ≤ first.returned := by
      obtain ⟨placed, inside, same, ended⟩ := linearizes.ended first member
      have equal : placed = early := List.inj_on_of_nodup_map linearizes.once inside
        (List.mem_of_getElem? found) (by rw [same, earlySame])
      exact equal ▸ ended
    have points : early.point < late.point := by
      rw [lateSame] at lateBegun
      omega
    by_contra notBefore
    have ordered : late.point ≤ early.point := by
      obtain ⟨inside, rfl⟩ := List.getElem?_eq_some_iff.mp found
      obtain ⟨insideToo, rfl⟩ := List.getElem?_eq_some_iff.mp foundToo
      rcases Nat.lt_or_eq_of_le (Nat.le_of_not_lt notBefore) with less | rfl
      · exact List.pairwise_iff_getElem.mp linearizes.sorted other place insideToo inside less
      · exact Nat.le_refl _
    omega

end Linearization
