import Mathlib.Data.Prod.Lex
import NodeManagement.Library.Fairness

/-!
A queue that one component of a system takes from at the front, while others append at the back.
What is in it is taken in the end, when the component is treated fairly.
-/

namespace Transition

variable {State Event Item : Type} {step : State → Event → Option State} {start : State}

/-- From a position on, the items leave the queue in order and none is lost; between two of them
the component has only so many steps to take. -/
structure Drains (run : Execution step start) (component : State → Event → Prop)
    (items : State → List Item) (takes : State → Event → Option Item) (steps : State → Nat)
    (first : Nat) : Prop where
  moves : ∀ position, first ≤ position → ∃ added,
    (takes (run.state position) (run.event position)).toList ++ items (run.state (position + 1)) =
      items (run.state position) ++ added
  nearer : ∀ position, first ≤ position → items (run.state position) ≠ [] →
    takes (run.state position) (run.event position) = none →
    steps (run.state (position + 1)) < steps (run.state position) ∨
      steps (run.state (position + 1)) = steps (run.state position) ∧
        ¬component (run.state position) (run.event position)

namespace Drains

variable {run : Execution step start} {component : State → Event → Prop}
  {items : State → List Item} {takes : State → Event → Option Item} {steps : State → Nat}
  {first : Nat}

def Behind (run : Execution step start) (items : State → List Item) (steps : State → Nat)
    (first : Nat) (item : Item) (rank : ℕ ×ₗ ℕ) (position : Nat) : Prop :=
  first ≤ position ∧ (∃ front back, items (run.state position) = front ++ item :: back ∧
    front.length = (ofLex rank).1) ∧ steps (run.state position) = (ofLex rank).2

def Taken (run : Execution step start) (takes : State → Event → Option Item) (first : Nat)
    (item : Item) (position : Nat) : Prop :=
  ∃ earlier, first ≤ earlier ∧ earlier < position ∧
    takes (run.state earlier) (run.event earlier) = some item

theorem descends (drains : Drains run component items takes steps first) (item : Item) :
    run.Descends component (Behind run items steps first item) (Taken run takes first item) := by
  rintro rank position ⟨later, ⟨front, back, split, length⟩, left⟩
  obtain ⟨added, moved⟩ := drains.moves position later
  rw [split] at moved
  have next : first ≤ position + 1 := by omega
  cases taken : takes (run.state position) (run.event position) with
  | some head =>
      rw [taken, Option.toList_some, List.singleton_append] at moved
      cases front with
      | nil =>
          obtain ⟨rfl, _⟩ := List.cons.inj moved
          exact .inl ⟨position, later, Nat.lt_succ_self _, taken⟩
      | cons other front =>
          obtain ⟨_, rest⟩ := List.cons.inj moved
          refine .inr (.inl ⟨toLex (front.length, steps (run.state (position + 1))), ?_, next,
            ⟨front, back ++ added, by rw [rest]; simp, rfl⟩, rfl⟩)
          exact Prod.Lex.lt_iff.mpr (.inl (by simp [← length]))
  | none =>
      rw [taken, Option.toList_none, List.nil_append] at moved
      have placed : items (run.state (position + 1)) = front ++ item :: (back ++ added) := by
        rw [moved]
        simp
      rcases drains.nearer position later (by simp [split]) taken with less | ⟨same, idle⟩
      · refine .inr (.inl ⟨toLex (front.length, steps (run.state (position + 1))), ?_, next,
          ⟨front, back ++ added, placed, rfl⟩, rfl⟩)
        exact Prod.Lex.lt_iff.mpr (.inr ⟨length, left ▸ less⟩)
      · exact .inr (.inr ⟨⟨next, ⟨front, back ++ added, placed, length⟩, same.trans left⟩, idle⟩)

theorem taken_after (item : Item) {position : Nat}
    (leads : LeadsTo (fun later => ∃ rank, Behind run items steps position item rank later)
      (Taken run takes position item))
    {front back : List Item} (split : items (run.state position) = front ++ item :: back) :
    ∃ later, position ≤ later ∧ takes (run.state later) (run.event later) = some item := by
  obtain ⟨_, _, later, after, _, taken⟩ := leads position
    ⟨toLex (front.length, steps (run.state position)), le_refl _, ⟨front, back, split, rfl⟩, rfl⟩
  exact ⟨later, after, taken⟩

theorem from_later (drains : Drains run component items takes steps first) {position : Nat}
    (later : first ≤ position) : Drains run component items takes steps position :=
  ⟨fun last after => drains.moves last (later.trans after),
    fun last after => drains.nearer last (later.trans after)⟩

theorem taken (drains : Drains run component items takes steps first)
    (fair : run.WeaklyFair component)
    (enabled : ∀ position, first ≤ position → items (run.state position) ≠ [] →
      Enabled step component (run.state position))
    {position : Nat} (later : first ≤ position) {front back : List Item} {item : Item}
    (split : items (run.state position) = front ++ item :: back) :
    ∃ last, position ≤ last ∧ takes (run.state last) (run.event last) = some item := by
  refine taken_after item (fair.leadsTo_of_stages ((drains.from_later later).descends item) ?_)
    split
  rintro rank last ⟨after, ⟨front, back, split, _⟩, _⟩
  exact .inr (enabled last (later.trans after) (by simp [split]))

theorem taken_of_strong (drains : Drains run component items takes steps first)
    (fair : run.StronglyFair component)
    (enabled : ∀ position, first ≤ position → items (run.state position) ≠ [] →
      ∃ later, position ≤ later ∧ Enabled step component (run.state later))
    {position : Nat} (later : first ≤ position) {front back : List Item} {item : Item}
    (split : items (run.state position) = front ++ item :: back) :
    ∃ last, position ≤ last ∧ takes (run.state last) (run.event last) = some item := by
  refine taken_after item (fair.leadsTo_of_stages ((drains.from_later later).descends item) ?_)
    split
  rintro rank last ⟨after, ⟨front, back, split, _⟩, _⟩
  obtain ⟨final, reaches, able⟩ := enabled last (later.trans after) (by simp [split])
  exact ⟨final, reaches, .inr able⟩

end Drains

end Transition
