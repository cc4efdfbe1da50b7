import Mathlib.Data.List.Basic

/-!
A bounded first-in first-out queue that can be closed, with the history of its elements: what
was ever accepted, in the order of acceptance, and what left, in which order and why.
-/

namespace BoundedFifo

inductive Departure
  | taken
  | flushed
  | displaced
deriving DecidableEq

structure State (α : Type) where
  contents : List α
  opened : Bool
  accepted : List α
  departed : List (α × Departure)

namespace State

variable {α : Type}

def empty : State α := ⟨[], true, [], []⟩

def append (state : State α) (value : α) : State α :=
  { state with
    contents := state.contents ++ [value]
    accepted := state.accepted ++ [value] }

def depart (state : State α) (departure : Departure) : State α :=
  match state.contents with
  | [] => state
  | oldest :: rest =>
      { state with contents := rest, departed := state.departed ++ [(oldest, departure)] }

/-- A full queue refuses the value, unless the offer is forced: then its oldest element has to
make room. -/
def offer (state : State α) (capacity : Nat) (value : α) (forced : Bool) : State α :=
  if !state.opened then state
  else if capacity ≤ state.contents.length then
    if forced then (state.depart .displaced).append value else state
  else state.append value

def take (state : State α) : State α := if state.opened then state.depart .taken else state

def next (state : State α) : Option α := if state.opened then state.contents.head? else none

def flush (state : State α) : State α :=
  { state with
    contents := []
    departed := state.departed ++ state.contents.map fun value => (value, .flushed) }

def setOpened (state : State α) (opened : Bool) : State α := { state with opened := opened }

@[simp] theorem depart_contents (state : State α) (departure : Departure) :
    (state.depart departure).contents = state.contents.tail := by
  unfold depart
  split <;> simp_all

@[simp] theorem depart_opened (state : State α) (departure : Departure) :
    (state.depart departure).opened = state.opened := by
  unfold depart
  split <;> rfl

theorem offer_contents (state : State α) (capacity : Nat) (value : α) (forced : Bool) :
    (state.offer capacity value forced).contents =
      if !state.opened then state.contents
      else if capacity ≤ state.contents.length then
        if forced then state.contents.tail ++ [value] else state.contents
      else state.contents ++ [value] := by
  unfold offer
  split
  · rfl
  · split
    · split <;> simp [append]
    · rfl

@[simp] theorem offer_opened (state : State α) (capacity : Nat) (value : α) (forced : Bool) :
    (state.offer capacity value forced).opened = state.opened := by
  unfold offer
  split
  · rfl
  · split
    · split <;> simp [append]
    · rfl

theorem take_contents (state : State α) :
    state.take.contents = if state.opened then state.contents.tail else state.contents := by
  unfold take
  split <;> simp

@[simp] theorem take_opened (state : State α) : state.take.opened = state.opened := by
  unfold take
  split <;> simp

def leavers (state : State α) : List α := state.departed.map Prod.fst

theorem take_leavers (state : State α) :
    state.take.leavers = state.leavers ++ state.next.toList := by
  unfold take next
  split
  · unfold depart leavers
    split
    next empty => simp [empty]
    next contents => simp [contents]
  · simp

theorem leavers_offer (state : State α) (capacity : Nat) (value : α) (forced : Bool) :
    state.leavers <+: (state.offer capacity value forced).leavers := by
  unfold offer
  split
  · exact List.prefix_refl _
  · split
    · split
      · unfold depart append leavers
        split <;> simp
      · exact List.prefix_refl _
    · exact List.prefix_refl _

theorem leavers_flush (state : State α) : state.leavers <+: state.flush.leavers := by
  simp [leavers, flush]

/-- The queue keeps its bound, and what has left followed by what is inside is what was accepted:
elements leave in the order in which they came, each at most once, and none gets lost. -/
structure Accounted (capacity : Nat) (state : State α) : Prop where
  bounded : state.contents.length ≤ capacity
  inOrder : state.leavers ++ state.contents = state.accepted

namespace Accounted

variable {capacity : Nat} {state : State α}

theorem empty : (empty : State α).Accounted capacity := ⟨Nat.zero_le _, rfl⟩

theorem depart (accounted : state.Accounted capacity) (departure : Departure) :
    (state.depart departure).Accounted capacity := by
  unfold State.depart
  split
  next => exact accounted
  next oldest rest contents =>
    have bounded := accounted.bounded
    have inOrder := accounted.inOrder
    rw [contents, List.length_cons] at bounded
    rw [contents] at inOrder
    exact ⟨Nat.le_of_succ_le bounded, by simpa [leavers] using inOrder⟩

theorem append (accounted : state.Accounted capacity) (room : state.contents.length < capacity)
    (value : α) : (state.append value).Accounted capacity := by
  refine ⟨by simp only [State.append, List.length_append, List.length_singleton]; omega, ?_⟩
  simp only [State.append, leavers, ← accounted.inOrder, List.append_assoc]

theorem depart_room (accounted : state.Accounted capacity) (positive : 0 < capacity)
    (departure : Departure) : (state.depart departure).contents.length < capacity := by
  have bounded := accounted.bounded
  rw [depart_contents, List.length_tail]
  omega

theorem offer (accounted : state.Accounted capacity) (positive : 0 < capacity) (value : α)
    (forced : Bool) : (state.offer capacity value forced).Accounted capacity := by
  unfold State.offer
  split
  · exact accounted
  · split
    · split
      · exact (accounted.depart _).append (accounted.depart_room positive _) value
      · exact accounted
    next room => exact accounted.append (by omega) value

theorem take (accounted : state.Accounted capacity) : state.take.Accounted capacity := by
  unfold State.take
  split
  · exact accounted.depart _
  · exact accounted

theorem flush (accounted : state.Accounted capacity) : state.flush.Accounted capacity := by
  refine ⟨Nat.zero_le _, ?_⟩
  simpa [State.flush, leavers, List.map_map, Function.comp_def] using accounted.inOrder

theorem setOpened (accounted : state.Accounted capacity) (opened : Bool) :
    (state.setOpened opened).Accounted capacity :=
  ⟨accounted.bounded, accounted.inOrder⟩

end Accounted

end State

end BoundedFifo
