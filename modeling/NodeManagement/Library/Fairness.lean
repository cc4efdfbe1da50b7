import Mathlib.Data.List.GetD
import Mathlib.Order.WellFounded
import NodeManagement.Library.Transition

/-!
Infinite runs of a labelled transition system, and what a fair one comes to.  A component is the
set of events of one thread; it is treated fairly when it takes a step once it can go on doing so.
Properties of a run are stated of its positions, so that they may speak of the events as well as
of the states.
-/

namespace Transition

def LeadsTo (first second : Nat → Prop) : Prop :=
  ∀ position, first position → ∃ later, position ≤ later ∧ second later

namespace LeadsTo

variable {first middle second : Nat → Prop}

theorem of_imp (implies : ∀ position, first position → second position) :
    LeadsTo first second :=
  fun position holds => ⟨position, le_refl _, implies position holds⟩

theorem trans (left : LeadsTo first middle) (right : LeadsTo middle second) :
    LeadsTo first second := by
  intro position holds
  obtain ⟨later, reaches, between⟩ := left position holds
  obtain ⟨last, goes, arrives⟩ := right later between
  exact ⟨last, reaches.trans goes, arrives⟩

theorem split (left : LeadsTo first fun position => second position ∨ middle position)
    (right : LeadsTo middle second) : LeadsTo first second := by
  intro position holds
  obtain ⟨later, reaches, arrives | between⟩ := left position holds
  · exact ⟨later, reaches, arrives⟩
  · obtain ⟨last, goes, arrives⟩ := right later between
    exact ⟨last, reaches.trans goes, arrives⟩

theorem of_stages {Rank : Type} [LT Rank] [WellFoundedLT Rank] {stage : Rank → Nat → Prop}
    (drops : ∀ rank, LeadsTo (stage rank) fun position =>
      second position ∨ ∃ less < rank, stage less position) :
    LeadsTo (fun position => ∃ rank, stage rank position) second := by
  rintro position ⟨rank, holds⟩
  induction rank using WellFoundedLT.induction generalizing position with
  | ind rank ih =>
      obtain ⟨later, reaches, arrives | ⟨less, smaller, still⟩⟩ := drops rank position holds
      · exact ⟨later, reaches, arrives⟩
      · obtain ⟨last, goes, arrives⟩ := ih less smaller later still
        exact ⟨last, reaches.trans goes, arrives⟩

end LeadsTo

variable {State Event : Type}

structure Execution (step : State → Event → Option State) (start : State) where
  state : Nat → State
  event : Nat → Event
  starts : state 0 = start
  next : ∀ position, step (state position) (event position) = some (state (position + 1))

def Enabled (step : State → Event → Option State) (component : State → Event → Prop)
    (state : State) : Prop :=
  ∃ event after, component state event ∧ step state event = some after

theorem Enabled.of_isSome {step : State → Event → Option State} {component : State → Event → Prop}
    {state : State} (event : Event) (own : component state event)
    (able : (step state event).isSome = true) : Enabled step component state := by
  obtain ⟨after, taken⟩ := Option.isSome_iff_exists.mp able
  exact ⟨event, after, own, taken⟩

namespace Execution

variable {step : State → Event → Option State} {start : State} (run : Execution step start)

/-- The component steps once it is enabled without end. -/
def WeaklyFair (component : State → Event → Prop) : Prop :=
  ∀ position, (∀ later, position ≤ later → Enabled step component (run.state later)) →
    ∃ later, position ≤ later ∧ component (run.state later) (run.event later)

/-- The component steps once it is enabled again and again. -/
def StronglyFair (component : State → Event → Prop) : Prop :=
  ∀ position, (∀ later, position ≤ later →
      ∃ last, later ≤ last ∧ Enabled step component (run.state last)) →
    ∃ later, position ≤ later ∧ component (run.state later) (run.event later)

variable {run} {component : State → Event → Prop} {first second : Nat → Prop}

theorem reaches (run : Execution step start) (position : Nat) :
    Reaches step anyStep start (run.state position) := by
  induction position with
  | zero =>
      rw [run.starts]
      exact .refl
  | succ position ih => exact .step ih trivial (run.next position)

theorem always_from {holds : Nat → Prop} {position : Nat} (here : holds position)
    (keeps : ∀ later, position ≤ later → holds later → holds (later + 1)) :
    ∀ later, position ≤ later → holds later := by
  intro later after
  induction after with
  | refl => exact here
  | step after ih => exact keeps _ after ih

theorem holds_until (keeps : ∀ position, first position →
      second (position + 1) ∨ first (position + 1))
    {position : Nat} (holds : first position)
    (never : ∀ later, position ≤ later → ¬second later) :
    ∀ later, position ≤ later → first later :=
  always_from holds fun later after still =>
    (keeps later still).resolve_left (never (later + 1) (by omega))

/-- The rule of strong fairness: the goal is reached when the component is enabled again and again
as long as it is not, and reaches it by a step of its own. -/
theorem StronglyFair.leadsTo (fair : run.StronglyFair component)
    (keeps : ∀ position, first position → second (position + 1) ∨ first (position + 1))
    (enabled : LeadsTo first fun position =>
      second position ∨ Enabled step component (run.state position))
    (helps : ∀ position, first position → component (run.state position) (run.event position) →
      second (position + 1)) :
    LeadsTo first second := by
  intro position holds
  by_contra missing
  have never : ∀ later, position ≤ later → ¬second later :=
    fun later after arrives => missing ⟨later, after, arrives⟩
  have stays := holds_until keeps holds never
  obtain ⟨later, after, steps⟩ := fair position fun later after => by
    obtain ⟨last, reaches, arrives | able⟩ := enabled later (stays later after)
    · exact absurd arrives (never last (after.trans reaches))
    · exact ⟨last, reaches, able⟩
  exact never (later + 1) (by omega) (helps later (stays later after) steps)

theorem WeaklyFair.leadsTo (fair : run.WeaklyFair component)
    (keeps : ∀ position, first position → second (position + 1) ∨ first (position + 1))
    (enabled : ∀ position, first position →
      second position ∨ Enabled step component (run.state position))
    (helps : ∀ position, first position → component (run.state position) (run.event position) →
      second (position + 1)) :
    LeadsTo first second := by
  intro position holds
  by_contra missing
  have never : ∀ later, position ≤ later → ¬second later :=
    fun later after arrives => missing ⟨later, after, arrives⟩
  have stays := holds_until keeps holds never
  obtain ⟨later, after, steps⟩ := fair position fun later after =>
    (enabled later (stays later after)).resolve_left (never later after)
  exact never (later + 1) (by omega) (helps later (stays later after) steps)

def Descends {Rank : Type} [LT Rank] (run : Execution step start)
    (component : State → Event → Prop) (stage : Rank → Nat → Prop) (second : Nat → Prop) : Prop :=
  ∀ rank position, stage rank position → second (position + 1) ∨
    (∃ less < rank, stage less (position + 1)) ∨
      stage rank (position + 1) ∧ ¬component (run.state position) (run.event position)

section

variable {Rank : Type} [LT Rank] {stage : Rank → Nat → Prop}

theorem Descends.keeps (descends : run.Descends component stage second) (rank : Rank)
    (position : Nat) (holds : stage rank position) :
    (second (position + 1) ∨ ∃ less < rank, stage less (position + 1)) ∨
      stage rank (position + 1) := by
  rcases descends rank position holds with arrives | less | ⟨still, _⟩
  · exact .inl (.inl arrives)
  · exact .inl (.inr less)
  · exact .inr still

theorem Descends.helps (descends : run.Descends component stage second) (rank : Rank)
    (position : Nat) (holds : stage rank position)
    (steps : component (run.state position) (run.event position)) :
    second (position + 1) ∨ ∃ less < rank, stage less (position + 1) := by
  rcases descends rank position holds with arrives | less | ⟨_, idle⟩
  · exact .inl arrives
  · exact .inr less
  · exact absurd steps idle

variable [WellFoundedLT Rank]

theorem StronglyFair.leadsTo_of_stages (fair : run.StronglyFair component)
    (descends : run.Descends component stage second)
    (enabled : ∀ rank, LeadsTo (stage rank) fun position =>
      (second position ∨ ∃ less < rank, stage less position) ∨
        Enabled step component (run.state position)) :
    LeadsTo (fun position => ∃ rank, stage rank position) second :=
  .of_stages fun rank => fair.leadsTo (descends.keeps rank) (enabled rank) (descends.helps rank)

/-- The rule of weak fairness with a rank: no step raises the rank, and those of the component
lower it. -/
theorem WeaklyFair.leadsTo_of_stages (fair : run.WeaklyFair component)
    (descends : run.Descends component stage second)
    (enabled : ∀ rank position, stage rank position →
      second position ∨ Enabled step component (run.state position)) :
    LeadsTo (fun position => ∃ rank, stage rank position) second :=
  .of_stages fun rank => fair.leadsTo (descends.keeps rank)
    (fun position holds => (enabled rank position holds).imp_left .inl) (descends.helps rank)

end

def project {View ViewEvent : Type} {viewStep : View → ViewEvent → Option View}
    (run : Execution step start) (view : State → View) (label : State → Event → ViewEvent)
    (simulates : ∀ position, viewStep (view (run.state position))
      (label (run.state position) (run.event position)) = some (view (run.state (position + 1)))) :
    Execution viewStep (view start) where
  state position := view (run.state position)
  event position := label (run.state position) (run.event position)
  starts := congrArg view run.starts
  next := simulates

theorem ofIdle_next {events : List Event} {idle : Event} {final : State}
    (replay : runFrom step start events = some final) (rests : step final idle = some final)
    (position : Nat) :
    step ((runFrom step start (events.take position)).getD final) (events.getD position idle) =
      some ((runFrom step start (events.take (position + 1))).getD final) := by
  rcases Nat.lt_or_ge position events.length with inside | beyond
  · have whole := replay
    rw [← List.take_append_drop (position + 1) events, runFrom_append,
      List.take_succ_eq_append_getElem inside, runFrom_append] at whole
    obtain ⟨next, reached, _⟩ := Option.bind_eq_some_iff.mp whole
    obtain ⟨here, before, taken⟩ := Option.bind_eq_some_iff.mp reached
    have moved : step here events[position] = some next := by simpa [runFrom] using taken
    rw [List.take_succ_eq_append_getElem inside, runFrom_append, before,
      List.getD_eq_getElem _ _ inside]
    simp [runFrom, moved]
  · rw [List.take_of_length_le beyond, List.take_of_length_le (by omega), replay,
      List.getD_eq_default _ _ beyond]
    exact rests

def ofIdle (events : List Event) (idle : Event) {final : State}
    (replay : runFrom step start events = some final) (rests : step final idle = some final) :
    Execution step start where
  state position := (runFrom step start (events.take position)).getD final
  event position := events.getD position idle
  starts := rfl
  next := ofIdle_next replay rests

section

variable {events : List Event} {idle : Event} {final : State}
  (replay : runFrom step start events = some final) (rests : step final idle = some final)

theorem ofIdle_state {position : Nat} (beyond : events.length ≤ position) :
    (ofIdle events idle replay rests).state position = final := by
  simp [ofIdle, List.take_of_length_le beyond, replay]

theorem ofIdle_event {position : Nat} (beyond : events.length ≤ position) :
    (ofIdle events idle replay rests).event position = idle :=
  List.getD_eq_default _ _ beyond

theorem ofIdle_state_at {first second : List Event} {middle : State}
    (split : events = first ++ second) (reached : runFrom step start first = some middle) :
    (ofIdle events idle replay rests).state first.length = middle := by
  simp [ofIdle, split, reached]

theorem ofIdle_event_at {first second : List Event} {event : Event}
    (split : events = first ++ event :: second) :
    (ofIdle events idle replay rests).event first.length = event := by
  simp [ofIdle, split]

theorem ofIdle_always {allowedCheck : State → Event → Bool}
    (checked : checkFrom step allowedCheck start events = true)
    (last : allowedCheck final idle = true) (position : Nat) :
    allowedCheck ((ofIdle events idle replay rests).state position)
      ((ofIdle events idle replay rests).event position) = true := by
  rcases Nat.lt_or_ge position events.length with inside | beyond
  · rw [← List.take_append_drop position events, ← List.getElem_cons_drop inside] at checked
    have whole := replay
    rw [← List.take_append_drop position events, runFrom_append] at whole
    obtain ⟨here, before, _⟩ := Option.bind_eq_some_iff.mp whole
    have allowed := checkFrom_at before checked
    unfold ofIdle
    dsimp only
    rw [before, List.getD_eq_getElem _ _ inside]
    exact allowed
  · rw [ofIdle_state replay rests beyond, ofIdle_event replay rests beyond]
    exact last

theorem StronglyFair.of_disabled {run : Execution step start} {last : Nat}
    (disabled : ∀ later, last ≤ later → ¬Enabled step component (run.state later)) :
    run.StronglyFair component := by
  intro position again
  obtain ⟨later, reaches, able⟩ := again (max position last) (le_max_left _ _)
  exact absurd able (disabled later ((le_max_right _ _).trans reaches))

theorem ofIdle_stronglyFair (disabled : ¬Enabled step component final) :
    (ofIdle events idle replay rests).StronglyFair component :=
  .of_disabled fun _ beyond => (ofIdle_state replay rests beyond).symm ▸ disabled

/-- Where nothing but its own steps disables a component, weak fairness is strong. -/
theorem WeaklyFair.stronglyFair {run : Execution step start} (fair : run.WeaklyFair component)
    (stable : ∀ position, Enabled step component (run.state position) →
      component (run.state position) (run.event position) ∨
        Enabled step component (run.state (position + 1))) :
    run.StronglyFair component := by
  intro position again
  by_contra missing
  obtain ⟨first, after, able⟩ := again position (le_refl _)
  have stays := always_from able fun later beyond holds =>
    (stable later holds).resolve_left fun own => missing ⟨later, after.trans beyond, own⟩
  obtain ⟨later, beyond, own⟩ := fair first stays
  exact missing ⟨later, after.trans beyond, own⟩

theorem StronglyFair.weaklyFair {run : Execution step start} (fair : run.StronglyFair component) :
    run.WeaklyFair component :=
  fun position always => fair position fun later after => ⟨later, le_refl _, always later after⟩

end

end Execution

end Transition
