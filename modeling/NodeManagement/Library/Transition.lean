import Mathlib.Logic.Relation

/-!
Labelled transition systems given by an executable partial step function.
`step state event = none` says that the event is not enabled.  Runs are restricted by a
condition `allowed` on the state before a step and its event, so that "every run whose
steps all meet the condition" is one reachability relation.
-/

namespace Transition

variable {State Event : Type}

/-- Replays a list of events, stopping at the first event that is not enabled. -/
def runFrom (step : State → Event → Option State) : State → List Event → Option State
  | state, [] => some state
  | state, event :: rest => (step state event).bind fun next => runFrom step next rest

def checkFrom (step : State → Event → Option State) (allowed : State → Event → Bool) :
    State → List Event → Bool
  | _, [] => true
  | state, event :: rest =>
      allowed state event &&
        match step state event with
        | some next => checkFrom step allowed next rest
        | none => true

def labelsFrom {Label : Type} (step : State → Event → Option State)
    (label : State → Event → Option Label) : State → List Event → List Label
  | _, [] => []
  | state, event :: rest =>
      (label state event).toList ++
        match step state event with
        | some next => labelsFrom step label next rest
        | none => []

inductive Reaches (step : State → Event → Option State) (allowed : State → Event → Prop)
    (start : State) : State → Prop
  | refl : Reaches step allowed start start
  | step {state next event} : Reaches step allowed start state → allowed state event →
      step state event = some next → Reaches step allowed start next

def anyStep (_ : State) (_ : Event) : Prop := True

section

variable {step : State → Event → Option State} {allowed : State → Event → Prop}
  {start state next : State}

theorem runFrom_append (first second : List Event) :
    runFrom step start (first ++ second) =
      (runFrom step start first).bind fun middle => runFrom step middle second := by
  induction first generalizing start with
  | nil => rfl
  | cons event rest ih =>
      simp only [List.cons_append, runFrom, Option.bind_assoc]
      congr 1
      funext next
      exact ih

theorem checkFrom_of_append {allowedCheck : State → Event → Bool} {first second : List Event}
    (checked : checkFrom step allowedCheck start (first ++ second) = true) :
    checkFrom step allowedCheck start first = true := by
  induction first generalizing start with
  | nil => rfl
  | cons event rest ih =>
      simp only [List.cons_append, checkFrom, Bool.and_eq_true] at checked ⊢
      refine ⟨checked.1, ?_⟩
      cases taken : step start event with
      | none => rfl
      | some next => exact ih (by simpa only [taken] using checked.2)

theorem checkFrom_at {allowedCheck : State → Event → Bool} {first second : List Event}
    {event : Event} {middle : State} (reached : runFrom step start first = some middle)
    (checked : checkFrom step allowedCheck start (first ++ event :: second) = true) :
    allowedCheck middle event = true := by
  induction first generalizing start with
  | nil =>
      obtain rfl := Option.some.inj reached
      simp only [List.nil_append, checkFrom, Bool.and_eq_true] at checked
      exact checked.1
  | cons head rest ih =>
      obtain ⟨next, taken, tail⟩ := Option.bind_eq_some_iff.mp reached
      simp only [List.cons_append, checkFrom, taken, Bool.and_eq_true] at checked
      exact ih tail checked.2

/-- The induction rule: what holds at the start and is preserved by every allowed step
holds in every state reached. -/
theorem Reaches.invariant (Inv : State → Prop) (reached : Reaches step allowed start state)
    (initial : Inv start)
    (preserved : ∀ before event after, Inv before → allowed before event →
      step before event = some after → Inv after) :
    Inv state := by
  induction reached with
  | refl => exact initial
  | step _ fits taken ih => exact preserved _ _ _ ih fits taken

theorem Reaches.mono {weaker : State → Event → Prop}
    (reached : Reaches step allowed start state)
    (implies : ∀ before event, allowed before event → weaker before event) :
    Reaches step weaker start state := by
  induction reached with
  | refl => exact .refl
  | step _ fits taken ih => exact .step ih (implies _ _ fits) taken

theorem Reaches.trans (first : Reaches step allowed start state)
    (second : Reaches step allowed state next) : Reaches step allowed start next := by
  induction second with
  | refl => exact first
  | step _ fits taken ih => exact .step ih fits taken

theorem Reaches.project {View ViewEvent : Type} {viewStep : View → ViewEvent → Option View}
    (view : State → View) (reached : Reaches step allowed start state)
    (simulates : ∀ before event after, step before event = some after →
      view after = view before ∨ ∃ seen, viewStep (view before) seen = some (view after)) :
    Reaches viewStep anyStep (view start) (view state) := by
  induction reached with
  | refl => exact .refl
  | step _ _ taken ih =>
      rcases simulates _ _ _ taken with same | ⟨seen, stepped⟩
      · exact same ▸ ih
      · exact .step ih trivial stepped

theorem Reaches.of_checkFrom {allowedCheck : State → Event → Bool} {events : List Event}
    (reached : Reaches step allowed start state)
    (sound : ∀ before event, allowedCheck before event = true → allowed before event)
    (checked : checkFrom step allowedCheck state events = true)
    (replay : runFrom step state events = some next) : Reaches step allowed start next := by
  induction events generalizing state with
  | nil =>
      simp only [runFrom, Option.some.injEq] at replay
      exact replay ▸ reached
  | cons event rest ih =>
      simp only [runFrom, Option.bind_eq_some_iff] at replay
      obtain ⟨middle, taken, tail⟩ := replay
      simp only [checkFrom, taken, Bool.and_eq_true] at checked
      exact ih (.step reached (sound _ _ checked.1) taken) checked.2 tail

/-- The rule for the exact condition of a property over a run: where a step from a good state ends
in a good state exactly when it is allowed, a run stays good throughout exactly when all its steps
are allowed. -/
theorem always_iff_checkFrom (Inv Good : State → Prop) {allowedCheck : State → Event → Bool}
    (preserved : ∀ before event after, Inv before → step before event = some after → Inv after)
    (exactly : ∀ before event after, Inv before → Good before → step before event = some after →
      (Good after ↔ allowedCheck before event = true))
    (inv : Inv start) (good : Good start) {events : List Event} {final : State}
    (replay : runFrom step start events = some final) :
    (∀ first second middle, events = first ++ second →
        runFrom step start first = some middle → Good middle) ↔
      checkFrom step allowedCheck start events = true := by
  induction events generalizing start with
  | nil =>
      refine iff_of_true ?_ rfl
      intro first second middle split run
      obtain ⟨rfl, _⟩ := List.nil_eq_append_iff.mp split
      exact Option.some.inj run ▸ good
  | cons event rest ih =>
      obtain ⟨next, taken, tail⟩ := Option.bind_eq_some_iff.mp replay
      have here := exactly start event next inv good taken
      simp only [checkFrom, taken, Bool.and_eq_true]
      constructor
      · intro always
        have goodNext := always [event] rest next rfl (by simp [runFrom, taken])
        refine ⟨here.mp goodNext, (ih (preserved _ _ _ inv taken) goodNext tail).mp ?_⟩
        intro first second middle split run
        exact always (event :: first) second middle (by rw [split]; rfl)
          (by simpa only [runFrom, taken, Option.bind_some] using run)
      · rintro ⟨allowed, others⟩ first second middle split run
        have goodNext := here.mpr allowed
        cases first with
        | nil => exact Option.some.inj run ▸ good
        | cons head front =>
            simp only [List.cons_append, List.cons.injEq] at split
            obtain ⟨rfl, split⟩ := split
            simp only [runFrom, taken, Option.bind_some] at run
            exact (ih (preserved _ _ _ inv taken) goodNext tail).mpr others front second middle
              split run

/-- The rule for the exact condition of a property of steps: where a step has the property exactly
when it is allowed, all steps of a run have it exactly when all are allowed. -/
theorem everyStep_iff_checkFrom (Inv : State → Prop) {Good : State → Event → State → Prop}
    {allowedCheck : State → Event → Bool}
    (preserved : ∀ before event after, Inv before → step before event = some after → Inv after)
    (exactly : ∀ before event after, Inv before → step before event = some after →
      (Good before event after ↔ allowedCheck before event = true))
    (inv : Inv start) {events : List Event} {final : State}
    (replay : runFrom step start events = some final) :
    (∀ first event second before after, events = first ++ event :: second →
        runFrom step start first = some before → step before event = some after →
        Good before event after) ↔
      checkFrom step allowedCheck start events = true := by
  induction events generalizing start with
  | nil =>
      refine iff_of_true ?_ rfl
      intro first event second before after split
      simp at split
  | cons event rest ih =>
      obtain ⟨next, taken, tail⟩ := Option.bind_eq_some_iff.mp replay
      have here := exactly start event next inv taken
      have others := ih (preserved _ _ _ inv taken) tail
      simp only [checkFrom, taken, Bool.and_eq_true]
      rw [← here, ← others]
      constructor
      · intro every
        refine ⟨every [] event rest start next rfl rfl taken, ?_⟩
        intro first other second before after split run
        exact every (event :: first) other second before after (by rw [split]; rfl)
          (by simpa only [runFrom, taken, Option.bind_some] using run)
      · rintro ⟨good, later⟩ first other second before after split run moved
        cases first with
        | nil =>
            obtain ⟨rfl, rfl⟩ := List.cons.inj split
            obtain rfl := Option.some.inj run
            obtain rfl := Option.some.inj (taken.symm.trans moved)
            exact good
        | cons head front =>
            obtain ⟨rfl, behind⟩ := List.cons.inj split
            simp only [runFrom, taken, Option.bind_some] at run
            exact later front other second before after behind run moved

theorem runFrom_labelsFrom {View Label : Type} {viewStep : View → Label → Option View}
    (view : State → View) {label : State → Event → Option Label}
    {allowedCheck : State → Event → Bool} (Inv : State → Prop)
    (preserved : ∀ before event after, Inv before → allowedCheck before event = true →
      step before event = some after → Inv after)
    (silent : ∀ before event after, Inv before → allowedCheck before event = true →
      step before event = some after → label before event = none → view after = view before)
    (visible : ∀ before event after seen, Inv before → allowedCheck before event = true →
      step before event = some after → label before event = some seen →
      viewStep (view before) seen = some (view after))
    (inv : Inv start) {events : List Event} {final : State}
    (checked : checkFrom step allowedCheck start events = true)
    (replay : runFrom step start events = some final) :
    runFrom viewStep (view start) (labelsFrom step label start events) = some (view final) := by
  induction events generalizing start with
  | nil => exact congrArg (fun state => some (view state)) (Option.some.inj replay)
  | cons event rest ih =>
      obtain ⟨next, taken, tail⟩ := Option.bind_eq_some_iff.mp replay
      simp only [checkFrom, taken, Bool.and_eq_true] at checked
      have later := ih (preserved _ _ _ inv checked.1 taken) checked.2 tail
      simp only [labelsFrom, taken]
      cases named : label start event with
      | none =>
          have same := silent _ _ _ inv checked.1 taken named
          simpa only [Option.toList_none, List.nil_append, same] using later
      | some seen =>
          have moved := visible _ _ _ _ inv checked.1 taken named
          simpa only [Option.toList_some, List.singleton_append, runFrom, moved, Option.bind_some]
            using later

theorem checkFrom_of_always {allowedCheck : State → Event → Bool}
    (always : ∀ before event, allowedCheck before event = true) (events : List Event) :
    checkFrom step allowedCheck start events = true := by
  induction events generalizing start with
  | nil => rfl
  | cons event rest ih =>
      simp only [checkFrom, always, Bool.true_and]
      cases step start event with
      | none => rfl
      | some next => exact ih

theorem Reaches.of_runFrom {events : List Event} (replay : runFrom step start events = some next) :
    Reaches step anyStep start next :=
  Reaches.refl.of_checkFrom (fun _ _ _ => trivial)
    (checkFrom_of_always (fun _ _ => (rfl : true = true)) events) replay

theorem labelsFrom_invariant {Label : Type} (label : State → Event → Option Label)
    (allowedCheck : State → Event → Bool) (Inv : List Label → State → Prop)
    (preserved : ∀ log before event after, Inv log before → allowedCheck before event = true →
      step before event = some after → Inv (log ++ (label before event).toList) after)
    (inv : Inv [] start) {events : List Event} {final : State}
    (checked : checkFrom step allowedCheck start events = true)
    (replay : runFrom step start events = some final) :
    Inv (labelsFrom step label start events) final := by
  have general : ∀ (events : List Event) (log : List Label) (start : State), Inv log start →
      checkFrom step allowedCheck start events = true →
      runFrom step start events = some final →
      Inv (log ++ labelsFrom step label start events) final := by
    intro events
    induction events with
    | nil =>
        intro log start inv _ replay
        simpa [labelsFrom] using Option.some.inj replay ▸ inv
    | cons event rest ih =>
        intro log start inv checked replay
        obtain ⟨next, taken, tail⟩ := Option.bind_eq_some_iff.mp replay
        simp only [checkFrom, taken, Bool.and_eq_true] at checked
        have later := ih _ _ (preserved _ _ _ _ inv checked.1 taken) checked.2 tail
        simpa only [labelsFrom, taken, List.append_assoc] using later
  exact general events [] start inv checked replay

theorem exists_reaches (step : State → Event → Option State) (allowedCheck : State → Event → Bool)
    (goal : State → Bool) (start : State) (events : List Event)
    (sound : ∀ before event, allowedCheck before event = true → allowed before event)
    (checked : checkFrom step allowedCheck start events = true)
    (replay : (runFrom step start events).any goal = true) :
    ∃ final, Reaches step allowed start final ∧ goal final = true := by
  cases ended : runFrom step start events with
  | none => simp [ended] at replay
  | some final =>
      simp only [ended, Option.any_some] at replay
      exact ⟨final, Reaches.refl.of_checkFrom sound checked ended, replay⟩

end

end Transition
