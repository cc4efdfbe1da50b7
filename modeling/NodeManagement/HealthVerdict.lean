import NodeManagement.NodeTrace

/-!
Soundness of the health verdict over whole runs of a started node: TIMEOUT and DEAD are notified
exactly when the answers of the client call for it.
-/

namespace NodeManagement

open Transition

def silentEpisode (state : StateList) (retries : Nat) : List LifeEvent :=
  [.ping state, .unanswered, .notify .timeout] ++
    (List.replicate retries [.ping .timeout, .unanswered]).flatten

def StateList.isStay : StateList → Prop
  | init | alive => True
  | _ => False

def Rested (events : List LifeEvent) : Prop :=
  events = [] ∨ ∃ before, events = before ++ [.answered]

namespace Life

def History : Life → List LifeEvent → Prop
  | resting state, events => state.isStay ∧ Rested events
  | asked state, events => ∃ before, state.isStay ∧ Rested before ∧ events = before ++ [.ping state]
  | silent, events => ∃ before state, state.isStay ∧ Rested before ∧
      events = before ++ [.ping state, .unanswered]
  | retrying retryTime, events => retryTime < retryNum ∧ ∃ before state, state.isStay ∧
      Rested before ∧ events = before ++ silentEpisode state retryTime
  | askedRetry retryTime, events => retryTime < retryNum ∧ ∃ before state, state.isStay ∧
      Rested before ∧ events = before ++ silentEpisode state retryTime ++ [.ping .timeout]
  | condemned, events => ∃ before state, state.isStay ∧ Rested before ∧
      events = before ++ silentEpisode state retryNum
  | dead, events => ∃ before state, state.isStay ∧ Rested before ∧
      events = before ++ silentEpisode state retryNum ++ [.notify .dead]
  | finished, events => ∃ before state, state.isStay ∧ Rested before ∧
      events = before ++ silentEpisode state retryNum ++ [.notify .dead, .exit]

theorem silentEpisode_succ (state : StateList) (retries : Nat) :
    silentEpisode state (retries + 1) =
      silentEpisode state retries ++ [.ping .timeout, .unanswered] := by
  simp [silentEpisode, List.replicate_succ']

theorem next_history {life after : Life} {event : LifeEvent} {events : List LifeEvent}
    (history : life.History events) (taken : life.next event = some after) :
    after.History (events ++ [event]) := by
  unfold next at taken
  split at taken
  case h_1 state sent =>
      split at taken
      · rename_i same
        simp only [Option.some.injEq] at taken
        subst taken same
        exact ⟨events, history.1, history.2, rfl⟩
      · simp at taken
  case h_2 state =>
      simp only [Option.some.injEq] at taken
      subst taken
      exact ⟨trivial, .inr ⟨events, rfl⟩⟩
  case h_3 state =>
      simp only [Option.some.injEq] at taken
      subst taken
      obtain ⟨before, stay, rested, rfl⟩ := history
      exact ⟨before, state, stay, rested, by simp⟩
  case h_4 =>
      simp only [Option.some.injEq] at taken
      subst taken
      obtain ⟨before, state, stay, rested, rfl⟩ := history
      exact ⟨by decide, before, state, stay, rested, by simp [silentEpisode]⟩
  case h_5 retryTime =>
      simp only [Option.some.injEq] at taken
      subst taken
      obtain ⟨bound, before, state, stay, rested, rfl⟩ := history
      exact ⟨bound, before, state, stay, rested, rfl⟩
  case h_6 retryTime =>
      simp only [Option.some.injEq] at taken
      subst taken
      exact ⟨trivial, .inr ⟨events, rfl⟩⟩
  case h_7 retryTime =>
      simp only [Option.some.injEq] at taken
      subst taken
      obtain ⟨bound, before, state, stay, rested, rfl⟩ := history
      have grown : before ++ silentEpisode state retryTime ++ [.ping .timeout] ++ [.unanswered] =
          before ++ silentEpisode state (retryTime + 1) := by
        simp [silentEpisode_succ]
      rw [grown]
      split
      next more => exact ⟨more, before, state, stay, rested, rfl⟩
      next done =>
        have last : retryTime + 1 = retryNum := by omega
        exact ⟨before, state, stay, rested, by rw [last]⟩
  case h_8 =>
      simp only [Option.some.injEq] at taken
      subst taken
      obtain ⟨before, state, stay, rested, rfl⟩ := history
      exact ⟨before, state, stay, rested, rfl⟩
  case h_9 =>
      simp only [Option.some.injEq] at taken
      subst taken
      obtain ⟨before, state, stay, rested, rfl⟩ := history
      exact ⟨before, state, stay, rested, by simp⟩
  case h_10 => simp at taken

theorem run_history {life after : Life} {events : List LifeEvent} (earlier : List LifeEvent)
    (history : life.History earlier) (run : runFrom next life events = some after) :
    after.History (earlier ++ events) := by
  induction events generalizing life earlier with
  | nil =>
      simp only [runFrom, Option.some.injEq] at run
      simpa using run ▸ history
  | cons event rest ih =>
      simp only [runFrom, Option.bind_eq_some_iff] at run
      obtain ⟨middle, taken, tail⟩ := run
      simpa using ih (earlier ++ [event]) (next_history history taken) tail

theorem next_silent {event : LifeEvent} {after : Life} (taken : silent.next event = some after) :
    event = .notify .timeout ∧ after = .retrying 0 := by
  unfold next at taken
  split at taken <;> simp_all

theorem next_retrying {event : LifeEvent} {after : Life} {retryTime : Nat}
    (taken : (retrying retryTime).next event = some after) : event = .ping .timeout := by
  unfold next at taken
  split at taken <;> simp_all

theorem next_condemned {event : LifeEvent} {after : Life}
    (taken : condemned.next event = some after) : event = .notify .dead ∧ after = .dead := by
  unfold next at taken
  split at taken <;> simp_all

theorem next_dead {event : LifeEvent} {after : Life} (taken : dead.next event = some after) :
    event = .exit ∧ after = .finished := by
  unfold next at taken
  split at taken <;> simp_all

theorem next_resting {event : LifeEvent} {after : Life} {state : StateList}
    (taken : (resting state).next event = some after) : event = .ping state := by
  unfold next at taken
  split at taken <;> simp_all

end Life

def LivedTo (stage : Life) (events : List LifeEvent) : Prop :=
  runFrom Life.next (.resting .init) events = some stage

namespace LivedTo

variable {stage : Life} {before after : List LifeEvent} {event : LifeEvent} {state : StateList}

theorem history (lived : LivedTo stage before) : stage.History before := by
  have start : (Life.resting .init).History [] := ⟨trivial, .inl rfl⟩
  exact Life.run_history [] start lived

theorem split (lived : LivedTo stage (before ++ event :: after)) :
    ∃ earlier later : Life, LivedTo earlier before ∧ earlier.next event = some later ∧
      runFrom Life.next later after = some stage := by
  unfold LivedTo at lived
  rw [runFrom_append, Option.bind_eq_some_iff] at lived
  obtain ⟨earlier, first, run⟩ := lived
  simp only [runFrom, Option.bind_eq_some_iff] at run
  obtain ⟨later, taken, tail⟩ := run
  exact ⟨earlier, later, first, taken, tail⟩

theorem ping_stay (lived : LivedTo stage (before ++ .ping state :: after)) (stay : state.isStay) :
    runFrom Life.next (.asked state) after = some stage := by
  obtain ⟨earlier, later, _, taken, tail⟩ := lived.split
  cases earlier with
  | resting current =>
      simp only [Life.next, Option.ite_none_right_eq_some, Option.some.injEq] at taken
      obtain ⟨rfl, rfl⟩ := taken
      exact tail
  | retrying retryTime => cases state <;> simp_all [Life.next, StateList.isStay]
  | _ => simp [Life.next] at taken

theorem timeout_cause (lived : LivedTo stage (before ++ .notify .timeout :: after)) :
    (∃ earlier state, state.isStay ∧ before = earlier ++ [.ping state, .unanswered]) ∧
      ∀ next rest, after = next :: rest → next = .ping .timeout := by
  obtain ⟨earlier, later, first, taken, tail⟩ := lived.split
  cases earlier with
  | silent =>
      simp only [Life.next, Option.some.injEq] at taken
      subst taken
      obtain ⟨start, state, stay, _, same⟩ := first.history
      refine ⟨⟨start, state, stay, same⟩, ?_⟩
      rintro next rest rfl
      simp only [runFrom, Option.bind_eq_some_iff] at tail
      obtain ⟨_, taken, _⟩ := tail
      exact Life.next_retrying taken
  | _ => simp [Life.next] at taken

theorem timeout_follows
    (lived : LivedTo stage (before ++ [.ping state, .unanswered] ++ event :: after))
    (stay : state.isStay) : event = .notify .timeout := by
  simp only [List.append_assoc, List.cons_append, List.nil_append] at lived
  have run := lived.ping_stay stay
  change (Life.silent.next event).bind _ = _ at run
  obtain ⟨_, taken, _⟩ := Option.bind_eq_some_iff.mp run
  exact (Life.next_silent taken).1

theorem dead_cause (lived : LivedTo stage (before ++ .notify .dead :: after)) :
    (∃ earlier state, state.isStay ∧ Rested earlier ∧
      before = earlier ++ silentEpisode state retryNum) ∧ (after = [] ∨ after = [.exit]) := by
  obtain ⟨earlier, later, first, taken, tail⟩ := lived.split
  cases earlier with
  | condemned =>
      simp only [Life.next, Option.some.injEq] at taken
      subst taken
      refine ⟨first.history, ?_⟩
      cases after with
      | nil => exact .inl rfl
      | cons next rest =>
          simp only [runFrom, Option.bind_eq_some_iff] at tail
          obtain ⟨last, taken, tail⟩ := tail
          obtain ⟨rfl, rfl⟩ := Life.next_dead taken
          cases rest with
          | nil => exact .inr rfl
          | cons more rest => simp [runFrom, Life.next] at tail
  | _ => simp [Life.next] at taken

theorem episode_condemned (stay : state.isStay)
    (lived : LivedTo stage (before ++ silentEpisode state retryNum ++ after)) :
    runFrom Life.next .condemned after = some stage := by
  simp only [silentEpisode, retryNum, List.append_assoc, List.cons_append, List.nil_append,
    List.replicate, List.flatten_cons, List.flatten_nil] at lived
  simpa [runFrom, Life.next, retryNum] using lived.ping_stay stay

theorem dead_follows
    (lived : LivedTo stage (before ++ silentEpisode state retryNum ++ event :: after))
    (stay : state.isStay) : event = .notify .dead := by
  have run := episode_condemned stay lived
  simp only [runFrom, Option.bind_eq_some_iff] at run
  obtain ⟨_, taken, _⟩ := run
  exact (Life.next_condemned taken).1

theorem retry_answered
    (lived : LivedTo stage (before ++ [.ping .timeout, .answered] ++ after)) :
    runFrom Life.next (.resting .alive) after = some stage := by
  simp only [List.append_assoc, List.cons_append, List.nil_append] at lived
  obtain ⟨earlier, later, first, taken, tail⟩ := lived.split
  cases earlier with
  | resting current =>
      simp only [Life.next, Option.ite_none_right_eq_some, Option.some.injEq] at taken
      obtain ⟨rfl, _⟩ := taken
      exact absurd first.history.1 (by simp [StateList.isStay])
  | retrying retryTime =>
      simp only [Life.next, Option.some.injEq] at taken
      subst taken
      simpa [runFrom, Life.next] using tail
  | _ => simp [Life.next] at taken

end LivedTo

def NodeBase.delay (node : NodeBase) : Nat :=
  match node.pc with
  | .loopHead => if node.running then 1 else 0
  | .retriesOver _ | .deadToInit => 2
  | .deadStop => 1
  | _ => 0

@[simp] theorem NodeBase.setPongState_delay (node : NodeBase) (flag : Bool) :
    (node.setPongState flag).delay = node.delay := rfl

def Life.isPressing : Life → Prop
  | silent | condemned | dead => True
  | _ => False

theorem NodeBase.threadStep_pressing {node : NodeBase} (coherent : node.Coherent)
    (pressing : node.stage.isPressing) (nodeID : Int) (now : Bytes) (timedOut : Bool) :
    ∃ after pushed, node.threadStep nodeID now timedOut = some (after, pushed) ∧
      (node.shows after pushed = [] → after.delay + 1 = node.delay) := by
  cases position : node.pc with
  | loopHead =>
      refine ⟨node.handleThread, none, by simp [threadStep, position], ?_⟩
      cases running : node.running with
      | false =>
          simp [shows, observe, position, handleThread, running, lifeFrom]
      | true =>
          cases state : node.currentState <;>
            simp_all [stage, delay, handleThread, shows, observe, lifeFrom, Life.isPressing]
  | resetPong site | sendPing site | pushPing site _ | waitPong site =>
      cases site <;> simp [stage, siteLife, siteAsked, position, Life.isPressing] at pressing
  | notifyTimeout =>
      refine ⟨_, _, by simp [threadStep, position]; exact ⟨rfl, rfl⟩, ?_⟩
      simp [shows, observe, lifeFrom]
  | retriesOver retryTime =>
      simp only [Coherent, position] at coherent
      refine ⟨_, _, by simp [threadStep, position]; exact ⟨rfl, rfl⟩, ?_⟩
      simp [delay, position, afterRetries, coherent]
  | notifyDead =>
      refine ⟨_, _, by simp [threadStep, position]; exact ⟨rfl, rfl⟩, ?_⟩
      simp [shows, observe, lifeFrom]
  | deadToInit =>
      refine ⟨_, _, by simp [threadStep, position]; exact ⟨rfl, rfl⟩, ?_⟩
      simp [delay, position]
  | deadStop =>
      simp only [Coherent, position] at coherent
      refine ⟨_, _, by simp [threadStep, position]; exact ⟨rfl, rfl⟩, ?_⟩
      simp [delay, position, stop, coherent.1]
  | _ => simp [stage, position, Life.isPressing] at pressing

namespace ObservedNode

structure Invariant (state : ObservedNode) : Prop where
  coherent : state.node.Coherent
  flag : pongSince false state.observed = state.node.pongState
  lived : LivedTo state.node.stage state.life

variable {state after : ObservedNode}

theorem started_invariant (type : TypeNode) (serial : Nat) (clientAddr : SockaddrIn) :
    (started type serial clientAddr).Invariant := by
  refine ⟨?_, rfl, rfl⟩
  simp [started, NodeBase.Coherent, NodeBase.create, NodeBase.setClientInfor, NodeBase.start]

theorem thread_invariant (inv : state.Invariant) {nodeID : Int} {now : Bytes} {timedOut : Bool}
    {node : NodeBase} {pushed : Option StrMessageState}
    (step : state.node.threadStep nodeID now timedOut = some (node, pushed)) :
    Invariant ⟨node, state.observed ++ observe state.node node pushed⟩ ∧
      life ⟨node, state.observed ++ observe state.node node pushed⟩ =
        state.life ++ state.node.shows node pushed := by
  have grown : life ⟨node, state.observed ++ observe state.node node pushed⟩ =
      state.life ++ state.node.shows node pushed := by
    simp [life, lifeFrom_append, inv.flag, NodeBase.shows]
  refine ⟨⟨(NodeBase.threadStep_spec inv.coherent step).1, ?_, ?_⟩, grown⟩
  · simp only [pongSince_append, inv.flag]
    exact NodeBase.threadStep_pongState step
  · unfold LivedTo
    rw [grown, runFrom_append, inv.lived]
    exact NodeBase.threadStep_life inv.coherent step

theorem pong_invariant (inv : state.Invariant) :
    Invariant ⟨state.node.setPongState true, state.observed ++ [.pong]⟩ ∧
      life ⟨state.node.setPongState true, state.observed ++ [.pong]⟩ = state.life := by
  have same : life ⟨state.node.setPongState true, state.observed ++ [.pong]⟩ = state.life := by
    simp [life, lifeFrom_append, lifeFrom]
  refine ⟨⟨NodeBase.setPongState_coherent inv.coherent true, ?_, ?_⟩, same⟩
  · simp [pongSince_append, pongSince, NodeBase.setPongState]
  · rw [same]
    exact inv.lived

theorem step_invariant {event : NodeEvent} (inv : state.Invariant)
    (taken : state.step event = some after) : after.Invariant := by
  cases event with
  | thread nodeID now timedOut =>
      obtain ⟨⟨node, pushed⟩, step, rfl⟩ := Option.map_eq_some_iff.mp taken
      exact (thread_invariant inv step).1
  | pong =>
      simp only [step, Option.ite_none_left_eq_some, Option.some.injEq] at taken
      exact taken.2 ▸ (pong_invariant inv).1

theorem run_invariant {events : List NodeEvent} (inv : state.Invariant)
    (run : runFrom step state events = some after) :
    after.Invariant ∧ ∃ more, after.life = state.life ++ more := by
  induction events generalizing state with
  | nil =>
      simp only [runFrom, Option.some.injEq] at run
      exact ⟨run ▸ inv, [], by simp [run]⟩
  | cons event rest ih =>
      simp only [runFrom, Option.bind_eq_some_iff] at run
      obtain ⟨middle, taken, tail⟩ := run
      obtain ⟨last, more, same⟩ := ih (step_invariant inv taken) tail
      cases event with
      | thread nodeID now timedOut =>
          obtain ⟨⟨node, pushed⟩, step, rfl⟩ := Option.map_eq_some_iff.mp taken
          rw [(thread_invariant inv step).2] at same
          exact ⟨last, _, same.trans (List.append_assoc _ _ _)⟩
      | pong =>
          simp only [step, Option.ite_none_left_eq_some, Option.some.injEq] at taken
          rw [← taken.2, (pong_invariant inv).2] at same
          exact ⟨last, more, same⟩

def threadSteps (events : List NodeEvent) : Nat := events.countP NodeEvent.isThread

def Soon (state : ObservedNode) (event : LifeEvent) (steps : Nat) : Prop :=
  (∀ nodeID now timedOut, (state.step (.thread nodeID now timedOut)).isSome = true) ∧
    ∀ events final, runFrom step state events = some final → steps ≤ threadSteps events →
      ∃ rest, final.life = state.life ++ event :: rest

theorem run_pressing {events : List NodeEvent} (inv : state.Invariant)
    (pressing : state.node.stage.isPressing) (run : runFrom step state events = some after)
    (enough : state.node.delay < threadSteps events) :
    ∃ event rest, after.life = state.life ++ event :: rest := by
  induction events generalizing state with
  | nil => simp [threadSteps] at enough
  | cons event rest ih =>
      simp only [runFrom, Option.bind_eq_some_iff] at run
      obtain ⟨middle, taken, tail⟩ := run
      obtain ⟨_, more, same⟩ := run_invariant (step_invariant inv taken) tail
      cases event with
      | thread nodeID now timedOut =>
          obtain ⟨⟨node, pushed⟩, step, rfl⟩ := Option.map_eq_some_iff.mp taken
          obtain ⟨next, grown⟩ := thread_invariant inv step
          cases shown : state.node.shows node pushed with
          | cons first others =>
              rw [grown, shown] at same
              exact ⟨first, others ++ more, by simpa using same⟩
          | nil =>
              obtain ⟨node', pushed', step', quicker⟩ :=
                NodeBase.threadStep_pressing inv.coherent pressing nodeID now timedOut
              obtain ⟨rfl, rfl⟩ : node = node' ∧ pushed = pushed' := by
                simpa using step.symm.trans step'
              have stays := NodeBase.threadStep_life inv.coherent step
              simp only [shown, runFrom, Option.some.injEq] at stays
              have less := quicker shown
              rw [shown, List.append_nil] at grown
              rw [← grown]
              refine ih next (stays ▸ pressing) tail ?_
              simp only [threadSteps, List.countP_cons, NodeEvent.isThread, if_true] at enough ⊢
              omega
      | pong =>
          simp only [step, Option.ite_none_left_eq_some, Option.some.injEq] at taken
          obtain ⟨_, rfl⟩ := taken
          rw [← (pong_invariant inv).2]
          refine ih (pong_invariant inv).1 pressing tail ?_
          simpa [threadSteps, NodeEvent.isThread] using enough

theorem soon_of_pressing (inv : state.Invariant) (pressing : state.node.stage.isPressing)
    {event : LifeEvent} {steps : Nat} (quick : state.node.delay < steps)
    (only : ∀ next after, state.node.stage.next next = some after → next = event) :
    state.Soon event steps := by
  constructor
  · intro nodeID now timedOut
    obtain ⟨after, pushed, taken, _⟩ :=
      NodeBase.threadStep_pressing inv.coherent pressing nodeID now timedOut
    simp [step, taken]
  · intro events final run enough
    obtain ⟨next, rest, grown⟩ := run_pressing inv pressing run (quick.trans_le enough)
    have lived := (run_invariant inv run).1.lived
    unfold LivedTo at lived
    rw [grown, runFrom_append, inv.lived, Option.bind_some] at lived
    simp only [runFrom, Option.bind_eq_some_iff] at lived
    obtain ⟨_, taken, _⟩ := lived
    exact ⟨rest, only next _ taken ▸ grown⟩

/-- The verdict on a client in a state of a run: what precedes each TIMEOUT and DEAD notification,
what follows it, that neither is withheld, that an answered retry returns the node to ALIVE, and
that DEAD is the last push before the thread exits. -/
structure HealthVerdict (state : ObservedNode) : Prop where
  timeoutCause : ∀ before after, state.life = before ++ .notify .timeout :: after →
    (∃ earlier stay, stay.isStay ∧ before = earlier ++ [.ping stay, .unanswered]) ∧
      ∀ next rest, after = next :: rest → next = .ping .timeout
  timeoutFollows : ∀ before stay next after, stay.isStay →
    state.life = before ++ [.ping stay, .unanswered] ++ next :: after → next = .notify .timeout
  timeoutSoon : ∀ before stay, stay.isStay → state.life = before ++ [.ping stay, .unanswered] →
    state.Soon (.notify .timeout) 2
  deadCause : ∀ before after, state.life = before ++ .notify .dead :: after →
    ∃ earlier stay, stay.isStay ∧ Rested earlier ∧ before = earlier ++ silentEpisode stay retryNum
  deadFollows : ∀ before stay next after, stay.isStay →
    state.life = before ++ silentEpisode stay retryNum ++ next :: after → next = .notify .dead
  deadSoon : ∀ before stay, stay.isStay → state.life = before ++ silentEpisode stay retryNum →
    state.Soon (.notify .dead) 3
  retryAlive : ∀ before, state.life = before ++ [.ping .timeout, .answered] →
    state.node.currentState = .alive
  retryFollows : ∀ before next after,
    state.life = before ++ [.ping .timeout, .answered] ++ next :: after → next = .ping .alive
  deadLast : ∀ before after, state.life = before ++ .notify .dead :: after →
    after = [] ∨ after = [.exit]
  exitSoon : ∀ before, state.life = before ++ [.notify .dead] → state.Soon .exit 3
  exited : ∀ before, state.life = before ++ [.exit] → state.node.pc = .exited

end ObservedNode

namespace NodeBase

variable {node : NodeBase}

theorem pc_of_stage_finished (ended : node.stage = .finished) : node.pc = .exited := by
  cases position : node.pc with
  | loopHead =>
      simp only [stage, position] at ended
      split at ended
      · split at ended <;> simp at ended
      · simp at ended
  | resetPong site | sendPing site | pushPing site _ | waitPong site =>
      cases site <;> simp [stage, position, siteLife, siteAsked] at ended
  | _ => simp_all [stage]

theorem currentState_of_stage_alive (coherent : node.Coherent)
    (resting : node.stage = .resting .alive) : node.currentState = .alive := by
  cases position : node.pc with
  | loopHead =>
      simp only [Coherent, position] at coherent
      simp only [stage, position] at resting
      cases state : node.currentState <;> cases running : node.running <;> simp_all
  | resetPong site | sendPing site | pushPing site _ | waitPong site =>
      simp only [Coherent, position] at coherent
      cases site <;> simp_all [stage, siteLife, siteAsked, PingSite.state]
  | _ => simp_all [Coherent, stage]

theorem delay_of_stage (node : NodeBase) :
    node.delay < 3 ∧ (node.stage = .silent → node.delay < 2) := by
  cases position : node.pc with
  | loopHead => cases running : node.running <;> simp [delay, position, running]
  | retriesOver | deadToInit | deadStop => simp [delay, position, stage]
  | _ => simp [delay, position]

end NodeBase

namespace ObservedNode

variable {state : ObservedNode}

theorem Invariant.healthVerdict (inv : state.Invariant) : state.HealthVerdict := by
  have lived := inv.lived
  constructor
  case timeoutCause => exact fun before after split => (split ▸ lived).timeout_cause
  case timeoutFollows =>
      exact fun before stay next after stays split => (split ▸ lived).timeout_follows stays
  case timeoutSoon =>
      intro before stay stays split
      have here : state.node.stage = .silent := by
        rw [split] at lived
        simpa [runFrom, Life.next] using (lived.ping_stay stays).symm
      have pressing : state.node.stage.isPressing := by rw [here]; trivial
      refine soon_of_pressing inv pressing (state.node.delay_of_stage.2 here) ?_
      rw [here]
      exact fun next after taken => (Life.next_silent taken).1
  case deadCause => exact fun before after split => (split ▸ lived).dead_cause.1
  case deadFollows =>
      exact fun before stay next after stays split => (split ▸ lived).dead_follows stays
  case deadSoon =>
      intro before stay stays split
      have here : state.node.stage = .condemned := by
        rw [split, ← List.append_nil (before ++ _)] at lived
        simpa [runFrom] using (LivedTo.episode_condemned stays lived).symm
      have pressing : state.node.stage.isPressing := by rw [here]; trivial
      refine soon_of_pressing inv pressing state.node.delay_of_stage.1 ?_
      rw [here]
      exact fun next after taken => (Life.next_condemned taken).1
  case retryAlive =>
      intro before split
      apply NodeBase.currentState_of_stage_alive inv.coherent
      rw [split, ← List.append_nil (before ++ _)] at lived
      simpa [runFrom] using (LivedTo.retry_answered lived).symm
  case retryFollows =>
      intro before next after split
      have run := (split ▸ lived).retry_answered
      simp only [runFrom, Option.bind_eq_some_iff] at run
      obtain ⟨_, taken, _⟩ := run
      exact Life.next_resting taken
  case deadLast => exact fun before after split => (split ▸ lived).dead_cause.2
  case exitSoon =>
      intro before split
      have here : state.node.stage = .dead := by
        rw [split] at lived
        obtain ⟨earlier, later, _, taken, tail⟩ := LivedTo.split lived
        cases earlier <;> simp [Life.next] at taken
        subst taken
        simpa [runFrom] using tail.symm
      have pressing : state.node.stage.isPressing := by rw [here]; trivial
      refine soon_of_pressing inv pressing state.node.delay_of_stage.1 ?_
      rw [here]
      exact fun next after taken => (Life.next_dead taken).1
  case exited =>
      intro before split
      apply NodeBase.pc_of_stage_finished
      rw [split] at lived
      obtain ⟨earlier, later, _, taken, tail⟩ := LivedTo.split lived
      cases earlier <;> simp [Life.next] at taken
      subst taken
      simpa [runFrom] using tail.symm

/-- The verdict is sound in every state of every run, whatever PONGs arrive and whenever the
waits end. -/
theorem reached_healthVerdict {type : TypeNode} {serial : Nat} {clientAddr : SockaddrIn}
    (reached : Reaches step anyStep (started type serial clientAddr) state) :
    state.HealthVerdict :=
  Invariant.healthVerdict <| reached.invariant Invariant
    (started_invariant type serial clientAddr) fun _ _ _ inv _ taken => step_invariant inv taken

end ObservedNode

theorem reached_healthVerdict_silent_client :
    ∃ state : ObservedNode, state.life = silentEpisode .init retryNum ++ [.notify .dead, .exit] ∧
      state.HealthVerdict := by
  obtain ⟨state, reached, found⟩ := exists_reaches ObservedNode.step (fun _ _ => true)
    (fun state => state.life == silentEpisode .init retryNum ++ [.notify .dead, .exit])
    (.started .dataPlane 1 .zero) (List.replicate 33 (.thread 1 [] true))
    (fun _ _ _ => trivial) (by decide +kernel) (by decide +kernel)
  exact ⟨state, by simpa using found, ObservedNode.reached_healthVerdict reached⟩

end NodeManagement
