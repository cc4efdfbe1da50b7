import NodeManagement.NodeBase
import Mathlib.Logic.Relation

/-!
What a step of a node's thread can do: the thread's position and its recorded state stay
coherent, its identity never changes, and it pushes DEAD at most once and nothing after it.
-/

namespace NodeManagement

def NodePc.pushes : NodePc → Bool
  | pushPing _ _ | notifyTimeout | notifyDead => true
  | _ => false

namespace NodeBase

/-- The current state and the running flag agree with the thread's position.  Only
`DeadState::handleState` calls `stop`, so a thread that still works is running. -/
def Coherent (node : NodeBase) : Prop :=
  match node.pc with
  | .unstarted => False
  | .loopHead => node.currentState ≠ .max
  | .resetPong site | .sendPing site | .pushPing site _ | .waitPong site =>
      node.running = true ∧ node.currentState = site.state ∧
        ∀ retryTime, site = .retry retryTime → retryTime < retryNum
  | .sleepPing _ => node.running = true ∧ node.currentState = .alive
  | .notifyTimeout => node.running = true ∧ node.currentState = .timeout
  | .retriesOver retryTime =>
      node.running = true ∧ node.currentState = .timeout ∧ retryTime = retryNum
  | .notifyDead | .deadToInit => node.running = true ∧ node.currentState = .dead
  | .deadStop => node.running = true ∧ node.currentState = .init
  | .exited => node.running = false

def Placed (node : NodeBase) : Prop :=
  match node.pc with
  | .unstarted => False
  | .loopHead => node.currentState ≠ .max
  | .resetPong site | .sendPing site | .pushPing site _ | .waitPong site =>
      node.currentState = site.state ∧ ∀ retryTime, site = .retry retryTime → retryTime < retryNum
  | .sleepPing _ => node.currentState = .alive
  | .notifyTimeout => node.currentState = .timeout
  | .retriesOver retryTime => node.currentState = .timeout ∧ retryTime = retryNum
  | .notifyDead | .deadToInit => node.currentState = .dead
  | .deadStop => node.currentState = .init
  | .exited => True

def RunsAtWork (node : NodeBase) : Prop :=
  match node.pc with
  | .loopHead => True
  | .exited => node.running = false
  | _ => node.running = true

theorem coherent_iff (node : NodeBase) : node.Coherent ↔ node.Placed ∧ node.RunsAtWork := by
  unfold Coherent Placed RunsAtWork
  cases node.pc <;> simp [and_comm]

def SameIdentity (node after : NodeBase) : Prop :=
  after.type = node.type ∧ after.serial = node.serial ∧
    after.clientAddr = node.clientAddr

@[simp] theorem goto_pc (node : NodeBase) (pc : NodePc) : (node.goto pc).pc = pc := rfl
@[simp] theorem goto_running (node : NodeBase) (pc : NodePc) :
    (node.goto pc).running = node.running := rfl
@[simp] theorem goto_currentState (node : NodeBase) (pc : NodePc) :
    (node.goto pc).currentState = node.currentState := rfl
@[simp] theorem goto_pongState (node : NodeBase) (pc : NodePc) :
    (node.goto pc).pongState = node.pongState := rfl

@[simp] theorem changeState_running (node : NodeBase) (state : StateList) :
    (node.changeState state).running = node.running := by
  unfold changeState; split <;> rfl

@[simp] theorem changeState_pongState (node : NodeBase) (state : StateList) :
    (node.changeState state).pongState = node.pongState := by
  unfold changeState; split <;> rfl

theorem changeState_currentState (node : NodeBase) (state : StateList) :
    (node.changeState state).currentState =
      if stateChangeAllowed node.currentState state then state else node.currentState := by
  unfold changeState; split <;> rfl

theorem SameIdentity.refl (node : NodeBase) : SameIdentity node node := ⟨rfl, rfl, rfl⟩

theorem SameIdentity.trans {first second third : NodeBase} (left : SameIdentity first second)
    (right : SameIdentity second third) : SameIdentity first third :=
  ⟨right.1.trans left.1, right.2.1.trans left.2.1, right.2.2.trans left.2.2⟩

theorem goto_identity (node : NodeBase) (pc : NodePc) : SameIdentity node (node.goto pc) :=
  .refl node

theorem changeState_identity (node : NodeBase) (state : StateList) :
    SameIdentity node (node.changeState state) := by
  unfold changeState; split <;> exact .refl node

theorem stop_identity (node : NodeBase) : SameIdentity node node.stop := by
  unfold stop; split <;> exact .refl node

theorem handleThread_identity (node : NodeBase) : SameIdentity node node.handleThread := by
  unfold handleThread
  split
  · exact .refl node
  · split <;> exact .refl node

theorem retryLoop_identity (node : NodeBase) (retryTime : Nat) :
    SameIdentity node (node.retryLoop retryTime) := by
  unfold retryLoop
  split <;> exact goto_identity node _

theorem afterRetries_identity (node : NodeBase) (retryTime : Nat) :
    SameIdentity node (node.afterRetries retryTime) := by
  unfold afterRetries
  split
  · exact (changeState_identity node .dead).trans (goto_identity _ _)
  · exact goto_identity node _

theorem afterWait_identity (node : NodeBase) (site : PingSite) (woken : Bool) :
    SameIdentity node (node.afterWait site woken) := by
  have moved (state : StateList) (pc : NodePc) :
      SameIdentity node ((node.changeState state).goto pc) :=
    (changeState_identity node state).trans (goto_identity _ pc)
  cases site with
  | init =>
      simp only [afterWait, initAfterWait]
      split_ifs
      · exact goto_identity node _
      · exact moved _ _
      · exact moved _ _
  | alive =>
      simp only [afterWait, aliveAfterWait]
      split_ifs
      · exact moved _ _
      · exact goto_identity node _
      · exact moved _ _
  | retry retryTime =>
      simp only [afterWait, retryAfterWait]
      split_ifs
      · exact moved _ _
      · exact moved _ _
      · exact retryLoop_identity node _

inductive ThreadMove (node : NodeBase) (nodeID : Int) (now : Bytes) (timedOut : Bool) :
    NodeBase → Option StrMessageState → Prop
  | loopHead (position : node.pc = .loopHead) :
      ThreadMove node nodeID now timedOut node.handleThread none
  | resetPong (site : PingSite) (position : node.pc = .resetPong site) :
      ThreadMove node nodeID now timedOut ((node.setPongState false).goto (.sendPing site)) none
  | sendPing (site : PingSite) (position : node.pc = .sendPing site) :
      ThreadMove node nodeID now timedOut (node.goto (.pushPing site nodeID)) none
  | pushPing (site : PingSite) (readID : Int) (position : node.pc = .pushPing site readID) :
      ThreadMove node nodeID now timedOut (node.goto (.waitPong site))
        (some (node.pingMessage readID))
  | waitPong (site : PingSite) (woken : Bool) (position : node.pc = .waitPong site)
      (ended : node.waitFor timedOut = some woken) :
      ThreadMove node nodeID now timedOut (node.afterWait site woken) none
  | sleepPing (site : PingSite) (position : node.pc = .sleepPing site) :
      ThreadMove node nodeID now timedOut (node.goto .loopHead) none
  | notifyTimeout (position : node.pc = .notifyTimeout) :
      ThreadMove node nodeID now timedOut (node.retryLoop 0) (some (node.timeoutMessage now))
  | retriesOver (retryTime : Nat) (position : node.pc = .retriesOver retryTime) :
      ThreadMove node nodeID now timedOut (node.afterRetries retryTime) none
  | notifyDead (position : node.pc = .notifyDead) :
      ThreadMove node nodeID now timedOut (node.goto .deadToInit) (some (node.deadMessage now))
  | deadToInit (position : node.pc = .deadToInit) :
      ThreadMove node nodeID now timedOut ((node.changeState .init).goto .deadStop) none
  | deadStop (position : node.pc = .deadStop) :
      ThreadMove node nodeID now timedOut (node.stop.goto .loopHead) none

theorem threadStep_move {node after : NodeBase} {nodeID : Int} {now : Bytes} {timedOut : Bool}
    {pushed : Option StrMessageState}
    (step : node.threadStep nodeID now timedOut = some (after, pushed)) :
    node.ThreadMove nodeID now timedOut after pushed := by
  unfold threadStep at step
  split at step <;>
    simp only [Option.some.injEq, Prod.mk.injEq, reduceCtorEq, Option.map_eq_some_iff]
    at step
  case h_2 position => exact step.1 ▸ step.2 ▸ .loopHead position
  case h_3 site position => exact step.1 ▸ step.2 ▸ .resetPong site position
  case h_4 site position => exact step.1 ▸ step.2 ▸ .sendPing site position
  case h_5 site readID position => exact step.1 ▸ step.2 ▸ .pushPing site readID position
  case h_6 site position =>
      obtain ⟨woken, ended, rfl, rfl⟩ := step
      exact .waitPong site woken position ended
  case h_7 site position => exact step.1 ▸ step.2 ▸ .sleepPing site position
  case h_8 position => exact step.1 ▸ step.2 ▸ .notifyTimeout position
  case h_9 retryTime position => exact step.1 ▸ step.2 ▸ .retriesOver retryTime position
  case h_10 position => exact step.1 ▸ step.2 ▸ .notifyDead position
  case h_11 position => exact step.1 ▸ step.2 ▸ .deadToInit position
  case h_12 position => exact step.1 ▸ step.2 ▸ .deadStop position

theorem threadStep_identity {node after : NodeBase} {nodeID : Int} {now : Bytes}
    {timedOut : Bool} {pushed : Option StrMessageState}
    (step : node.threadStep nodeID now timedOut = some (after, pushed)) :
    SameIdentity node after := by
  cases threadStep_move step with
  | loopHead => exact handleThread_identity node
  | waitPong site woken => exact afterWait_identity node site woken
  | notifyTimeout => exact retryLoop_identity node 0
  | retriesOver retryTime => exact afterRetries_identity node retryTime
  | deadToInit => exact (changeState_identity node .init).trans (goto_identity _ _)
  | deadStop => exact (stop_identity node).trans (goto_identity _ _)
  | resetPong | sendPing | pushPing | sleepPing | notifyDead => exact .refl node

variable {node after : NodeBase}

theorem retryLoop_running (node : NodeBase) (retryTime : Nat) :
    (node.retryLoop retryTime).running = node.running := by
  unfold retryLoop
  split_ifs <;> simp

theorem retryLoop_currentState (node : NodeBase) (retryTime : Nat) :
    (node.retryLoop retryTime).currentState = node.currentState := by
  unfold retryLoop
  split_ifs <;> simp

theorem afterWait_running (node : NodeBase) (site : PingSite) (woken : Bool) :
    (node.afterWait site woken).running = node.running := by
  cases site with
  | init =>
      simp only [afterWait, initAfterWait]
      split_ifs <;> simp
  | alive =>
      simp only [afterWait, aliveAfterWait]
      split_ifs <;> simp
  | retry retryTime =>
      simp only [afterWait, retryAfterWait]
      split_ifs <;> simp [retryLoop_running]

theorem retryLoop_placed {retryTime : Nat} (state : node.currentState = .timeout)
    (bounded : retryTime ≤ retryNum) : (node.retryLoop retryTime).Placed := by
  unfold retryLoop
  split
  next more => simpa [Placed, state, PingSite.state] using more
  next over_ => exact ⟨state, by omega⟩

theorem afterRetries_placed (retryTime : Nat) (state : node.currentState = .timeout) :
    (node.afterRetries retryTime).Placed := by
  unfold afterRetries
  split
  · simp [Placed, changeState_currentState, state]
  · simp [Placed, state]

theorem afterWait_placed {site : PingSite} (state : node.currentState = site.state)
    (bounded : ∀ retryTime, site = .retry retryTime → retryTime < retryNum) (woken : Bool) :
    (node.afterWait site woken).Placed := by
  have known : node.currentState ≠ .max := by
    rw [state]
    cases site <;> simp [PingSite.state]
  have atHead (next : StateList) (named : next ≠ .max) :
      ((node.changeState next).goto .loopHead).Placed := by
    simp only [Placed, goto_pc, goto_currentState, changeState_currentState]
    split
    · exact named
    · exact known
  cases site with
  | init =>
      simp only [afterWait, initAfterWait]
      split_ifs
      · exact known
      · exact atHead .alive (by simp)
      · exact atHead .timeout (by simp)
  | alive =>
      simp only [afterWait, aliveAfterWait]
      split_ifs
      · exact atHead .init (by simp)
      · exact state
      · exact atHead .timeout (by simp)
  | retry retryTime =>
      simp only [PingSite.state] at state
      simp only [afterWait, retryAfterWait]
      split_ifs
      · exact atHead .init (by simp)
      · simp [Placed, changeState_currentState, state]
      · exact retryLoop_placed state (bounded retryTime rfl)

theorem threadStep_placed {nodeID : Int} {now : Bytes} {timedOut : Bool}
    {pushed : Option StrMessageState} (placed : node.Placed)
    (step : node.threadStep nodeID now timedOut = some (after, pushed)) : after.Placed := by
  cases threadStep_move step with
  | loopHead position =>
      simp only [Placed, position] at placed
      unfold handleThread
      split
      · trivial
      · cases state : node.currentState with
        | max => exact absurd state placed
        | _ => simp [Placed, state, PingSite.state]
  | waitPong site woken position =>
      simp only [Placed, position] at placed
      exact afterWait_placed placed.1 placed.2 woken
  | notifyTimeout position =>
      simp only [Placed, position] at placed
      exact retryLoop_placed placed (Nat.zero_le _)
  | retriesOver retryTime position =>
      simp only [Placed, position] at placed
      exact afterRetries_placed retryTime placed.1
  | deadToInit position =>
      simp only [Placed, position] at placed
      simp [Placed, changeState_currentState, placed]
  | deadStop position =>
      simp only [Placed, position] at placed
      unfold stop
      split <;> simp [Placed, placed]
  | resetPong site position | sendPing site position | pushPing site _ position =>
      simp only [Placed, position] at placed
      exact placed
  | sleepPing site position | notifyDead position =>
      simp only [Placed, position] at placed
      simp [Placed, placed]

def PushesInOrder (node after : NodeBase) : Option StrMessageState → Prop
  | none => after.pushedDead = node.pushedDead
  | some message => message.clientAddr = node.clientAddr ∧ message.typeNode = node.type ∧
      node.pushedDead = false ∧ after.pushedDead = message.isDead

theorem handleThread_works (position : node.pc = .loopHead) :
    node.handleThread.RunsAtWork ∧ node.handleThread.pushedDead = node.pushedDead := by
  unfold handleThread
  cases running : node.running with
  | false => simp [RunsAtWork, pushedDead, position, running]
  | true =>
      cases state : node.currentState <;> simp [RunsAtWork, pushedDead, position, running]

theorem retryLoop_works (retryTime : Nat) (running : node.running = true) :
    (node.retryLoop retryTime).RunsAtWork ∧ (node.retryLoop retryTime).pushedDead = false := by
  unfold retryLoop
  split_ifs <;> simp [RunsAtWork, pushedDead, running]

theorem afterRetries_works (retryTime : Nat) (running : node.running = true) :
    (node.afterRetries retryTime).RunsAtWork ∧
      (node.afterRetries retryTime).pushedDead = false := by
  unfold afterRetries
  split <;> simp [RunsAtWork, pushedDead, running]

theorem afterWait_works (site : PingSite) (woken : Bool) (running : node.running = true) :
    (node.afterWait site woken).RunsAtWork ∧ (node.afterWait site woken).pushedDead = false := by
  cases site with
  | init =>
      simp only [afterWait, initAfterWait]
      split_ifs <;> simp [RunsAtWork, pushedDead, running]
  | alive =>
      simp only [afterWait, aliveAfterWait]
      split_ifs <;> simp [RunsAtWork, pushedDead, running]
  | retry retryTime =>
      cases woken with
      | false => exact retryLoop_works _ running
      | true => simp [afterWait, retryAfterWait, RunsAtWork, pushedDead, running]

theorem threadStep_works {nodeID : Int} {now : Bytes} {timedOut : Bool}
    {pushed : Option StrMessageState} (placed : node.Placed) (works : node.RunsAtWork)
    (step : node.threadStep nodeID now timedOut = some (after, pushed)) :
    after.RunsAtWork ∧ PushesInOrder node after pushed := by
  cases threadStep_move step with
  | loopHead position => exact handleThread_works position
  | waitPong site woken position ended =>
      simp only [RunsAtWork, position] at works
      have next := afterWait_works site woken works
      exact ⟨next.1, by simpa [PushesInOrder, pushedDead, position] using next.2⟩
  | notifyTimeout position =>
      simp only [RunsAtWork, position] at works
      simp only [Placed, position] at placed
      have next := retryLoop_works 0 works
      refine ⟨next.1, rfl, rfl, by simp [pushedDead, position], ?_⟩
      rw [next.2]
      simp [StrMessageState.isDead, timeoutMessage, StrMessageState.saveTime, placed]
  | retriesOver retryTime position =>
      simp only [RunsAtWork, position] at works
      have next := afterRetries_works retryTime works
      exact ⟨next.1, by simpa [PushesInOrder, pushedDead, position] using next.2⟩
  | pushPing site readID position =>
      simp only [RunsAtWork, position] at works
      simpa [RunsAtWork, PushesInOrder, pushedDead, position, pingMessage, getClientInfor,
        StrMessageState.isDead] using works
  | notifyDead position =>
      simp only [RunsAtWork, position] at works
      simp only [Placed, position] at placed
      simp [RunsAtWork, PushesInOrder, pushedDead, position, works, placed, deadMessage,
        StrMessageState.saveTime, StrMessageState.isDead, getClientInfor]
  | deadStop position =>
      simp only [RunsAtWork, position] at works
      simp [RunsAtWork, PushesInOrder, pushedDead, position, works, stop]
  | resetPong site position | sendPing site position | sleepPing site position
  | deadToInit position =>
      simp only [RunsAtWork, position] at works
      simp [RunsAtWork, PushesInOrder, pushedDead, position, works, setPongState]

/-- The specification of a thread step: coherence is kept, and pushes come in order. -/
theorem threadStep_spec {nodeID : Int} {now : Bytes} {timedOut : Bool}
    {pushed : Option StrMessageState} (coherent : node.Coherent)
    (step : node.threadStep nodeID now timedOut = some (after, pushed)) :
    after.Coherent ∧ PushesInOrder node after pushed := by
  obtain ⟨placed, works⟩ := node.coherent_iff.mp coherent
  obtain ⟨worksAfter, order⟩ := threadStep_works placed works step
  exact ⟨after.coherent_iff.mpr ⟨threadStep_placed placed step, worksAfter⟩, order⟩

def EndsWithin : Nat → NodeBase → Prop
  | 0, node => node.pc = .exited
  | steps + 1, node => node.pc = .exited ∨ ∀ nodeID now timedOut, ∃ after,
      node.threadStep nodeID now timedOut = some (after, none) ∧ EndsWithin steps after

theorem endsWithin_of_pushedDead {node : NodeBase} (coherent : node.Coherent)
    (dead : node.pushedDead = true) : node.EndsWithin 3 := by
  have leaves (stopped : NodeBase) (position : stopped.pc = .loopHead)
      (off : stopped.running = false) (steps : Nat) : stopped.EndsWithin (steps + 1) := by
    refine .inr fun nodeID now timedOut => ⟨stopped.goto .exited, ?_, ?_⟩
    · simp [threadStep, position, handleThread, off]
    · cases steps with
      | zero => rfl
      | succ steps => exact .inl rfl
  have stops (working : NodeBase) (position : working.pc = .deadStop)
      (on : working.running = true) : working.EndsWithin 2 := by
    refine .inr fun nodeID now timedOut => ⟨working.stop.goto .loopHead, ?_, ?_⟩
    · simp [threadStep, position]
    · exact leaves _ rfl (by simp [stop, on]) 0
  cases position : node.pc with
  | exited => exact .inl position
  | loopHead => exact leaves node position (by simpa [pushedDead, position] using dead) 2
  | deadStop =>
      simp only [Coherent, position] at coherent
      refine .inr fun nodeID now timedOut => ⟨node.stop.goto .loopHead, ?_, ?_⟩
      · simp [threadStep, position]
      · exact leaves _ rfl (by simp [stop, coherent.1]) 1
  | deadToInit =>
      simp only [Coherent, position] at coherent
      refine .inr fun nodeID now timedOut =>
        ⟨(node.changeState .init).goto .deadStop, ?_, ?_⟩
      · simp [threadStep, position]
      · exact stops _ rfl (by simp [coherent.1])
  | _ => simp [pushedDead, position] at dead

theorem threadStep_pushes {node after : NodeBase} {nodeID : Int} {now : Bytes}
    {timedOut : Bool} {pushed : Option StrMessageState} (coherent : node.Coherent)
    (step : node.threadStep nodeID now timedOut = some (after, pushed)) :
    pushed.isSome = node.pc.pushes ∧
      ∀ message, pushed = some message → message.isDead = decide (node.pc = .notifyDead) := by
  cases threadStep_move step with
  | pushPing site readID position =>
      simp [position, NodePc.pushes, pingMessage, StrMessageState.isDead]
  | notifyTimeout position =>
      simp only [Coherent, position] at coherent
      simp [position, NodePc.pushes, timeoutMessage, StrMessageState.saveTime,
        StrMessageState.isDead, coherent.2]
  | notifyDead position =>
      simp only [Coherent, position] at coherent
      simp [position, NodePc.pushes, deadMessage, StrMessageState.saveTime,
        StrMessageState.isDead, coherent.2]
  | waitPong _ _ position _ | resetPong _ position | sendPing _ position | sleepPing _ position
  | loopHead position | retriesOver _ position | deadToInit position | deadStop position =>
      simp [position, NodePc.pushes]

theorem setPongState_coherent {node : NodeBase} (coherent : node.Coherent) (flag : Bool) :
    (node.setPongState flag).Coherent := coherent

theorem setPongState_identity (node : NodeBase) (flag : Bool) :
    SameIdentity node (node.setPongState flag) := .refl node

@[simp] theorem setPongState_pushedDead (node : NodeBase) (flag : Bool) :
    (node.setPongState flag).pushedDead = node.pushedDead := rfl

end NodeBase

end NodeManagement
