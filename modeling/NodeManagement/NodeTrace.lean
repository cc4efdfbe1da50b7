import NodeManagement.NodeThread
import NodeManagement.Library.Transition

/-!
The life of one node as an outside observer sees it.  `Life` is an automaton over pings, their
outcomes and notifications that says what a monitor of one client is for; the thread of
`handleThread`, with PONGs at any time, refines it.
-/

namespace NodeManagement

open Transition

inductive Observation
  | reset
  | pong
  | pushed (message : StrMessageState)
  | waitEnd
  | exit
deriving DecidableEq

inductive NodeEvent
  | thread (nodeID : Int) (now : Bytes) (timedOut : Bool)
  | pong

def NodeEvent.isThread : NodeEvent → Bool
  | thread .. => true
  | pong => false

structure ObservedNode where
  node : NodeBase
  observed : List Observation
deriving DecidableEq

def observe (node after : NodeBase) : Option StrMessageState → List Observation
  | some message => [.pushed message]
  | none =>
      match node.pc, after.pc with
      | .resetPong _, _ => [.reset]
      | .waitPong _, _ => [.waitEnd]
      | _, .exited => [.exit]
      | _, _ => []

namespace ObservedNode

def started (type : TypeNode) (serial : Nat) (clientAddr : SockaddrIn) : ObservedNode :=
  ⟨((NodeBase.create type serial).setClientInfor clientAddr).start, []⟩

def step (state : ObservedNode) : NodeEvent → Option ObservedNode
  | .thread nodeID now timedOut =>
      (state.node.threadStep nodeID now timedOut).map fun (after, pushed) =>
        ⟨after, state.observed ++ observe state.node after pushed⟩
  | .pong =>
      if state.node.ownsMutex then none
      else some ⟨state.node.setPongState true, state.observed ++ [.pong]⟩

end ObservedNode

/-- A ping, with the state it was sent in; what came of it by the end of its wait; a state
notification; the end of the thread. -/
inductive LifeEvent
  | ping (state : StateList)
  | answered
  | unanswered
  | notify (state : StateList)
  | exit
deriving DecidableEq

def pongSince (seen : Bool) : List Observation → Bool
  | [] => seen
  | .reset :: rest => pongSince false rest
  | .pong :: rest => pongSince true rest
  | _ :: rest => pongSince seen rest

/-- A ping is answered iff a PONG is handled between the reset before it and the end of the
wait behind it. -/
def lifeFrom (seen : Bool) : List Observation → List LifeEvent
  | [] => []
  | .reset :: rest => lifeFrom false rest
  | .pong :: rest => lifeFrom true rest
  | .pushed message :: rest =>
      (if message.messageType = 0 then .ping message.state else .notify message.state) ::
        lifeFrom seen rest
  | .waitEnd :: rest => (if seen then .answered else .unanswered) :: lifeFrom seen rest
  | .exit :: rest => .exit :: lifeFrom seen rest

theorem pongSince_append (first second : List Observation) (seen : Bool) :
    pongSince seen (first ++ second) = pongSince (pongSince seen first) second := by
  induction first generalizing seen with
  | nil => rfl
  | cons observation rest ih => cases observation <;> exact ih _

theorem lifeFrom_append (first second : List Observation) (seen : Bool) :
    lifeFrom seen (first ++ second) =
      lifeFrom seen first ++ lifeFrom (pongSince seen first) second := by
  induction first generalizing seen with
  | nil => rfl
  | cons observation rest ih => cases observation <;> simp [lifeFrom, pongSince, ih]

def ObservedNode.life (state : ObservedNode) : List LifeEvent := lifeFrom false state.observed

/-- Where a node stands between two events of its life.  `resting` and `asked` are a stay in
INIT or ALIVE, `silent` the end of one, `retrying` and `askedRetry` the retries. -/
inductive Life
  | resting (state : StateList)
  | asked (state : StateList)
  | silent
  | retrying (retryTime : Nat)
  | askedRetry (retryTime : Nat)
  | condemned
  | dead
  | finished
deriving DecidableEq

def Life.next : Life → LifeEvent → Option Life
  | resting state, .ping sent => if sent = state then some (asked state) else none
  | asked _, .answered => some (resting .alive)
  | asked _, .unanswered => some silent
  | silent, .notify .timeout => some (retrying 0)
  | retrying retryTime, .ping .timeout => some (askedRetry retryTime)
  | askedRetry _, .answered => some (resting .alive)
  | askedRetry retryTime, .unanswered =>
      some (if retryTime + 1 < retryNum then retrying (retryTime + 1) else condemned)
  | condemned, .notify .dead => some dead
  | dead, .exit => some finished
  | _, _ => none

namespace NodeBase

def siteLife : PingSite → Life
  | .init => .resting .init
  | .alive => .resting .alive
  | .retry retryTime => .retrying retryTime

def siteAsked : PingSite → Life
  | .init => .asked .init
  | .alive => .asked .alive
  | .retry retryTime => .askedRetry retryTime

def stage (node : NodeBase) : Life :=
  match node.pc with
  | .unstarted => .resting .init
  | .loopHead =>
      if node.running then
        match node.currentState with
        | .init => .resting .init
        | .timeout => .silent
        | .dead => .condemned
        | _ => .resting .alive
      else .dead
  | .resetPong site | .sendPing site | .pushPing site _ => siteLife site
  | .waitPong site => siteAsked site
  | .sleepPing _ => .resting .alive
  | .notifyTimeout => .silent
  | .retriesOver _ | .notifyDead => .condemned
  | .deadToInit | .deadStop => .dead
  | .exited => .finished

def shows (node after : NodeBase) (pushed : Option StrMessageState) : List LifeEvent :=
  lifeFrom node.pongState (observe node after pushed)

theorem stage_retryLoop (node : NodeBase) (retryTime : Nat) :
    (node.retryLoop retryTime).stage =
      if retryTime < retryNum then .retrying retryTime else .condemned := by
  unfold retryLoop
  split <;> rfl

theorem stage_afterWait {node : NodeBase} {site : PingSite} (running : node.running = true)
    (state : node.currentState = site.state) (woken : Bool) :
    (siteAsked site).next (if woken then .answered else .unanswered) =
      some (node.afterWait site woken).stage := by
  cases site with
  | init =>
      have here : node.currentState = .init := state
      cases woken <;>
        simp [afterWait, initAfterWait, running, stage, changeState_currentState, here, siteAsked,
          Life.next]
  | alive =>
      have here : node.currentState = .alive := state
      cases woken <;>
        simp [afterWait, aliveAfterWait, running, stage, changeState_currentState, here, siteAsked,
          Life.next]
  | retry retryTime =>
      cases woken with
      | true => simp [afterWait, retryAfterWait, running, stage, siteAsked, Life.next]
      | false =>
          have next : (node.afterWait (.retry retryTime) false).stage = _ :=
            stage_retryLoop node (retryTime + 1)
          rw [next]
          rfl

theorem threadStep_life {node after : NodeBase} {nodeID : Int} {now : Bytes} {timedOut : Bool}
    {pushed : Option StrMessageState} (coherent : node.Coherent)
    (step : node.threadStep nodeID now timedOut = some (after, pushed)) :
    runFrom Life.next node.stage (node.shows after pushed) = some after.stage := by
  cases threadStep_move step with
  | loopHead position =>
      have named : node.currentState ≠ .max := by simpa [Coherent, position] using coherent
      cases running : node.running with
      | false =>
          simp [shows, observe, position, stage, handleThread, running, lifeFrom, runFrom,
            Life.next]
      | true =>
          cases state : node.currentState with
          | max => exact absurd state named
          | _ =>
              simp [shows, observe, position, stage, handleThread, running, state, lifeFrom,
                runFrom, siteLife]
  | resetPong site position =>
      simp [shows, observe, position, stage, lifeFrom, runFrom]
  | sendPing site position =>
      simp [shows, observe, position, stage, lifeFrom, runFrom]
  | pushPing site readID position =>
      simp only [Coherent, position] at coherent
      cases site <;>
        simp [shows, observe, position, stage, lifeFrom, runFrom, siteLife, siteAsked, Life.next,
          pingMessage, coherent.2.1, PingSite.state]
  | waitPong site woken position ended =>
      simp only [Coherent, position] at coherent
      have flag : woken = node.pongState := by
        simp only [waitFor, coherent.1, Bool.not_true, Bool.or_false] at ended
        cases pong : node.pongState <;> simp_all
      have next := stage_afterWait coherent.1 coherent.2.1 woken
      simp only [shows, observe, position, lifeFrom, runFrom, stage, ← flag]
      simpa [stage] using next
  | sleepPing site position =>
      simp only [Coherent, position] at coherent
      simp [shows, observe, position, stage, lifeFrom, runFrom, coherent.1, coherent.2]
  | notifyTimeout position =>
      simp only [Coherent, position] at coherent
      rw [stage_retryLoop]
      simp [shows, observe, position, stage, lifeFrom, runFrom, Life.next, timeoutMessage,
        StrMessageState.saveTime, coherent.2, retryNum]
  | retriesOver retryTime position =>
      simp only [Coherent, position] at coherent
      simp [shows, observe, position, stage, lifeFrom, runFrom, afterRetries, coherent,
        changeState_currentState]
  | notifyDead position =>
      simp only [Coherent, position] at coherent
      simp [shows, observe, position, stage, lifeFrom, runFrom, Life.next, deadMessage,
        StrMessageState.saveTime, coherent.2]
  | deadToInit position =>
      simp [shows, observe, position, stage, lifeFrom, runFrom]
  | deadStop position =>
      simp only [Coherent, position] at coherent
      simp [shows, observe, position, stage, lifeFrom, runFrom, stop, coherent.1]

theorem afterWait_pongState (node : NodeBase) (site : PingSite) (woken : Bool) :
    (node.afterWait site woken).pongState = node.pongState := by
  cases site with
  | init => simp only [afterWait, initAfterWait]; split_ifs <;> simp
  | alive => simp only [afterWait, aliveAfterWait]; split_ifs <;> simp
  | retry retryTime =>
      simp only [afterWait, retryAfterWait, retryLoop]
      split_ifs <;> simp

theorem threadStep_pongState {node after : NodeBase} {nodeID : Int} {now : Bytes}
    {timedOut : Bool} {pushed : Option StrMessageState}
    (step : node.threadStep nodeID now timedOut = some (after, pushed)) :
    pongSince node.pongState (observe node after pushed) = after.pongState := by
  cases threadStep_move step with
  | loopHead position =>
      unfold handleThread
      split
      · simp [observe, position, pongSince]
      · split <;> simp [observe, position, pongSince]
  | waitPong site woken position ended =>
      simp [observe, position, pongSince, afterWait_pongState]
  | notifyTimeout position =>
      simp [observe, pongSince, retryLoop, retryNum]
  | resetPong _ position | sendPing _ position | pushPing _ _ position | sleepPing _ position
  | notifyDead position | deadToInit position =>
      simp [observe, position, pongSince, setPongState]
  | retriesOver retryTime position =>
      unfold afterRetries
      split <;> simp [observe, position, pongSince]
  | deadStop position =>
      unfold stop
      split <;> simp [observe, position, pongSince]

end NodeBase

end NodeManagement
