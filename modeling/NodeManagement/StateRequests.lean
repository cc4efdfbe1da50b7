import NodeManagement.NodeThread
import NodeManagement.Library.Transition

/-!
The calls of `changeState` in the state handlers against `g_stateChangeTable`, over runs of one
node in which `stop` comes from outside.  `Coherent` does not hold of such runs: a thread can be
anywhere in a handler when `m_running` is cleared.
-/

namespace NodeManagement

open Transition

inductive NodeCall
  | thread (nodeID : Int) (now : Bytes) (timedOut : Bool)
  | setPongState
  | stop

namespace NodeBase

def call (node : NodeBase) : NodeCall → Option NodeBase
  | .thread nodeID now timedOut => (node.threadStep nodeID now timedOut).map Prod.fst
  | .setPongState => if node.ownsMutex then none else some (node.setPongState true)
  | .stop => if node.ownsMutex then none else some node.stop

def started (type : TypeNode) (serial : Nat) (clientAddr : SockaddrIn) : NodeBase :=
  ((create type serial).setClientInfor clientAddr).start

def requestAfterWait (node : NodeBase) : PingSite → Bool → Option StateList
  | .init, true => if !node.running then none else some .alive
  | .init, false => some .timeout
  | .alive, true => if !node.running then some .init else none
  | .alive, false => some .timeout
  | .retry _, true => if !node.running then some .init else some .alive
  | .retry _, false => none

def request (node : NodeBase) (timedOut : Bool) : Option StateList :=
  match node.pc with
  | .waitPong site => (node.waitFor timedOut).bind (node.requestAfterWait site)
  | .retriesOver retryTime => if retryTime = retryNum then some .dead else none
  | .deadToInit => some .init
  | _ => none

def leavesStopped (node : NodeBase) : NodeCall → Bool
  | .thread _ _ _ =>
      match node.pc with
      | .waitPong _ =>
          !node.running && (node.currentState == .alive || node.currentState == .timeout)
      | _ => false
  | _ => false

/-- The table accepts what the handlers ask for, and a wait left because of `stop` in ALIVE or
TIMEOUT leads to INIT. -/
structure AgreesWithTable (before : NodeBase) (event : NodeCall) (after : NodeBase) : Prop where
  accepted : ∀ nodeID now timedOut state, event = .thread nodeID now timedOut →
    before.request timedOut = some state →
    stateChangeAllowed before.currentState state = true
  stopped : before.leavesStopped event = true → after.currentState = .init

variable {node after : NodeBase}

theorem threadStep_request {nodeID : Int} {now : Bytes} {timedOut : Bool}
    {pushed : Option StrMessageState}
    (step : node.threadStep nodeID now timedOut = some (after, pushed)) :
    after.currentState =
      ((node.request timedOut).elim node node.changeState).currentState := by
  cases threadStep_move step with
  | loopHead position =>
      simp only [request, position, Option.elim_none, handleThread]
      split
      · rfl
      · split <;> rfl
  | waitPong site woken position ended =>
      simp only [request, position, ended, Option.bind_some]
      cases site with
      | init =>
          cases woken with
          | false => rfl
          | true =>
              simp only [afterWait, initAfterWait, requestAfterWait, if_true]
              split <;> rfl
      | alive =>
          cases woken with
          | false => rfl
          | true =>
              simp only [afterWait, aliveAfterWait, requestAfterWait, if_true]
              split <;> rfl
      | retry retryTime =>
          cases woken with
          | false => exact retryLoop_currentState node (retryTime + 1)
          | true =>
              simp only [afterWait, retryAfterWait, requestAfterWait, if_true]
              split <;> rfl
  | notifyTimeout position =>
      simp only [request, position]
      exact retryLoop_currentState node 0
  | retriesOver retryTime position =>
      simp only [request, position, afterRetries]
      split <;> rfl
  | deadToInit position => simp [request, position]
  | deadStop position =>
      simp only [request, position, Option.elim_none, goto_currentState, stop]
      split <;> rfl
  | resetPong site position | sendPing site position | pushPing site readID position
  | sleepPing site position | notifyDead position => simp [request, position, setPongState]

theorem started_placed (type : TypeNode) (serial : Nat) (clientAddr : SockaddrIn) :
    (started type serial clientAddr).Placed := by
  simp [started, create, setClientInfor, start, Placed]

theorem call_placed {event : NodeCall} (placed : node.Placed)
    (taken : node.call event = some after) : after.Placed := by
  cases event with
  | thread nodeID now timedOut =>
      obtain ⟨⟨moved, pushed⟩, step, rfl⟩ := Option.map_eq_some_iff.mp taken
      exact threadStep_placed placed step
  | setPongState =>
      simp only [call, Option.ite_none_left_eq_some, Option.some.injEq] at taken
      exact taken.2 ▸ placed
  | stop =>
      simp only [call, Option.ite_none_left_eq_some, Option.some.injEq] at taken
      obtain ⟨_, rfl⟩ := taken
      unfold stop
      split
      · exact placed
      · exact placed

theorem request_accepted {nodeID : Int} {now : Bytes} {timedOut : Bool} {state : StateList}
    (placed : node.Placed) (stays : node.leavesStopped (.thread nodeID now timedOut) = false)
    (asked : node.request timedOut = some state) :
    stateChangeAllowed node.currentState state = true := by
  cases position : node.pc with
  | waitPong site =>
      simp only [Placed, position] at placed
      obtain ⟨here, _⟩ := placed
      simp only [request, position] at asked
      obtain ⟨woken, ended, asked⟩ := Option.bind_eq_some_iff.mp asked
      simp only [leavesStopped, position, here] at stays
      rw [here]
      cases site with
      | init =>
          cases woken with
          | false =>
              simp only [requestAfterWait, Option.some.injEq] at asked
              simp [← asked, PingSite.state]
          | true =>
              simp only [requestAfterWait, Option.ite_none_left_eq_some, Option.some.injEq]
                at asked
              simp [← asked.2, PingSite.state]
      | alive =>
          have running : node.running = true := by simpa [PingSite.state] using stays
          cases woken with
          | false =>
              simp only [requestAfterWait, Option.some.injEq] at asked
              simp [← asked, PingSite.state]
          | true => simp [requestAfterWait, running] at asked
      | retry retryTime =>
          have running : node.running = true := by simpa [PingSite.state] using stays
          cases woken with
          | false => simp [requestAfterWait] at asked
          | true =>
              simp only [requestAfterWait, running, Bool.not_true, Bool.false_eq_true, if_false,
                Option.some.injEq] at asked
              simp [← asked, PingSite.state]
  | retriesOver retryTime =>
      simp only [Placed, position] at placed
      simp only [request, position, Option.ite_none_right_eq_some, Option.some.injEq] at asked
      simp [placed.1, ← asked.2]
  | deadToInit =>
      simp only [Placed, position] at placed
      simp only [request, position, Option.some.injEq] at asked
      simp [placed, ← asked]
  | _ => simp [request, position] at asked

theorem waitFor_of_stopped {timedOut : Bool} (stopped : node.running = false) :
    node.waitFor timedOut = some true := by
  simp [waitFor, stopped]

theorem leavesStopped_refused {event : NodeCall} (placed : node.Placed)
    (leaves : node.leavesStopped event = true) (taken : node.call event = some after) :
    after.currentState ≠ .init := by
  cases event with
  | thread nodeID now timedOut =>
      obtain ⟨⟨moved, pushed⟩, step, rfl⟩ := Option.map_eq_some_iff.mp taken
      have left := threadStep_request step
      cases position : node.pc with
      | waitPong site =>
          simp only [Placed, position] at placed
          simp only [leavesStopped, position, placed.1, Bool.and_eq_true, Bool.not_eq_true']
            at leaves
          obtain ⟨stopped, here⟩ := leaves
          simp only [request, position, waitFor_of_stopped stopped, Option.bind_some] at left
          simp only [left]
          cases site with
          | init => simp [PingSite.state] at here
          | alive | retry _ =>
              simp [requestAfterWait, stopped, changeState_currentState, placed.1, PingSite.state]
      | _ => simp [leavesStopped, position] at leaves
  | setPongState => simp [leavesStopped] at leaves
  | stop => simp [leavesStopped] at leaves

theorem call_agrees_iff {event : NodeCall} (placed : node.Placed)
    (taken : node.call event = some after) :
    AgreesWithTable node event after ↔ (!node.leavesStopped event) = true := by
  rw [Bool.not_eq_true']
  constructor
  · intro agrees
    by_contra leaves
    have leaves : node.leavesStopped event = true := by simpa using leaves
    exact leavesStopped_refused placed leaves taken (agrees.stopped leaves)
  · intro stays
    refine ⟨?_, fun leaves => absurd leaves (by simp [stays])⟩
    rintro nodeID now timedOut state rfl asked
    exact request_accepted placed stays asked

/-- The handlers agree with the table in every step of a run exactly when the thread never leaves
a wait in ALIVE or TIMEOUT because of `stop`. -/
theorem requests_accepted_iff {type : TypeNode} {serial : Nat} {clientAddr : SockaddrIn}
    {events : List NodeCall} {final : NodeBase}
    (replay : runFrom call (started type serial clientAddr) events = some final) :
    (∀ first event second before after, events = first ++ event :: second →
        runFrom call (started type serial clientAddr) first = some before →
        before.call event = some after → AgreesWithTable before event after) ↔
      checkFrom call (fun before event => !before.leavesStopped event)
        (started type serial clientAddr) events = true := by
  refine everyStep_iff_checkFrom Placed ?_ ?_ (started_placed type serial clientAddr) replay
  · intro before event after placed taken
    exact call_placed placed taken
  · intro before event after placed taken
    exact call_agrees_iff placed taken

def localNode : NodeBase := started .dataPlane 1 ⟨0x0100007f, 0x204e⟩

def threadCalls (steps : Nat) : List NodeCall := List.replicate steps (.thread 1 [] true)

def answeredOnce : List NodeCall := threadCalls 4 ++ [.setPongState] ++ threadCalls 34

def stopInInit : List NodeCall := threadCalls 4 ++ [.stop] ++ threadCalls 2

def EndsInAgreement (events : List NodeCall) : Prop :=
  ∃ final, runFrom call localNode events = some final ∧ final.pc = .exited ∧
    ∀ first event second before after, events = first ++ event :: second →
      runFrom call localNode first = some before → before.call event = some after →
      AgreesWithTable before event after

theorem requests_accepted_stopInInit :
    EndsInAgreement answeredOnce ∧ EndsInAgreement stopInInit := by
  have ends (events : List NodeCall)
      (exits : (runFrom call localNode events).any (fun node => node.pc == .exited) = true)
      (stays : checkFrom call (fun before event => !before.leavesStopped event) localNode events =
        true) : EndsInAgreement events := by
    obtain ⟨final, replay, ended⟩ := (Option.any_eq_true _ _).mp exits
    exact ⟨final, replay, by simpa using ended, (requests_accepted_iff replay).mpr stays⟩
  exact ⟨ends _ (by decide +kernel) (by decide +kernel),
    ends _ (by decide +kernel) (by decide +kernel)⟩

def stopInAlive : List NodeCall := threadCalls 4 ++ [.setPongState] ++ threadCalls 5 ++ [.stop]

def stopInTimeout : List NodeCall := threadCalls 10 ++ [.stop]

theorem stop_refused :
    (∃ before after, runFrom call localNode stopInAlive = some before ∧
      before.call (.thread 1 [] false) = some after ∧
      before.request false = some .init ∧
      stateChangeAllowed before.currentState .init = false ∧
      before.leavesStopped (.thread 1 [] false) = true ∧ after.currentState = .alive) ∧
    ∃ before after, runFrom call localNode stopInTimeout = some before ∧
      before.call (.thread 1 [] false) = some after ∧
      before.request false = some .init ∧
      stateChangeAllowed before.currentState .init = false ∧
      before.leavesStopped (.thread 1 [] false) = true ∧ after.currentState = .timeout := by
  constructor <;> exact ⟨_, _, rfl, rfl, rfl, rfl, rfl, rfl⟩

/-! Which calls of `stop` lead there. -/

def waitAhead (node : NodeBase) : Bool :=
  match node.pc with
  | .resetPong site | .sendPing site | .pushPing site _ | .waitPong site => site != .init
  | .notifyTimeout => true
  | _ => false

def doomed (node : NodeBase) : Bool := !node.running && node.waitAhead

def stopsInTime (node : NodeBase) : NodeCall → Bool
  | .stop => !(node.running && node.waitAhead)
  | _ => true

theorem leavesStopped_of_waitPong {site : PingSite} (placed : node.Placed)
    (position : node.pc = .waitPong site) (nodeID : Int) (now : Bytes) (timedOut : Bool) :
    node.leavesStopped (.thread nodeID now timedOut) = node.doomed := by
  simp only [Placed, position] at placed
  cases site <;> simp [leavesStopped, doomed, waitAhead, position, placed.1, PingSite.state]

theorem doomed_of_leavesStopped {event : NodeCall} (placed : node.Placed)
    (leaves : node.leavesStopped event = true) : node.doomed = true := by
  cases event with
  | thread nodeID now timedOut =>
      cases position : node.pc with
      | waitPong site => rwa [leavesStopped_of_waitPong placed position] at leaves
      | _ => simp [leavesStopped, position] at leaves
  | setPongState => simp [leavesStopped] at leaves
  | stop => simp [leavesStopped] at leaves

theorem threadStep_doomed {nodeID : Int} {now : Bytes} {timedOut : Bool}
    {pushed : Option StrMessageState} (placed : node.Placed)
    (stays : node.leavesStopped (.thread nodeID now timedOut) = false)
    (step : node.threadStep nodeID now timedOut = some (after, pushed)) :
    after.doomed = node.doomed := by
  cases threadStep_move step with
  | loopHead position =>
      simp only [doomed, waitAhead, position, handleThread]
      split
      · simp
      · split <;> simp_all
  | waitPong site woken position ended =>
      rw [leavesStopped_of_waitPong placed position] at stays
      rw [stays]
      cases running : node.running with
      | true => simp [doomed, afterWait_running, running]
      | false =>
          -- only the handler of INIT may still be stopped here
          rw [waitFor_of_stopped running, Option.some.injEq] at ended
          subst ended
          simp only [doomed, waitAhead, position, running] at stays
          cases site with
          | init => simp [doomed, waitAhead, afterWait, initAfterWait, running]
          | _ => simp at stays
  | notifyTimeout position =>
      simp [doomed, waitAhead, position, retryLoop, retryNum]
  | retriesOver retryTime position =>
      unfold afterRetries
      split <;> simp [doomed, waitAhead, position]
  | deadStop position => simp [doomed, waitAhead, position]
  | resetPong site position | sendPing site position | pushPing site readID position
  | sleepPing site position | notifyDead position | deadToInit position =>
      simp [doomed, waitAhead, position, setPongState]

theorem call_doomed_iff {event : NodeCall} (placed : node.Placed)
    (stays : node.leavesStopped event = false) (taken : node.call event = some after) :
    after.doomed = true ↔ node.doomed = true ∨ node.stopsInTime event = false := by
  cases event with
  | thread nodeID now timedOut =>
      obtain ⟨⟨moved, pushed⟩, step, rfl⟩ := Option.map_eq_some_iff.mp taken
      simp [threadStep_doomed placed stays step, stopsInTime]
  | setPongState =>
      simp only [call, Option.ite_none_left_eq_some, Option.some.injEq] at taken
      obtain ⟨_, rfl⟩ := taken
      simp [doomed, waitAhead, stopsInTime, setPongState]
  | stop =>
      simp only [call, Option.ite_none_left_eq_some, Option.some.injEq] at taken
      obtain ⟨_, rfl⟩ := taken
      cases running : node.running <;>
        simp [doomed, waitAhead, stopsInTime, stop, running]

theorem run_stopsInTime {events : List NodeCall} {final : NodeBase} (placed : node.Placed)
    (stays : checkFrom call (fun before event => !before.leavesStopped event) node events = true)
    (replay : runFrom call node events = some final) :
    final.doomed = true ↔
      node.doomed = true ∨ checkFrom call stopsInTime node events = false := by
  induction events generalizing node with
  | nil =>
      obtain rfl := Option.some.inj replay
      simp [checkFrom]
  | cons event rest ih =>
      obtain ⟨next, taken, tail⟩ := Option.bind_eq_some_iff.mp replay
      simp only [checkFrom, taken, Bool.and_eq_true, Bool.not_eq_true'] at stays
      rw [ih (call_placed placed taken) stays.2 tail, call_doomed_iff placed stays.1 taken]
      simp only [checkFrom, taken, Bool.and_eq_false_iff, or_assoc]

theorem run_leavesStopped {events : List NodeCall} {final : NodeBase} (placed : node.Placed)
    (safe : node.doomed = false) (inTime : checkFrom call stopsInTime node events = true)
    (replay : runFrom call node events = some final) :
    checkFrom call (fun before event => !before.leavesStopped event) node events = true := by
  induction events generalizing node with
  | nil => rfl
  | cons event rest ih =>
      obtain ⟨next, taken, tail⟩ := Option.bind_eq_some_iff.mp replay
      simp only [checkFrom, taken, Bool.and_eq_true, Bool.not_eq_true'] at inTime ⊢
      have stays : node.leavesStopped event = false := by
        by_contra leaves
        have leads := doomed_of_leavesStopped placed (by simpa using leaves)
        simp [safe] at leads
      have after := call_doomed_iff placed stays taken
      simp only [safe, inTime.1, Bool.false_eq_true, or_self, iff_false, Bool.not_eq_true,
        Bool.true_eq_false] at after
      exact ⟨stays, ih (call_placed placed taken) after inTime.2 tail⟩

/-- In the whole life of a thread no wait in ALIVE or TIMEOUT is left because of `stop` exactly when
no `stop` finds the thread in one of these handlers with the end of a wait ahead. -/
theorem leavesStopped_iff_stopsInTime {type : TypeNode} {serial : Nat} {clientAddr : SockaddrIn}
    {events : List NodeCall} {final : NodeBase}
    (replay : runFrom call (started type serial clientAddr) events = some final)
    (ended : final.pc = .exited) :
    checkFrom call (fun before event => !before.leavesStopped event)
        (started type serial clientAddr) events = true ↔
      checkFrom call stopsInTime (started type serial clientAddr) events = true := by
  have placed := started_placed type serial clientAddr
  have safe : (started type serial clientAddr).doomed = false := rfl
  constructor
  · intro stays
    have finished := run_stopsInTime placed stays replay
    have spared : final.doomed = false := by simp [doomed, waitAhead, ended]
    simpa [spared, safe] using finished
  · intro inTime
    exact run_leavesStopped placed safe inTime replay

end NodeBase

end NodeManagement
