import NodeManagement.ServedQueues

/-!
One loop, its queue and the module that starts and stops them, without the items: a small machine
that each of the four loops of the program simulates.
-/

namespace NodeManagement

/-- A loop as its module sees it: how far `start` or `stop` is, the two flags, and where the loop
stands. -/
structure LoopView where
  phase : ModulePhase
  running : Bool
  queueRunning : Bool
  pc : LoopPc

inductive LoopAction
  | waitAndPop
  | checkRunning
  | finish
  | start
  | stop
  | proceed
  | other

def LoopAction.own : LoopAction → Bool
  | waitAndPop | checkRunning | finish => true
  | _ => false

namespace LoopView

def live (view : LoopView) : Bool :=
  match view.pc with
  | .waiting | .checking | .working => true
  | _ => false

def step (role : Role) (view : LoopView) : LoopAction → Option LoopView
  | .waitAndPop => if view.pc = .waiting then some { view with pc := .checking } else none
  | .checkRunning =>
      if view.pc = .checking then
        some { view with pc := if view.running then .working else .ended }
      else none
  | .finish => if view.pc = .working then some { view with pc := .waiting } else none
  | .start =>
      if view.running then some view
      else if view.phase = .idle then
        some { view with running := true, phase := .startFirstQueue }
      else none
  | .stop =>
      if !view.running then some view
      else if view.phase = .idle then
        some { view with running := false, phase := .stopFirstQueue }
      else none
  | .proceed =>
      if view.phase = .idle || (role.thread.joinsIn view.phase && view.live) then none
      else some {
        phase := view.phase.next
        running := view.running
        queueRunning :=
          if role.starts.startsQueueIn view.phase then true
          else if role.stops.stopsQueueIn view.phase then false
          else view.queueRunning
        pc := if role.thread.spawnsIn view.phase then .waiting else view.pc }
  | .other => some view

structure Agrees (role : Role) (view : LoopView) : Prop where
  starting : view.phase.starting = true → view.running = true
  stopping : view.phase.stopping = true → view.running = false
  away : role.thread.awayIn view.phase = true ∨ (view.phase = .idle ∧ view.running = false) →
    view.live = false
  served : view.running = true → role.thread.upIn view.phase = true → view.live = true
  opened : role.starts.openIn view.phase = true ∨ (view.phase = .idle ∧ view.running = true) →
    view.queueRunning = true
  shut : view.phase = .joinFirst ∨ view.phase = .joinSecond ∨
      (role.stops = .first ∧ view.phase = .stopSecondQueue) → view.queueRunning = false

variable {role : Role} {view after : LoopView}

theorem proceed_agrees (agrees : view.Agrees role)
    (taken : view.step role .proceed = some after) : after.Agrees role := by
  obtain ⟨phase, running, queueRunning, pc⟩ := view
  simp only [step, Option.ite_none_left_eq_some, Option.some.injEq, Bool.or_eq_true,
    decide_eq_true_eq, not_or] at taken
  obtain ⟨⟨busy, joins⟩, rfl⟩ := taken
  refine ⟨?starting, ?stopping, ?away, ?served, ?opened, ?shut⟩
  case starting =>
    have before := agrees.starting
    cases phase <;> simp_all [ModulePhase.starting, ModulePhase.next]
  case stopping =>
    have before := agrees.stopping
    cases phase <;> simp_all [ModulePhase.stopping, ModulePhase.next]
  case away =>
    have gone := agrees.away
    have runs := agrees.starting
    cases turn : role.thread <;> cases phase <;>
      simp_all [Turn.awayIn, Turn.joinsIn, Turn.spawnsIn, ModulePhase.next, ModulePhase.starting,
        live]
  case served =>
    have before := agrees.served
    have stops := agrees.stopping
    cases turn : role.thread <;> cases phase <;>
      simp_all [Turn.upIn, Turn.spawnsIn, ModulePhase.next, ModulePhase.stopping, live]
  case opened =>
    have before := agrees.opened
    have stops := agrees.stopping
    cases turn : role.starts <;> cases phase <;>
      simp_all [Turn.openIn, Turn.startsQueueIn, Turn.stopsQueueIn, ModulePhase.next,
        ModulePhase.stopping]
  case shut =>
    have before := agrees.shut
    cases starts : role.starts <;> cases stops : role.stops <;> cases phase <;>
      simp_all [Turn.startsQueueIn, Turn.stopsQueueIn, ModulePhase.next]

theorem step_agrees {action : LoopAction} (agrees : view.Agrees role)
    (taken : view.step role action = some after) : after.Agrees role := by
  obtain ⟨starting, stopping, away, served, opened, shut⟩ := agrees
  obtain ⟨phase, running, queueRunning, pc⟩ := view
  cases action with
  | waitAndPop =>
      simp only [step, Option.ite_none_right_eq_some, Option.some.injEq] at taken
      obtain ⟨waiting, rfl⟩ := taken
      refine ⟨starting, stopping, ?_, fun _ _ => rfl, opened, shut⟩
      exact fun gone => absurd (away gone) (by simp_all [live])
  | checkRunning =>
      simp only [step, Option.ite_none_right_eq_some, Option.some.injEq] at taken
      obtain ⟨checking, rfl⟩ := taken
      refine ⟨starting, stopping, ?_, fun runs _ => by simp_all [live], opened, shut⟩
      exact fun gone => absurd (away gone) (by simp_all [live])
  | finish =>
      simp only [step, Option.ite_none_right_eq_some, Option.some.injEq] at taken
      obtain ⟨working, rfl⟩ := taken
      refine ⟨starting, stopping, ?_, fun _ _ => rfl, opened, shut⟩
      exact fun gone => absurd (away gone) (by simp_all [live])
  | start =>
      cases running with
      | true => exact Option.some.inj taken ▸ ⟨starting, stopping, away, served, opened, shut⟩
      | false =>
          simp only [step, Bool.false_eq_true, if_false, Option.ite_none_right_eq_some,
            Option.some.injEq] at taken
          obtain ⟨rfl, rfl⟩ := taken
          have gone := away (.inr ⟨rfl, rfl⟩)
          constructor <;> cases role.thread <;> cases role.starts <;>
            simp_all [ModulePhase.stopping, Turn.upIn, Turn.openIn, live]
  | stop =>
      cases running with
      | false => exact Option.some.inj taken ▸ ⟨starting, stopping, away, served, opened, shut⟩
      | true =>
          simp only [step, Bool.not_true, Bool.false_eq_true, if_false,
            Option.ite_none_right_eq_some, Option.some.injEq] at taken
          obtain ⟨rfl, rfl⟩ := taken
          constructor <;> cases role.thread <;> cases role.starts <;>
            simp_all [ModulePhase.starting, Turn.upIn, Turn.openIn, Turn.awayIn]
  | proceed => exact proceed_agrees ⟨starting, stopping, away, served, opened, shut⟩ taken
  | other => exact Option.some.inj taken ▸ ⟨starting, stopping, away, served, opened, shut⟩

theorem step_busy {action : LoopAction} (busy : view.phase ≠ .idle)
    (taken : view.step role action = some after) :
    after.running = view.running ∧
      (action = .proceed ∧ after.phase = view.phase.next ∧
          (role.thread.joinsIn view.phase = true → view.live = false) ∨
        action ≠ .proceed ∧ after.phase = view.phase) := by
  cases action with
  | waitAndPop | checkRunning | finish =>
      simp only [step, Option.ite_none_right_eq_some, Option.some.injEq] at taken
      obtain ⟨_, rfl⟩ := taken
      exact ⟨rfl, .inr ⟨by simp, rfl⟩⟩
  | start =>
      cases runs : view.running <;> simp_all [step]
  | stop =>
      cases runs : view.running <;> simp_all [step]
  | proceed =>
      simp only [step, Option.ite_none_left_eq_some, Option.some.injEq, Bool.or_eq_true,
        Bool.and_eq_true, not_or, not_and, Bool.not_eq_true] at taken
      obtain ⟨⟨_, free⟩, rfl⟩ := taken
      exact ⟨rfl, .inl ⟨rfl, rfl, free⟩⟩
  | other => exact Option.some.inj taken ▸ ⟨rfl, .inr ⟨by simp, rfl⟩⟩

theorem step_flag {action : LoopAction} (noStart : action ≠ .start) (noStop : action ≠ .stop)
    (taken : view.step role action = some after) :
    after.running = view.running ∧ (view.phase = .idle → after.phase = .idle) := by
  cases action with
  | waitAndPop | checkRunning | finish =>
      simp only [step, Option.ite_none_right_eq_some, Option.some.injEq] at taken
      obtain ⟨_, rfl⟩ := taken
      exact ⟨rfl, id⟩
  | start => exact absurd rfl noStart
  | stop => exact absurd rfl noStop
  | proceed =>
      simp only [step, Option.ite_none_left_eq_some, Option.some.injEq, Bool.or_eq_true,
        decide_eq_true_eq, not_or] at taken
      obtain ⟨⟨busy, _⟩, rfl⟩ := taken
      exact ⟨rfl, fun idle => absurd idle busy⟩
  | other => exact Option.some.inj taken ▸ ⟨rfl, id⟩

theorem step_pc {action : LoopAction} (agrees : view.Agrees role) (live : view.live = true)
    (taken : view.step role action = some after) :
    (action = .waitAndPop ∧ view.pc = .waiting ∧ after.pc = .checking) ∨
      (action = .checkRunning ∧ view.pc = .checking ∧
        after.pc = if view.running then .working else .ended) ∨
      (action = .finish ∧ view.pc = .working ∧ after.pc = .waiting) ∨
      (action.own = false ∧ after.pc = view.pc) := by
  cases action with
  | waitAndPop | checkRunning | finish =>
      simp only [step, Option.ite_none_right_eq_some, Option.some.injEq] at taken
      obtain ⟨position, rfl⟩ := taken
      simp [position]
  | start =>
      refine .inr (.inr (.inr ⟨rfl, ?_⟩))
      simp only [step] at taken
      split at taken
      next => exact Option.some.inj taken ▸ rfl
      next =>
        simp only [Option.ite_none_right_eq_some, Option.some.injEq] at taken
        exact taken.2 ▸ rfl
  | stop =>
      refine .inr (.inr (.inr ⟨rfl, ?_⟩))
      simp only [step] at taken
      split at taken
      next => exact Option.some.inj taken ▸ rfl
      next =>
        simp only [Option.ite_none_right_eq_some, Option.some.injEq] at taken
        exact taken.2 ▸ rfl
  | proceed =>
      refine .inr (.inr (.inr ⟨rfl, ?_⟩))
      simp only [step, Option.ite_none_left_eq_some, Option.some.injEq] at taken
      obtain ⟨_, rfl⟩ := taken
      have stays : role.thread.spawnsIn view.phase = false := by
        cases spawns : role.thread.spawnsIn view.phase with
        | false => rfl
        | true =>
            have away : role.thread.awayIn view.phase = true := by
              cases phase : view.phase <;> cases turn : role.thread <;>
                simp_all [Turn.spawnsIn, Turn.awayIn]
            simp [agrees.away (.inl away)] at live
      simp [stays]
  | other => exact .inr (.inr (.inr ⟨rfl, Option.some.inj taken ▸ rfl⟩))

theorem live_of_own {action : LoopAction} (own : action.own = true)
    (taken : view.step role action = some after) : view.live = true := by
  cases action with
  | waitAndPop | checkRunning | finish =>
      simp only [step, Option.ite_none_right_eq_some, Option.some.injEq] at taken
      simp [live, taken.1]
  | _ => simp [LoopAction.own] at own

theorem step_gone {action : LoopAction} (gone : view.live = false) (waits : action ≠ .proceed)
    (taken : view.step role action = some after) : after.live = false := by
  cases action with
  | waitAndPop | checkRunning | finish => simp [live_of_own rfl taken] at gone
  | start | stop =>
      simp only [step] at taken
      split at taken
      next => exact Option.some.inj taken ▸ gone
      next =>
        simp only [Option.ite_none_right_eq_some, Option.some.injEq] at taken
        exact taken.2 ▸ gone
  | proceed => exact absurd rfl waits
  | other => exact Option.some.inj taken ▸ gone

end LoopView

namespace Consumer

variable {α : Type} {consumer after : Consumer α} {role : Role} {phase : ModulePhase}
  {running : Bool}

def view (consumer : Consumer α) (phase : ModulePhase) (running : Bool) : LoopView :=
  ⟨phase, running, consumer.queue.running, consumer.thread.pc⟩

@[simp] theorem push_view (value : α) :
    (consumer.push value).view phase running = consumer.view phase running := by
  simp [view, push, ThreadSafeQueue.push_running]

theorem view_of_pop (popped : consumer.pop = some after) :
    (consumer.view phase running).step role .waitAndPop = some (after.view phase running) := by
  obtain ⟨⟨thread, rest⟩, taken, rfl⟩ := Option.map_eq_some_iff.mp popped
  have kept := ConsumerThread.pop_running taken
  obtain ⟨waiting, ⟨_, rfl, _⟩ | ⟨_, front, others, _, rfl, _⟩⟩ :=
    ConsumerThread.pop_cases taken <;> simp [LoopView.step, view, waiting, kept]

theorem view_of_check (checked : consumer.check running = some after) :
    (consumer.view phase running).step role .checkRunning = some (after.view phase running) := by
  obtain ⟨thread, taken, rfl⟩ := Option.map_eq_some_iff.mp checked
  obtain ⟨checking, rfl⟩ := ConsumerThread.check_cases taken
  simp [LoopView.step, view, checking]

theorem view_of_finish (working : consumer.thread.pc = .working) (item : α) :
    (consumer.view phase running).step role .finish =
      some ((consumer.finish item).view phase running) := by
  simp [LoopView.step, view, working, finish, ConsumerThread.finish]

theorem view_of_proceed {item : α} (busy : phase ≠ .idle)
    (taken : consumer.proceed role phase item = some after) :
    (consumer.view phase running).step role .proceed = some (after.view phase.next running) := by
  obtain ⟨joins, _, queue, thread⟩ := proceed_cases taken
  have position : after.thread.pc =
      if role.thread.spawnsIn phase then .waiting else consumer.thread.pc := by
    rw [thread]
    split <;> rfl
  rw [view, view, queue, position]
  refine if_neg ?_
  simp only [Bool.or_eq_true, decide_eq_true_eq, Bool.and_eq_true, not_or, not_and,
    Bool.not_eq_true]
  exact ⟨busy, joins⟩

end Consumer

theorem System.view_of_checkPointer {consumer after : Consumer PacketPointer} {role : Role}
    {phase : ModulePhase} {running : Bool} {freed : List HeapPacket}
    (checked : System.checkPointer consumer running = some (after, freed)) :
    (consumer.view phase running).step role .checkRunning = some (after.view phase running) := by
  obtain ⟨passed, moved, same⟩ := Option.map_eq_some_iff.mp checked
  rw [Consumer.view_of_check moved]
  cases running with
  | true =>
      simp only [if_true, Prod.mk.injEq] at same
      rw [same.1]
  | false =>
      simp only [Bool.false_eq_true, if_false, Prod.mk.injEq] at same
      rw [← same.1]
      rfl

inductive Service
  | nodeManagament
  | ioHandler
deriving DecidableEq

namespace Service

def start : Service → SystemEvent
  | nodeManagament => .startNodeManagament
  | ioHandler => .startIOHandler

def stop : Service → SystemEvent
  | nodeManagament => .stopNodeManagament
  | ioHandler => .stopIOHandler

end Service

namespace LoopThread

def service : LoopThread → Service
  | handleSendData | handleReceivedData => .nodeManagament
  | handleTxThread | handleRxThread => .ioHandler

def role : LoopThread → Role
  | handleSendData => Monitor.messageRole
  | handleReceivedData => receivedRole
  | handleTxThread => sendRole
  | handleRxThread => bufferRole

end LoopThread

def SystemEvent.action : SystemEvent → LoopThread → LoopAction
  | .popMessage, .handleSendData | .popReceived, .handleReceivedData | .popSend, .handleTxThread
  | .popBuffer, .handleRxThread => .waitAndPop
  | .checkMessage, .handleSendData | .checkReceived, .handleReceivedData
  | .checkSend, .handleTxThread | .checkBuffer, .handleRxThread => .checkRunning
  | .handleMessage, .handleSendData | .handleReceived, .handleReceivedData
  | .transmit, .handleTxThread | .sendtoFails, .handleTxThread
  | .pushMessageReceived, .handleRxThread => .finish
  | .startNodeManagament, .handleSendData | .startNodeManagament, .handleReceivedData
  | .startIOHandler, .handleTxThread | .startIOHandler, .handleRxThread => .start
  | .stopNodeManagament, .handleSendData | .stopNodeManagament, .handleReceivedData
  | .stopIOHandler, .handleTxThread | .stopIOHandler, .handleRxThread => .stop
  | .proceedNodeManagament, .handleSendData | .proceedNodeManagament, .handleReceivedData
  | .proceedIOHandler, .handleTxThread | .proceedIOHandler, .handleRxThread => .proceed
  | _, _ => .other

namespace System

def servicePhase (system : System) : Service → ModulePhase
  | .nodeManagament => system.monitor.phase
  | .ioHandler => system.ioPhase

def serviceRunning (system : System) : Service → Bool
  | .nodeManagament => system.monitor.running
  | .ioHandler => system.ioRunning

def loopView (system : System) : LoopThread → LoopView
  | .handleSendData => system.monitor.consumer.view system.monitor.phase system.monitor.running
  | .handleReceivedData => system.receivedIOQueue.view system.monitor.phase system.monitor.running
  | .handleTxThread => system.sendIOQueue.view system.ioPhase system.ioRunning
  | .handleRxThread => system.bufferUDPRecv.view system.ioPhase system.ioRunning

variable {system after : System}

theorem loopView_phase (loop : LoopThread) :
    (system.loopView loop).phase = system.servicePhase loop.service := by
  cases loop <;> rfl

theorem loopView_live (loop : LoopThread) :
    (system.loopView loop).live = system.loopLive loop := by
  cases loop <;> rfl

theorem loopView_running (loop : LoopThread) :
    (system.loopView loop).running = system.serviceRunning loop.service := by
  cases loop <;> rfl

theorem stop_begins {service : Service} (taken : system.step service.stop = some after) :
    after.serviceRunning service = false := by
  cases service with
  | nodeManagament =>
      obtain ⟨_, stepped⟩ := Option.ite_none_right_eq_some.mp taken
      obtain ⟨monitor, moved, rfl⟩ := Option.map_eq_some_iff.mp stepped
      cases Monitor.step_move moved with
      | stopAgain _ stopped => exact stopped
      | stop => rfl
  | ioHandler =>
      obtain ⟨_, stepped⟩ := Option.ite_none_right_eq_some.mp taken
      cases running : system.ioRunning with
      | true =>
          obtain rfl := Option.some.inj ((if_pos running).symm.trans stepped)
          rfl
      | false =>
          obtain rfl := Option.some.inj ((if_neg (by simp [running])).symm.trans stepped)
          exact running

theorem start_begins {service : Service} (taken : system.step service.start = some after) :
    after.serviceRunning service = true := by
  cases service with
  | nodeManagament =>
      obtain ⟨_, stepped⟩ := Option.ite_none_right_eq_some.mp taken
      obtain ⟨monitor, moved, rfl⟩ := Option.map_eq_some_iff.mp stepped
      cases Monitor.step_move moved with
      | startAgain _ running => exact running
      | start => rfl
  | ioHandler =>
      obtain ⟨_, stepped⟩ := Option.ite_none_right_eq_some.mp taken
      cases running : system.ioRunning with
      | true =>
          obtain rfl := Option.some.inj ((if_neg (by simp [running])).symm.trans stepped)
          exact running
      | false =>
          obtain rfl := Option.some.inj ((if_pos (by simp [running])).symm.trans stepped)
          rfl

/-- Each of the four loops is a loop of the small machine, whatever the rest of the program does. -/
theorem step_loopView {event : SystemEvent} (loop : LoopThread)
    (taken : system.step event = some after) :
    (system.loopView loop).step loop.role (event.action loop) = some (after.loopView loop) := by
  cases step_move taken with
  | nodeStep _ _ _ stepped =>
      cases Monitor.step_move stepped with
      | nodeStep moved =>
          obtain ⟨node, next, pushed, _, _, rfl⟩ := Monitor.nodeStep_cases moved
          cases loop with
          | handleSendData =>
              cases pushed <;>
                simp [SystemEvent.action, LoopView.step, loopView, Monitor.consumer, Consumer.view]
          | _ => rfl
  | popMessage _ stepped =>
      cases Monitor.step_move stepped with
      | waitAndPop popped =>
          cases loop with
          | handleSendData =>
              exact Consumer.view_of_pop (by simp [Consumer.pop, Monitor.consumer, popped])
          | _ => rfl
  | checkMessage stepped =>
      cases Monitor.step_move stepped with
      | checkRunning checked =>
          cases loop with
          | handleSendData =>
              exact Consumer.view_of_check (by simp [Consumer.check, Monitor.consumer, checked])
          | _ => rfl
  | handleMessage stepped =>
      cases Monitor.step_move stepped with
      | handleMessage working =>
          cases loop with
          | handleSendData => exact Consumer.view_of_finish working _
          | _ => rfl
  | pushPacket => cases loop <;> simp [SystemEvent.action, LoopView.step, loopView]
  | popReceived popped | popBuffer popped | popSend popped =>
      cases loop <;> first | exact Consumer.view_of_pop popped | rfl
  | checkReceived checked | checkSend checked =>
      cases loop <;> first | exact view_of_checkPointer checked | rfl
  | checkBuffer checked =>
      cases loop <;> first | exact Consumer.view_of_check checked | rfl
  | skipReceived working | skipBuffer working | skipSend working | transmit working
    | sendtoFails working =>
      cases loop <;> first | exact Consumer.view_of_finish working _ | rfl
  | handleReceived working _ dispatched =>
      obtain ⟨registry, rfl, _⟩ := Monitor.handlePacket_registry dispatched
      cases loop <;> first | exact Consumer.view_of_finish working _ | rfl
  | pushMessageReceived working =>
      cases loop with
      | handleReceivedData => simp [SystemEvent.action, LoopView.step, loopView]
      | handleRxThread => exact Consumer.view_of_finish working _
      | _ => rfl
  | receive => cases loop <;> simp [SystemEvent.action, LoopView.step, loopView]
  | receiveNothing | startReceiver => cases loop <;> rfl
  | startNodeManagament _ stepped =>
      cases Monitor.step_move stepped with
      | startAgain _ running =>
          cases loop <;> simp [SystemEvent.action, LoopView.step, loopView, Consumer.view, running]
      | start idle stopped =>
          cases loop <;>
            simp [SystemEvent.action, LoopView.step, loopView, Consumer.view, idle, stopped,
              Monitor.consumer]
  | stopNodeManagament _ stepped =>
      cases Monitor.step_move stepped with
      | stopAgain _ stopped =>
          cases loop <;> simp [SystemEvent.action, LoopView.step, loopView, Consumer.view, stopped]
      | stop idle running =>
          cases loop <;>
            simp [SystemEvent.action, LoopView.step, loopView, Consumer.view, idle, running,
              Monitor.consumer]
  | startIOHandlerAgain running =>
      cases loop <;> simp [SystemEvent.action, LoopView.step, loopView, Consumer.view, running]
  | stopIOHandlerAgain stopped =>
      cases loop <;> simp [SystemEvent.action, LoopView.step, loopView, Consumer.view, stopped]
  | startIOHandler idle stopped =>
      cases loop <;>
        simp [SystemEvent.action, LoopView.step, loopView, Consumer.view, idle, stopped]
  | stopIOHandler idle running =>
      cases loop <;>
        simp [SystemEvent.action, LoopView.step, loopView, Consumer.view, idle, running]
  | proceedNodeManagament first proceeded =>
      obtain ⟨busy, phase, running, _, moved⟩ := Monitor.proceed_cases proceeded
      cases loop with
      | handleSendData =>
          simp only [loopView, phase, running]
          exact Consumer.view_of_proceed busy moved
      | handleReceivedData =>
          simp only [loopView, phase, running]
          exact Consumer.view_of_proceed busy first
      | _ => rfl
  | proceedIOHandler busy first second =>
      cases loop with
      | handleTxThread => exact Consumer.view_of_proceed busy second
      | handleRxThread => exact Consumer.view_of_proceed busy first
      | _ => rfl

theorem initial_views (loop : LoopThread) : (initial.loopView loop).Agrees loop.role := by
  cases loop <;> constructor <;> decide

theorem reachable_views (reached : Reachable system) (loop : LoopThread) :
    (system.loopView loop).Agrees loop.role :=
  Transition.Reaches.invariant (fun system => (system.loopView loop).Agrees loop.role) reached
    (initial_views loop) fun _ _ _ agrees _ taken =>
      LoopView.step_agrees agrees (step_loopView loop taken)

end System

end NodeManagement
