import Mathlib.Data.Prod.Lex
import NodeManagement.Joins
import NodeManagement.LoopView
import NodeManagement.FailureDetector
import NodeManagement.ReceiveLiveness

/-!
The calls of the menu return: `start` with both loops of the module in place, and `stop` with both
gone, in whatever state the queues, the packets and the nodes are.
-/

namespace NodeManagement

open Transition

namespace ModulePhase

def left : ModulePhase → Nat
  | idle => 0
  | startFirstQueue | stopFirstQueue => 4
  | startSecondQueue | stopSecondQueue => 3
  | spawnFirst | joinFirst => 2
  | spawnSecond | joinSecond => 1

theorem next_left {phase : ModulePhase} (busy : phase ≠ .idle) :
    phase.next.left < phase.left := by
  cases phase <;> simp_all [next, left]

end ModulePhase

def Service.joins : Service → ModulePhase → Option LoopThread
  | nodeManagament, .joinFirst => some .handleReceivedData
  | nodeManagament, .joinSecond => some .handleSendData
  | ioHandler, .joinFirst => some .handleRxThread
  | ioHandler, .joinSecond => some .handleTxThread
  | _, _ => none

def SystemEvent.proceeds : SystemEvent → Option Service
  | .proceedNodeManagament => some .nodeManagament
  | .startReceiver | .proceedIOHandler => some .ioHandler
  | _ => none

namespace System

variable {system after : System}

def ofMenu (service : Service) (_ : System) (event : SystemEvent) : Prop :=
  event.proceeds = some service

def receiverLeft (system : System) : Service → Nat
  | .ioHandler => if system.ioPhase = .startFirstQueue && !system.udpRunning then 1 else 0
  | .nodeManagament => 0

def callSteps (system : System) (service : Service) : Nat :=
  (system.servicePhase service).left + system.receiverLeft service

def pushesLeft (system : System) : LoopThread → Nat
  | .handleSendData => system.outbox.length
  | _ => 0

/-- The steps of a loop until it leaves, once its module has stopped: it may have to finish the
item in hand. -/
def endSteps (system : System) (loop : LoopThread) : ℕ ×ₗ ℕ :=
  match (system.loopView loop).pc with
  | .working => toLex (1, system.pushesLeft loop)
  | .waiting => toLex (0, system.pushesLeft loop + 2)
  | .checking => toLex (0, system.pushesLeft loop + 1)
  | _ => toLex (0, system.pushesLeft loop)

theorem joins_service {service : Service} {phase : ModulePhase} {loop : LoopThread}
    (joins : service.joins phase = some loop) : loop.service = service := by
  cases service <;> cases phase <;> simp_all [Service.joins] <;> subst joins <;> rfl

theorem joins_shut {service : Service} {phase : ModulePhase} {loop : LoopThread}
    (joins : service.joins phase = some loop) : phase = .joinFirst ∨ phase = .joinSecond := by
  cases service <;> cases phase <;> simp_all [Service.joins]

theorem action_eq_proceed {event : SystemEvent} {loop : LoopThread}
    (proceeds : event.action loop = .proceed) : event.proceeds = some loop.service := by
  cases event <;> cases loop <;> simp_all [SystemEvent.action, SystemEvent.proceeds,
    LoopThread.service]

theorem action_of_loop {event : SystemEvent} {loop : LoopThread}
    (own : event.loop = some loop) :
    (event.action loop).own = true ∨ event.action loop = .other := by
  cases event <;> cases loop <;>
    simp_all [SystemEvent.action, SystemEvent.loop, LoopAction.own]

theorem receiverLeft_of_other {event : SystemEvent} {service : Service}
    (busy : system.servicePhase service ≠ .idle) (other : event.proceeds ≠ some service)
    (taken : system.step event = some after) :
    after.receiverLeft service = system.receiverLeft service := by
  cases service with
  | nodeManagament => rfl
  | ioHandler =>
      cases step_move taken with
      | startIOHandler idle => exact absurd idle busy
      | stopIOHandler idle => exact absurd idle busy
      | startReceiver | proceedIOHandler => exact absurd rfl other
      | _ => rfl

theorem receiverLeft_of_next {service : Service}
    (next : after.servicePhase service = (system.servicePhase service).next) :
    after.receiverLeft service = 0 := by
  cases service with
  | nodeManagament => rfl
  | ioHandler =>
      have next : after.ioPhase = system.ioPhase.next := next
      have past : after.ioPhase ≠ .startFirstQueue := by
        rw [next]
        cases system.ioPhase <;> simp [ModulePhase.next]
      simp [receiverLeft, past]

theorem receiverLeft_of_own {event : SystemEvent} {loop : LoopThread}
    (own : event.proceeds = some loop.service) (waits : event.action loop ≠ .proceed)
    (taken : system.step event = some after) :
    after.receiverLeft loop.service < system.receiverLeft loop.service := by
  cases step_move taken with
  | startReceiver phase stopped =>
      obtain rfl | rfl : loop = .handleTxThread ∨ loop = .handleRxThread := by
        cases loop <;> simp_all [SystemEvent.proceeds, LoopThread.service]
      all_goals simp [receiverLeft, LoopThread.service, phase, stopped]
  | _ => cases loop <;> simp_all [SystemEvent.proceeds, SystemEvent.action, LoopThread.service]

theorem step_call_phase {event : SystemEvent} {service : Service}
    (busy : system.servicePhase service ≠ .idle) (taken : system.step event = some after) :
    after.serviceRunning service = system.serviceRunning service ∧
      (after.callSteps service < system.callSteps service ∨
        after.servicePhase service = system.servicePhase service ∧
          after.callSteps service = system.callSteps service ∧ ¬ofMenu service system event) := by
  obtain ⟨loop, rfl⟩ : ∃ loop : LoopThread, loop.service = service := by
    cases service
    · exact ⟨.handleSendData, rfl⟩
    · exact ⟨.handleTxThread, rfl⟩
  rw [← loopView_phase] at busy
  obtain ⟨runs, ⟨acts, next, _⟩ | ⟨waits, same⟩⟩ :=
    LoopView.step_busy busy (step_loopView loop taken)
  · simp only [loopView_running] at runs
    simp only [loopView_phase] at next busy
    have fewer := ModulePhase.next_left busy
    refine ⟨runs, .inl ?_⟩
    simp only [callSteps, receiverLeft_of_next next, next]
    omega
  · simp only [loopView_running] at runs
    simp only [loopView_phase] at same busy
    refine ⟨runs, ?_⟩
    by_cases own : event.proceeds = some loop.service
    · have fewer := receiverLeft_of_own own waits taken
      refine .inl ?_
      simp only [callSteps, same]
      omega
    · refine .inr ⟨same, ?_, own⟩
      simp only [callSteps, same, receiverLeft_of_other busy own taken]

theorem step_pushesLeft {event : SystemEvent} (loop : LoopThread)
    (taken : system.step event = some after) :
    event.action loop = .finish ∨
      after.pushesLeft loop = system.pushesLeft loop ∧
        (event.loop = some loop → event.action loop ≠ .other) ∨
      after.pushesLeft loop < system.pushesLeft loop ∧ event.action loop = .other := by
  cases step_move taken with
  | handleMessage => cases loop <;> simp [SystemEvent.action, SystemEvent.loop, pushesLeft]
  | pushPacket contents =>
      cases loop <;> simp [SystemEvent.action, SystemEvent.loop, pushesLeft, contents]
  | _ => cases loop <;> simp [SystemEvent.action, SystemEvent.loop, pushesLeft]

theorem step_ending {event : SystemEvent} {loop : LoopThread}
    (agrees : (system.loopView loop).Agrees loop.role)
    (stopped : (system.loopView loop).running = false)
    (live : (system.loopView loop).live = true) (taken : system.step event = some after) :
    (after.loopView loop).live = false ∨ (after.loopView loop).live = true ∧
      (after.endSteps loop < system.endSteps loop ∨
        after.endSteps loop = system.endSteps loop ∧ ¬ofLoop loop system event) := by
  have moved := LoopView.step_pc agrees live (step_loopView loop taken)
  have pushes := step_pushesLeft loop taken
  rcases moved with ⟨acts, before, position⟩ | ⟨acts, _, position⟩ | ⟨acts, before, position⟩ |
    ⟨notOwn, position⟩
  · refine .inr ⟨by simp [LoopView.live, position], .inl ?_⟩
    rcases pushes with finished | ⟨same, _⟩ | ⟨_, other⟩
    · simp [acts] at finished
    · simp [endSteps, before, position, same, Prod.Lex.toLex_lt_toLex]
    · simp [acts] at other
  · exact .inl (by simp [LoopView.live, position, stopped])
  · exact .inr ⟨by simp [LoopView.live, position],
      .inl (by simp [endSteps, before, position, Prod.Lex.toLex_lt_toLex])⟩
  · refine .inr ⟨by rw [← live, LoopView.live, LoopView.live, position], ?_⟩
    rcases pushes with finished | ⟨same, busy⟩ | ⟨fewer, other⟩
    · simp [finished, LoopAction.own] at notOwn
    · refine .inr ⟨by simp only [endSteps, position, same], fun own => ?_⟩
      rcases action_of_loop own with acts | acts
      · simp [notOwn] at acts
      · exact busy own acts
    · refine .inl ?_
      simp only [endSteps, position]
      cases (system.loopView loop).pc <;> simp [Prod.Lex.toLex_lt_toLex, fewer]

theorem proceed_isSome {α : Type} {consumer : Consumer α} {role : Role} {phase : ModulePhase}
    {item : α} (free : role.thread.joinsIn phase = true → consumer.thread.live = false) :
    ∃ after, consumer.proceed role phase item = some after := by
  unfold Consumer.proceed
  cases joins : role.thread.joinsIn phase with
  | true => simp [free joins]
  | false => simp

theorem menu_enabled {service : Service} (busy : system.servicePhase service ≠ .idle)
    (free : ∀ loop, service.joins (system.servicePhase service) = some loop →
      system.loopLive loop = false) : Enabled step (ofMenu service) system := by
  cases service with
  | nodeManagament =>
      have busy : system.monitor.phase ≠ .idle := busy
      obtain ⟨received, first⟩ : ∃ after, system.receivedIOQueue.proceed receivedRole
          system.monitor.phase .initial = some after := by
        refine proceed_isSome fun joins => free .handleReceivedData ?_
        cases phase : system.monitor.phase <;>
          simp_all [receivedRole, Turn.joinsIn, servicePhase, Service.joins]
      obtain ⟨monitor, second⟩ : ∃ after, system.monitor.proceed = some after := by
        unfold Monitor.proceed
        cases phase : system.monitor.phase with
        | idle => exact absurd phase busy
        | joinSecond =>
            have gone : system.monitor.nodeHandleThread.live = false :=
              free .handleSendData (by simp [servicePhase, phase, Service.joins])
            simp [gone]
        | _ => simp
      refine .of_isSome .proceedNodeManagament rfl ?_
      simp [step, first, monitorStep, Monitor.step, second]
  | ioHandler =>
      have busy : system.ioPhase ≠ .idle := busy
      cases waits : (system.ioPhase = .startFirstQueue && !system.udpRunning : Bool) with
      | true => exact .of_isSome .startReceiver rfl (by simp [step, waits])
      | false =>
          obtain ⟨buffer, first⟩ : ∃ after, system.bufferUDPRecv.proceed bufferRole
              system.ioPhase .initial = some after := by
            refine proceed_isSome fun joins => free .handleRxThread ?_
            cases phase : system.ioPhase <;>
              simp_all [bufferRole, Turn.joinsIn, servicePhase, Service.joins]
          obtain ⟨send, second⟩ : ∃ after, system.sendIOQueue.proceed sendRole
              system.ioPhase .initial = some after := by
            refine proceed_isSome fun joins => free .handleTxThread ?_
            cases phase : system.ioPhase <;>
              simp_all [sendRole, Turn.joinsIn, servicePhase, Service.joins]
          refine .of_isSome .proceedIOHandler rfl ?_
          simp [step, proceedIOHandler, busy, waits, first, second]

section

variable {run : Execution step initial} {service : Service}

theorem loop_again (nodes : ∀ id, run.WeaklyFair (nodeThread id)) {loop : LoopThread}
    {position : Nat} (live : (run.state position).loopLive loop = true)
    (shut : ((run.state position).loopView loop).queueRunning = false) :
    ∃ last, position ≤ last ∧ Enabled step (ofLoop loop) (run.state last) := by
  have steady := reachable_steady (run.reaches position)
  cases loop with
  | handleSendData => exact handleSendData_again nodes live (.inr (.inr shut))
  | handleReceivedData => exact handleReceivedData_again nodes live (.inr shut)
  | handleTxThread => exact ⟨position, le_refl _, handleTxThread_enabled steady live (.inr shut)⟩
  | handleRxThread => exact ⟨position, le_refl _, handleRxThread_enabled steady live (.inr shut)⟩

def Calling (run : Execution step initial) (service : Service) (running : Bool)
    (steps position : Nat) : Prop :=
  (run.state position).servicePhase service ≠ .idle ∧
    (run.state position).serviceRunning service = running ∧
    (run.state position).callSteps service = steps

def Returned (run : Execution step initial) (service : Service) (running : Bool)
    (position : Nat) : Prop :=
  (run.state position).servicePhase service = .idle ∧
    (run.state position).serviceRunning service = running

def Advanced (run : Execution step initial) (service : Service) (running : Bool)
    (steps position : Nat) : Prop :=
  Returned run service running position ∨
    ∃ less < steps, Calling run service running less position

def Free (run : Execution step initial) (service : Service) (position : Nat) : Prop :=
  ∀ loop, service.joins ((run.state position).servicePhase service) = some loop →
    (run.state position).loopLive loop = false

theorem calling_next {running : Bool} {steps position : Nat}
    (calling : Calling run service running steps position) :
    Advanced run service running steps (position + 1) ∨
      Calling run service running steps (position + 1) ∧
        (run.state (position + 1)).servicePhase service =
          (run.state position).servicePhase service ∧
        ¬ofMenu service (run.state position) (run.event position) := by
  obtain ⟨busy, runs, rfl⟩ := calling
  obtain ⟨same, fewer | ⟨phase, steps, other⟩⟩ := step_call_phase busy (run.next position)
  · refine .inl ?_
    by_cases idle : (run.state (position + 1)).servicePhase service = .idle
    · exact .inl ⟨idle, same.trans runs⟩
    · exact .inr ⟨_, fewer, idle, same.trans runs, rfl⟩
  · exact .inr ⟨⟨phase ▸ busy, same.trans runs, steps⟩, phase, other⟩

def Ending (run : Execution step initial) (service : Service) (running : Bool) (steps : Nat)
    (loop : LoopThread) (rank : ℕ ×ₗ ℕ) (position : Nat) : Prop :=
  Calling run service running steps position ∧
    service.joins ((run.state position).servicePhase service) = some loop ∧
    (run.state position).loopLive loop = true ∧ (run.state position).endSteps loop = rank

theorem free_of_joins {loop : LoopThread} {position : Nat}
    (joins : service.joins ((run.state position).servicePhase service) = some loop)
    (gone : (run.state position).loopLive loop = false) : Free run service position := by
  intro other named
  obtain rfl := Option.some.inj (joins.symm.trans named)
  exact gone

theorem ending_descends {running : Bool} {steps : Nat} {loop : LoopThread} :
    run.Descends (ofLoop loop) (Ending run service running steps loop) fun position =>
      Advanced run service running steps position ∨
        Calling run service running steps position ∧ Free run service position := by
  rintro rank position ⟨calling, joins, live, rfl⟩
  rcases calling_next calling with advanced | ⟨still, phase, _⟩
  · exact .inl (.inl advanced)
  have agrees := reachable_views (run.reaches position) loop
  have stopped : ((run.state position).loopView loop).running = false := by
    apply agrees.stopping
    rw [loopView_phase, joins_service joins]
    rcases joins_shut joins with here | here <;> rw [here] <;> rfl
  rw [← phase] at joins
  rcases step_ending agrees stopped (by rw [loopView_live, live]) (run.next position) with
    gone | ⟨lives, less | ⟨same, other⟩⟩
  · rw [loopView_live] at gone
    exact .inl (.inr ⟨still, free_of_joins joins gone⟩)
  · rw [loopView_live] at lives
    exact .inr (.inl ⟨_, less, still, joins, lives, rfl⟩)
  · rw [loopView_live] at lives
    exact .inr (.inr ⟨⟨still, joins, lives, same⟩, other⟩)

theorem joined_ends (loops : ∀ loop, loop.service = service → run.StronglyFair (ofLoop loop))
    (nodes : ∀ id, run.WeaklyFair (nodeThread id)) {running : Bool} {steps : Nat} :
    LeadsTo (Calling run service running steps) fun position =>
      Advanced run service running steps position ∨
        Calling run service running steps position ∧ Free run service position := by
  intro position calling
  cases joins : service.joins ((run.state position).servicePhase service) with
  | none => exact ⟨position, le_refl _, .inr ⟨calling, fun loop named => by simp [joins] at named⟩⟩
  | some loop =>
      cases live : (run.state position).loopLive loop with
      | false => exact ⟨position, le_refl _, .inr ⟨calling, free_of_joins joins live⟩⟩
      | true =>
          refine (loops loop (joins_service joins)).leadsTo_of_stages ending_descends ?_ position
            ⟨_, calling, joins, live, rfl⟩
          rintro rank middle ⟨_, joined, lives, _⟩
          have shut : ((run.state middle).loopView loop).queueRunning = false := by
            apply (reachable_views (run.reaches middle) loop).shut
            rw [loopView_phase, joins_service joins]
            exact (joins_shut joined).imp_right .inl
          obtain ⟨last, after, able⟩ := loop_again nodes lives shut
          exact ⟨last, after, .inr able⟩

theorem freed_advances (menu : run.WeaklyFair (ofMenu service)) {running : Bool} {steps : Nat} :
    LeadsTo (fun position => Calling run service running steps position ∧
      Free run service position) (Advanced run service running steps) := by
  refine menu.leadsTo ?_ ?_ ?_
  · rintro position ⟨calling, free⟩
    rcases calling_next calling with advanced | ⟨still, phase, other⟩
    · exact .inl advanced
    · refine .inr ⟨still, fun loop named => ?_⟩
      rw [phase] at named
      have waits : (run.event position).action loop ≠ .proceed := fun proceeds =>
        other (joins_service named ▸ action_eq_proceed proceeds)
      rw [← loopView_live]
      exact LoopView.step_gone (by rw [loopView_live, free loop named]) waits
        (step_loopView loop (run.next position))
  · exact fun position here => .inr (menu_enabled here.1.1 here.2)
  · rintro position ⟨calling, _⟩ own
    exact (calling_next calling).resolve_right fun still => still.2.2 own

theorem call_returns (menu : run.WeaklyFair (ofMenu service))
    (loops : ∀ loop, loop.service = service → run.StronglyFair (ofLoop loop))
    (nodes : ∀ id, run.WeaklyFair (nodeThread id)) (position : Nat) :
    ∃ last, position ≤ last ∧
      Returned run service ((run.state position).serviceRunning service) last := by
  by_cases idle : (run.state position).servicePhase service = .idle
  · exact ⟨position, le_refl _, idle, rfl⟩
  · refine LeadsTo.of_stages (fun _ => (joined_ends loops nodes).split (freed_advances menu))
      position ⟨_, idle, rfl, rfl⟩

/-- Every call of `stop` returns, and then both loops of the module have ended. -/
theorem stop_returns (menu : run.WeaklyFair (ofMenu service))
    (loops : ∀ loop, loop.service = service → run.StronglyFair (ofLoop loop))
    (nodes : ∀ id, run.WeaklyFair (nodeThread id)) {position : Nat}
    (stops : run.event position = service.stop) :
    ∃ last, position < last ∧ (run.state last).servicePhase service = .idle ∧
      (run.state last).serviceRunning service = false ∧
      ∀ loop : LoopThread, loop.service = service → (run.state last).loopLive loop = false := by
  obtain ⟨last, after, idle, flag⟩ := call_returns menu loops nodes (position + 1)
  have next := run.next position
  rw [stops] at next
  rw [stop_begins next] at flag
  refine ⟨last, by omega, idle, flag, ?_⟩
  rintro loop rfl
  rw [← loopView_live]
  apply (reachable_views (run.reaches last) loop).away
  rw [loopView_phase, loopView_running]
  exact .inr ⟨idle, flag⟩

theorem starting_free {steps position : Nat} (calling : Calling run service true steps position) :
    Free run service position := by
  intro loop joins
  have stopped : ((run.state position).loopView loop).running = false := by
    apply (reachable_views (run.reaches position) loop).stopping
    rw [loopView_phase, joins_service joins]
    rcases joins_shut joins with here | here <;> rw [here] <;> rfl
  rw [loopView_running, joins_service joins, calling.2.1] at stopped
  exact absurd stopped (by simp)

/-- Every call of `start` returns, and then both loops of the module are there, with their queues
open. -/
theorem start_returns (menu : run.WeaklyFair (ofMenu service)) {position : Nat}
    (starts : run.event position = service.start) :
    ∃ last, position < last ∧ (run.state last).servicePhase service = .idle ∧
      (run.state last).serviceRunning service = true ∧
      ∀ loop : LoopThread, loop.service = service → (run.state last).loopLive loop = true ∧
        ((run.state last).loopView loop).queueRunning = true := by
  have next := run.next position
  rw [starts] at next
  have flag := start_begins next
  obtain ⟨last, after, idle, runs⟩ :
      ∃ last, position + 1 ≤ last ∧ Returned run service true last := by
    by_cases idle : (run.state (position + 1)).servicePhase service = .idle
    · exact ⟨position + 1, le_refl _, idle, flag⟩
    · refine LeadsTo.of_stages (fun _ => LeadsTo.split (.of_imp fun _ calling =>
        .inr ⟨calling, starting_free calling⟩) (freed_advances menu)) (position + 1)
        ⟨_, idle, flag, rfl⟩
  refine ⟨last, by omega, idle, runs, ?_⟩
  rintro loop rfl
  have agrees := reachable_views (run.reaches last) loop
  rw [← loopView_live]
  constructor
  · apply agrees.served
    · rw [loopView_running, runs]
    · rw [loopView_phase, idle]
      rfl
  · apply agrees.opened
    rw [loopView_phase, loopView_running]
    exact .inr ⟨idle, runs⟩

end

theorem nodeThread_disabled
    (ended : ∀ node ∈ system.monitor.registry.vecNodeBase, node.threadLive = false) (id : Nat) :
    ¬Enabled step (nodeThread id) system := by
  rintro ⟨_, after, ⟨index, now, timedOut, node, rfl, found, _⟩, taken⟩
  obtain ⟨monitor, stepped, _⟩ := Option.map_eq_some_iff.mp taken
  obtain ⟨other, moved, pushed, there, step, _⟩ := Monitor.nodeStep_cases stepped
  obtain rfl := Option.some.inj (found.symm.trans there)
  have ended := ended node (List.mem_of_getElem? found)
  cases position : node.pc <;> simp_all [NodeBase.threadLive, NodeBase.threadStep]

theorem menu_disabled {service : Service} (idle : system.servicePhase service = .idle) :
    ¬Enabled step (ofMenu service) system := by
  rintro ⟨event, after, own, taken⟩
  cases service with
  | nodeManagament =>
      cases step_move taken with
      | proceedNodeManagament _ proceeded => exact (Monitor.proceed_cases proceeded).1 idle
      | _ => simp [ofMenu, SystemEvent.proceeds] at own
  | ioHandler =>
      have idle : system.ioPhase = .idle := idle
      cases step_move taken with
      | startReceiver phase => simp [phase] at idle
      | proceedIOHandler busy => exact busy idle
      | _ => simp [ofMenu, SystemEvent.proceeds] at own

theorem loop_disabled {loop : LoopThread} (gone : system.loopLive loop = false)
    (pushed : system.outbox = []) : ¬Enabled step (ofLoop loop) system := by
  rintro ⟨event, after, own, taken⟩
  rw [← loopView_live] at gone
  rcases action_of_loop own with acts | acts
  · simp [LoopView.live_of_own acts (step_loopView loop taken)] at gone
  · rcases step_pushesLeft loop taken with finished | ⟨_, busy⟩ | ⟨fewer, _⟩
    · simp [acts] at finished
    · exact busy own acts
    · cases loop <;> simp [pushesLeft, pushed] at fewer

structure Stopped (system : System) : Prop where
  emptied : system.monitor.registry.vecNodeBase = []
  flag : system.monitor.running = false
  idle : system.servicePhase .nodeManagament = .idle
  others : system.ioPhase = .idle
  pushed : system.outbox = []
  gone : system.loopLive .handleSendData = false ∧ system.loopLive .handleReceivedData = false

instance (system : System) : Decidable system.Stopped :=
  decidable_of_iff (system.monitor.registry.vecNodeBase = [] ∧ system.monitor.running = false ∧
    system.servicePhase .nodeManagament = .idle ∧ system.ioPhase = .idle ∧ system.outbox = [] ∧
    system.loopLive .handleSendData = false ∧ system.loopLive .handleReceivedData = false)
    ⟨fun ⟨a, b, c, d, e, f⟩ => ⟨a, b, c, d, e, f⟩, fun ⟨a, b, c, d, e, f⟩ => ⟨a, b, c, d, e, f⟩⟩

theorem Stopped.rests (stopped : system.Stopped) :
    system.step .stopNodeManagament = some system := by
  have again : system.monitor.step .stop = some system.monitor := by
    simp [Monitor.step, stopped.flag, show system.monitor.phase = .idle from stopped.idle]
  rw [step, if_pos stopped.others, monitorStep, again]
  rfl

theorem Stopped.ofLoop (stopped : system.Stopped) {loop : LoopThread}
    (service : loop.service = .nodeManagament) : ¬Enabled step (ofLoop loop) system := by
  cases loop with
  | handleSendData => exact loop_disabled stopped.gone.1 stopped.pushed
  | handleReceivedData => exact loop_disabled stopped.gone.2 stopped.pushed
  | _ => simp [LoopThread.service] at service

end System

def joiningEvents : List SystemEvent :=
  registeredEvents ++ List.replicate 30 (.nodeStep 0 [] true) ++
    (List.replicate 8 [.popMessage, .checkMessage, .handleMessage, .pushPacket]).flatten.take 30

def stopEvents : List SystemEvent :=
  [.proceedNodeManagament, .proceedNodeManagament, .popReceived, .checkReceived,
    .proceedNodeManagament] ++ List.replicate 3 (.nodeStep 0 [] true) ++
  [.handleMessage, .popMessage, .checkMessage, .proceedNodeManagament]

def stoppedEvents : List SystemEvent := joiningEvents ++ .stopNodeManagament :: stopEvents

theorem stoppedEvents_stop :
    ∃ final, runFrom System.step .initial stoppedEvents = some final ∧ final.Stopped := by
  have ends : (runFrom System.step .initial stoppedEvents).any
      (fun system => decide system.Stopped) = true := by
    decide +kernel
  obtain ⟨final, replay, stopped⟩ := (Option.any_eq_true _ _).mp ends
  exact ⟨final, replay, of_decide_eq_true stopped⟩

theorem stop_returns_joining :
    ∃ (run : Execution System.step .initial) (position : Nat),
      (run.state position).monitor.registry.joinBlocked
        (run.state position).monitor.nodeHandleThread.item.message = true ∧
      (run.WeaklyFair (System.ofMenu .nodeManagament) ∧
        (∀ loop : LoopThread, loop.service = .nodeManagament →
          run.StronglyFair (System.ofLoop loop)) ∧
        (∀ id, run.WeaklyFair (System.nodeThread id)) ∧
        run.event position = Service.stop .nodeManagament) ∧
      ∃ last, position < last ∧ (run.state last).servicePhase .nodeManagament = .idle ∧
        (run.state last).serviceRunning .nodeManagament = false ∧
        ∀ loop : LoopThread, loop.service = .nodeManagament →
          (run.state last).loopLive loop = false := by
  have held : (runFrom System.step .initial joiningEvents).any (fun system =>
      system.monitor.registry.joinBlocked system.monitor.nodeHandleThread.item.message) = true := by
    decide +kernel
  obtain ⟨final, replay, stopped⟩ := stoppedEvents_stop
  obtain ⟨middle, reached, joins⟩ := (Option.any_eq_true _ _).mp held
  have fair {component : System → SystemEvent → Prop}
      (disabled : ¬Enabled System.step component final) :=
    Execution.ofIdle_stronglyFair replay stopped.rests disabled
  have menu := (fair (System.menu_disabled stopped.idle)).weaklyFair
  have nodes (id : Nat) :=
    (fair (System.nodeThread_disabled (by simp [stopped.emptied]) id)).weaklyFair
  have loops (loop : LoopThread) (service : loop.service = .nodeManagament) :=
    fair (stopped.ofLoop service)
  have event := Execution.ofIdle_event_at replay stopped.rests
    (show stoppedEvents = _ ++ .stopNodeManagament :: _ from rfl)
  have here := Execution.ofIdle_state_at replay stopped.rests rfl reached
  exact ⟨_, _, here ▸ joins, ⟨menu, loops, nodes, event⟩,
    System.stop_returns menu loops nodes event⟩

def restartedEvents : List SystemEvent := stoppedEvents ++ startNodeManagamentEvents

theorem start_returns_restart :
    ∃ (run : Execution System.step .initial) (position : Nat),
      (run.event joiningEvents.length = Service.stop .nodeManagament ∧
        joiningEvents.length < position) ∧
      (run.WeaklyFair (System.ofMenu .nodeManagament) ∧
        run.event position = Service.start .nodeManagament) ∧
      ∃ last, position < last ∧ (run.state last).servicePhase .nodeManagament = .idle ∧
        (run.state last).serviceRunning .nodeManagament = true ∧
        ∀ loop : LoopThread, loop.service = .nodeManagament →
          (run.state last).loopLive loop = true ∧
            ((run.state last).loopView loop).queueRunning = true := by
  have ends : (runFrom System.step .initial restartedEvents).any (fun system => decide
      ((system.monitor.running = true ∧ system.monitor.phase = .idle) ∧ system.ioPhase = .idle)) =
        true := by
    decide +kernel
  obtain ⟨final, replay, last⟩ := (Option.any_eq_true _ _).mp ends
  obtain ⟨operating, others⟩ := of_decide_eq_true last
  have rests := System.rests_of_operating operating others
  have idle : ¬Enabled System.step (System.ofMenu .nodeManagament) final :=
    System.menu_disabled operating.2
  have menu := (Execution.ofIdle_stronglyFair replay rests idle).weaklyFair
  have event := Execution.ofIdle_event_at replay rests
    (show restartedEvents = stoppedEvents ++ .startNodeManagament :: _ from rfl)
  have earlier := Execution.ofIdle_event_at replay rests
    (show restartedEvents = joiningEvents ++ .stopNodeManagament ::
      (stopEvents ++ startNodeManagamentEvents) by
        simp only [restartedEvents, stoppedEvents, List.append_assoc, List.cons_append])
  have before : joiningEvents.length < stoppedEvents.length := by simp [stoppedEvents]
  exact ⟨_, _, ⟨earlier, before⟩, ⟨menu, event⟩, System.start_returns menu event⟩

end NodeManagement
