import NodeManagement.Program
import NodeManagement.Shutdown

/-!
The command `q` brings the program to SHUTDOWN.  A run of the program is seen as a run of the two
modules, where each of their calls returns.
-/

namespace NodeManagement

open Transition

namespace System

variable {system after : System}

def OneCall (system : System) : Prop := system.monitor.phase = .idle ∨ system.ioPhase = .idle

theorem step_oneCall {event : SystemEvent} (one : system.OneCall)
    (taken : system.step event = some after) : after.OneCall := by
  cases call : event.isCall with
  | false =>
      exact one.imp (Program.flags_of_inner call taken .nodeManagament).2
        (Program.flags_of_inner call taken .ioHandler).2
  | true =>
      cases event with
      | startNodeManagament | stopNodeManagament =>
          obtain ⟨idle, moved⟩ := Option.ite_none_right_eq_some.mp taken
          obtain ⟨monitor, _, rfl⟩ := Option.map_eq_some_iff.mp moved
          exact .inr idle
      | startIOHandler | stopIOHandler =>
          obtain ⟨idle, moved⟩ := Option.ite_none_right_eq_some.mp taken
          simp only [Bool.and_eq_true, decide_eq_true_eq] at idle
          split at moved <;> exact Option.some.inj moved ▸ .inl idle.1
      | _ => simp [SystemEvent.isCall] at call

theorem reachable_oneCall (reached : Reachable system) : system.OneCall :=
  Reaches.invariant OneCall reached (.inl rfl) fun _ _ _ one _ taken => step_oneCall one taken

theorem call_enabled {event : SystemEvent} (call : event.isCall = true)
    (monitor : system.monitor.phase = .idle) (ioHandler : system.ioPhase = .idle) :
    ∃ after, system.step event = some after := by
  cases event with
  | startNodeManagament | stopNodeManagament =>
      cases running : system.monitor.running <;>
        simp [step, monitorStep, Monitor.step, monitor, ioHandler, running]
  | startIOHandler | stopIOHandler =>
      cases running : system.ioRunning <;> simp [step, monitor, ioHandler, running]
  | _ => simp [SystemEvent.isCall] at call

theorem idle_of_call {event : SystemEvent} (call : event.isCall = true)
    (taken : system.step event = some after) :
    system.monitor.phase = .idle ∧ system.ioPhase = .idle := by
  cases event with
  | startNodeManagament =>
      obtain ⟨idle, moved⟩ := Option.ite_none_right_eq_some.mp taken
      obtain ⟨monitor, stepped, _⟩ := Option.map_eq_some_iff.mp moved
      cases Monitor.step_move stepped with
      | startAgain free | start free => exact ⟨free, idle⟩
  | stopNodeManagament =>
      obtain ⟨idle, moved⟩ := Option.ite_none_right_eq_some.mp taken
      obtain ⟨monitor, stepped, _⟩ := Option.map_eq_some_iff.mp moved
      cases Monitor.step_move stepped with
      | stopAgain free | stop free => exact ⟨free, idle⟩
  | startIOHandler | stopIOHandler =>
      obtain ⟨idle, _⟩ := Option.ite_none_right_eq_some.mp taken
      simpa using idle
  | _ => simp [SystemEvent.isCall] at call

theorem busy_of_proceeds {event : SystemEvent} {service : Service}
    (own : event.proceeds = some service) (taken : system.step event = some after) :
    system.servicePhase service ≠ .idle :=
  fun idle => menu_disabled idle ⟨event, after, own, taken⟩

end System

def MainPc.left : MainPc → Nat
  | stopIOHandler => 3
  | stopNodeManagament => 2
  | closeUDPSock => 1
  | _ => 0

namespace Program

variable {program after : Program}

def rest (program : Program) : SystemEvent :=
  if program.system.ioRunning then .startIOHandler else .stopIOHandler

theorem rest_step (returned : program.returned = true) :
    program.system.step program.rest = some program.system := by
  simp only [Program.returned, decide_eq_true_eq] at returned
  cases running : program.system.ioRunning <;>
    simp [rest, running, System.step, returned]

def systemEvent (program : Program) : ProgramEvent → SystemEvent
  | .initUDPSock _ => program.rest
  | .execute input => (menuCall input).getD program.rest
  | .next => ((program.pc.nextCall).map Prod.fst).getD program.rest
  | .thread event => event

theorem step_systemEvent {event : ProgramEvent} (inv : program.Invariant)
    (taken : program.step event = some after) :
    program.system.step (program.systemEvent event) = some after.system := by
  cases step_move taken with
  | initUDPSock _ here =>
      refine rest_step ?_
      rw [inv.fresh here]
      rfl
  | command _ call stepped => simpa [systemEvent, call] using stepped
  | quit _ returned => exact rest_step returned
  | ignore noCall _ _ returned => simpa [systemEvent, noCall] using rest_step returned
  | next order stepped => simpa [systemEvent, order] using stepped
  | closeUDPSock here returned =>
      simpa [systemEvent, here, MainPc.nextCall] using rest_step returned
  | receive _ stepped | startReceiver stepped | thread _ _ stepped => exact stepped

/-- The main thread as a component of the program.  It may wait for a line for ever. -/
def ofMain (_ : Program) : ProgramEvent → Prop
  | .initUDPSock _ | .next => True
  | .execute _ => False
  | .thread event => event.proceeds.isSome = true

section

variable (run : Execution step initial)

theorem run_invariant (position : Nat) : (run.state position).Invariant :=
  reachable_invariant (run.reaches position)

def systemRun : Execution System.step .initial :=
  run.project system systemEvent fun position =>
    step_systemEvent (run_invariant run position) (run.next position)

end

variable {run : Execution step initial}

theorem returned_iff :
    program.returned = true ↔ ∀ service, program.system.servicePhase service = .idle := by
  simp only [Program.returned, decide_eq_true_eq]
  constructor
  · rintro ⟨monitor, ioHandler⟩ service
    cases service
    · exact monitor
    · exact ioHandler
  · exact fun idle => ⟨idle .nodeManagament, idle .ioHandler⟩

theorem main_step {event : ProgramEvent} (inv : program.Invariant) (own : ofMain program event)
    (taken : program.step event = some after) :
    program.returned = true ∨
      ∃ inner service, event = .thread inner ∧ inner.proceeds = some service ∧
        program.system.step inner = some after.system := by
  cases step_move taken with
  | initUDPSock _ here =>
      rw [inv.fresh here]
      exact .inl rfl
  | command | quit | ignore => exact absurd own id
  | next order stepped =>
      have idle := System.idle_of_call (isCall_of_nextCall order) stepped
      exact .inl (by simpa [Program.returned] using idle)
  | closeUDPSock _ returned => exact .inl returned
  | receive _ stepped => simp [ofMain, SystemEvent.proceeds] at own
  | startReceiver stepped => exact .inr ⟨.startReceiver, .ioHandler, rfl, rfl, stepped⟩
  | @thread inner _ _ _ stepped =>
      obtain ⟨service, proceeds⟩ := Option.isSome_iff_exists.mp own
      exact .inr ⟨inner, service, rfl, proceeds, stepped⟩

theorem main_enabled {service : Service}
    (enabled : Enabled System.step (System.ofMenu service) program.system) :
    Enabled step ofMain program := by
  obtain ⟨event, after, own, taken⟩ := enabled
  have proceeds : event.proceeds = some service := own
  refine .of_isSome (.thread event) (by simp [ofMain, proceeds]) ?_
  cases event with
  | proceedNodeManagament | startReceiver | proceedIOHandler =>
      simp [step, thread, SystemEvent.isCall, taken]
  | _ => simp [SystemEvent.proceeds] at proceeds

theorem main_disabled (inv : program.Invariant) (here : program.pc = .shutdown) :
    ¬Enabled step ofMain program := by
  rintro ⟨event, after, own, taken⟩
  have idle := returned_iff.mp (inv.idle here)
  cases step_move taken with
  | initUDPSock _ begins => simp [here] at begins
  | command | quit | ignore => exact own
  | next order => simp [here, MainPc.nextCall] at order
  | closeUDPSock closes => simp [here] at closes
  | receive => simp [ofMain, SystemEvent.proceeds] at own
  | startReceiver stepped => exact System.busy_of_proceeds rfl stepped (idle .ioHandler)
  | thread _ _ stepped =>
      obtain ⟨service, proceeds⟩ := Option.isSome_iff_exists.mp own
      exact System.busy_of_proceeds proceeds stepped (idle service)

theorem menu_fair (main : run.WeaklyFair ofMain) (service : Service) :
    (systemRun run).WeaklyFair (System.ofMenu service) := by
  intro position enabled
  obtain ⟨later, after, own⟩ := main position fun later after => main_enabled (enabled later after)
  refine ⟨later, after, ?_⟩
  obtain ⟨event, moved, menu, taken⟩ := enabled later after
  have busy := System.busy_of_proceeds menu taken
  rcases main_step (run_invariant run later) own (run.next later) with
    returned | ⟨inner, other, named, proceeds, stepped⟩
  · exact absurd (returned_iff.mp returned service) busy
  · have same : other = service := by
      have busyToo := System.busy_of_proceeds proceeds stepped
      have one := System.reachable_oneCall (reachable_system (run.reaches later))
      cases service <;> cases other <;> first | rfl | skip
      · exact (one.elim busy busyToo).elim
      · exact (one.elim busyToo busy).elim
    subst same
    show (systemEvent (run.state later) (run.event later)).proceeds = some other
    rw [named]
    exact proceeds

theorem step_finalizing {event : ProgramEvent} (here : program.pc.state = .finally_)
    (taken : program.step event = some after) :
    (after.pc.state = .shutdown ∨
        after.pc.state = .finally_ ∧ after.pc.left < program.pc.left) ∨
      after.pc = program.pc ∧ ∃ inner, event = .thread inner ∧ inner.isCall = false ∧
        program.system.step inner = some after.system := by
  cases step_move taken with
  | initUDPSock _ begins => simp [begins, MainPc.state] at here
  | command executes | quit executes | ignore _ _ executes =>
      simp [executes, MainPc.state] at here
  | next order =>
      refine .inl (.inr ?_)
      cases position : program.pc <;> simp_all [MainPc.nextCall, MainPc.state] <;>
        obtain ⟨_, rfl⟩ := order <;> simp [MainPc.left]
  | closeUDPSock => exact .inl (.inl rfl)
  | receive _ stepped => exact .inr ⟨rfl, _, rfl, rfl, stepped⟩
  | startReceiver stepped => exact .inr ⟨rfl, _, rfl, rfl, stepped⟩
  | thread inner _ stepped => exact .inr ⟨rfl, _, rfl, inner, stepped⟩

def Finalizing (run : Execution step initial) (steps position : Nat) : Prop :=
  (run.state position).pc.state = .finally_ ∧ (run.state position).pc.left = steps

def Executed (run : Execution step initial) (steps position : Nat) : Prop :=
  (run.state position).pc.state = .shutdown ∨
    ∃ less < steps, Finalizing run less position

theorem finalizing_next {steps position : Nat} (finalizing : Finalizing run steps position) :
    Executed run steps (position + 1) ∨
      Finalizing run steps (position + 1) ∧ ∃ inner, run.event position = .thread inner ∧
        inner.isCall = false ∧
        (run.state position).system.step inner = some (run.state (position + 1)).system := by
  obtain ⟨here, rfl⟩ := finalizing
  rcases step_finalizing here (run.next position) with (ends | ⟨still, less⟩) | ⟨same, inner⟩
  · exact .inl (.inl ends)
  · exact .inl (.inr ⟨_, less, still, rfl⟩)
  · exact .inr ⟨⟨by rw [same, here], by rw [same]⟩, inner⟩

theorem finalizing_returns (main : run.WeaklyFair ofMain)
    (loops : ∀ loop, (systemRun run).StronglyFair (System.ofLoop loop))
    (nodes : ∀ id, (systemRun run).WeaklyFair (System.nodeThread id)) {steps : Nat} :
    LeadsTo (Finalizing run steps) fun position => Executed run steps position ∨
      Finalizing run steps position ∧ (run.state position).returned = true := by
  intro position finalizing
  by_contra! never
  have stays : ∀ later, position ≤ later → Finalizing run steps later :=
    Execution.always_from finalizing fun later after still =>
      ((finalizing_next still).resolve_left (never (later + 1) (by omega)).1).1
  have idle_stays {service : Service} {first : Nat} (after : position ≤ first)
      (idle : (run.state first).system.servicePhase service = .idle) :
      ∀ later, first ≤ later → (run.state later).system.servicePhase service = .idle :=
    Execution.always_from idle fun later reaches idle => by
      obtain ⟨_, _, _, inner, stepped⟩ := (finalizing_next (stays later (by omega))).resolve_left
        (never (later + 1) (by omega)).1
      exact (flags_of_inner inner stepped service).2 idle
  obtain ⟨first, after, monitor, _⟩ := System.call_returns (menu_fair main .nodeManagament)
    (fun loop _ => loops loop) nodes position
  obtain ⟨last, beyond, ioHandler, _⟩ := System.call_returns (menu_fair main .ioHandler)
    (fun loop _ => loops loop) nodes first
  refine (never last (by omega)).2 (stays last (by omega)) (returned_iff.mpr fun service => ?_)
  cases service with
  | nodeManagament => exact idle_stays after monitor last beyond
  | ioHandler => exact ioHandler

theorem statement_enabled (here : program.pc.state = .finally_)
    (returned : program.returned = true) : Enabled step ofMain program := by
  refine .of_isSome .next trivial ?_
  have idle := returned
  simp only [Program.returned, decide_eq_true_eq] at idle
  have calls {event : SystemEvent} {pc : MainPc} (call : event.isCall = true)
      (order : program.pc.nextCall = some (event, pc)) :
      (program.step .next).isSome = true := by
    obtain ⟨system, stepped⟩ := System.call_enabled call idle.1 idle.2
    simp [step, order, Program.call, stepped]
  cases position : program.pc with
  | stopIOHandler => exact calls rfl (by rw [position]; rfl)
  | stopNodeManagament => exact calls rfl (by rw [position]; rfl)
  | closeUDPSock => simp [step, position, MainPc.nextCall, returned]
  | _ => simp [position, MainPc.state] at here

theorem executes (main : run.WeaklyFair ofMain) {steps : Nat} :
    LeadsTo (fun position => Finalizing run steps position ∧
      (run.state position).returned = true) (Executed run steps) := by
  refine main.leadsTo ?_ ?_ ?_
  · rintro position ⟨finalizing, returned⟩
    rcases finalizing_next finalizing with executed | ⟨still, _, _, inner, stepped⟩
    · exact .inl executed
    · exact .inr ⟨still, returned_iff.mpr fun service =>
        (flags_of_inner inner stepped service).2 (returned_iff.mp returned service)⟩
  · rintro position ⟨finalizing, returned⟩
    exact .inr (statement_enabled finalizing.1 returned)
  · rintro position ⟨finalizing, returned⟩ own
    rcases finalizing_next finalizing with executed | ⟨_, inner, named, _, stepped⟩
    · exact executed
    · rw [named] at own
      obtain ⟨service, proceeds⟩ := Option.isSome_iff_exists.mp own
      exact absurd (returned_iff.mp returned service)
        (System.busy_of_proceeds proceeds stepped)

/-- In every fair run the program shuts down after the command `q`. -/
theorem quit_shuts_down (main : run.WeaklyFair ofMain)
    (loops : ∀ loop, (systemRun run).StronglyFair (System.ofLoop loop))
    (nodes : ∀ id, (systemRun run).WeaklyFair (System.nodeThread id)) {position : Nat}
    (quits : run.event position = .execute "q") :
    ∃ last, position < last ∧ (run.state last).pc.state = .shutdown := by
  have next := run.next position
  rw [quits] at next
  have begins : (run.state (position + 1)).pc = .stopIOHandler := by
    generalize run.state (position + 1) = after at next
    cases step_move next with
    | command _ call => simp [menuCall] at call
    | quit => rfl
    | ignore _ other => exact absurd rfl other
  obtain ⟨last, after, ends⟩ := LeadsTo.of_stages
    (fun _ => (finalizing_returns main loops nodes).split (executes main)) (position + 1)
    ⟨_, by rw [begins]; rfl, rfl⟩
  exact ⟨last, by omega, ends⟩

end Program

def receiverFails : ProgramEvent := .thread (.receive (.socketError 10038 .zero))

def busyThreads : List SystemEvent :=
  takeInEvents registerDatagram ++ List.replicate 4 (.nodeStep 0 [] false) ++
    takeInEvents clientPong ++ List.replicate 5 (.nodeStep 0 [] false) ++ takeInEvents clientPong ++
    [.nodeStep 0 [] false, .receive clientPong, .popBuffer, .checkBuffer, .pushMessageReceived,
      .popReceived, .checkReceived, .receive clientPong]

def busyEvents : List ProgramEvent := initializeEvents .bound ++ busyThreads.map .thread

def quitEvents : List ProgramEvent :=
  busyEvents ++ .execute "q" :: .next ::
    ([SystemEvent.proceedIOHandler, .proceedIOHandler, .popBuffer, .checkBuffer, .proceedIOHandler,
      .popSend, .checkSend, .proceedIOHandler].map .thread ++ .next ::
    ([SystemEvent.proceedNodeManagament, .proceedNodeManagament, .nodeStep 0 [] false,
      .handleReceived,
      .popReceived, .checkReceived, .proceedNodeManagament, .popMessage, .checkMessage,
      .proceedNodeManagament].map .thread ++ .next ::
    (List.replicate 33 (SystemEvent.nodeStep 0 [] true)).map .thread))

theorem quit_shuts_down_asleep :
    ∃ (run : Execution Program.step .initial) (position : Nat),
      ((∃ node ∈ (run.state position).system.monitor.registry.vecNodeBase,
          node.ownsMutex = true) ∧
        (run.state position).system.monitor.messageNodeQueue.queue.length = 2 ∧
        (run.state position).system.bufferUDPRecv.queue.queue.length = 1 ∧
        (run.state position).system.receivedIOQueue.thread.pc = .working) ∧
      (run.WeaklyFair Program.ofMain ∧
        (∀ loop, (Program.systemRun run).StronglyFair (System.ofLoop loop)) ∧
        (∀ id, (Program.systemRun run).WeaklyFair (System.nodeThread id)) ∧
        run.event position = .execute "q") ∧
      ∃ last, position < last ∧ (run.state last).pc.state = .shutdown := by
  have busy : (runFrom Program.step .initial busyEvents).any (fun program => decide (
      program.system.monitor.registry.vecNodeBase.map NodeBase.ownsMutex = [true] ∧
        program.system.monitor.messageNodeQueue.queue.length = 2 ∧
        program.system.bufferUDPRecv.queue.queue.length = 1 ∧
        program.system.receivedIOQueue.thread.pc = .working)) = true := by
    decide +kernel
  have ends : (runFrom Program.step .initial quitEvents).any
      (fun program => decide (program.pc = .shutdown ∧ program.system.outbox = [] ∧
        (∀ node ∈ program.system.monitor.registry.vecNodeBase, node.threadLive = false) ∧
        program.step receiverFails = some program)) = true := by
    decide +kernel
  obtain ⟨middle, before, sleeping⟩ := (Option.any_eq_true _ _).mp busy
  obtain ⟨entries, messages, buffered, working⟩ := of_decide_eq_true sleeping
  obtain ⟨node, entry, asleep⟩ := List.map_eq_singleton_iff.mp entries
  obtain ⟨final, replay, here⟩ := (Option.any_eq_true _ _).mp ends
  obtain ⟨here, pushed, ended, rests⟩ := of_decide_eq_true here
  have reached : Program.Reachable final := .of_runFrom replay
  have gone := Program.loops_gone reached here
  have split : quitEvents = busyEvents ++ .execute "q" :: _ := rfl
  have event := Execution.ofIdle_event_at replay rests split
  have state := Execution.ofIdle_state_at replay rests split before
  have main : Execution.WeaklyFair (Execution.ofIdle _ _ replay rests) Program.ofMain := by
    refine (Execution.ofIdle_stronglyFair replay rests ?_).weaklyFair
    exact Program.main_disabled (Program.reachable_invariant reached) here
  have settled {later : Nat} (beyond : quitEvents.length ≤ later) :
      (Program.systemRun (Execution.ofIdle _ _ replay rests)).state later = final.system :=
    congrArg Program.system (Execution.ofIdle_state replay rests beyond)
  have loops (loop : LoopThread) : Execution.StronglyFair
      (Program.systemRun (Execution.ofIdle _ _ replay rests)) (System.ofLoop loop) :=
    .of_disabled fun later beyond =>
      (settled beyond).symm ▸ System.loop_disabled (gone loop).2.2 pushed
  have nodes (id : Nat) : Execution.StronglyFair
      (Program.systemRun (Execution.ofIdle _ _ replay rests)) (System.nodeThread id) :=
    .of_disabled fun later beyond =>
      (settled beyond).symm ▸ System.nodeThread_disabled ended id
  have sleeper : node ∈ ((Execution.ofIdle _ _ replay rests).state
      busyEvents.length).system.monitor.registry.vecNodeBase := by
    rw [state, entry]
    exact List.mem_singleton_self _
  exact ⟨_, _, ⟨⟨node, sleeper, asleep⟩, state ▸ messages, state ▸ buffered, state ▸ working⟩,
    ⟨main, loops, fun id => (nodes id).weaklyFair, event⟩,
    Program.quit_shuts_down main loops (fun id => (nodes id).weaklyFair) event⟩

end NodeManagement
