import NodeManagement.LoopView
import NodeManagement.SentDatagrams

/-!
`AppCtrl.cpp`: the main thread with its states, around the two modules, and the life of the UDP
socket from `initUDPSock` to `closeUDPSock`.
-/

namespace NodeManagement

open Transition

/-- `none` is `INVALID_SOCKET`. -/
structure SharedContext where
  sock : Option Nat
deriving DecidableEq

def SharedContext.create : SharedContext := ⟨none⟩

/-- What the process has asked of Winsock.  A socket is named by its place in the order of
creation. -/
structure Winsock where
  startups : Nat
  cleanups : Nat
  sockets : List Nat
  closed : List Nat
deriving DecidableEq

namespace Winsock

def initial : Winsock := ⟨0, 0, [], []⟩

def startup (winsock : Winsock) : Winsock := { winsock with startups := winsock.startups + 1 }

def cleanup (winsock : Winsock) : Winsock := { winsock with cleanups := winsock.cleanups + 1 }

def socket (winsock : Winsock) : Nat × Winsock :=
  (winsock.sockets.length,
    { winsock with sockets := winsock.sockets ++ [winsock.sockets.length] })

def closesocket (winsock : Winsock) (sock : Nat) : Winsock :=
  { winsock with closed := winsock.closed ++ [sock] }

def isOpen (winsock : Winsock) (sock : Nat) : Bool :=
  decide (sock ∈ winsock.sockets ∧ sock ∉ winsock.closed)

structure Released (winsock : Winsock) : Prop where
  startups : winsock.cleanups = winsock.startups
  sockets : winsock.closed = winsock.sockets

structure Holds (winsock : Winsock) (sock : Nat) : Prop where
  startups : winsock.startups = winsock.cleanups + 1
  sockets : winsock.sockets = [sock]
  closed : winsock.closed = []

theorem Holds.isOpen {winsock : Winsock} {sock : Nat} (holds : winsock.Holds sock) :
    winsock.isOpen sock = true := by
  simp [Winsock.isOpen, holds.sockets, holds.closed]

theorem initial_released : initial.Released := ⟨rfl, rfl⟩

end Winsock

inductive SocketOutcome
  | startupFails
  | socketFails
  | bindFails
  | bound

def initUDPSock (winsock : Winsock) (pCtx : SharedContext) :
    SocketOutcome → Int × Winsock × SharedContext
  | .startupFails => (-1, winsock, pCtx)
  | .socketFails => (-1, winsock.startup.cleanup, ⟨none⟩)
  | .bindFails =>
      let (sock, created) := winsock.startup.socket
      (-1, (created.closesocket sock).cleanup, ⟨some sock⟩)
  | .bound =>
      let (sock, created) := winsock.startup.socket
      (0, created, ⟨some sock⟩)

def closeUDPSock (winsock : Winsock) (pCtx : SharedContext) : Int × Winsock × SharedContext :=
  match pCtx.sock with
  | some sock => (0, (winsock.closesocket sock).cleanup, ⟨none⟩)
  | none => (-1, winsock, pCtx)

theorem initUDPSock_effect (outcome : SocketOutcome) :
    (initUDPSock .initial .create outcome).1 ≠ 0 ∧
        (initUDPSock .initial .create outcome).2.1.Released ∨
      (initUDPSock .initial .create outcome).1 = 0 ∧
        ∃ sock, (initUDPSock .initial .create outcome).2.2.sock = some sock ∧
          (initUDPSock .initial .create outcome).2.1.Holds sock := by
  cases outcome with
  | startupFails | socketFails | bindFails => exact .inl ⟨by decide, rfl, rfl⟩
  | bound => exact .inr ⟨rfl, 0, rfl, rfl, rfl, rfl⟩

theorem closeUDPSock_released {winsock : Winsock} {pCtx : SharedContext}
    (unbound : pCtx.sock = none → winsock.Released)
    (bound : ∀ sock, pCtx.sock = some sock → winsock.Holds sock) :
    (closeUDPSock winsock pCtx).2.1.Released := by
  unfold closeUDPSock
  split
  next sock named =>
    obtain ⟨startups, sockets, closed⟩ := bound sock named
    exact ⟨startups.symm, by simp [Winsock.closesocket, Winsock.cleanup, sockets, closed]⟩
  next absent => exact unbound absent

/-- The next statement of the main thread: `execute` reads a line, the others are the statements
of `initialize` and `finalize`. -/
inductive MainPc
  | initUDPSock
  | startNodeManagament
  | startIOHandler
  | execute
  | stopIOHandler
  | stopNodeManagament
  | closeUDPSock
  | shutdown
deriving DecidableEq

def MainPc.nextCall : MainPc → Option (SystemEvent × MainPc)
  | startNodeManagament => some (.startNodeManagament, startIOHandler)
  | startIOHandler => some (.startIOHandler, execute)
  | stopIOHandler => some (.stopIOHandler, stopNodeManagament)
  | stopNodeManagament => some (.stopNodeManagament, closeUDPSock)
  | _ => none

inductive ProgramState
  | init
  | execute
  | finally_
  | shutdown
deriving DecidableEq

def MainPc.state : MainPc → ProgramState
  | initUDPSock | startNodeManagament | startIOHandler => .init
  | execute => .execute
  | stopIOHandler | stopNodeManagament | closeUDPSock => .finally_
  | shutdown => .shutdown

/-- `ioContext` and `receiverContext` are the copies of the context in IOHandler and in the UDP
receiver. -/
structure Program where
  pc : MainPc
  system : System
  winsock : Winsock
  ioContext : SharedContext
  receiverContext : SharedContext
deriving DecidableEq

def Program.initial : Program where
  pc := .initUDPSock
  system := .initial
  winsock := .initial
  ioContext := .create
  receiverContext := .create

inductive ProgramEvent
  | initUDPSock (outcome : SocketOutcome)
  | execute (input : String)
  | next
  | thread (event : SystemEvent)

/-- The call that a command of the menu makes. -/
def menuCall (input : String) : Option SystemEvent :=
  if input = "1" then some .startNodeManagament
  else if input = "2" then some .startIOHandler
  else if input = "3" then some .stopNodeManagament
  else if input = "4" then some .stopIOHandler
  else none

def SystemEvent.isCall : SystemEvent → Bool
  | .startNodeManagament | .stopNodeManagament | .startIOHandler | .stopIOHandler => true
  | _ => false

namespace Program

def returned (program : Program) : Bool :=
  decide (program.system.monitor.phase = .idle ∧ program.system.ioPhase = .idle)

def call (program : Program) (event : SystemEvent) (pc : MainPc) : Option Program :=
  (program.system.step event).map fun system => { program with system := system, pc := pc }

def execute (program : Program) (input : String) : Option Program :=
  match menuCall input with
  | some event => program.call event .execute
  | none =>
      if input = "q" then some { program with pc := .stopIOHandler }
      -- "5" prints the two flags, and any other line is ignored
      else some program

/-- Without an open socket `recvfrom` fails, and not with `WSAECONNRESET`. -/
def hears (program : Program) : Recvfrom → Bool
  | .received _ _ _ => program.receiverContext.sock.any program.winsock.isOpen
  | .socketError err _ =>
      program.receiverContext.sock.any program.winsock.isOpen || err ≠ wsaEConnReset

/-- A step of one of the threads; the main thread takes part in it where it goes on with a call of
`start` or `stop`. -/
def thread (program : Program) (event : SystemEvent) : Option Program :=
  match event with
  | .receive result =>
      if program.hears result then
        (program.system.step event).map fun system => { program with system := system }
      else none
  | .startReceiver =>
      (program.system.step event).map fun system =>
        { program with system := system, receiverContext := program.ioContext }
  | _ =>
      if event.isCall then none
      else (program.system.step event).map fun system => { program with system := system }

def step (program : Program) : ProgramEvent → Option Program
  | .initUDPSock outcome =>
      if program.pc = .initUDPSock then
        let (ret, winsock, ctx) := NodeManagement.initUDPSock program.winsock .create outcome
        some { program with
          pc := .startNodeManagament
          winsock := winsock
          ioContext := if ret = 0 then ctx else program.ioContext }
      else none
  | .execute input =>
      if program.pc = .execute && program.returned then program.execute input else none
  | .next =>
      match program.pc.nextCall with
      | some (event, pc) => program.call event pc
      | none =>
          if program.pc = .closeUDPSock && program.returned then
            -- finalize closes the socket through a copy of the context
            some { program with
              pc := .shutdown
              winsock := (NodeManagement.closeUDPSock program.winsock program.ioContext).2.1 }
          else none
  | .thread event => program.thread event

def Reachable (program : Program) : Prop := Reaches step anyStep initial program

variable {program after : Program}

theorem call_cases {event : SystemEvent} {pc : MainPc}
    (taken : program.call event pc = some after) :
    ∃ system, program.system.step event = some system ∧
      after = { program with system := system, pc := pc } := by
  obtain ⟨system, stepped, rfl⟩ := Option.map_eq_some_iff.mp taken
  exact ⟨system, stepped, rfl⟩

inductive StepMove (program : Program) : ProgramEvent → Program → Prop
  | initUDPSock (outcome : SocketOutcome) (here : program.pc = .initUDPSock) :
      StepMove program (.initUDPSock outcome) { program with
        pc := .startNodeManagament
        winsock := (NodeManagement.initUDPSock program.winsock .create outcome).2.1
        ioContext :=
          if (NodeManagement.initUDPSock program.winsock .create outcome).1 = 0 then
            (NodeManagement.initUDPSock program.winsock .create outcome).2.2
          else program.ioContext }
  | command {input : String} {event : SystemEvent} {system : System}
      (here : program.pc = .execute) (call : menuCall input = some event)
      (stepped : program.system.step event = some system) :
      StepMove program (.execute input) { program with system := system }
  | quit (here : program.pc = .execute) (returned : program.returned = true) :
      StepMove program (.execute "q") { program with pc := .stopIOHandler }
  | ignore {input : String} (noCall : menuCall input = none) (other : input ≠ "q")
      (here : program.pc = .execute) (returned : program.returned = true) :
      StepMove program (.execute input) program
  | next {event : SystemEvent} {pc : MainPc} {system : System}
      (order : program.pc.nextCall = some (event, pc))
      (stepped : program.system.step event = some system) :
      StepMove program .next { program with system := system, pc := pc }
  | closeUDPSock (here : program.pc = .closeUDPSock) (returned : program.returned = true) :
      StepMove program .next { program with
        pc := .shutdown
        winsock := (NodeManagement.closeUDPSock program.winsock program.ioContext).2.1 }
  | receive {result : Recvfrom} {system : System} (hears : program.hears result = true)
      (stepped : program.system.step (.receive result) = some system) :
      StepMove program (.thread (.receive result)) { program with system := system }
  | startReceiver {system : System} (stepped : program.system.step .startReceiver = some system) :
      StepMove program (.thread .startReceiver) { program with
        system := system, receiverContext := program.ioContext }
  | thread {event : SystemEvent} {system : System} (inner : event.isCall = false)
      (deaf : ∀ result, event ≠ .receive result)
      (stepped : program.system.step event = some system) :
      StepMove program (.thread event) { program with system := system }

theorem step_move {event : ProgramEvent} (taken : program.step event = some after) :
    program.StepMove event after := by
  cases event with
  | initUDPSock outcome =>
      obtain ⟨here, moved⟩ := Option.ite_none_right_eq_some.mp taken
      exact Option.some.inj moved ▸ .initUDPSock outcome here
  | execute input =>
      obtain ⟨here, moved⟩ := Option.ite_none_right_eq_some.mp taken
      simp only [Bool.and_eq_true, decide_eq_true_eq] at here
      simp only [execute] at moved
      split at moved
      next event call =>
        obtain ⟨system, stepped, rfl⟩ := call_cases moved
        have same : { program with system := system, pc := .execute } =
            { program with system := system } := by rw [← here.1]
        exact same ▸ .command here.1 call stepped
      next noCall =>
        split at moved
        next quits => exact Option.some.inj moved ▸ quits ▸ .quit here.1 here.2
        next other => exact Option.some.inj moved ▸ .ignore noCall other here.1 here.2
  | next =>
      simp only [step] at taken
      split at taken
      next event pc order =>
        obtain ⟨system, stepped, rfl⟩ := call_cases taken
        exact .next order stepped
      next =>
        obtain ⟨here, moved⟩ := Option.ite_none_right_eq_some.mp taken
        simp only [Bool.and_eq_true, decide_eq_true_eq] at here
        exact Option.some.inj moved ▸ .closeUDPSock here.1 here.2
  | thread event =>
      simp only [step, thread] at taken
      split at taken
      next result =>
        obtain ⟨hears, moved⟩ := Option.ite_none_right_eq_some.mp taken
        obtain ⟨system, stepped, rfl⟩ := Option.map_eq_some_iff.mp moved
        exact .receive hears stepped
      next =>
        obtain ⟨system, stepped, rfl⟩ := Option.map_eq_some_iff.mp taken
        exact .startReceiver stepped
      next deaf _ =>
        obtain ⟨inner, moved⟩ := Option.ite_none_left_eq_some.mp taken
        obtain ⟨system, stepped, rfl⟩ := Option.map_eq_some_iff.mp moved
        exact .thread (by simpa using inner) deaf stepped

theorem flags_of_inner {system after : System} {event : SystemEvent}
    (inner : event.isCall = false) (taken : system.step event = some after) (service : Service) :
    after.serviceRunning service = system.serviceRunning service ∧
      (system.servicePhase service = .idle → after.servicePhase service = .idle) := by
  obtain ⟨loop, rfl⟩ : ∃ loop : LoopThread, loop.service = service := by
    cases service
    · exact ⟨.handleSendData, rfl⟩
    · exact ⟨.handleTxThread, rfl⟩
  have acts : event.action loop ≠ .start ∧ event.action loop ≠ .stop := by
    cases event <;> cases loop <;> simp_all [SystemEvent.action, SystemEvent.isCall]
  simpa only [System.loopView_running, System.loopView_phase] using
    LoopView.step_flag acts.1 acts.2 (System.step_loopView loop taken)

structure Invariant (program : Program) : Prop where
  fresh : program.pc = .initUDPSock → program = initial
  unbound : program.ioContext.sock = none → program.winsock.Released
  bound : ∀ sock, program.ioContext.sock = some sock → program.pc ≠ .shutdown →
    program.winsock.Holds sock
  released : program.pc = .shutdown → program.winsock.Released
  receiver : program.receiverContext.sock = none ∨
    program.receiverContext = program.ioContext ∧ program.pc ≠ .initUDPSock
  ended : program.pc = .stopNodeManagament ∨ program.pc = .closeUDPSock ∨
    program.pc = .shutdown → program.system.ioRunning = false
  stopped : program.pc = .closeUDPSock ∨ program.pc = .shutdown →
    program.system.monitor.running = false
  idle : program.pc = .shutdown → program.returned = true
  silent : program.ioContext.sock = none → program.system.reception = []

theorem reception_of_deaf {system after : System} {event : SystemEvent}
    (deaf : ∀ result, event ≠ .receive result) (taken : system.step event = some after) :
    after.reception = system.reception := by
  cases System.step_move taken with
  | receive => exact absurd rfl (deaf _)
  | _ => rfl

theorem deaf_of_call {event : SystemEvent} (call : event.isCall = true) :
    ∀ result, event ≠ .receive result := by
  rintro result rfl
  simp [SystemEvent.isCall] at call

theorem isCall_of_menuCall {input : String} {event : SystemEvent}
    (call : menuCall input = some event) : event.isCall = true := by
  unfold menuCall at call
  split_ifs at call <;> exact Option.some.inj call ▸ rfl

theorem isCall_of_nextCall {here there : MainPc} {event : SystemEvent}
    (order : here.nextCall = some (event, there)) : event.isCall = true := by
  cases here <;> simp_all [MainPc.nextCall] <;> obtain ⟨rfl, _⟩ := order <;> rfl

theorem next_of_nextCall {here there : MainPc} {event : SystemEvent}
    (order : here.nextCall = some (event, there)) : there ≠ .initUDPSock ∧ there ≠ .shutdown := by
  cases here <;> simp_all [MainPc.nextCall] <;> obtain ⟨_, rfl⟩ := order <;> simp

theorem ended_of_nextCall {here : MainPc} {event : SystemEvent} {system after : System}
    (order : here.nextCall = some (event, .stopNodeManagament))
    (taken : system.step event = some after) : after.ioRunning = false := by
  have stops : event = Service.stop .ioHandler := by
    cases here <;> simp_all [MainPc.nextCall, Service.stop]
  rw [stops] at taken
  exact System.stop_begins taken

theorem stopped_of_nextCall {here : MainPc} {event : SystemEvent} {system after : System}
    (order : here.nextCall = some (event, .closeUDPSock))
    (taken : system.step event = some after) :
    here = .stopNodeManagament ∧ after.monitor.running = false ∧
      after.ioRunning = system.ioRunning := by
  obtain ⟨rfl, rfl⟩ : here = .stopNodeManagament ∧ event = .stopNodeManagament := by
    cases here <;> simp_all [MainPc.nextCall]
  refine ⟨rfl, ?_, ?_⟩
  · exact System.stop_begins (show system.step (Service.stop .nodeManagament) = _ from taken)
  · cases System.step_move taken
    rfl

theorem initial_still {event : SystemEvent} (inner : event.isCall = false) :
    System.initial.step event = none := by
  cases event with
  | startNodeManagament | stopNodeManagament | startIOHandler | stopIOHandler =>
      simp [SystemEvent.isCall] at inner
  | nodeStep index now timedOut => simp [System.step, System.monitorStep, Monitor.step,
      Monitor.nodeStep, System.initial, Monitor.initial, Registry.empty]
  | _ => rfl

theorem nothing_of_deaf {result : Recvfrom} (absent : program.receiverContext.sock = none)
    (hears : program.hears result = true) : dataToPush result = none := by
  cases result with
  | received => simp [Program.hears, absent] at hears
  | socketError err left =>
      have other : err ≠ wsaEConnReset := by simpa [Program.hears, absent] using hears
      simp [dataToPush, recvDataUDP, other]

theorem initial_invariant : initial.Invariant where
  fresh _ := rfl
  unbound _ := Winsock.initial_released
  bound _ named := by simp [initial, SharedContext.create] at named
  released _ := Winsock.initial_released
  receiver := .inl rfl
  ended _ := rfl
  stopped _ := rfl
  idle _ := rfl
  silent _ := rfl

theorem Invariant.of_inner (inv : program.Invariant) {event : SystemEvent} {system : System}
    (inner : event.isCall = false) (stepped : program.system.step event = some system)
    (silent : program.ioContext.sock = none → system.reception = [])
    {receiverContext : SharedContext}
    (receiver : receiverContext = program.receiverContext ∨
      receiverContext = program.ioContext) :
    Invariant { program with system := system, receiverContext := receiverContext } := by
  have past : program.pc ≠ .initUDPSock := by
    intro here
    rw [inv.fresh here] at stepped
    simp [initial, initial_still inner] at stepped
  have monitor := flags_of_inner inner stepped .nodeManagament
  have ioHandler := flags_of_inner inner stepped .ioHandler
  refine ⟨fun here => absurd here past, inv.unbound, inv.bound, inv.released, ?_, ?_, ?_, ?_,
    silent⟩
  · rcases receiver with rfl | rfl
    · exact inv.receiver
    · exact .inr ⟨rfl, past⟩
  · exact fun here => ioHandler.1.trans (inv.ended here)
  · exact fun here => monitor.1.trans (inv.stopped here)
  · intro here
    have idle := inv.idle here
    simp only [returned, decide_eq_true_eq] at idle ⊢
    exact ⟨monitor.2 idle.1, ioHandler.2 idle.2⟩

theorem step_invariant {event : ProgramEvent} (inv : program.Invariant)
    (taken : program.step event = some after) : after.Invariant := by
  cases step_move taken with
  | initUDPSock outcome here =>
      obtain rfl := inv.fresh here
      rcases initUDPSock_effect outcome with ⟨failed, given⟩ | ⟨succeeded, sock, named, holds⟩
      · rw [show initial.winsock = .initial from rfl, if_neg failed]
        exact ⟨by simp, fun _ => given,
          fun _ named => by simp [initial, SharedContext.create] at named,
          by simp, .inl rfl, by simp, by simp, by simp, fun _ => rfl⟩
      · rw [show initial.winsock = .initial from rfl, if_pos succeeded]
        refine ⟨by simp, fun absent => ?_, fun other same _ => ?_, by simp, .inl rfl, by simp,
          by simp, by simp, fun _ => rfl⟩
        · simp [named] at absent
        · obtain rfl := Option.some.inj (named.symm.trans same)
          exact holds
  | command here call stepped =>
      have deaf := reception_of_deaf (deaf_of_call (isCall_of_menuCall call)) stepped
      exact ⟨by simp [here], inv.unbound, inv.bound, by simp [here], inv.receiver, by simp [here],
        by simp [here], by simp [here], fun absent => deaf.trans (inv.silent absent)⟩
  | quit here returned =>
      exact ⟨by simp, inv.unbound, fun sock named _ => inv.bound sock named (by simp [here]),
        by simp, inv.receiver.imp_right fun same => ⟨same.1, by simp⟩, by simp, by simp, by simp,
        inv.silent⟩
  | ignore => exact inv
  | @next event pc system order stepped =>
      have deaf := reception_of_deaf (deaf_of_call (isCall_of_nextCall order)) stepped
      have past : program.pc ≠ .shutdown := fun here => by simp [here, MainPc.nextCall] at order
      obtain ⟨begun, ongoing⟩ := next_of_nextCall order
      refine ⟨fun here => absurd here begun, inv.unbound,
        fun sock named _ => inv.bound sock named past,
        fun here => absurd here ongoing, inv.receiver.imp_right fun same => ⟨same.1, begun⟩, ?_, ?_,
        fun here => absurd here ongoing, fun absent => deaf.trans (inv.silent absent)⟩
      · rintro (rfl | rfl | rfl)
        · exact ended_of_nextCall order stepped
        · obtain ⟨here, _, kept⟩ := stopped_of_nextCall order stepped
          exact kept.trans (inv.ended (.inl here))
        · exact absurd rfl ongoing
      · rintro (rfl | rfl)
        · exact (stopped_of_nextCall order stepped).2.1
        · exact absurd rfl ongoing
  | closeUDPSock here returned =>
      have given := closeUDPSock_released inv.unbound fun sock named =>
        inv.bound sock named (by simp [here])
      exact ⟨by simp, fun _ => given, by simp, fun _ => given,
        inv.receiver.imp_right fun same => ⟨same.1, by simp⟩,
        fun _ => inv.ended (.inr (.inl here)), fun _ => inv.stopped (.inl here), fun _ => returned,
        inv.silent⟩
  | @receive result system hears stepped =>
      refine inv.of_inner rfl stepped (fun absent => ?_) (.inl rfl)
      have deaf : program.receiverContext.sock = none := by
        rcases inv.receiver with none | ⟨same, _⟩
        · exact none
        · rw [same, absent]
      cases System.step_move stepped with
      | receiveNothing => exact inv.silent absent
      | receive pushed => simp [nothing_of_deaf deaf hears] at pushed
  | startReceiver stepped =>
      refine inv.of_inner rfl stepped (fun absent => ?_) (.inr rfl)
      rw [reception_of_deaf (by simp) stepped, inv.silent absent]
  | thread inner deaf stepped =>
      refine inv.of_inner inner stepped (fun absent => ?_) (.inl rfl)
      rw [reception_of_deaf deaf stepped, inv.silent absent]

theorem reachable_invariant (reached : Reachable program) : program.Invariant :=
  Reaches.invariant Invariant reached initial_invariant
    fun _ _ _ inv _ taken => step_invariant inv taken

theorem reachable_system (reached : Reachable program) : System.Reachable program.system := by
  refine reached.project Program.system fun before event after taken => ?_
  cases step_move taken with
  | initUDPSock | quit | ignore | closeUDPSock => exact .inl rfl
  | command _ _ stepped | next _ stepped | receive _ stepped | startReceiver stepped
    | thread _ _ stepped => exact .inr ⟨_, stepped⟩

theorem loops_gone (reached : Reachable program) (here : program.pc = .shutdown)
    (loop : LoopThread) :
    program.system.serviceRunning loop.service = false ∧
      program.system.servicePhase loop.service = .idle ∧
      program.system.loopLive loop = false := by
  have inv := reachable_invariant reached
  have idle := inv.idle here
  simp only [returned, decide_eq_true_eq] at idle
  have flag : program.system.serviceRunning loop.service = false := by
    cases loop.service with
    | nodeManagament => exact inv.stopped (.inr here)
    | ioHandler => exact inv.ended (.inr (.inr here))
  have phase : program.system.servicePhase loop.service = .idle := by
    cases loop.service with
    | nodeManagament => exact idle.1
    | ioHandler => exact idle.2
  refine ⟨flag, phase, ?_⟩
  rw [← System.loopView_live]
  apply (System.reachable_views (reachable_system reached) loop).away
  rw [System.loopView_phase, System.loopView_running]
  exact .inr ⟨phase, flag⟩

/-- Over every run: once the program shuts down, both modules have stopped, their four loops have
ended, and all that was taken from Winsock has been given back, once. -/
theorem shutdown_releases (reached : Reachable program) (here : program.pc.state = .shutdown) :
    program.winsock.Released ∧
      ∀ loop : LoopThread, program.system.serviceRunning loop.service = false ∧
        program.system.servicePhase loop.service = .idle ∧
        program.system.loopLive loop = false := by
  have here : program.pc = .shutdown := by
    cases pc : program.pc <;> simp_all [MainPc.state]
  exact ⟨(reachable_invariant reached).released here, loops_gone reached here⟩

/-- Over every run: as long as the thread that sends is there, the socket that it sends on has not
been closed. -/
theorem sends_open (reached : Reachable program)
    (live : program.system.loopLive .handleTxThread = true) {sock : Nat}
    (named : program.ioContext.sock = some sock) : program.winsock.isOpen sock = true := by
  refine ((reachable_invariant reached).bound sock named fun here => ?_).isOpen
  rw [(loops_gone reached here .handleTxThread).2.2] at live
  exact absurd live (by simp)

def Unbound (program : Program) : Prop :=
  program.pc ≠ .initUDPSock ∧ program.ioContext.sock = none

theorem step_unbound {event : ProgramEvent} (unbound : program.Unbound)
    (taken : program.step event = some after) : after.Unbound := by
  cases step_move taken with
  | initUDPSock _ here => exact absurd here unbound.1
  | next order => exact ⟨(next_of_nextCall order).1, unbound.2⟩
  | quit | closeUDPSock => exact ⟨by simp, unbound.2⟩
  | _ => exact unbound

/-- Over every run in which the socket could not be set up, whatever the menu starts and stops:
nothing is received, nobody is registered, and nothing is sent. -/
theorem unbound_silent {outcome : SocketOutcome} (failed : outcome ≠ .bound)
    {events : List ProgramEvent} {final : Program}
    (replay : runFrom step initial (.initUDPSock outcome :: events) = some final) :
    final.system.reception = [] ∧ final.system.monitor.registry.vecNodeBase = [] ∧
      final.system.sent = [] := by
  obtain ⟨started, first, rest⟩ := Option.bind_eq_some_iff.mp replay
  have begins : started.Unbound := by
    obtain rfl := Option.some.inj first
    cases outcome with
    | bound => exact absurd rfl failed
    | _ => exact ⟨by simp, rfl⟩
  have known := Reaches.of_runFrom rest
  have unbound := Reaches.invariant Unbound known begins
    fun _ _ _ unbound _ taken => step_unbound unbound taken
  have reached : Reachable final := .of_runFrom replay
  have silent := (reachable_invariant reached).silent unbound.2
  have nobody {type : TypeNode} {clientAddr : SockaddrIn} :
      ¬Registered final.system.reception type clientAddr := by
    rintro ⟨received, member, _⟩
    simp [silent] at member
  have stamped : System.ReachableBy (System.Stamped fun _ => True) final.system :=
    (reachable_system reached).mono fun _ event _ => by cases event <;> trivial
  have traceable := (System.reachableBy_traceable stamped).2.2
  refine ⟨silent, List.eq_nil_iff_forall_not_mem.mpr fun node member => ?_,
    List.eq_nil_iff_forall_not_mem.mpr fun entry member => ?_⟩
  · exact nobody (traceable.entries node member)
  · cases traceable.outgoing entry (List.mem_append_left _ member) with
    | ping registered | notify registered => exact nobody registered

end Program

def initializeEvents (outcome : SocketOutcome) : List ProgramEvent :=
  [.initUDPSock outcome, .next] ++ List.replicate 4 (.thread .proceedNodeManagament) ++
    [.next, .thread .startReceiver] ++ List.replicate 4 (.thread .proceedIOHandler)

def finalizeEvents : List ProgramEvent :=
  [.execute "q", .next] ++
    ([.proceedIOHandler, .proceedIOHandler, .popBuffer, .checkBuffer, .proceedIOHandler,
      .popSend, .checkSend, .proceedIOHandler].map .thread ++ [.next]) ++
    ([.proceedNodeManagament, .proceedNodeManagament, .popReceived, .checkReceived,
      .proceedNodeManagament, .popMessage, .checkMessage, .proceedNodeManagament].map .thread ++
    [.next])

theorem shutdown_releases_after_quit :
    ∃ program : Program, program.pc.state = .shutdown ∧ program.winsock.sockets = [0] ∧
      program.winsock.Released ∧
      ∀ loop : LoopThread, program.system.serviceRunning loop.service = false ∧
        program.system.servicePhase loop.service = .idle ∧
        program.system.loopLive loop = false := by
  have ends : (runFrom Program.step .initial (initializeEvents .bound ++ finalizeEvents)).any
      (fun program => decide (program.pc.state = .shutdown ∧ program.winsock.sockets = [0])) =
        true := by
    decide +kernel
  obtain ⟨program, replay, here⟩ := (Option.any_eq_true _ _).mp ends
  obtain ⟨here, sockets⟩ := of_decide_eq_true here
  exact ⟨program, here, sockets, Program.shutdown_releases (.of_runFrom replay) here⟩

theorem sends_open_at_start :
    ∃ program : Program, program.system.loopLive .handleTxThread = true ∧
      program.ioContext.sock = some 0 ∧ program.winsock.isOpen 0 = true := by
  have ends : (runFrom Program.step .initial (initializeEvents .bound)).any
      (fun program => decide (program.system.loopLive .handleTxThread = true ∧
        program.ioContext.sock = some 0)) = true := by
    decide +kernel
  obtain ⟨program, replay, here⟩ := (Option.any_eq_true _ _).mp ends
  obtain ⟨live, named⟩ := of_decide_eq_true here
  exact ⟨program, live, named, Program.sends_open (.of_runFrom replay) live named⟩

theorem unbound_silent_bind_fails :
    ∃ final : Program,
      runFrom Program.step .initial (initializeEvents .bindFails ++
        [.thread (.receive (.socketError 10038 .zero))]) = some final ∧
      final.system.reception = [] ∧ final.system.monitor.registry.vecNodeBase = [] ∧
      final.system.sent = [] := by
  have ends : (runFrom Program.step .initial (initializeEvents .bindFails ++
      [.thread (.receive (.socketError 10038 .zero))])).isSome = true := by
    decide +kernel
  obtain ⟨final, replay⟩ := Option.isSome_iff_exists.mp ends
  exact ⟨final, replay, Program.unbound_silent (by simp) replay⟩

end NodeManagement
