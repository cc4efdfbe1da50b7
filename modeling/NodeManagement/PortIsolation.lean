import NodeManagement.Reregistration

/-!
Ports do not interfere.  What the monitoring knows of a port is a function of the events that
concern the port, in their order: `portStep` computes it without looking at any other port.
-/

namespace NodeManagement

open KeyedList Transition

inductive PortEvent
  | register (type : TypeNode) (clientAddr : SockaddrIn)
  | pong
  | step (outcome : Option Bool) (clock : Bytes)
  | process
deriving DecidableEq

/-- The entry of a port and its pending messages, both without the NodeID. -/
structure PortStatus where
  entry : Option NodeBase
  pending : List StrMessageState
deriving DecidableEq

/-- A message as the status shows it; the local time in its text is kept on demand. -/
def StrMessageState.shown (clocked : Bool) (message : StrMessageState) : StrMessageState :=
  { message with nodeID := 0, message := if clocked then message.message else [] }

@[simp] def NodePc.unnumbered : NodePc → NodePc
  | pushPing site _ => pushPing site 0
  | pc => pc

namespace NodeBase

def unnumbered (node : NodeBase) : NodeBase :=
  { node with serial := 0, pc := node.pc.unnumbered }

def outcome (node : NodeBase) (timedOut : Bool) : Option Bool :=
  match node.pc with
  | .waitPong _ => node.waitFor timedOut
  | _ => none

def clockReading (node : NodeBase) (now : Bytes) : Bytes :=
  match node.pc with
  | .notifyTimeout | .notifyDead => now
  | _ => []

end NodeBase

def PortStatus.register (status : PortStatus) (type : TypeNode) (clientAddr : SockaddrIn) :
    PortStatus :=
  if type.isMonitored && status.entry.isNone then
    { status with entry := some ((NodeBase.create type 0).setClientInfor clientAddr).start }
  else status

def portStep (clocked : Bool) (status : PortStatus) : PortEvent → Option PortStatus
  | .register type clientAddr => some (status.register type clientAddr)
  | .pong => some { status with entry := status.entry.map fun node => node.setPongState true }
  | .step outcome clock =>
      status.entry.bind fun node =>
        (node.threadStep 0 clock (outcome == some false)).map fun (after, pushed) =>
          { entry := some after
            pending := status.pending ++ (pushed.map (.shown clocked)).toList }
  | .process =>
      match status.pending with
      | [] => none
      | message :: rest =>
          some { entry := if message.isDead then none else status.entry, pending := rest }

def messagesOf (clocked : Bool) (port : BitVec 16) (messages : List PostedMessage) :
    List StrMessageState :=
  (messages.filter fun posted => decide (posted.message.clientAddr.sinPort = port)).map
    fun posted => posted.message.shown clocked

namespace Monitor

/-- The status of a port.  A message that `handleSendData` has taken and not yet processed is
pending still, ahead of those in `g_messageNodeQueue`. -/
def status (clocked : Bool) (port : BitVec 16) (monitor : Monitor) : PortStatus where
  entry := (toMap NodeBase.getPortInfo monitor.registry.vecNodeBase port).map NodeBase.unnumbered
  pending := messagesOf clocked port monitor.pending

def portEvent (clocked : Bool) (port : BitVec 16) (monitor : Monitor) :
    MonitorEvent → Option PortEvent
  | .register packet =>
      if packet.clientAddr.sinPort = port then
        some (.register packet.typeNode packet.clientAddr)
      else none
  | .pong packet => if packet.clientAddr.sinPort = port then some .pong else none
  | .nodeStep index now timedOut =>
      match monitor.registry.vecNodeBase[index]? with
      | some node =>
          if node.getPortInfo = port then
            some (.step (node.outcome timedOut) (if clocked then node.clockReading now else []))
          else none
      | none => none
  | .handleMessage =>
      if monitor.nodeHandleThread.item.message.clientAddr.sinPort = port then some .process
      else none
  | _ => none

end Monitor

namespace NodeBase

variable (node : NodeBase)

@[simp] theorem unnumbered_pc : node.unnumbered.pc = node.pc.unnumbered := rfl
@[simp] theorem unnumbered_running : node.unnumbered.running = node.running := rfl
@[simp] theorem unnumbered_currentState : node.unnumbered.currentState = node.currentState := rfl
@[simp] theorem unnumbered_goto (pc : NodePc) :
    (node.goto pc).unnumbered = node.unnumbered.goto pc.unnumbered := rfl

@[simp] theorem unnumbered_changeState (state : StateList) :
    (node.changeState state).unnumbered = node.unnumbered.changeState state := by
  simp only [changeState, apply_ite unnumbered]
  rfl

@[simp] theorem unnumbered_stop : node.stop.unnumbered = node.unnumbered.stop := by
  simp only [stop, apply_ite unnumbered]
  rfl

@[simp] theorem unnumbered_waitFor (timedOut : Bool) :
    node.unnumbered.waitFor timedOut = node.waitFor timedOut := rfl

@[simp] theorem unnumbered_handleThread :
    node.handleThread.unnumbered = node.unnumbered.handleThread := by
  cases running : node.running with
  | false => simp [handleThread, running]
  | true => cases state : node.currentState <;> simp [handleThread, running, state]

@[simp] theorem unnumbered_retryLoop (retryTime : Nat) :
    (node.retryLoop retryTime).unnumbered = node.unnumbered.retryLoop retryTime := by
  unfold retryLoop
  split <;> simp

@[simp] theorem unnumbered_afterRetries (retryTime : Nat) :
    (node.afterRetries retryTime).unnumbered = node.unnumbered.afterRetries retryTime := by
  unfold afterRetries
  split <;> simp

@[simp] theorem unnumbered_afterWait (site : PingSite) (woken : Bool) :
    (node.afterWait site woken).unnumbered = node.unnumbered.afterWait site woken := by
  cases site <;> simp only [afterWait, initAfterWait, aliveAfterWait, retryAfterWait] <;>
    split_ifs <;> simp_all

variable {node}

theorem waitFor_of_ended {timedOut woken : Bool} (ended : node.waitFor timedOut = some woken) :
    node.waitFor (!woken) = some woken := by
  unfold waitFor at ended ⊢
  split at ended
  next answered => simpa [answered] using ended
  next silent =>
    cases timedOut with
    | false => simp at ended
    | true =>
        obtain rfl : woken = false := by simpa using ended.symm
        simp [silent]

theorem threadStep_unnumbered {after : NodeBase} {nodeID : Int} {now : Bytes} {timedOut : Bool}
    {pushed : Option StrMessageState} (clocked : Bool)
    (taken : node.threadStep nodeID now timedOut = some (after, pushed)) :
    ∃ shown, node.unnumbered.threadStep 0 (if clocked then node.clockReading now else [])
        (node.outcome timedOut == some false) = some (after.unnumbered, shown) ∧
      shown.map (StrMessageState.shown clocked) = pushed.map (StrMessageState.shown clocked) := by
  cases threadStep_move taken with
  | waitPong site woken position ended =>
      refine ⟨none, ?_, rfl⟩
      have replayed := waitFor_of_ended ended
      cases woken <;> simp_all [threadStep, outcome]
  | sendPing site position =>
      refine ⟨none, ?_, rfl⟩
      simp [threadStep, position, unnumbered, goto]
  | pushPing site readID position =>
      refine ⟨node.unnumbered.pingMessage 0, by simp [threadStep, position], ?_⟩
      simp [StrMessageState.shown, pingMessage, getClientInfor, unnumbered]
  | notifyTimeout position =>
      refine ⟨node.unnumbered.timeoutMessage (if clocked then node.clockReading now else []),
        by simp [threadStep, position], ?_⟩
      cases clocked <;> simp [StrMessageState.shown, timeoutMessage, StrMessageState.saveTime,
        clockReading, position, getClientInfor, unnumbered]
  | notifyDead position =>
      refine ⟨node.unnumbered.deadMessage (if clocked then node.clockReading now else []),
        by simp [threadStep, position], ?_⟩
      cases clocked <;> simp [StrMessageState.shown, deadMessage, StrMessageState.saveTime,
        clockReading, position, getClientInfor, unnumbered]
  | resetPong site position =>
      exact ⟨none, by simp only [threadStep, unnumbered_pc, position]; rfl, rfl⟩
  | loopHead position | sleepPing _ position | retriesOver _ position | deadToInit position
  | deadStop position => exact ⟨none, by simp [threadStep, position], rfl⟩

end NodeBase

section

variable {clocked : Bool} {port : BitVec 16}

theorem messagesOf_cons (posted : PostedMessage) (rest : List PostedMessage) :
    messagesOf clocked port (posted :: rest) =
      if posted.message.clientAddr.sinPort = port then
        posted.message.shown clocked :: messagesOf clocked port rest
      else messagesOf clocked port rest := by
  unfold messagesOf
  by_cases from_ : posted.message.clientAddr.sinPort = port
  · simp [from_]
  · simp [from_]

namespace Monitor

variable {monitor after : Monitor}

theorem toMap_register {packet : RigisterPacket} (serial : Nat)
    (absent : ∀ node ∈ monitor.registry.vecNodeBase,
      node.getPortInfo ≠ packet.clientAddr.sinPort) :
    toMap NodeBase.getPortInfo (monitor.registry.vecNodeBase ++ [packet.newNode serial]) =
      Function.update (toMap NodeBase.getPortInfo monitor.registry.vecNodeBase)
        packet.clientAddr.sinPort (some (packet.newNode serial)) :=
  toMap_append NodeBase.getPortInfo absent

def Follows (clocked : Bool) (port : BitVec 16) (monitor after : Monitor)
    (event : MonitorEvent) : Prop :=
  (monitor.portEvent clocked port event).elim (some (monitor.status clocked port))
    (portStep clocked (monitor.status clocked port)) = some (after.status clocked port)

theorem nodeStep_pending (inv : monitor.Invariant) (open_ : monitor.NeverStopped) {index : Nat}
    {now : Bytes} {timedOut : Bool}
    (fits : monitor.lossless (.nodeStep index now timedOut) = true)
    {node moved : NodeBase} {pushed : Option StrMessageState}
    (found : monitor.registry.vecNodeBase[index]? = some node)
    (step : node.threadStep monitor.registry.nodeID now timedOut = some (moved, pushed))
    (message : StrMessageState) (sends : pushed = some message) :
    (monitor.messageNodeQueue.push ⟨message, node.serial⟩ true).queue =
      monitor.messageNodeQueue.queue ++ [⟨message, node.serial⟩] := by
  have coherent := inv.formed.coherent node (List.mem_of_getElem? found)
  have pushes := (NodeBase.threadStep_pushes coherent step).1
  simp only [sends, Option.isSome_some] at pushes
  simp only [lossless, found, ← pushes, Bool.true_and, Bool.not_eq_true'] at fits
  rw [ThreadSafeQueue.push_force_queue open_.2, fits]
  rfl

theorem nodeStep_follows (inv : monitor.Invariant) (open_ : monitor.NeverStopped) {index : Nat}
    {now : Bytes} {timedOut : Bool}
    (fits : monitor.lossless (.nodeStep index now timedOut) = true)
    (taken : monitor.nodeStep index now timedOut = some after) :
    Follows clocked port monitor after (.nodeStep index now timedOut) := by
  obtain ⟨node, moved, pushed, found, step, rfl⟩ := nodeStep_cases taken
  have member := List.mem_of_getElem? found
  have same := NodeBase.threadStep_identity step
  have samePort : moved.getPortInfo = node.getPortInfo := congrArg SockaddrIn.sinPort same.2.2
  have order := (NodeBase.threadStep_spec (inv.formed.coherent node member) step).2
  have entries := toMap_set inv.formed.ports found samePort
  have here := toMap_of_getElem inv.formed.ports found
  have queue := nodeStep_pending inv open_ fits found step
  obtain ⟨shown, replayed, sameShown⟩ := NodeBase.threadStep_unnumbered clocked step
  unfold Follows portEvent
  simp only [found]
  by_cases mine : node.getPortInfo = port
  · subst mine
    simp only [if_true, Option.elim_some, portStep, status, here, Option.map_some,
      Option.bind_some, replayed, entries, Function.update_self, sameShown, pending]
    cases pushed with
    | none => simp
    | some message =>
        have from_ : message.clientAddr.sinPort = node.getPortInfo :=
          congrArg SockaddrIn.sinPort order.1
        simp [queue message rfl, from_, messagesOf]
  · simp only [if_neg mine, Option.elim_none, status, entries,
      Function.update_of_ne (Ne.symm mine), pending]
    cases pushed with
    | none => rfl
    | some message =>
        have other : message.clientAddr.sinPort ≠ port :=
          fun equal => mine ((congrArg SockaddrIn.sinPort order.1).symm.trans equal)
        simp [queue message rfl, other, messagesOf]

theorem register_follows (packet : RigisterPacket) :
    Follows clocked port monitor
      { monitor with registry := monitor.registry.checkRegisterMessage packet }
      (.register packet) := by
  have known : (toMap NodeBase.getPortInfo monitor.registry.vecNodeBase
      packet.clientAddr.sinPort).isNone =
        !hasKey NodeBase.getPortInfo packet.clientAddr.sinPort monitor.registry.vecNodeBase :=
    monitor.registry.isNone_entries packet.clientAddr.sinPort
  unfold Follows portEvent
  by_cases mine : packet.clientAddr.sinPort = port
  · subst mine
    simp only [if_true, Option.elim_some, portStep, PortStatus.register, status, pending,
      Option.isNone_map, known, Registry.checkRegisterMessage_eq]
    split
    next added =>
      simp only [Bool.and_eq_true, Bool.not_eq_true', hasKey_eq_false_iff] at added
      simp only [toMap_register _ added.2, Function.update_self, Option.map_some]
      rfl
    next => rfl
  · simp only [if_neg mine, Option.elim_none, status, pending, Registry.checkRegisterMessage_eq]
    split
    next added =>
      simp only [Bool.and_eq_true, Bool.not_eq_true', hasKey_eq_false_iff] at added
      simp only [toMap_register _ added.2, Function.update_of_ne (Ne.symm mine)]
    next => rfl

theorem pong_follows (packet : Packet) :
    Follows clocked port monitor
      { monitor with registry := monitor.registry.checkPongMessage packet } (.pong packet) := by
  have entries : toMap NodeBase.getPortInfo (updateFirst NodeBase.getPortInfo
      packet.clientAddr.sinPort (fun node => node.setPongState true)
        monitor.registry.vecNodeBase) = _ := toMap_updateFirst NodeBase.getPortInfo fun _ => rfl
  unfold Follows portEvent
  by_cases mine : packet.clientAddr.sinPort = port
  · subst mine
    simp only [if_true, Option.elim_some, portStep, status, pending,
      Registry.checkPongMessage_eq, entries, Function.update_self, Option.map_map]
    rfl
  · simp only [if_neg mine, Option.elim_none, status, pending, Registry.checkPongMessage_eq,
      entries, Function.update_of_ne (Ne.symm mine)]

theorem handleMessage_follows (inv : monitor.Invariant)
    (working : monitor.nodeHandleThread.pc = .working) :
    Follows clocked port monitor
      { monitor with
        registry := (monitor.registry.handleMessage monitor.nodeHandleThread.item.message).1
        nodeHandleThread := monitor.nodeHandleThread.finish monitor.nodeHandleThread.item }
      .handleMessage := by
  have waiting := inv.pending_of_working working
  have entries : toMap NodeBase.getPortInfo (eraseFirst NodeBase.getPortInfo
      monitor.nodeHandleThread.item.message.clientAddr.sinPort monitor.registry.vecNodeBase) = _ :=
    toMap_eraseFirst inv.formed.ports
  unfold Follows portEvent
  by_cases mine : monitor.nodeHandleThread.item.message.clientAddr.sinPort = port
  · subst mine
    have first : messagesOf clocked monitor.nodeHandleThread.item.message.clientAddr.sinPort
        monitor.pending = monitor.nodeHandleThread.item.message.shown clocked ::
          messagesOf clocked monitor.nodeHandleThread.item.message.clientAddr.sinPort
            monitor.messageNodeQueue.queue := by
      rw [waiting, messagesOf_cons, if_pos rfl]
    have shownDead : (monitor.nodeHandleThread.item.message.shown clocked).isDead =
        monitor.nodeHandleThread.item.message.isDead := rfl
    simp only [if_true, Option.elim_some, portStep, status, first, shownDead,
      Registry.handleMessage_registry]
    split
    next dead => simp [entries, pending]
    next => simp [pending]
  · have kept : messagesOf clocked port monitor.pending =
        messagesOf clocked port monitor.messageNodeQueue.queue := by
      rw [waiting, messagesOf_cons, if_neg mine]
    simp only [if_neg mine, Option.elim_none, status, kept, Registry.handleMessage_registry]
    split
    next dead => simp [entries, Function.update_of_ne (Ne.symm mine), pending]
    next => simp [pending]

theorem step_follows (inv : monitor.Invariant) (open_ : monitor.NeverStopped)
    {event : MonitorEvent} (fits : monitor.lossless event = true)
    (taken : monitor.step event = some after) : Follows clocked port monitor after event := by
  have quiet (registry : after.registry = monitor.registry)
      (waiting : after.pending = monitor.pending) (silent : monitor.portEvent clocked port event =
        none) : Follows clocked port monitor after event := by
    unfold Follows
    rw [silent, Option.elim_none, status, status, registry, waiting]
  cases step_move taken with
  | nodeStep stepped => exact nodeStep_follows inv open_ fits stepped
  | register packet => exact register_follows packet
  | pong packet => exact pong_follows packet
  | waitAndPop popped => exact quiet rfl (inv.handshake.pop_held popped) rfl
  | checkRunning checked =>
      have on := Consumer.running_of_live inv.agrees open_.1 (ConsumerThread.live_of_check checked)
      refine quiet rfl ?_ rfl
      simp only [pending, ConsumerThread.check_held checked, on, if_true]
  | handleMessage working => exact handleMessage_follows inv working
  | startAgain | start => exact quiet rfl rfl rfl
  | stopAgain | stop => simp [lossless] at fits
  | proceed proceeded =>
      exact quiet (proceed_cases proceeded).2.2.2.1 (proceed_pending inv proceeded) rfl

theorem status_eq_run {events : List MonitorEvent}
    (calm : checkFrom step lossless initial events = true)
    (run : runFrom step initial events = some after) :
    runFrom (portStep clocked) (initial.status clocked port)
        (labelsFrom step (portEvent clocked port) initial events) =
      some (after.status clocked port) := by
  refine runFrom_labelsFrom (status clocked port)
    (fun monitor => monitor.Invariant ∧ monitor.NeverStopped) ?_ ?_ ?_
    ⟨initial_invariant, rfl, rfl⟩ calm run
  · intro before event next good fits taken
    exact ⟨step_invariant good.1 taken, step_neverStopped good.2 fits taken⟩
  · intro before event next good fits taken silent
    have follows : Follows clocked port before next event := step_follows good.1 good.2 fits taken
    rw [Follows, silent, Option.elim_none, Option.some.injEq] at follows
    exact follows.symm
  · intro before event next seen good fits taken named
    have follows : Follows clocked port before next event := step_follows good.1 good.2 fits taken
    rwa [Follows, named, Option.elim_some] at follows

/-- Two runs in which the same events concern a port leave the port in the same status, whatever
else happens in them and in whatever order.  With `clocked` the local times count as part of the
events and of the pending texts, without it as part of neither. -/
theorem ports_isolated (clocked : Bool) (port : BitVec 16) {events others : List MonitorEvent}
    {first second : Monitor}
    (calm : checkFrom step lossless initial events = true)
    (run : runFrom step initial events = some first)
    (calmOther : checkFrom step lossless initial others = true)
    (runOther : runFrom step initial others = some second)
    (same : labelsFrom step (portEvent clocked port) initial events =
      labelsFrom step (portEvent clocked port) initial others) :
    first.status clocked port = second.status clocked port ∧
      (first.nodeHandleThread.held = [] → second.nodeHandleThread.held = [] →
        messagesOf clocked port first.messageNodeQueue.queue =
          messagesOf clocked port second.messageNodeQueue.queue) := by
  have equal : first.status clocked port = second.status clocked port := by
    have left : runFrom (portStep clocked) (initial.status clocked port) _ = _ :=
      status_eq_run calm run
    rw [same, status_eq_run calmOther runOther] at left
    exact (Option.some.inj left).symm
  refine ⟨equal, ?_⟩
  intro free freeOther
  have waiting := congrArg PortStatus.pending equal
  simpa only [status, pending, free, freeOther, List.nil_append] using waiting

end Monitor

end

def runAlone : List MonitorEvent := startEvents ++ [.register localRegister] ++ silentSteps

def runBehindOther : List MonitorEvent :=
  [.register otherRegister] ++ startEvents ++ [.register localRegister] ++
    [0, 1, 0, 1, 0, 1, 0, 1].map (fun index => .nodeStep index [] true) ++
    [.waitAndPop, .checkRunning,
      .pong { Packet.create with clientAddr := otherRegister.clientAddr }, .handleMessage] ++
    List.replicate 26 (.nodeStep 1 [] true)

theorem ports_isolated_behindOther :
    ∃ alone behind : Monitor, runFrom Monitor.step .initial runAlone = some alone ∧
      runFrom Monitor.step .initial runBehindOther = some behind ∧
      alone.status true localRegister.clientAddr.sinPort =
        behind.status true localRegister.clientAddr.sinPort := by
  have endsAlone : (runFrom Monitor.step .initial runAlone).isSome = true := by decide +kernel
  have endsBehind : (runFrom Monitor.step .initial runBehindOther).isSome = true := by
    decide +kernel
  obtain ⟨alone, run⟩ := Option.isSome_iff_exists.mp endsAlone
  obtain ⟨behind, runOther⟩ := Option.isSome_iff_exists.mp endsBehind
  refine ⟨alone, behind, run, runOther, ?_⟩
  exact (Monitor.ports_isolated true localRegister.clientAddr.sinPort (by decide +kernel) run
    (by decide +kernel) runOther (by decide +kernel)).1

end NodeManagement
