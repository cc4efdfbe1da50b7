import NodeManagement.RegistryConsistency

/-!
Exceptions in the handlers of a node.  `handleThread` catches what `handleState` throws and enters
the handler of the current state again, from its beginning; what the handler has done before stays
done.  The erasure of an entry waits in the destructor until the thread of the node has exited.
-/

namespace NodeManagement

open KeyedList Transition

def StrMessageState.isTimeout (message : StrMessageState) : Bool :=
  message.messageType == 1 && message.state == .timeout

/-- Ghost counts for a node object: its pushes of a TIMEOUT notification since it last entered
TIMEOUT, and its pushes of a DEAD notification. -/
structure NoticeTally where
  timeouts : Nat
  deads : Nat
deriving DecidableEq

def NoticeTally.zero : NoticeTally := ⟨0, 0⟩

def NoticeTally.record (tally : NoticeTally) (node after : NodeBase)
    (pushed : Option StrMessageState) : NoticeTally where
  timeouts :=
    if node.currentState ≠ .timeout ∧ after.currentState = .timeout then 0
    else tally.timeouts + (pushed.any StrMessageState.isTimeout).toNat
  deads := tally.deads + (pushed.any StrMessageState.isDead).toNat

namespace NodeBase

def inHandler (node : NodeBase) : Bool :=
  match node.pc with
  | .unstarted | .loopHead | .exited => false
  | _ => true

/-- An exception in a handler.  With `inPush` it is `g_messageNodeQueue.push` that throws, after it
has made room in a full queue. -/
def throwException (node : NodeBase) (q : ThreadSafeQueue PostedMessage) (inPush : Bool) :
    Option (NodeBase × ThreadSafeQueue PostedMessage) :=
  if node.inHandler then
    if inPush then
      if node.pc.pushes && q.running && q.isFull then
        some (node.goto .loopHead, { q with queue := q.queue.tail })
      else none
    else some (node.goto .loopHead, q)
  else none

def noticeDone (node : NodeBase) : Bool :=
  match node.pc with
  | .resetPong (.retry _) | .sendPing (.retry _) | .pushPing (.retry _) _
  | .waitPong (.retry _) | .retriesOver _ => true
  | .deadToInit | .deadStop => true
  | _ => false

end NodeBase

/-- The monitoring system with the node whose destructor `handleSendData` is in, if any. -/
structure FaultyMonitor where
  monitor : Monitor
  joining : Option NodeBase
  tally : Nat → NoticeTally

def FaultyMonitor.initial : FaultyMonitor := ⟨.initial, none, fun _ => .zero⟩

inductive FaultyEvent
  | run (event : MonitorEvent)
  | throwException (index : Nat) (inPush : Bool)
  | joiningStep (now : Bytes) (timedOut : Bool)
  | joiningThrow (inPush : Bool)
  | joined

def MonitorEvent.ofSendData : MonitorEvent → Bool
  | .waitAndPop | .checkRunning | .handleMessage => true
  | _ => false

namespace FaultyMonitor

def recorded (faulty : FaultyMonitor) (node after : NodeBase) (pushed : Option StrMessageState) :
    Nat → NoticeTally :=
  Function.update faulty.tally node.serial
    ((faulty.tally node.serial).record node after pushed)

def tallyAfter (faulty : FaultyMonitor) : MonitorEvent → Nat → NoticeTally
  | .nodeStep index now timedOut =>
      match faulty.monitor.registry.vecNodeBase[index]? with
      | none => faulty.tally
      | some node =>
          match node.threadStep faulty.monitor.registry.nodeID now timedOut with
          | none => faulty.tally
          | some (after, pushed) => faulty.recorded node after pushed
  | _ => faulty.tally

def joiningAfter (faulty : FaultyMonitor) : MonitorEvent → Option NodeBase
  | .handleMessage =>
      if faulty.monitor.nodeHandleThread.item.message.isDead then
        toMap NodeBase.getPortInfo faulty.monitor.registry.vecNodeBase
          faulty.monitor.nodeHandleThread.item.message.clientAddr.sinPort
      else none
  | _ => faulty.joining

def step (faulty : FaultyMonitor) : FaultyEvent → Option FaultyMonitor
  | .run event =>
      if faulty.joining.isSome && event.ofSendData then none
      else (faulty.monitor.step event).map fun monitor =>
        ⟨monitor, faulty.joiningAfter event, faulty.tallyAfter event⟩
  | .throwException index inPush =>
      match faulty.monitor.registry.vecNodeBase[index]? with
      | none => none
      | some node =>
          (node.throwException faulty.monitor.messageNodeQueue inPush).map fun (after, q) =>
            { faulty with monitor := { faulty.monitor with
                registry := { faulty.monitor.registry with
                  vecNodeBase := faulty.monitor.registry.vecNodeBase.set index after }
                messageNodeQueue := q } }
  | .joiningStep now timedOut =>
      match faulty.joining with
      | none => none
      | some node =>
          (node.threadStep faulty.monitor.registry.nodeID now timedOut).map fun (after, pushed) =>
            { monitor := { faulty.monitor with
                messageNodeQueue :=
                  match pushed with
                  | some message =>
                      faulty.monitor.messageNodeQueue.push ⟨message, node.serial⟩ true
                  | none => faulty.monitor.messageNodeQueue }
              joining := some after
              tally := faulty.recorded node after pushed }
  | .joiningThrow inPush =>
      match faulty.joining with
      | none => none
      | some node =>
          (node.throwException faulty.monitor.messageNodeQueue inPush).map fun (after, q) =>
            { faulty with
              monitor := { faulty.monitor with messageNodeQueue := q }
              joining := some after }
  | .joined =>
      match faulty.joining with
      | none => none
      | some node => if node.pc = .exited then some { faulty with joining := none } else none

/-- No exception comes after the notification of a state that the node has not left. -/
def throwsInTime (faulty : FaultyMonitor) : FaultyEvent → Bool
  | .throwException index _ =>
      match faulty.monitor.registry.vecNodeBase[index]? with
      | some node => !node.noticeDone
      | none => true
  | .joiningThrow _ =>
      match faulty.joining with
      | some node => !node.noticeDone
      | none => true
  | _ => true

def ThrowsInTime (faulty : FaultyMonitor) (event : FaultyEvent) : Prop :=
  faulty.throwsInTime event = true

/-- At most one TIMEOUT notification for each entry into TIMEOUT, at most one DEAD notification for
each node object, and what a pending DEAD message will erase is its sender, past its DEAD. -/
structure NoticesOnce (faulty : FaultyMonitor) : Prop where
  timeouts : ∀ nodeID, (faulty.tally nodeID).timeouts ≤ 1
  deads : ∀ nodeID, (faulty.tally nodeID).deads ≤ 1
  erased : ∀ posted ∈ faulty.monitor.pending, posted.message.isDead = true →
    ∀ node ∈ faulty.monitor.registry.vecNodeBase,
      node.getPortInfo = posted.message.clientAddr.sinPort →
        node.serial = posted.sender ∧ node.pushedDead = true

end FaultyMonitor

namespace NodeBase

structure Tallied (node : NodeBase) (tally : NoticeTally) : Prop where
  timeouts : node.currentState = .timeout → tally.timeouts = node.noticeDone.toNat
  deads : tally.deads = node.pushedDead.toNat

variable {node after : NodeBase} {tally : NoticeTally}

@[simp] theorem pingMessage_isTimeout (node : NodeBase) (nodeID : Int) :
    (node.pingMessage nodeID).isTimeout = false := rfl

theorem threadStep_noticeDone {nodeID : Int} {now : Bytes} {timedOut : Bool}
    {pushed : Option StrMessageState} (coherent : node.Coherent)
    (step : node.threadStep nodeID now timedOut = some (after, pushed))
    (state : after.currentState = .timeout) :
    (node.currentState = .timeout → after.noticeDone.toNat =
        node.noticeDone.toNat + (pushed.any StrMessageState.isTimeout).toNat) ∧
      (node.currentState ≠ .timeout → after.noticeDone = false) := by
  cases threadStep_move step with
  | loopHead position =>
      cases running : node.running <;> cases here : node.currentState <;>
        simp_all [handleThread, noticeDone]
  | resetPong site position | sendPing site position | pushPing site readID position =>
      simp only [Coherent, position] at coherent
      have here : node.currentState = .timeout := state
      cases site with
      | init => simp [here, PingSite.state] at coherent
      | alive => simp [here, PingSite.state] at coherent
      | retry retryTime => simp [noticeDone, position, here, pingMessage_isTimeout]
  | waitPong site woken position ended =>
      simp only [Coherent, position] at coherent
      obtain ⟨running, here, _⟩ := coherent
      cases site with
      | init =>
          cases woken <;>
            simp_all [afterWait, initAfterWait, PingSite.state, changeState_currentState,
              noticeDone]
      | alive =>
          cases woken <;> simp_all [afterWait, aliveAfterWait, PingSite.state, noticeDone]
      | retry retryTime =>
          simp only [PingSite.state] at here
          cases woken with
          | true =>
              simp [afterWait, retryAfterWait, running, changeState_currentState, here]
                at state
          | false =>
              simp only [afterWait, retryAfterWait, Bool.false_eq_true, if_false, retryLoop]
              split_ifs <;> simp [noticeDone, position, here]
  | notifyTimeout position =>
      simp only [Coherent, position] at coherent
      simp [retryLoop, retryNum, noticeDone, position, coherent.2, StrMessageState.isTimeout,
        timeoutMessage, StrMessageState.saveTime]
  | retriesOver retryTime position =>
      simp only [Coherent, position] at coherent
      simp [afterRetries, changeState_currentState, coherent] at state
  | deadToInit position =>
      simp only [Coherent, position] at coherent
      simp [changeState_currentState, coherent.2] at state
  | deadStop position =>
      simp only [Coherent, position] at coherent
      simp [stop, coherent.1, coherent.2] at state
  | sleepPing _ position | notifyDead position =>
      simp only [Coherent, position] at coherent
      simp [coherent.2] at state

theorem due_of_isTimeout {nodeID : Int} {now : Bytes} {timedOut : Bool}
    {pushed : Option StrMessageState} (coherent : node.Coherent)
    (step : node.threadStep nodeID now timedOut = some (after, pushed))
    (notice : pushed.any StrMessageState.isTimeout = true) :
    node.currentState = .timeout ∧ node.noticeDone = false := by
  cases threadStep_move step with
  | notifyTimeout position =>
      simp only [Coherent, position] at coherent
      exact ⟨coherent.2, by simp [noticeDone, position]⟩
  | pushPing site readID position => simp at notice
  | notifyDead position =>
      simp only [Coherent, position] at coherent
      simp [StrMessageState.isTimeout, deadMessage, StrMessageState.saveTime, coherent.2]
        at notice
  | _ => simp at notice

theorem Tallied.record_timeouts_le {nodeID : Int} {now : Bytes} {timedOut : Bool}
    {pushed : Option StrMessageState} (tallied : node.Tallied tally) (coherent : node.Coherent)
    (step : node.threadStep nodeID now timedOut = some (after, pushed))
    (bounded : tally.timeouts ≤ 1) : (tally.record node after pushed).timeouts ≤ 1 := by
  unfold NoticeTally.record
  split
  · simp
  · cases notice : pushed.any StrMessageState.isTimeout with
    | false => simpa using bounded
    | true =>
        obtain ⟨state, due⟩ := due_of_isTimeout coherent step notice
        simp [tallied.timeouts state, due]

theorem Tallied.record_deads_le {nodeID : Int} {now : Bytes} {timedOut : Bool}
    {pushed : Option StrMessageState} (tallied : node.Tallied tally) (coherent : node.Coherent)
    (step : node.threadStep nodeID now timedOut = some (after, pushed))
    (bounded : tally.deads ≤ 1) : (tally.record node after pushed).deads ≤ 1 := by
  have order := (threadStep_spec coherent step).2
  unfold NoticeTally.record
  cases pushed with
  | none => simpa using bounded
  | some message =>
      have living : node.pushedDead = false := order.2.2.1
      cases dead : message.isDead <;> simp [tallied.deads, living, dead]

theorem Tallied.record {nodeID : Int} {now : Bytes} {timedOut : Bool}
    {pushed : Option StrMessageState} (tallied : node.Tallied tally) (coherent : node.Coherent)
    (step : node.threadStep nodeID now timedOut = some (after, pushed)) :
    after.Tallied (tally.record node after pushed) := by
  have order := (threadStep_spec coherent step).2
  constructor
  · intro state
    obtain ⟨stays, enters⟩ := threadStep_noticeDone coherent step state
    unfold NoticeTally.record
    by_cases here : node.currentState = .timeout
    · simp [here, tallied.timeouts here, stays here]
    · simp [here, state, enters here]
  · unfold NoticeTally.record
    cases pushed with
    | none =>
        have same : after.pushedDead = node.pushedDead := order
        simp [tallied.deads, same]
    | some message =>
        have living : node.pushedDead = false := order.2.2.1
        have last : after.pushedDead = message.isDead := order.2.2.2
        simp [tallied.deads, living, last]

theorem throwException_goto {q rest : ThreadSafeQueue PostedMessage} {inPush : Bool}
    (thrown : node.throwException q inPush = some (after, rest)) :
    after = node.goto .loopHead ∧ rest.running = q.running ∧ rest.queue.Sublist q.queue := by
  simp only [throwException, Option.ite_none_right_eq_some] at thrown
  obtain ⟨_, thrown⟩ := thrown
  cases inPush with
  | false =>
      simp only [Bool.false_eq_true, if_false, Option.some.injEq, Prod.mk.injEq] at thrown
      obtain ⟨rfl, rfl⟩ := thrown
      exact ⟨rfl, rfl, List.Sublist.refl _⟩
  | true =>
      simp only [if_true, Option.ite_none_right_eq_some, Option.some.injEq, Prod.mk.injEq]
        at thrown
      obtain ⟨_, rfl, rfl⟩ := thrown
      exact ⟨rfl, rfl, List.tail_sublist _⟩

theorem timeout_of_noticeDone (coherent : node.Coherent) (done : node.noticeDone = true)
    (living : node.pushedDead = false) : node.currentState = .timeout := by
  cases position : node.pc with
  | resetPong site | sendPing site | pushPing site _ | waitPong site =>
      simp only [Coherent, position] at coherent
      cases site with
      | retry retryTime => exact coherent.2.1
      | init => simp [noticeDone, position] at done
      | alive => simp [noticeDone, position] at done
  | retriesOver retryTime =>
      simp only [Coherent, position] at coherent
      exact coherent.2.1
  | _ => simp [noticeDone, pushedDead, position] at done living

theorem throwException_safe {q rest : ThreadSafeQueue PostedMessage} {inPush : Bool}
    (coherent : node.Coherent) (tallied : node.Tallied tally) (safe : node.noticeDone = false)
    (thrown : node.throwException q inPush = some (after, rest)) :
    after.Coherent ∧ after.Tallied tally ∧ SameIdentity node after ∧
      after.pushedDead = node.pushedDead := by
  obtain ⟨rfl, _⟩ := throwException_goto thrown
  have handling : node.inHandler = true := by
    simp only [throwException, Option.ite_none_right_eq_some] at thrown
    exact thrown.1
  have living : node.running = true ∧ node.pushedDead = false ∧ node.currentState ≠ .max := by
    cases position : node.pc with
    | unstarted | loopHead | exited => simp [inHandler, position] at handling
    | retriesOver | deadToInit | deadStop => simp [noticeDone, position] at safe
    | resetPong site | sendPing site | pushPing site _ | waitPong site =>
        simp only [Coherent, position] at coherent
        refine ⟨coherent.1, by simp [pushedDead, position], ?_⟩
        rw [coherent.2.1]
        cases site <;> simp [PingSite.state]
    | sleepPing _ | notifyTimeout | notifyDead =>
        simp only [Coherent, position] at coherent
        simp [pushedDead, position, coherent]
  obtain ⟨running, past, known⟩ := living
  have back : (node.goto .loopHead).pushedDead = false := by simp [pushedDead, running]
  refine ⟨known, ⟨?_, ?_⟩, goto_identity node _, back.trans past.symm⟩
  · intro state
    rw [tallied.timeouts state, safe]
    rfl
  · rw [tallied.deads, past, back]

end NodeBase

namespace FaultyMonitor

structure Invariant (faulty : FaultyMonitor) : Prop where
  monitored : faulty.monitor.Invariant
  fresh : ∀ nodeID, faulty.monitor.registry.made < nodeID → faulty.tally nodeID = .zero
  timeouts : ∀ nodeID, (faulty.tally nodeID).timeouts ≤ 1
  deads : ∀ nodeID, (faulty.tally nodeID).deads ≤ 1
  tallied : ∀ node ∈ faulty.monitor.registry.vecNodeBase,
    node.Tallied (faulty.tally node.serial)
  leaving : ∀ node, faulty.joining = some node → node.Coherent ∧ node.pushedDead = true ∧
    (faulty.tally node.serial).deads = 1 ∧
      node.serial ≤ faulty.monitor.registry.made ∧
        ∀ other ∈ faulty.monitor.registry.vecNodeBase, other.serial ≠ node.serial

theorem initial_invariant : initial.Invariant :=
  ⟨Monitor.initial_invariant, fun _ _ => rfl, fun _ => by simp [initial, NoticeTally.zero],
    fun _ => by simp [initial, NoticeTally.zero],
    by simp [initial, Monitor.initial, Registry.empty], by simp [initial]⟩

variable {faulty after : FaultyMonitor}

theorem Invariant.noticesOnce (inv : faulty.Invariant) : faulty.NoticesOnce := by
  refine ⟨inv.timeouts, inv.deads, ?_⟩
  intro posted waiting dead node member port
  obtain ⟨sender, present, sent⟩ := inv.monitored.sent.senders posted waiting
  have same : node = sender := inv.monitored.formed.eq_of_getPortInfo member present
    (port.trans (congrArg SockaddrIn.sinPort sent.2.symm))
  subst same
  exact ⟨sent.1, inv.monitored.sent.deadPushed posted waiting dead node member sent.1⟩

theorem Invariant.moveNode (inv : faulty.Invariant) {index : Nat} {node moved : NodeBase}
    {tally : NoticeTally} {monitor : Monitor}
    (found : faulty.monitor.registry.vecNodeBase[index]? = some node)
    (monitored : monitor.Invariant)
    (registry : monitor.registry = { faulty.monitor.registry with
      vecNodeBase := faulty.monitor.registry.vecNodeBase.set index moved })
    (same : node.SameIdentity moved) (tallied : moved.Tallied tally)
    (timeouts : tally.timeouts ≤ 1) (deads : tally.deads ≤ 1) :
    Invariant ⟨monitor, faulty.joining,
      Function.update faulty.tally node.serial tally⟩ := by
  have member := List.mem_of_getElem? found
  obtain ⟨inside, _⟩ := List.getElem?_eq_some_iff.mp found
  have placed : moved ∈ monitor.registry.vecNodeBase := by
    rw [registry]
    exact List.mem_set inside moved
  have elsewhere : ∀ other ∈ monitor.registry.vecNodeBase,
      other.serial ≠ node.serial → other ∈ faulty.monitor.registry.vecNodeBase := by
    intro other present differs
    rw [registry] at present
    rcases List.mem_or_eq_of_mem_set present with old | rfl
    · exact old
    · exact absurd same.2.1 differs
  refine ⟨monitored, ?_, ?_, ?_, ?_, ?_⟩
  · intro nodeID beyond
    rw [registry] at beyond
    have counted := inv.monitored.formed.counted node member
    have differs : nodeID ≠ node.serial := by
      rintro rfl
      exact absurd beyond (not_lt.mpr counted)
    simpa only [Function.update_of_ne differs] using inv.fresh nodeID beyond
  · intro nodeID
    by_cases here : nodeID = node.serial
    · simpa only [here, Function.update_self] using timeouts
    · simpa only [Function.update_of_ne here] using inv.timeouts nodeID
  · intro nodeID
    by_cases here : nodeID = node.serial
    · simpa only [here, Function.update_self] using deads
    · simpa only [Function.update_of_ne here] using inv.deads nodeID
  · intro other present
    by_cases here : other.serial = node.serial
    · have equal := monitored.formed.eq_of_serial present placed
        (here.trans same.2.1.symm)
      subst equal
      simpa only [here, Function.update_self] using tallied
    · simpa only [Function.update_of_ne here] using
        inv.tallied other (elsewhere other present here)
  · intro left joining
    obtain ⟨coherent, past, notified, counted, differs⟩ := inv.leaving left joining
    refine ⟨coherent, past, ?_, by rw [registry]; exact counted, ?_⟩
    · simpa only [Function.update_of_ne (Ne.symm (differs node member))] using notified
    intro other present
    by_cases here : other.serial = node.serial
    · exact here ▸ differs node member
    · exact differs other (elsewhere other present here)

theorem Invariant.keepNodes (inv : faulty.Invariant) {monitor : Monitor}
    (monitored : monitor.Invariant) (registry : monitor.registry = faulty.monitor.registry) :
    Invariant ⟨monitor, faulty.joining, faulty.tally⟩ :=
  ⟨monitored, registry ▸ inv.fresh, inv.timeouts, inv.deads, registry ▸ inv.tallied,
    registry ▸ inv.leaving⟩

theorem register_invariant (inv : faulty.Invariant) (packet : RigisterPacket) :
    Invariant ⟨{ faulty.monitor with
      registry := faulty.monitor.registry.checkRegisterMessage packet }, faulty.joining,
        faulty.tally⟩ := by
  have monitored : Monitor.Invariant { faulty.monitor with
      registry := faulty.monitor.registry.checkRegisterMessage packet } := by
    have taken : faulty.monitor.step (.register packet) = some _ := rfl
    exact Monitor.step_invariant inv.monitored taken
  rw [Registry.checkRegisterMessage_eq] at monitored ⊢
  split
  next added =>
    rw [if_pos added] at monitored
    refine ⟨monitored, ?_, inv.timeouts, inv.deads, ?_, ?_⟩
    · intro nodeID beyond
      exact inv.fresh nodeID (by simp only at beyond; omega)
    · intro node member
      rcases List.mem_append.mp member with old | new
      · exact inv.tallied node old
      · simp only [List.mem_singleton] at new
        subst new
        have untouched := inv.fresh (faulty.monitor.registry.made + 1) (by omega)
        simp only [RigisterPacket.newNode_serial, untouched]
        exact ⟨fun _ => by simp [NoticeTally.zero, NodeBase.noticeDone, RigisterPacket.newNode,
          NodeBase.create, NodeBase.setClientInfor, NodeBase.start],
          by simp [NoticeTally.zero, RigisterPacket.newNode_pushedDead]⟩
    · intro node joining
      obtain ⟨coherent, past, notified, counted, differs⟩ := inv.leaving node joining
      refine ⟨coherent, past, notified, by simp only; omega, ?_⟩
      intro other present
      rcases List.mem_append.mp present with old | new
      · exact differs other old
      · simp only [List.mem_singleton] at new
        simp only [new, RigisterPacket.newNode_serial]
        omega
  next unchanged => exact inv

theorem pong_invariant (inv : faulty.Invariant) (packet : Packet)
    (monitored : Monitor.Invariant { faulty.monitor with
      registry := faulty.monitor.registry.checkPongMessage packet }) :
    Invariant ⟨{ faulty.monitor with
      registry := faulty.monitor.registry.checkPongMessage packet }, faulty.joining,
        faulty.tally⟩ := by
  have origin : ∀ node ∈ (faulty.monitor.registry.checkPongMessage packet).vecNodeBase,
      ∃ old ∈ faulty.monitor.registry.vecNodeBase, node.serial = old.serial ∧
        ∀ tally, old.Tallied tally → node.Tallied tally := by
    intro node member
    rw [Registry.checkPongMessage_eq] at member
    rcases mem_updateFirst member with old | ⟨old, present, _, rfl⟩
    · exact ⟨node, old, rfl, fun _ => id⟩
    · exact ⟨old, present, rfl, fun _ tallied => ⟨tallied.timeouts, tallied.deads⟩⟩
  have counter : (faulty.monitor.registry.checkPongMessage packet).made =
      faulty.monitor.registry.made := by rw [Registry.checkPongMessage_eq]
  refine ⟨monitored, ?_, inv.timeouts, inv.deads, ?_, ?_⟩
  · intro nodeID beyond
    exact inv.fresh nodeID (by simpa only [counter] using beyond)
  · intro node member
    obtain ⟨old, present, same, tallied⟩ := origin node member
    rw [same]
    exact tallied _ (inv.tallied old present)
  · intro node joining
    obtain ⟨coherent, past, notified, counted, differs⟩ := inv.leaving node joining
    refine ⟨coherent, past, notified, by simpa only [counter] using counted, ?_⟩
    intro other member
    obtain ⟨old, present, same, _⟩ := origin other member
    exact same ▸ differs old present

theorem handleMessage_invariant (inv : faulty.Invariant)
    (working : faulty.monitor.nodeHandleThread.pc = .working)
    (free : faulty.joining = none) {monitor : Monitor} (monitored : monitor.Invariant)
    (registry : monitor.registry = (faulty.monitor.registry.handleMessage
      faulty.monitor.nodeHandleThread.item.message).1) :
    Invariant ⟨monitor, faulty.joiningAfter .handleMessage, faulty.tally⟩ := by
  have pending := inv.monitored.item_mem_pending working
  rw [Registry.handleMessage_registry] at registry
  cases dead : faulty.monitor.nodeHandleThread.item.message.isDead with
  | false =>
      simp only [dead, Bool.false_eq_true, if_false] at registry
      have kept := inv.keepNodes monitored registry
      simpa [joiningAfter, dead, free] using kept
  | true =>
      simp only [dead, if_true] at registry
      have fewer : ∀ node ∈ monitor.registry.vecNodeBase,
          node ∈ faulty.monitor.registry.vecNodeBase ∧
            node.getPortInfo ≠ faulty.monitor.nodeHandleThread.item.message.clientAddr.sinPort := by
        intro node member
        rw [registry] at member
        exact (mem_eraseFirst_iff inv.monitored.formed.ports).mp member
      have counter : monitor.registry.made = faulty.monitor.registry.made := by rw [registry]
      refine ⟨monitored, counter ▸ inv.fresh, inv.timeouts, inv.deads, ?_, ?_⟩
      · exact fun node member => inv.tallied node (fewer node member).1
      · intro erased joining
        simp only [joiningAfter, dead, if_true] at joining
        have present := List.mem_of_find?_eq_some joining
        have port := List.find?_some joining
        simp only [decide_eq_true_eq] at port
        obtain ⟨_, past⟩ := inv.noticesOnce.erased _ pending dead erased present port
        refine ⟨inv.monitored.formed.coherent erased present, past,
          by rw [(inv.tallied erased present).deads, past]; rfl,
          by rw [counter]; exact inv.monitored.formed.counted erased present, ?_⟩
        intro other member same
        obtain ⟨old, differs⟩ := fewer other member
        have equal := inv.monitored.formed.eq_of_serial old present same
        exact differs (equal ▸ port)

theorem run_invariant (inv : faulty.Invariant) {event : MonitorEvent}
    (taken : faulty.step (.run event) = some after) : after.Invariant := by
  simp only [step, Option.ite_none_left_eq_some] at taken
  obtain ⟨free, moves⟩ := taken
  obtain ⟨monitor, taken, rfl⟩ := Option.map_eq_some_iff.mp moves
  have monitored := Monitor.step_invariant inv.monitored taken
  cases Monitor.step_move taken with
  | @nodeStep index now timedOut _ stepped =>
      obtain ⟨node, moved, pushed, found, step, rfl⟩ := Monitor.nodeStep_cases stepped
      have member := List.mem_of_getElem? found
      have coherent := inv.monitored.formed.coherent node member
      have tallied := inv.tallied node member
      have tally : faulty.tallyAfter (.nodeStep index now timedOut) =
          faulty.recorded node moved pushed := by simp [tallyAfter, found, step]
      rw [tally]
      exact inv.moveNode found monitored rfl (NodeBase.threadStep_identity step)
        (tallied.record coherent step)
        (tallied.record_timeouts_le coherent step (inv.timeouts _))
        (tallied.record_deads_le coherent step (inv.deads _))
  | register packet => exact register_invariant inv packet
  | pong packet => exact pong_invariant inv packet monitored
  | handleMessage working =>
      have none_ : faulty.joining = none := by
        simpa [MonitorEvent.ofSendData] using free
      exact handleMessage_invariant inv working none_ monitored rfl
  | waitAndPop | checkRunning | startAgain | start | stopAgain | stop =>
      exact inv.keepNodes monitored rfl
  | proceed proceeded => exact inv.keepNodes monitored (Monitor.proceed_cases proceeded).2.2.2.1

theorem throwException_invariant (inv : faulty.Invariant) {index : Nat} {inPush : Bool}
    (safe : faulty.throwsInTime (.throwException index inPush) = true)
    (taken : faulty.step (.throwException index inPush) = some after) : after.Invariant := by
  simp only [step] at taken
  split at taken
  next => simp at taken
  next node found =>
    obtain ⟨⟨moved, rest⟩, thrown, rfl⟩ := Option.map_eq_some_iff.mp taken
    simp only [throwsInTime, found, Bool.not_eq_true'] at safe
    have member := List.mem_of_getElem? found
    obtain ⟨coherent, tallied, same, past⟩ := NodeBase.throwException_safe
      (inv.monitored.formed.coherent node member) (inv.tallied node member) safe thrown
    obtain ⟨_, running, fewer⟩ := NodeBase.throwException_goto thrown
    have monitored : Monitor.Invariant { faulty.monitor with
        registry := { faulty.monitor.registry with
          vecNodeBase := faulty.monitor.registry.vecNodeBase.set index moved }
        messageNodeQueue := rest } := by
      refine ⟨by rw [running]; exact inv.monitored.handshake,
        inv.monitored.formed.set found same coherent, ?_⟩
      exact (inv.monitored.sent.set found same fun was => past.trans was).sublist
        (fewer.append_left _)
    have kept := inv.moveNode found monitored rfl same tallied (inv.timeouts _) (inv.deads _)
    simpa only [Function.update_eq_self] using kept

theorem joiningStep_invariant (inv : faulty.Invariant) {now : Bytes} {timedOut : Bool}
    (taken : faulty.step (.joiningStep now timedOut) = some after) : after.Invariant := by
  simp only [step] at taken
  split at taken
  next => simp at taken
  next node joining =>
    obtain ⟨⟨moved, pushed⟩, stepped, rfl⟩ := Option.map_eq_some_iff.mp taken
    obtain ⟨coherent, past, notified, counted, differs⟩ := inv.leaving node joining
    obtain ⟨coherentAfter, order⟩ := NodeBase.threadStep_spec coherent stepped
    have same := NodeBase.threadStep_identity stepped
    cases pushed with
    | some message => simp [NodeBase.PushesInOrder, past] at order
    | none =>
        have fewer : ((faulty.tally node.serial).record node moved none).timeouts ≤
            (faulty.tally node.serial).timeouts := by
          unfold NoticeTally.record
          split <;> simp
        refine ⟨inv.monitored, ?_, ?_, ?_, ?_, ?_⟩
        · intro nodeID beyond
          have elsewhere : nodeID ≠ node.serial := by
            rintro rfl
            exact absurd beyond (not_lt.mpr counted)
          simpa only [recorded, Function.update_of_ne elsewhere] using inv.fresh nodeID beyond
        · intro nodeID
          by_cases here : nodeID = node.serial
          · subst here
            simpa only [recorded, Function.update_self] using fewer.trans (inv.timeouts _)
          · simpa only [recorded, Function.update_of_ne here] using inv.timeouts nodeID
        · intro nodeID
          by_cases here : nodeID = node.serial
          · subst here
            simpa [recorded, NoticeTally.record] using inv.deads _
          · simpa only [recorded, Function.update_of_ne here] using inv.deads nodeID
        · intro other member
          simpa only [recorded, Function.update_of_ne (differs other member)] using
            inv.tallied other member
        · rintro left ⟨rfl⟩
          refine ⟨coherentAfter, order.trans past, ?_, same.2.1 ▸ counted, ?_⟩
          · rw [same.2.1]
            simpa [recorded, NoticeTally.record] using notified
          · rw [same.2.1]
            exact differs

theorem step_invariant {event : FaultyEvent} (inv : faulty.Invariant)
    (safe : faulty.ThrowsInTime event) (taken : faulty.step event = some after) :
    after.Invariant := by
  cases event with
  | run event => exact run_invariant inv taken
  | throwException index inPush => exact throwException_invariant inv safe taken
  | joiningStep now timedOut => exact joiningStep_invariant inv taken
  | joiningThrow inPush =>
      simp only [step] at taken
      split at taken
      next => simp at taken
      next node joining =>
        obtain ⟨⟨moved, rest⟩, thrown, rfl⟩ := Option.map_eq_some_iff.mp taken
        obtain ⟨coherent, past, _⟩ := inv.leaving node joining
        simp only [ThrowsInTime, throwsInTime, joining, Bool.not_eq_true'] at safe
        simp only [NodeBase.throwException, Option.ite_none_right_eq_some] at thrown
        cases position : node.pc <;>
          simp [NodeBase.pushedDead, NodeBase.inHandler, NodeBase.noticeDone, position]
            at past safe thrown
  | joined =>
      simp only [step] at taken
      split at taken
      next => simp at taken
      next node joining =>
        simp only [Option.ite_none_right_eq_some, Option.some.injEq] at taken
        obtain ⟨_, rfl⟩ := taken
        exact ⟨inv.monitored, inv.fresh, inv.timeouts, inv.deads, inv.tallied, by simp⟩

def soloStep (nodeID : Int) (alone : NodeBase × NoticeTally) (_ : Unit) :
    Option (NodeBase × NoticeTally) :=
  (alone.1.threadStep nodeID [] true).map fun (moved, pushed) =>
    (moved, alone.2.record alone.1 moved pushed)

theorem repeats_notice {node : NodeBase} {tally : NoticeTally} (nodeID : Int)
    (coherent : node.Coherent) (done : node.noticeDone = true)
    (waiting : node.pushedDead = false → tally.timeouts = 1)
    (notified : node.pushedDead = true → tally.deads = 1) :
    ∃ steps last, runFrom (soloStep nodeID) (node.goto .loopHead, tally)
        (List.replicate steps ()) = some last ∧ (last.2.timeouts = 2 ∨ last.2.deads = 2) := by
  obtain ⟨type, serial, currentState, clientAddr, running, pongState, pc⟩ := node
  obtain ⟨timeouts, deads⟩ := tally
  cases pc with
  | resetPong site | sendPing site | pushPing site _ | waitPong site =>
      cases site with
      | retry retryTime =>
          obtain ⟨rfl, rfl, _⟩ := coherent
          obtain rfl : timeouts = 1 := waiting rfl
          exact ⟨2, _, rfl, .inl rfl⟩
      | init => simp [NodeBase.noticeDone] at done
      | alive => simp [NodeBase.noticeDone] at done
  | retriesOver retryTime =>
      obtain ⟨rfl, rfl, _⟩ := coherent
      obtain rfl : timeouts = 1 := waiting rfl
      exact ⟨2, _, rfl, .inl rfl⟩
  | deadToInit =>
      obtain ⟨rfl, rfl⟩ := coherent
      obtain rfl : deads = 1 := notified rfl
      exact ⟨2, _, rfl, .inr rfl⟩
  | deadStop =>
      obtain ⟨rfl, rfl⟩ := coherent
      obtain rfl : deads = 1 := notified rfl
      cases pongState <;> exact ⟨30, _, rfl, .inr rfl⟩
  | _ => simp [NodeBase.noticeDone] at done

def RunsAt (place : FaultyMonitor → NodeBase → Prop) : Prop :=
  ∀ faulty node moved pushed, place faulty node →
    node.threadStep faulty.monitor.registry.nodeID [] true = some (moved, pushed) →
      ∃ event next, faulty.step event = some next ∧ place next moved ∧
        next.tally = faulty.recorded node moved pushed ∧
          next.monitor.registry.made = faulty.monitor.registry.made

theorem runsAt_index (index : Nat) :
    RunsAt fun faulty node => faulty.monitor.registry.vecNodeBase[index]? = some node := by
  intro faulty node moved pushed found taken
  have inside := (List.getElem?_eq_some_iff.mp found).1
  let queue :=
    match pushed with
    | some message => faulty.monitor.messageNodeQueue.push ⟨message, node.serial⟩ true
    | none => faulty.monitor.messageNodeQueue
  let next : FaultyMonitor :=
    ⟨{ faulty.monitor with
        registry := { faulty.monitor.registry with
          vecNodeBase := faulty.monitor.registry.vecNodeBase.set index moved }
        messageNodeQueue := queue }, faulty.joining, faulty.recorded node moved pushed⟩
  have moves : faulty.step (.run (.nodeStep index [] true)) = some next := by
    simp only [step, MonitorEvent.ofSendData, Bool.and_false, Bool.false_eq_true, if_false,
      Monitor.step, Monitor.nodeStep, found, taken, Option.map_some, joiningAfter, tallyAfter]
    rfl
  exact ⟨_, next, moves, List.getElem?_set_self inside, rfl, rfl⟩

theorem runsAt_joining : RunsAt fun faulty node => faulty.joining = some node := by
  intro faulty node moved pushed joining taken
  let queue :=
    match pushed with
    | some message => faulty.monitor.messageNodeQueue.push ⟨message, node.serial⟩ true
    | none => faulty.monitor.messageNodeQueue
  let next : FaultyMonitor :=
    ⟨{ faulty.monitor with messageNodeQueue := queue }, some moved,
      faulty.recorded node moved pushed⟩
  have moves : faulty.step (.joiningStep [] true) = some next := by
    simp only [step, joining, taken, Option.map_some]
    rfl
  exact ⟨_, next, moves, rfl, rfl, rfl⟩

theorem reaches_solo {place : FaultyMonitor → NodeBase → Prop} (runs : RunsAt place)
    {steps : Nat} {node : NodeBase} {last : NodeBase × NoticeTally} (here : place faulty node)
    (run : runFrom (soloStep faulty.monitor.registry.nodeID)
      (node, faulty.tally node.serial) (List.replicate steps ()) = some last) :
    ∃ final, Reaches step anyStep faulty final ∧ final.tally node.serial = last.2 := by
  induction steps generalizing faulty node with
  | zero =>
      obtain rfl := Option.some.inj run
      exact ⟨faulty, .refl, rfl⟩
  | succ steps ih =>
      obtain ⟨middle, stepped, rest⟩ := Option.bind_eq_some_iff.mp run
      obtain ⟨⟨moved, pushed⟩, taken, rfl⟩ := Option.map_eq_some_iff.mp stepped
      have same := (NodeBase.threadStep_identity taken).2.1
      obtain ⟨event, next, moves, there, tally, counter⟩ := runs _ _ _ _ here taken
      have tallied : next.tally moved.serial =
          (faulty.tally node.serial).record node moved pushed := by
        rw [tally, same, recorded, Function.update_self]
      have nodeID : next.monitor.registry.nodeID = faulty.monitor.registry.nodeID :=
        congrArg int32 counter
      obtain ⟨final, reached, last⟩ := ih there (by rw [nodeID, tallied]; exact rest)
      exact ⟨final, (Reaches.refl.step trivial moves).trans reached, same ▸ last⟩

theorem Invariant.repeats (inv : faulty.Invariant) {event : FaultyEvent}
    (late : ¬faulty.ThrowsInTime event) (taken : faulty.step event = some after) :
    ∃ final, Reaches step anyStep after final ∧ ¬final.NoticesOnce := by
  have repeated {place : FaultyMonitor → NodeBase → Prop} {node : NodeBase} (runs : RunsAt place)
      (there : place after (node.goto .loopHead)) (tally : after.tally = faulty.tally)
      (coherent : node.Coherent) (done : node.noticeDone = true)
      (waiting : node.pushedDead = false → (faulty.tally node.serial).timeouts = 1)
      (notified : node.pushedDead = true → (faulty.tally node.serial).deads = 1) :
      ∃ final, Reaches step anyStep after final ∧ ¬final.NoticesOnce := by
    obtain ⟨steps, last, run, twice⟩ :=
      repeats_notice after.monitor.registry.nodeID coherent done waiting notified
    obtain ⟨final, reached, same⟩ := reaches_solo runs there (by rw [tally]; exact run)
    refine ⟨final, reached, fun once => ?_⟩
    have timeouts := once.timeouts (node.goto .loopHead).serial
    have deads := once.deads (node.goto .loopHead).serial
    rw [same] at timeouts deads
    omega
  cases event with
  | throwException index inPush =>
      simp only [step] at taken
      split at taken
      next => simp at taken
      next node found =>
        obtain ⟨⟨moved, rest⟩, thrown, rfl⟩ := Option.map_eq_some_iff.mp taken
        simp only [ThrowsInTime, throwsInTime, found, Bool.not_eq_true', Bool.not_eq_false]
          at late
        have member := List.mem_of_getElem? found
        have coherent := inv.monitored.formed.coherent node member
        have tallied := inv.tallied node member
        obtain rfl := (NodeBase.throwException_goto thrown).1
        refine repeated (runsAt_index index)
          (List.getElem?_set_self (List.getElem?_eq_some_iff.mp found).1) rfl coherent late ?_ ?_
        · intro living
          rw [tallied.timeouts (NodeBase.timeout_of_noticeDone coherent late living), late]
          rfl
        · intro past
          rw [tallied.deads, past]
          rfl
  | joiningThrow inPush =>
      simp only [step] at taken
      split at taken
      next => simp at taken
      next node joining =>
        obtain ⟨⟨moved, rest⟩, thrown, rfl⟩ := Option.map_eq_some_iff.mp taken
        obtain ⟨coherent, past, notified, _⟩ := inv.leaving node joining
        simp only [ThrowsInTime, throwsInTime, joining, Bool.not_eq_true', Bool.not_eq_false]
          at late
        obtain rfl := (NodeBase.throwException_goto thrown).1
        exact repeated runsAt_joining rfl rfl coherent late
          (fun living => absurd past (by simp [living])) fun _ => notified
  | run _ | joiningStep _ _ | joined => exact absurd rfl late

/-- As long as no exception follows the notification of a state that the node has not left, no
notification is repeated, and a DEAD message erases nothing but its sender.  From the first such
exception on there is a run in which one is repeated. -/
theorem notices_once (reached : Reaches step ThrowsInTime initial faulty) :
    faulty.NoticesOnce ∧ ∀ event after, ¬faulty.ThrowsInTime event →
      faulty.step event = some after →
        ∃ final, Reaches step anyStep after final ∧ ¬final.NoticesOnce := by
  have inv : faulty.Invariant := reached.invariant Invariant initial_invariant
    fun _ _ _ inv safe taken => step_invariant inv safe taken
  exact ⟨inv.noticesOnce, fun _ _ late taken => inv.repeats late taken⟩

end FaultyMonitor

def oneRegistered : List FaultyEvent :=
  (startEvents ++ [MonitorEvent.register localRegister]).map .run

def stepsInSilence (steps : Nat) : List FaultyEvent :=
  List.replicate steps (.run (.nodeStep 0 [] true))

def throwsBeforeNotices : List FaultyEvent :=
  oneRegistered ++ stepsInSilence 4 ++ [.throwException 0 false] ++ stepsInSilence 6 ++
    [.throwException 0 false] ++ stepsInSilence 24 ++ [.throwException 0 false] ++
    stepsInSilence 2

theorem notices_once_throwsBeforeNotices :
    ∃ faulty : FaultyMonitor, faulty.tally 1 = ⟨1, 1⟩ ∧ faulty.NoticesOnce := by
  obtain ⟨faulty, reached, found⟩ := exists_reaches FaultyMonitor.step
    FaultyMonitor.throwsInTime (fun faulty => faulty.tally 1 == ⟨1, 1⟩) .initial
    throwsBeforeNotices (fun _ _ => id) (by decide +kernel) (by decide +kernel)
  exact ⟨faulty, by simpa using found, (FaultyMonitor.notices_once reached).1⟩

def throwBehindTimeout : List FaultyEvent :=
  oneRegistered ++ stepsInSilence 7 ++ [.throwException 0 false] ++ stepsInSilence 2

def throwBehindDead : List FaultyEvent :=
  oneRegistered ++ stepsInSilence 30 ++ [.throwException 0 false] ++ stepsInSilence 5 ++
    (List.replicate 8 [.run .waitAndPop, .run .checkRunning, .run .handleMessage]).flatten ++
    [.joined, .run (.register localRegister), .run .waitAndPop, .run .checkRunning]

theorem notices_repeated :
    (∃ faulty, runFrom FaultyMonitor.step .initial throwBehindTimeout = some faulty ∧
      ¬faulty.NoticesOnce ∧ (faulty.tally 1).timeouts = 2) ∧
    (∃ faulty final, runFrom FaultyMonitor.step .initial throwBehindDead = some faulty ∧
      ¬faulty.NoticesOnce ∧ (faulty.tally 1).deads = 2 ∧
      faulty.monitor.registry.vecNodeBase = [localRegister.newNode 2] ∧
      faulty.step (.run .handleMessage) = some final ∧
      final.monitor.registry.vecNodeBase = [] ∧
      final.joining = some (localRegister.newNode 2)) := by
  constructor
  · have ended : (runFrom FaultyMonitor.step .initial throwBehindTimeout).any
        (fun faulty => (faulty.tally 1).timeouts == 2) = true := by decide +kernel
    obtain ⟨faulty, run, twice⟩ := (Option.any_eq_true _ _).mp ended
    have two : (faulty.tally 1).timeouts = 2 := by simpa using twice
    exact ⟨faulty, run, fun once => absurd (once.timeouts 1) (by omega), two⟩
  · have ended : (runFrom FaultyMonitor.step .initial throwBehindDead).any
        (fun faulty => (faulty.tally 1).deads == 2 &&
          (faulty.monitor.registry.vecNodeBase == [localRegister.newNode 2] &&
          (faulty.step (.run .handleMessage)).any fun final =>
            final.monitor.registry.vecNodeBase == [] &&
              final.joining == some (localRegister.newNode 2))) = true := by decide +kernel
    obtain ⟨faulty, run, found⟩ := (Option.any_eq_true _ _).mp ended
    simp only [Bool.and_eq_true, beq_iff_eq] at found
    obtain ⟨two, back, erases⟩ := found
    obtain ⟨final, taken, gone⟩ := (Option.any_eq_true _ _).mp erases
    simp only [Bool.and_eq_true, beq_iff_eq] at gone
    exact ⟨faulty, final, run, fun once => absurd (once.deads 1) (by omega), two, back, taken,
      gone.1, gone.2⟩

end NodeManagement
