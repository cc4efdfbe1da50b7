import NodeManagement.EntrySteps

/-!
The accuracy of the monitoring: over every run an entry is removed only after six of its waits in
a row have ended without a PONG, and no later wait.  The handlers of NodeManagament are atomic here,
which the source does not see to: two of them at work on `m_vecNodeBase` at a time can make a second
entry for a port, and the DEAD message of one entry then erases the other.
-/

namespace NodeManagement

open Transition

namespace NodeBase

def waitOutcome (node : NodeBase) (timedOut : Bool) : Option Bool :=
  match node.pc with
  | .waitPong _ => node.waitFor timedOut
  | _ => none

/-- The number of waits that have timed out since the last answer. -/
def misses (node : NodeBase) : Nat :=
  if node.pushedDead then retryNum + 1
  else match node.pc with
    | .loopHead =>
        match node.currentState with
        | .timeout => 1
        | .dead => retryNum + 1
        | _ => 0
    | .resetPong (.retry retryTime) | .sendPing (.retry retryTime)
    | .pushPing (.retry retryTime) _ | .waitPong (.retry retryTime) | .retriesOver retryTime =>
        retryTime + 1
    | .notifyTimeout => 1
    | .notifyDead => retryNum + 1
    | _ => 0

variable {node after : NodeBase}

theorem retryLoop_misses (node : NodeBase) (retryTime : Nat) :
    (node.retryLoop retryTime).misses = retryTime + 1 := by
  unfold retryLoop
  split <;> simp [misses, pushedDead]

theorem afterWait_misses {site : PingSite} (running : node.running = true)
    (state : node.currentState = site.state) (position : node.pc = .waitPong site) (woken : Bool) :
    (node.afterWait site woken).misses = if woken then 0 else node.misses + 1 := by
  cases site with
  | init =>
      cases woken <;>
        simp_all [afterWait, initAfterWait, misses, pushedDead, PingSite.state, changeState]
  | alive =>
      cases woken <;>
        simp_all [afterWait, aliveAfterWait, misses, pushedDead, PingSite.state, changeState]
  | retry retryTime =>
      cases woken with
      | true =>
          simp_all [afterWait, retryAfterWait, misses, pushedDead, PingSite.state, changeState]
      | false =>
          have here : node.misses = retryTime + 1 := by simp [misses, pushedDead, position]
          rw [here]
          exact retryLoop_misses node (retryTime + 1)

theorem threadStep_misses {nodeID : Int} {now : Bytes} {timedOut : Bool}
    {pushed : Option StrMessageState} (coherent : node.Coherent)
    (step : node.threadStep nodeID now timedOut = some (after, pushed)) :
    after.misses = match node.waitOutcome timedOut with
      | none => node.misses
      | some true => 0
      | some false => node.misses + 1 := by
  cases threadStep_move step with
  | loopHead position =>
      simp only [waitOutcome, position]
      unfold handleThread
      simp only [Coherent, position] at coherent
      cases running : node.running <;> cases state : node.currentState <;>
        simp_all [misses, pushedDead]
  | waitPong site woken position ended =>
      simp only [Coherent, position] at coherent
      simp only [waitOutcome, position, ended]
      rw [afterWait_misses coherent.1 coherent.2.1 position woken]
      cases woken <;> rfl
  | notifyTimeout position =>
      rw [retryLoop_misses]
      simp [waitOutcome, misses, pushedDead, position]
  | retriesOver retryTime position =>
      simp only [Coherent, position] at coherent
      simp [waitOutcome, misses, pushedDead, position, afterRetries, coherent,
        changeState_currentState]
  | deadStop position =>
      simp only [Coherent, position] at coherent
      simp [waitOutcome, misses, pushedDead, position, stop, coherent.1]
  | resetPong site position | sendPing site position | pushPing site readID position =>
      cases site <;> simp [waitOutcome, misses, pushedDead, position, setPongState]
  | sleepPing site position =>
      simp only [Coherent, position] at coherent
      simp [waitOutcome, misses, pushedDead, position, coherent]
  | notifyDead position | deadToInit position =>
      simp [waitOutcome, misses, pushedDead, position]

end NodeBase

theorem RigisterPacket.newNode_misses (packet : RigisterPacket) (serial : Nat) :
    (packet.newNode serial).misses = 0 := by
  simp [newNode, NodeBase.misses, NodeBase.pushedDead, NodeBase.create, NodeBase.setClientInfor,
    NodeBase.start]

namespace Monitor

def waitOutcome (id : Nat) (monitor : Monitor) : MonitorEvent → Option Bool
  | .nodeStep index _ timedOut =>
      monitor.registry.vecNodeBase[index]?.bind fun node =>
        if node.serial = id then node.waitOutcome timedOut else none
  | _ => none

structure Judged (id : Nat) (outcomes : List Bool) (monitor : Monitor) : Prop where
  present : ∀ node ∈ monitor.registry.vecNodeBase, node.serial = id →
    List.replicate node.misses false <:+ outcomes
  gone : 0 < id → id ≤ monitor.registry.made →
    (∀ node ∈ monitor.registry.vecNodeBase, node.serial ≠ id) →
    List.replicate (retryNum + 1) false <:+ outcomes

variable {monitor after : Monitor}

theorem step_counter {event : MonitorEvent} (taken : monitor.step event = some after) :
    after.registry.made = monitor.registry.made ∨
      after.registry.made = monitor.registry.made + 1 ∧ ∃ packet : RigisterPacket,
        after.registry.vecNodeBase = monitor.registry.vecNodeBase ++
          [packet.newNode (monitor.registry.made + 1)] := by
  cases step_move taken with
  | nodeStep stepped =>
      obtain ⟨node, moved, pushed, _, _, rfl⟩ := nodeStep_cases stepped
      exact .inl rfl
  | register packet =>
      simp only [Registry.checkRegisterMessage_eq]
      split
      · exact .inr ⟨rfl, packet, rfl⟩
      · exact .inl rfl
  | pong packet => exact .inl (by simp [Registry.checkPongMessage_eq])
  | handleMessage =>
      refine .inl ?_
      simp only [Registry.handleMessage_registry]
      split <;> rfl
  | proceed proceeded => exact .inl (by rw [(proceed_cases proceeded).2.2.2.1])
  | _ => exact .inl rfl

theorem Judged.of_present {id : Nat} {outcomes : List Bool} {node : NodeBase}
    (inv : monitor.Invariant) (member : node ∈ monitor.registry.vecNodeBase)
    (same : node.serial = id) (missed : List.replicate node.misses false <:+ outcomes) :
    monitor.Judged id outcomes := by
  refine ⟨fun other inside own => ?_, fun _ _ gone => absurd same (gone node member)⟩
  rw [inv.formed.eq_of_serial inside member (own.trans same.symm)]
  exact missed

theorem waitOutcome_of_apart {id : Nat} {event : MonitorEvent}
    (apart : ∀ index now timedOut node, event = .nodeStep index now timedOut →
      monitor.registry.vecNodeBase[index]? = some node → node.serial ≠ id) :
    monitor.waitOutcome id event = none := by
  cases event with
  | nodeStep index now timedOut =>
      cases found : monitor.registry.vecNodeBase[index]? with
      | none => simp only [waitOutcome, found, Option.bind_none]
      | some node =>
          have other := apart index now timedOut node rfl found
          simp only [waitOutcome, found, Option.bind_some, if_neg other]
  | _ => rfl

theorem step_judged_present {id : Nat} {outcomes : List Bool} {event : MonitorEvent}
    {node : NodeBase} (inv : monitor.Invariant) (member : node ∈ monitor.registry.vecNodeBase)
    (same : node.serial = id) (missed : List.replicate node.misses false <:+ outcomes)
    (taken : monitor.step event = some after) :
    after.Judged id (outcomes ++ (monitor.waitOutcome id event).toList) := by
  have next := step_invariant inv taken
  cases step_entry inv member taken with
  | kept inside others =>
      have apart : monitor.waitOutcome id event = none :=
        waitOutcome_of_apart fun index now timedOut other named found =>
          same ▸ others index now timedOut other named found
      rw [apart, Option.toList_none, List.append_nil]
      exact .of_present next inside same missed
  | @moved _ index now timedOut moved pushed found step inside =>
      have outcome : monitor.waitOutcome id (.nodeStep index now timedOut) =
          node.waitOutcome timedOut := by
        simp [waitOutcome, found, same]
      have own := (NodeBase.threadStep_identity step).2.1.trans same
      refine .of_present next inside own ?_
      rw [outcome, NodeBase.threadStep_misses (inv.formed.coherent node member) step]
      cases node.waitOutcome timedOut with
      | none => simpa using missed
      | some woken =>
          cases woken with
          | true => simp
          | false =>
              obtain ⟨front, rfl⟩ := missed
              exact ⟨front, by simp [List.replicate_succ']⟩
  | answered _ inside =>
      rw [waitOutcome_of_apart (by simp), Option.toList_none, List.append_nil]
      exact .of_present next inside same missed
  | erased working dead sender gone =>
      rw [waitOutcome_of_apart (by simp), Option.toList_none, List.append_nil]
      have past := inv.sent.deadPushed _ (inv.item_mem_pending working) dead node member sender.symm
      simp only [NodeBase.misses, past, if_true] at missed
      exact ⟨fun other inside own => absurd (own.trans same.symm) (gone other inside),
        fun _ _ _ => missed⟩

theorem step_judged {id : Nat} {outcomes : List Bool} {event : MonitorEvent}
    (inv : monitor.Invariant) (judged : monitor.Judged id outcomes)
    (taken : monitor.step event = some after) :
    after.Judged id (outcomes ++ (monitor.waitOutcome id event).toList) := by
  by_cases known : ∃ node ∈ monitor.registry.vecNodeBase, node.serial = id
  · obtain ⟨node, member, same⟩ := known
    exact step_judged_present inv member same (judged.present node member same) taken
  · have absent : ∀ node ∈ monitor.registry.vecNodeBase, node.serial ≠ id :=
      fun node member same => known ⟨node, member, same⟩
    rw [waitOutcome_of_apart fun _ _ _ node _ found => absent node (List.mem_of_getElem? found),
      Option.toList_none, List.append_nil]
    have fresh : ∀ node ∈ after.registry.vecNodeBase, node.serial = id →
        monitor.registry.made < id := by
      intro entry inside own
      rcases (step_origin inv taken).2 entry inside with ⟨new, _⟩ | ⟨node, old, identity, _⟩
      · exact own ▸ new
      · exact absurd (identity.2.1.symm.trans own) (absent node old)
    rcases step_counter taken with counter | ⟨counter, packet, added⟩
    · refine ⟨fun node inside own => ?_, fun positive counted _ =>
        judged.gone positive (counter ▸ counted) absent⟩
      have new := fresh node inside own
      have bounded := (step_invariant inv taken).formed.counted node inside
      omega
    · by_cases first : id = monitor.registry.made + 1
      · have inside : packet.newNode id ∈ after.registry.vecNodeBase := by
          rw [added, first]
          simp
        refine .of_present (step_invariant inv taken) inside rfl ?_
        rw [packet.newNode_misses]
        exact List.nil_suffix
      · refine ⟨fun node inside own => ?_, fun positive counted _ =>
          judged.gone positive (by omega) absent⟩
        have new := fresh node inside own
        have bounded := (step_invariant inv taken).formed.counted node inside
        omega

end Monitor

namespace System

def waitOutcome (id : Nat) (system : System) (event : SystemEvent) : Option Bool :=
  (system.inner event).bind (system.monitor.waitOutcome id)

theorem initial_judged (id : Nat) : Monitor.initial.Judged id [] :=
  ⟨by simp [Monitor.initial, Registry.empty], fun positive counted =>
    absurd (show id ≤ 0 from counted) (by omega)⟩

theorem step_judged {system after : System} {id : Nat} {outcomes : List Bool}
    {event : SystemEvent} (inv : system.monitor.Invariant)
    (judged : system.monitor.Judged id outcomes) (taken : system.step event = some after) :
    after.monitor.Judged id (outcomes ++ (system.waitOutcome id event).toList) := by
  cases named : system.inner event with
  | none =>
      rw [step_apart taken named]
      simpa [waitOutcome, named] using judged
  | some call =>
      simpa only [waitOutcome, named, Option.bind_some]
        using Monitor.step_judged inv judged (step_call taken named)

/-- Over every run with atomic handlers, with stops, restarts and overflow: the last six waits of a
removed entry ended without a PONG. -/
theorem removed_after_timeouts {events : List SystemEvent} {final : System}
    (replay : runFrom step initial events = some final) {id : Nat} (positive : 0 < id)
    (counted : id ≤ final.monitor.registry.made)
    (gone : ∀ node ∈ final.monitor.registry.vecNodeBase, node.serial ≠ id) :
    List.replicate (retryNum + 1) false <:+
      labelsFrom step (waitOutcome id) initial events := by
  have judged := labelsFrom_invariant (waitOutcome id) (fun _ _ => true)
    (fun outcomes system => system.Sound ∧ system.monitor.Judged id outcomes)
    (fun outcomes before event after known _ taken =>
      ⟨step_sound known.1 taken, step_judged known.1.monitor known.2 taken⟩)
    ⟨initial_sound, initial_judged id⟩ (checkFrom_of_always (fun _ _ => rfl) _) replay
  exact judged.2.gone positive counted gone

end System

def handleAll : List SystemEvent :=
  (List.replicate 8 [.popMessage, .checkMessage, .handleMessage, .pushPacket]).flatten

def silentClientEvents : List SystemEvent :=
  pingSentEvents ++
    [.receive clientPong, .popBuffer, .checkBuffer, .pushMessageReceived, .popReceived,
      .checkReceived, .handleReceived] ++
    List.replicate 34 (.nodeStep 0 [] true) ++ handleAll.take 31

theorem removed_after_timeouts_silent_client :
    ∃ final : System, runFrom System.step .initial silentClientEvents = some final ∧
      final.monitor.registry.vecNodeBase = [] ∧
      labelsFrom System.step (System.waitOutcome 1) .initial silentClientEvents =
        [true, false, false, false, false, false, false] ∧
      List.replicate (retryNum + 1) false <:+
        labelsFrom System.step (System.waitOutcome 1) .initial silentClientEvents := by
  have ends : (runFrom System.step .initial silentClientEvents).any
      (fun system => decide (system.monitor.registry = ⟨[], 1⟩)) = true := by
    decide +kernel
  obtain ⟨final, replay, emptied⟩ := (Option.any_eq_true _ _).mp ends
  have registry : final.monitor.registry = ⟨[], 1⟩ := by simpa using emptied
  refine ⟨final, replay, by rw [registry], by decide +kernel, ?_⟩
  exact System.removed_after_timeouts replay (by decide) (by simp [registry]) (by simp [registry])

end NodeManagement
