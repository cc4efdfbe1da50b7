import NodeManagement.ServedQueues

/-!
`handleSendData` destroys the node of a DEAD message, and `~NodeBase` joins its thread.  The thread
is past the push of DEAD and on its way out, so the join is over once it has had its turns.
-/

namespace NodeManagement

open KeyedList Transition

theorem Registry.joinBlocked_of_mem {registry : Registry} {message : StrMessageState}
    {node : NodeBase} (formed : registry.WellFormed) (member : node ∈ registry.vecNodeBase)
    (address : node.clientAddr = message.clientAddr) :
    registry.joinBlocked message = (message.isDead && node.threadLive) := by
  obtain ⟨index, found⟩ := List.mem_iff_getElem?.mp member
  have entry := toMap_of_getElem formed.ports found
  rw [NodeBase.getPortInfo, address] at entry
  simp only [joinBlocked, entry]

namespace NodeBase

def leaveSteps (node : NodeBase) : Nat :=
  match node.pc with
  | .deadToInit => 3
  | .deadStop => 2
  | .loopHead => 1
  | _ => 0

variable {node after : NodeBase}

theorem threadStep_leaveSteps {nodeID : Int} {now : Bytes} {timedOut : Bool}
    {pushed : Option StrMessageState} (past : node.pushedDead = true)
    (step : node.threadStep nodeID now timedOut = some (after, pushed)) :
    after.threadLive = false ∨ after.pushedDead = true ∧ after.leaveSteps < node.leaveSteps := by
  cases threadStep_move step with
  | loopHead position =>
      have stopped : node.running = false := by simpa [pushedDead, position] using past
      simp [handleThread, stopped, threadLive]
  | deadToInit position => exact .inr ⟨rfl, by simp [leaveSteps, position]⟩
  | deadStop position =>
      refine .inr ⟨?_, by simp [leaveSteps, position]⟩
      cases running : node.running <;> simp [pushedDead, stop, running]
  | resetPong _ position | sendPing _ position | pushPing _ _ position | waitPong _ _ position
    | sleepPing _ position | notifyTimeout position | retriesOver _ position
    | notifyDead position => simp [pushedDead, position] at past

end NodeBase

theorem SystemEvent.ofSendData_cases {event : SystemEvent}
    (own : event.loop = some .handleSendData) :
    event = .popMessage ∨ event = .checkMessage ∨ event = .handleMessage ∨
      event = .pushPacket := by
  cases event <;> simp_all [loop]

namespace System

variable {system after : System}

theorem exists_sender (sound : system.Sound)
    (working : system.monitor.nodeHandleThread.pc = .working) :
    ∃ node ∈ system.monitor.registry.vecNodeBase,
      node.serial = system.monitor.nodeHandleThread.item.sender ∧
      (system.monitor.nodeHandleThread.item.message.isDead = true → node.pushedDead = true) ∧
      node.clientAddr = system.monitor.nodeHandleThread.item.message.clientAddr := by
  have inHand := sound.monitor.item_mem_pending working
  obtain ⟨node, member, sender, address⟩ := sound.monitor.sent.senders _ inHand
  exact ⟨node, member, sender, fun dead =>
    sound.monitor.sent.deadPushed _ inHand dead node member sender, address⟩

theorem step_joinFree {event : SystemEvent} (sound : system.Sound)
    (working : system.monitor.nodeHandleThread.pc = .working)
    (free :
      system.monitor.registry.joinBlocked system.monitor.nodeHandleThread.item.message = false)
    (unfinished : event ≠ .handleMessage) (taken : system.step event = some after) :
    after.monitor.registry.joinBlocked system.monitor.nodeHandleThread.item.message = false := by
  obtain ⟨node, member, _, past, address⟩ := exists_sender sound working
  rw [Registry.joinBlocked_of_mem sound.monitor.formed member address] at free
  cases dead : system.monitor.nodeHandleThread.item.message.isDead with
  | false => simp [Registry.joinBlocked, dead]
  | true =>
      have ended : node.threadLive = false := by simpa [dead] using free
      have formed := (step_sound sound taken).monitor.formed
      cases step_entry sound member taken with
      | gone handles => exact absurd handles unfinished
      | kept inside => simp [Registry.joinBlocked_of_mem formed inside address, ended]
      | answered _ inside =>
          rw [Registry.joinBlocked_of_mem formed inside address]
          simpa [dead, NodeBase.threadLive, NodeBase.setPongState] using ended
      | moved _ _ step =>
          have past := past dead
          cases position : node.pc with
          | exited => simp [NodeBase.threadStep, position] at step
          | _ => simp_all [NodeBase.threadLive, NodeBase.pushedDead]

theorem outbox_of_other {event : SystemEvent} (other : event.loop ≠ some .handleSendData)
    (taken : system.step event = some after) : after.outbox = system.outbox := by
  cases step_move taken with
  | popMessage | checkMessage | handleMessage | pushPacket => exact absurd rfl other
  | _ => rfl

theorem sendData_of_other {event : SystemEvent} (sound : system.Sound)
    (live : system.loopLive .handleSendData = true)
    (other : event.loop ≠ some .handleSendData) (taken : system.step event = some after) :
    after.monitor.nodeHandleThread = system.monitor.nodeHandleThread ∧
      (system.monitor.messageNodeQueue.queue ≠ [] ∨
          system.monitor.messageNodeQueue.running = false →
        after.monitor.messageNodeQueue.queue ≠ [] ∨
          after.monitor.messageNodeQueue.running = false) := by
  cases step_move taken with
  | popMessage | checkMessage | handleMessage | pushPacket => exact absurd rfl other
  | nodeStep _ _ _ stepped =>
      cases Monitor.step_move stepped with
      | nodeStep moved =>
          obtain ⟨node, next, pushed, _, _, rfl⟩ := Monitor.nodeStep_cases moved
          refine ⟨rfl, fun ready => ?_⟩
          cases pushed with
          | none => exact ready
          | some message =>
              cases running : system.monitor.messageNodeQueue.running with
              | false => simp [ThreadSafeQueue.push_running, running]
              | true =>
                  rw [ThreadSafeQueue.push_force_queue running]
                  split <;> simp
  | handleReceived _ _ dispatched =>
      obtain ⟨registry, rfl, _⟩ := Monitor.handlePacket_registry dispatched
      exact ⟨rfl, id⟩
  | startNodeManagament _ stepped =>
      cases Monitor.step_move stepped with
      | startAgain | start => exact ⟨rfl, id⟩
  | stopNodeManagament _ stepped =>
      cases Monitor.step_move stepped with
      | stopAgain | stop => exact ⟨rfl, id⟩
  | proceedNodeManagament _ proceeded =>
      obtain ⟨_, _, _, _, moved⟩ := Monitor.proceed_cases proceeded
      obtain ⟨_, queue, running, thread⟩ := Consumer.proceed_cases moved
      -- a thread that is there is not being started
      have here : Turn.awayIn .second system.monitor.phase = false := by
        cases away : Turn.awayIn .second system.monitor.phase with
        | false => rfl
        | true =>
            have gone : system.monitor.nodeHandleThread.live = false :=
              sound.monitor.handshake.away (.inl away)
            exact absurd live (by simp [loopLive, gone])
      simp only [Monitor.consumer, Monitor.messageRole] at queue running thread
      cases phase : system.monitor.phase <;>
        simp_all [Turn.awayIn, Turn.spawnsIn, Turn.startsQueueIn, Turn.stopsQueueIn]
  | _ => exact ⟨rfl, id⟩

theorem handleSendData_stable {event : SystemEvent} (steady : system.Steady)
    (able : Enabled step (ofLoop .handleSendData) system)
    (taken : system.step event = some after) :
    ofLoop .handleSendData system event ∨ Enabled step (ofLoop .handleSendData) after := by
  by_cases own : event.loop = some .handleSendData
  · exact .inl own
  refine .inr ?_
  have sound := steady.sound
  have outbox := outbox_of_other own taken
  obtain ⟨named, next, mine, moved⟩ := able
  cases step_move moved with
  | popMessage pushedAll stepped =>
      cases Monitor.step_move stepped with
      | waitAndPop popped =>
          obtain ⟨waiting, returns⟩ := ConsumerThread.pop_cases popped
          have live : system.loopLive .handleSendData = true := by
            simp [loopLive, ConsumerThread.live, waiting]
          obtain ⟨thread, ready⟩ := sendData_of_other sound live own taken
          have ready := ready (by
            rcases returns with ⟨stopped, _⟩ | ⟨_, front, others, queue, _⟩
            · exact .inr stopped
            · exact .inl (by simp [queue]))
          have steady := steady.step taken
          refine (handleSendData_enabled steady (by rw [loopLive, thread]; exact live)
            (ready.imp_left ?_ |> .inr)).resolve_right (by simp [thread, waiting])
          exact fun queued none => queued (List.append_eq_nil_iff.mp none).2
  | checkMessage stepped =>
      cases Monitor.step_move stepped with
      | checkRunning checked =>
          have thread :=
            (sendData_of_other sound (ConsumerThread.live_of_check checked) own taken).1
          refine .of_isSome .checkMessage rfl ?_
          simp [step, monitorStep, Monitor.step, thread, ConsumerThread.check,
            (ConsumerThread.check_cases checked).1]
  | handleMessage stepped free =>
      cases Monitor.step_move stepped with
      | handleMessage working =>
          have live : system.loopLive .handleSendData = true := by
            simp [loopLive, ConsumerThread.live, working]
          have thread := (sendData_of_other sound live own taken).1
          have stays := step_joinFree sound working free (by rintro rfl; exact own rfl) taken
          refine .of_isSome .handleMessage rfl ?_
          simp [step, monitorStep, Monitor.step, thread, stays, working]
  | pushPacket contents =>
      exact .of_isSome .pushPacket rfl (by simp [step, pushPacket, outbox, contents])
  | _ => simp [ofLoop, SystemEvent.loop] at mine

def Leaving (run : Execution step initial) (id steps position : Nat) : Prop :=
  ∃ entry ∈ (run.state position).monitor.registry.vecNodeBase, entry.serial = id ∧
    entry.pushedDead = true ∧ entry.threadLive = true ∧ entry.leaveSteps = steps

def Left (run : Execution step initial) (id position : Nat) : Prop :=
  ∀ entry ∈ (run.state position).monitor.registry.vecNodeBase, entry.serial = id →
    entry.threadLive = false

section

variable {run : Execution step initial}

theorem leaving_descends (run : Execution step initial) (id : Nat) :
    run.Descends (nodeThread id) (Leaving run id) (Left run id) := by
  rintro steps position ⟨entry, member, rfl, past, live, rfl⟩
  have steady (position : Nat) := reachable_steady (run.reaches position)
  cases step_entry (steady position).sound member (run.next position) with
  | gone _ _ gone => exact .inl fun other inside same => absurd same (gone.2 other inside)
  | kept inside other => exact .inr (.inr ⟨⟨entry, inside, rfl, past, live, rfl⟩, other⟩)
  | answered _ inside other =>
      exact .inr (.inr ⟨⟨_, inside, rfl, past, live, rfl⟩, other⟩)
  | @moved _ _ _ moved _ _ _ step inside =>
      have kept := (NodeBase.threadStep_identity step).2.1
      have formed := (steady (position + 1)).sound.monitor.formed
      cases still : moved.threadLive with
      | false =>
          refine .inl fun other there same => ?_
          rw [formed.eq_of_serial there inside (same.trans kept.symm)]
          exact still
      | true =>
          rcases NodeBase.threadStep_leaveSteps past step with ended | ⟨past, less⟩
          · simp [still] at ended
          · exact .inr (.inl ⟨_, less, moved, inside, kept, past, still, rfl⟩)

theorem leaving_leadsTo_left {id : Nat} (thread : run.WeaklyFair (nodeThread id)) :
    LeadsTo (fun position => ∃ steps, Leaving run id steps position) (Left run id) := by
  refine thread.leadsTo_of_stages (leaving_descends run id) ?_
  rintro steps position ⟨entry, member, rfl, _, live, _⟩
  exact .inr (nodeThread_enabled member live)

/-- Where a join holds up `handleSendData`, the thread that it waits for ends. -/
theorem handleSendData_works (nodes : ∀ id, run.WeaklyFair (nodeThread id)) {position : Nat}
    (working : (run.state position).monitor.nodeHandleThread.pc = .working) :
    ∃ last, position ≤ last ∧ Enabled step (ofLoop .handleSendData) (run.state last) := by
  by_contra! never
  have steady (position : Nat) := reachable_steady (run.reaches position)
  -- as long as it is held up it keeps its message
  have stays : ∀ last, position ≤ last → (run.state last).monitor.nodeHandleThread =
      (run.state position).monitor.nodeHandleThread := by
    refine Execution.always_from rfl fun last after same => ?_
    rw [← same]
    exact (sendData_of_other (steady last).sound
      (by simp [loopLive, ConsumerThread.live, same, working])
      (fun own => never last after ⟨_, _, own, run.next last⟩) (run.next last)).1
  have blocked (last : Nat) (after : position ≤ last) :
      (run.state last).monitor.registry.joinBlocked
        (run.state position).monitor.nodeHandleThread.item.message = true := by
    by_contra free
    refine never last after (.of_isSome .handleMessage rfl ?_)
    simp [step, monitorStep, Monitor.step, stays last after, free, working]
  have joins (last : Nat) (after : position ≤ last) := by
    have sender := exists_sender (steady last).sound (by rw [stays last after]; exact working)
    rwa [stays last after] at sender
  obtain ⟨node, member, sender, past, address⟩ := joins position (le_refl _)
  have held := blocked position (le_refl _)
  rw [Registry.joinBlocked_of_mem (steady position).sound.monitor.formed member address,
    Bool.and_eq_true] at held
  obtain ⟨last, after, left⟩ := leaving_leadsTo_left (nodes node.serial) position
    ⟨_, node, member, rfl, past held.1, held.2, rfl⟩
  obtain ⟨entry, inside, same, _, address⟩ := joins last after
  have free := blocked last after
  rw [Registry.joinBlocked_of_mem (steady last).sound.monitor.formed inside address,
    left entry inside (same.trans sender.symm)] at free
  simp at free

theorem handleSendData_again (nodes : ∀ id, run.WeaklyFair (nodeThread id)) {position : Nat}
    (live : (run.state position).loopLive .handleSendData = true)
    (ready : (run.state position).outbox ≠ [] ∨ (run.state position).monitor.pending ≠ [] ∨
      (run.state position).monitor.messageNodeQueue.running = false) :
    ∃ last, position ≤ last ∧ Enabled step (ofLoop .handleSendData) (run.state last) := by
  rcases handleSendData_enabled (reachable_steady (run.reaches position)) live ready with
    able | working
  · exact ⟨position, le_refl _, able⟩
  · exact handleSendData_works nodes working

theorem handleSendData_stronglyFair (fair : run.WeaklyFair (ofLoop .handleSendData)) :
    run.StronglyFair (ofLoop .handleSendData) :=
  fair.stronglyFair fun position able =>
    handleSendData_stable (reachable_steady (run.reaches position)) able (run.next position)

end

end System

end NodeManagement
