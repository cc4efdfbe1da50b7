import NodeManagement.ServedQueues
import NodeManagement.Library.Drain

/-!
The receiving side gets through: while nothing is stopped and no queue fills up, every datagram
that decodes is handled.  `handleReceivedData` may have to wait for the mutex of a node that
sleeps, so it needs strong fairness, and the threads of the nodes weak fairness.
-/

namespace NodeManagement

open KeyedList Transition

namespace System

def decodes (system : System) : SystemEvent → Option Reception
  | .pushMessageReceived => some system.bufferUDPRecv.thread.item
  | _ => none

def handles (system : System) : SystemEvent → Option PacketPointer
  | .handleReceived => some system.receivedIOQueue.thread.item
  | _ => none

variable {system after : System}

theorem step_bufferItems {event : SystemEvent} (sound : system.Sound)
    (operates : system.Operates .handleRxThread)
    (notFull : system.bufferUDPRecv.queue.isFull = false)
    (taken : system.step event = some after) :
    ∃ added, (system.decodes event).toList ++ after.bufferUDPRecv.items =
        system.bufferUDPRecv.items ++ added ∧
      ∀ result dataUDP, event = .receive result → dataToPush result = some dataUDP →
        added = [⟨dataUDP, system.reception.length⟩] := by
  have same (equal : after.bufferUDPRecv.items = system.bufferUDPRecv.items)
      (idle : system.decodes event = none) (quiet : ∀ result, event ≠ .receive result) :
      ∃ added, (system.decodes event).toList ++ after.bufferUDPRecv.items =
          system.bufferUDPRecv.items ++ added ∧
        ∀ result dataUDP, event = .receive result → dataToPush result = some dataUDP →
          added = [⟨dataUDP, system.reception.length⟩] :=
    ⟨[], by simp [idle, equal], fun result _ named _ => absurd named (quiet result)⟩
  cases step_move taken with
  | receiveNothing nothing =>
      refine ⟨[], by simp [decodes], fun result dataUDP named pushed => ?_⟩
      obtain rfl := SystemEvent.receive.inj named
      simp [nothing] at pushed
  | @receive result dataUDP pushed =>
      have running : system.bufferUDPRecv.queue.running = true :=
        sound.program.buffer.opened (.inr ⟨operates.2, operates.1⟩)
      have effect := Consumer.push_items_effect system.bufferUDPRecv
        ⟨dataUDP, system.reception.length⟩
      have accepted : system.bufferUDPRecv.accepts = true := by
        simp [Consumer.accepts, running, notFull]
      rw [accepted] at effect
      refine ⟨[⟨dataUDP, system.reception.length⟩], effect.eq_of_accepted, ?_⟩
      intro other data named pushedOther
      obtain rfl := SystemEvent.receive.inj named
      rw [Option.some.inj (pushedOther.symm.trans pushed)]
  | popBuffer popped =>
      exact same (Consumer.pop_items sound.program.buffer popped) rfl (by simp)
  | checkBuffer checked =>
      exact same (by simp [Consumer.check_items checked, operates.1]) rfl (by simp)
  | skipBuffer working =>
      refine ⟨[], ?_, by simp⟩
      simp [decodes, Consumer.items_of_working sound.program.buffer working]
  | pushMessageReceived working =>
      refine ⟨[], ?_, by simp⟩
      simp [decodes, Consumer.items_of_working sound.program.buffer working]
  | proceedIOHandler busy => exact absurd operates.2 busy
  | _ => exact same rfl rfl (by simp)

theorem step_receivedItems {event : SystemEvent} (sound : system.Sound)
    (operates : system.Operates .handleReceivedData)
    (notFull : system.receivedIOQueue.queue.isFull = false)
    (taken : system.step event = some after) :
    ∃ added, (system.handles event).toList ++ after.receivedIOQueue.items =
        system.receivedIOQueue.items ++ added ∧
      ∀ received object, system.decodes event = some received →
        decodeReceived received.dataUDP = some object →
        added = [.heap ⟨system.nextIdentity, object, some received.serial⟩] := by
  have same (equal : after.receivedIOQueue.items = system.receivedIOQueue.items)
      (idle : system.handles event = none) (quiet : system.decodes event = none) :
      ∃ added, (system.handles event).toList ++ after.receivedIOQueue.items =
          system.receivedIOQueue.items ++ added ∧
        ∀ received object, system.decodes event = some received →
          decodeReceived received.dataUDP = some object →
          added = [.heap ⟨system.nextIdentity, object, some received.serial⟩] :=
    ⟨[], by simp [idle, equal], by simp [quiet]⟩
  cases step_move taken with
  | skipBuffer _ ignored =>
      refine ⟨[], by simp [handles], fun received object working decoded => ?_⟩
      obtain rfl := Option.some.inj working
      simp [ignored] at decoded
  | @pushMessageReceived object _ decoded =>
      have running : system.receivedIOQueue.queue.running = true :=
        sound.program.received.opened (.inr ⟨operates.2, operates.1⟩)
      have effect := Consumer.push_items_effect system.receivedIOQueue
        (.heap ⟨system.nextIdentity, object, some system.bufferUDPRecv.thread.item.serial⟩)
      have accepted : system.receivedIOQueue.accepts = true := by
        simp [Consumer.accepts, running, notFull]
      rw [accepted] at effect
      refine ⟨_, effect.eq_of_accepted, ?_⟩
      intro received other working decodedOther
      obtain rfl := Option.some.inj working
      rw [Option.some.inj (decodedOther.symm.trans decoded)]
  | popReceived popped =>
      exact same (Consumer.pop_items sound.program.received popped) rfl rfl
  | checkReceived checked =>
      rw [operates.1] at checked
      obtain ⟨passed, moved, split⟩ := Option.map_eq_some_iff.mp checked
      simp only [if_true, Prod.mk.injEq] at split
      exact same (by rw [← split.1, Consumer.check_items moved]; rfl) rfl rfl
  | skipReceived working | handleReceived working =>
      refine ⟨[], ?_, by simp [decodes]⟩
      simp [handles, Consumer.items_of_working sound.program.received working]
  | proceedNodeManagament _ proceeded =>
      exact absurd operates.2 (Monitor.proceed_cases proceeded).1
  | _ => exact same rfl rfl rfl

theorem receivedThread_of_other {event : SystemEvent} (sound : system.Sound)
    (working : system.receivedIOQueue.thread.pc = .working)
    (other : event.loop ≠ some .handleReceivedData) (taken : system.step event = some after) :
    after.receivedIOQueue.thread = system.receivedIOQueue.thread := by
  cases step_move taken with
  | popReceived | checkReceived | skipReceived | handleReceived => exact absurd rfl other
  | proceedNodeManagament first =>
      have position := (Consumer.proceed_cases first).2.2.2
      split at position
      next spawns =>
        have away : Turn.awayIn .first system.monitor.phase = true := by
          cases phase : system.monitor.phase <;>
            simp_all [receivedRole, Turn.spawnsIn, Turn.awayIn]
        have gone := sound.program.received.away (.inl away)
        simp [ConsumerThread.live, working] at gone
      next => exact position
  | _ => rfl

theorem undead_of_ownsMutex {node : NodeBase} (sleeps : node.ownsMutex = true) :
    node.pushedDead = false ∧ node.threadLive = true := by
  cases position : node.pc <;>
    simp_all [NodeBase.ownsMutex, NodeBase.pushedDead, NodeBase.threadLive]

theorem step_asleep {event : SystemEvent} {node : NodeBase} (sound : system.Sound)
    (member : node ∈ system.monitor.registry.vecNodeBase) (sleeps : node.ownsMutex = true)
    (taken : system.step event = some after) :
    ∃ moved ∈ after.monitor.registry.vecNodeBase, node.SameIdentity moved ∧
      (moved.ownsMutex = false ∨
        moved.ownsMutex = true ∧ ¬system.nodeThread node.serial event) := by
  cases step_entry sound member taken with
  | gone _ past => simp [undead_of_ownsMutex sleeps] at past
  | kept inside other => exact ⟨node, inside, .refl node, .inr ⟨sleeps, other⟩⟩
  | answered _ inside other =>
      exact ⟨_, inside, node.setPongState_identity true, .inr ⟨sleeps, other⟩⟩
  | moved _ _ threadStep inside =>
      refine ⟨_, inside, NodeBase.threadStep_identity threadStep, .inl ?_⟩
      cases NodeBase.threadStep_move threadStep with
      | sleepPing => rfl
      | loopHead position | resetPong _ position | sendPing _ position | pushPing _ _ position
        | waitPong _ _ position | notifyTimeout position | retriesOver _ position
        | notifyDead position | deadToInit position | deadStop position =>
          simp [NodeBase.ownsMutex, position] at sleeps

theorem not_pongBlocked {node : NodeBase} {packet : Packet} (sound : system.Sound)
    (member : node ∈ system.monitor.registry.vecNodeBase)
    (port : node.getPortInfo = packet.clientAddr.sinPort) (awake : node.ownsMutex = false) :
    system.monitor.registry.pongBlocked packet = false := by
  obtain ⟨index, found⟩ := List.mem_iff_getElem?.mp member
  have entry := toMap_of_getElem sound.monitor.formed.ports found
  rw [port] at entry
  simp only [Registry.pongBlocked, entry, awake]

/-- From here on both modules run, and neither queue of the receiving side fills up. -/
structure Receives (run : Execution step initial) (start : Nat) : Prop where
  nodeManagament : (run.state start).Operates .handleReceivedData
  ioHandler : (run.state start).Operates .handleRxThread
  undisturbed : ∀ position, start ≤ position →
    (run.state position).undisturbed (run.event position) = true

section

variable {run : Execution step initial} {start : Nat}

theorem Receives.noStop (receives : Receives run start) (loop : LoopThread) (position : Nat)
    (later : start ≤ position) : run.event position ≠ loop.stop := by
  have quiet := receives.undisturbed position later
  intro stops
  simp [System.undisturbed, stops, loop_stop_isStop] at quiet

theorem Receives.stays (receives : Receives run start) (position : Nat)
    (later : start ≤ position) : (run.state position).Operates .handleReceivedData ∧
      (run.state position).Operates .handleRxThread :=
  ⟨operates_from receives.nodeManagament (receives.noStop _) position later,
    operates_from receives.ioHandler (receives.noStop _) position later⟩

theorem Receives.notFull (receives : Receives run start) {position : Nat}
    (later : start ≤ position) :
    (run.state position).receivedIOQueue.queue.isFull = false ∧
      (run.state position).bufferUDPRecv.queue.isFull = false := by
  have quiet := receives.undisturbed position later
  simp only [System.undisturbed, Bool.and_eq_true, Bool.not_eq_true'] at quiet
  exact ⟨quiet.1.2, quiet.2⟩

theorem Receives.buffer_drain (receives : Receives run start) :
    Drains run (ofLoop .handleRxThread) (fun system => system.bufferUDPRecv.items) decodes
      (fun system => system.stepsLeft .handleRxThread) start where
  moves := by
    intro position later
    obtain ⟨added, moved, _⟩ := step_bufferItems (reachable_steady (run.reaches position)).sound
      (receives.stays position later).2 (receives.notFull later).2 (run.next position)
    exact ⟨added, moved⟩
  nearer := by
    intro position later _ idle
    refine step_stepsLeft (receives.stays position later).2 (fun own => ?_) (run.next position)
    cases event : run.event position <;>
      simp_all [SystemEvent.loop, SystemEvent.finishes, decodes]

theorem Receives.received_drain (receives : Receives run start) :
    Drains run (ofLoop .handleReceivedData) (fun system => system.receivedIOQueue.items) handles
      (fun system => system.stepsLeft .handleReceivedData) start where
  moves := by
    intro position later
    obtain ⟨added, moved, _⟩ := step_receivedItems
      (reachable_steady (run.reaches position)).sound (receives.stays position later).1
      (receives.notFull later).1 (run.next position)
    exact ⟨added, moved⟩
  nearer := by
    intro position later _ idle
    refine step_stepsLeft (receives.stays position later).1 (fun own => ?_) (run.next position)
    cases event : run.event position <;>
      simp_all [SystemEvent.loop, SystemEvent.finishes, handles]

def Sleeps (run : Execution step initial) (node : NodeBase) (position : Nat) : Prop :=
  ∃ entry ∈ (run.state position).monitor.registry.vecNodeBase,
    node.SameIdentity entry ∧ entry.ownsMutex = true

def Awake (run : Execution step initial) (node : NodeBase) (position : Nat) : Prop :=
  ∃ entry ∈ (run.state position).monitor.registry.vecNodeBase,
    node.SameIdentity entry ∧ entry.ownsMutex = false

theorem sleeps_leadsTo_awake {node : NodeBase}
    (thread : run.WeaklyFair (nodeThread node.serial)) :
    LeadsTo (Sleeps run node) (Awake run node) := by
  have steps (position : Nat) (sleeps : Sleeps run node position) :
      Awake run node (position + 1) ∨ Sleeps run node (position + 1) ∧
        ¬nodeThread node.serial (run.state position) (run.event position) := by
    obtain ⟨entry, member, identity, asleep⟩ := sleeps
    obtain ⟨moved, inside, kept, awake | ⟨still, other⟩⟩ :=
      step_asleep (reachable_steady (run.reaches position)).sound member asleep
        (run.next position)
    · exact .inl ⟨moved, inside, identity.trans kept, awake⟩
    · exact .inr ⟨⟨moved, inside, identity.trans kept, still⟩, identity.2.1 ▸ other⟩
  refine thread.leadsTo ?_ ?_ ?_
  · exact fun position sleeps => (steps position sleeps).imp_right And.left
  · rintro position ⟨entry, member, identity, asleep⟩
    rw [← identity.2.1]
    exact .inr (nodeThread_enabled member (undead_of_ownsMutex asleep).2)
  · exact fun position sleeps own => (steps position sleeps).resolve_right fun still => still.2 own

theorem handleReceivedData_works (nodes : ∀ id, run.WeaklyFair (nodeThread id)) {position : Nat}
    (working : (run.state position).receivedIOQueue.thread.pc = .working) :
    ∃ last, position ≤ last ∧
      Enabled step (ofLoop .handleReceivedData) (run.state last) := by
  by_contra! never
  have steady (position : Nat) := reachable_steady (run.reaches position)
  -- as long as the thread is held up it keeps its packet
  have stays : ∀ last, position ≤ last → (run.state last).receivedIOQueue.thread =
      (run.state position).receivedIOQueue.thread := by
    refine Execution.always_from rfl fun last after same => ?_
    rw [← same]
    exact receivedThread_of_other (steady last).sound (by rw [same]; exact working)
      (fun own => never last after ⟨_, _, own, run.next last⟩) (run.next last)
  obtain ⟨packet, inHand, tagged⟩ := (steady position).tags.received
    (run.state position).receivedIOQueue.thread.item
    (by rw [Consumer.items_of_working (steady position).sound.program.received working]
        exact List.mem_cons_self)
  have blocked (last : Nat) (after : position ≤ last) :
      (run.state last).monitor.registry.pongBlocked packet.object.base = true := by
    have points : (run.state last).receivedIOQueue.thread.item.pointee = some packet.object := by
      rw [stays last after, inHand]
      rfl
    rcases handles_of_tagged tagged (by rw [stays last after]; exact working) points with
      ⟨moved, taken⟩ | held
    · exact absurd ⟨.handleReceived, moved, rfl, taken⟩ (never last after)
    · exact held
  have here := blocked position (le_refl _)
  unfold Registry.pongBlocked at here
  cases found : toMap NodeBase.getPortInfo (run.state position).monitor.registry.vecNodeBase
      packet.object.base.clientAddr.sinPort with
  | none => simp [found] at here
  | some node =>
      rw [found] at here
      have port : node.getPortInfo = packet.object.base.clientAddr.sinPort := by
        simpa using List.find?_some found
      obtain ⟨last, after, entry, member, identity, awake⟩ :=
        sleeps_leadsTo_awake (nodes node.serial) position
          ⟨node, List.mem_of_find?_eq_some found, .refl node, here⟩
      have samePort : entry.getPortInfo = node.getPortInfo :=
        congrArg SockaddrIn.sinPort identity.2.2
      have free := not_pongBlocked (steady last).sound member (samePort.trans port) awake
      simp [blocked last after] at free

theorem handleReceivedData_again (nodes : ∀ id, run.WeaklyFair (nodeThread id))
    {position : Nat} (live : (run.state position).loopLive .handleReceivedData = true)
    (ready : (run.state position).receivedIOQueue.items ≠ [] ∨
      (run.state position).receivedIOQueue.queue.running = false) :
    ∃ last, position ≤ last ∧
      Enabled step (ofLoop .handleReceivedData) (run.state last) := by
  have steady := reachable_steady (run.reaches position)
  rcases handleReceivedData_enabled steady live ready with able | working
  · exact ⟨position, le_refl _, able⟩
  · exact handleReceivedData_works nodes working

theorem queued_handled (receives : Receives run start)
    (handler : run.StronglyFair (ofLoop .handleReceivedData))
    (nodes : ∀ id, run.WeaklyFair (nodeThread id)) {position : Nat} (later : start ≤ position)
    {packet : HeapPacket} (handled : packet.object.isHandled = true)
    (queued : .heap packet ∈ (run.state position).receivedIOQueue.items) :
    ∃ last, position ≤ last ∧ run.event last = .handleReceived ∧
      (run.state last).monitor.handlePacket packet.object =
        some (run.state (last + 1)).monitor ∧
      (run.state (last + 1)).handled = (run.state last).handled ++ [packet] := by
  obtain ⟨front, back, split⟩ := List.append_of_mem queued
  obtain ⟨last, after, taken⟩ := receives.received_drain.taken_of_strong handler
    (fun position later waits => handleReceivedData_again nodes
      ((reachable_steady (run.reaches position)).live (receives.stays position later).1)
      (.inl waits)) later split
  have event : run.event last = .handleReceived := by
    cases event : run.event last <;> simp_all [handles]
  have next := run.next last
  simp only [event, handles, Option.some.injEq] at next taken
  obtain ⟨_, ⟨null, _⟩ | ⟨object, monitor, points, dispatched, moved⟩⟩ :=
    handleReceived_cases next
  · simp [taken, PacketPointer.pointee] at null
  · rw [taken] at points moved
    obtain rfl := Option.some.inj points
    exact ⟨last, after, event, by rw [moved]; exact dispatched,
      by rw [moved]; simp [PacketPointer.owned, handled]⟩

/-- Every datagram that is received and decodes is handled. -/
theorem received_handled (receives : Receives run start)
    (decoder : run.WeaklyFair (ofLoop .handleRxThread))
    (handler : run.StronglyFair (ofLoop .handleReceivedData))
    (nodes : ∀ id, run.WeaklyFair (nodeThread id)) {position : Nat} (later : start ≤ position)
    {result : Recvfrom} {dataUDP : DataReceivedUDP} {object : PacketObject}
    (event : run.event position = .receive result) (pushed : dataToPush result = some dataUDP)
    (decoded : decodeReceived dataUDP = some object) :
    ∃ last packet, position < last ∧ packet.object = object ∧
      packet.origin = some (run.state position).reception.length ∧
      run.event last = .handleReceived ∧
      (run.state last).monitor.handlePacket object = some (run.state (last + 1)).monitor ∧
      (run.state (last + 1)).handled = (run.state last).handled ++ [packet] := by
  have steady (position : Nat) := reachable_steady (run.reaches position)
  obtain ⟨added, moved, buffered⟩ := step_bufferItems (steady position).sound
    (receives.stays position later).2 (receives.notFull later).2 (run.next position)
  rw [buffered result dataUDP event pushed, event] at moved
  obtain ⟨middle, after, taken⟩ := receives.buffer_drain.taken decoder
    (fun position later waits => handleRxThread_enabled (steady position)
      ((steady position).live (receives.stays position later).2) (.inl waits))
    (later.trans (Nat.le_succ _)) moved
  have beyond : start ≤ middle := by omega
  obtain ⟨added, moved, queued⟩ := step_receivedItems (steady middle).sound
    (receives.stays middle beyond).1 (receives.notFull beyond).1 (run.next middle)
  have idle : (run.state middle).handles (run.event middle) = none := by
    cases event : run.event middle <;> simp_all [handles, decodes]
  rw [queued _ object taken decoded, idle] at moved
  have waits : .heap ⟨(run.state middle).nextIdentity, object,
      some (run.state position).reception.length⟩ ∈
        (run.state (middle + 1)).receivedIOQueue.items := by
    rw [Option.toList_none, List.nil_append] at moved
    rw [moved]
    exact List.mem_append_right _ (List.mem_singleton_self _)
  obtain ⟨last, reaches, handles, dispatched, logged⟩ := queued_handled receives handler nodes
    (beyond.trans (Nat.le_succ _)) (isHandled_of_decodeReceived decoded) waits
  exact ⟨last, _, by omega, rfl, rfl, handles, dispatched, logged⟩

end

end System

theorem received_handled_asleep :
    ∃ (run : Execution System.step .initial) (start : Nat) (result : Recvfrom)
      (dataUDP : DataReceivedUDP) (object : PacketObject),
      (∃ node ∈ (run.state start).monitor.registry.vecNodeBase, node.ownsMutex = true ∧
        node.getPortInfo = object.base.clientAddr.sinPort ∧ object.base.typeMessage = .pong) ∧
      (System.Receives run start ∧ run.WeaklyFair (System.ofLoop .handleRxThread) ∧
        run.StronglyFair (System.ofLoop .handleReceivedData) ∧
        (∀ id, run.WeaklyFair (System.nodeThread id)) ∧ run.event start = .receive result ∧
        dataToPush result = some dataUDP ∧ decodeReceived dataUDP = some object) ∧
      ∃ last packet, start < last ∧ packet.object = object ∧
        packet.origin = some (run.state start).reception.length ∧
        run.event last = .handleReceived ∧
        (run.state last).monitor.handlePacket object = some (run.state (last + 1)).monitor ∧
        (run.state (last + 1)).handled = (run.state last).handled ++ [packet] := by
  have pong : (dataToPush clientPong).any (fun dataUDP => (decodeReceived dataUDP).any
      fun object => decide (object.base.typeMessage = .pong ∧
        object.base.clientAddr.sinPort = 0x204e)) = true := by
    decide +kernel
  have checked : checkFrom System.step System.undisturbed .initial answeredEvents = true := by
    decide +kernel
  obtain ⟨final, replay, settled⟩ := answeredEvents_settle
  obtain ⟨middle, node, reached, entries, asleep, port, _, operates⟩ := asleepEvents_sleep
  obtain ⟨dataUDP, pushed, decodes⟩ := (Option.any_eq_true _ _).mp pong
  obtain ⟨object, decoded, answers⟩ := (Option.any_eq_true _ _).mp decodes
  obtain ⟨type, sender⟩ := of_decide_eq_true answers
  have here := Execution.ofIdle_state_at replay settled.rests rfl reached
  have event := Execution.ofIdle_event_at replay settled.rests
    (show answeredEvents = asleepEvents ++ .receive clientPong :: _ from rfl)
  have receives : System.Receives (Execution.ofIdle _ _ replay settled.rests)
      asleepEvents.length := by
    refine ⟨here ▸ operates _, here ▸ operates _, fun position _ => ?_⟩
    refine Execution.ofIdle_always replay settled.rests checked ?_ position
    simp [System.undisturbed, SystemEvent.isStop, settled.received.1, settled.buffer.1,
      ThreadSafeQueue.isFull, maxSafeQueue]
  have sleeper : node ∈ ((Execution.ofIdle _ _ replay settled.rests).state
      asleepEvents.length).monitor.registry.vecNodeBase := by
    rw [here, entries]
    exact List.mem_singleton_self _
  have fair (loop : LoopThread) :=
    Execution.ofIdle_stronglyFair replay settled.rests (settled.ofLoop loop)
  have nodes (id : Nat) :=
    (Execution.ofIdle_stronglyFair replay settled.rests (settled.nodeThread id)).weaklyFair
  exact ⟨_, _, _, dataUDP, object,
    ⟨node, sleeper, by simp [NodeBase.ownsMutex, asleep], port.trans sender.symm, type⟩,
    ⟨receives, (fair _).weaklyFair, fair _, nodes, event, pushed, decoded⟩,
    System.received_handled receives (fair _).weaklyFair (fair _) nodes (le_refl _) event pushed
      decoded⟩

end NodeManagement
