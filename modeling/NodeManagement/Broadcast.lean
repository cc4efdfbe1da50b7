import Mathlib.Data.List.DropRight
import NodeManagement.Encoding
import NodeManagement.SystemInvariant

/-!
The TIMEOUT broadcast of `checkNotifyMessage`: what it leaves in `g_sendIOQueue`, and what the
clients read from the datagrams that `handleTxThread` makes of it.
-/

namespace NodeManagement

namespace ThreadSafeQueue

variable {α : Type}

theorem rtake_append_rtake (limit : Nat) (first second : List α) :
    (first.rtake limit ++ second).rtake limit = (first ++ second).rtake limit := by
  rw [List.rtake_eq_reverse_take_reverse, List.rtake_eq_reverse_take_reverse (first ++ second),
    List.rtake_eq_reverse_take_reverse first]
  simp only [List.reverse_append, List.reverse_reverse]
  rw [List.take_append, List.take_append, List.take_take]
  congr 3
  omega

theorem push_force_rtake {q : ThreadSafeQueue α} (running : q.running = true)
    (bounded : q.queue.length ≤ maxSafeQueue) (value : α) :
    (q.push value true).queue = (q.queue ++ [value]).rtake maxSafeQueue := by
  rw [push_force_queue running]
  by_cases full : maxSafeQueue ≤ q.queue.length
  · have exactly : q.queue.length = maxSafeQueue := by omega
    have positive : 0 < maxSafeQueue := by decide
    rw [if_pos (by simpa [isFull] using full)]
    simp only [List.rtake, List.length_append, List.length_singleton, exactly,
      Nat.add_sub_cancel_left]
    cases present : q.queue with
    | nil => simp [present] at exactly; omega
    | cons oldest rest => simp
  · rw [if_neg (by simpa [isFull] using full)]
    simp only [List.rtake, List.length_append, List.length_singleton]
    rw [Nat.sub_eq_zero_of_le (by omega), List.drop_zero]

def pushAll (q : ThreadSafeQueue α) (values : List α) : ThreadSafeQueue α :=
  values.foldl (fun q value => q.push value true) q

theorem pushAll_eq {q : ThreadSafeQueue α} (running : q.running = true)
    (bounded : q.queue.length ≤ maxSafeQueue) (values : List α) :
    (q.pushAll values).running = true ∧
      (q.pushAll values).queue = (q.queue ++ values).rtake maxSafeQueue := by
  induction values generalizing q with
  | nil =>
      refine ⟨running, ?_⟩
      simp only [pushAll, List.foldl_nil, List.append_nil, List.rtake]
      rw [Nat.sub_eq_zero_of_le bounded, List.drop_zero]
  | cons value rest ih =>
      have pushed := push_force_rtake running bounded value
      have next := ih (q := q.push value true) (by simpa using running) (by
        rw [pushed, List.rtake, List.length_drop]
        omega)
      refine ⟨next.1, ?_⟩
      have fold : q.pushAll (value :: rest) = (q.push value true).pushAll rest := rfl
      rw [fold, next.2, pushed, rtake_append_rtake]
      simp

end ThreadSafeQueue

namespace System

open Transition

def freshPointers (nextIdentity : Nat) (objects : List PacketObject) : List PacketPointer :=
  objects.mapIdx fun index object => .heap ⟨nextIdentity + index, object, none⟩

theorem freshPointers_cons (nextIdentity : Nat) (object : PacketObject)
    (rest : List PacketObject) :
    freshPointers nextIdentity (object :: rest) =
      .heap ⟨nextIdentity, object, none⟩ :: freshPointers (nextIdentity + 1) rest := by
  simp only [freshPointers, List.mapIdx_cons, Nat.add_zero]
  simp only [Nat.add_assoc, Nat.add_comm 1]

theorem pushPackets_run (system : System) :
    runFrom step system (List.replicate system.outbox.length .pushPacket) =
      some { system with
        outbox := []
        nextIdentity := system.nextIdentity + system.outbox.length
        sendIOQueue := { system.sendIOQueue with
          queue := system.sendIOQueue.queue.pushAll
            (freshPointers system.nextIdentity system.outbox) } } := by
  generalize contents : system.outbox = objects
  induction objects generalizing system with
  | nil =>
      cases system
      subst contents
      rfl
  | cons object rest ih =>
      have next := ih { system with
        outbox := rest
        nextIdentity := system.nextIdentity + 1
        sendIOQueue := system.sendIOQueue.push (.heap ⟨system.nextIdentity, object, none⟩) } rfl
      simp only [List.length_cons, List.replicate_succ, runFrom, step, pushPacket, contents,
        Option.bind_some]
      rw [next, freshPointers_cons]
      simp only [Nat.add_assoc, Nat.add_comm 1]
      rfl

end System

/-- The packet tells its receiver about the subject of the message, and so does the datagram that
`handleTxThread` sends for it.  A datagram has one byte for the node type. -/
structure NotifyPacket.Tells (packet : NotifyPacket) (subject : StrMessageState)
    (target : NodeBase) : Prop where
  receiver : packet.clientAddr = target.getClientInfor
  typeNode : packet.typeNode = subject.typeNode
  state : packet.stateNodeNotify = subject.state
  port : packet.portNodeNotify = subject.clientAddr.sinPort
  message : packet.mes = subject.message
  datagram : subject.typeNode.value < 256 → ∃ stBuffer text,
    (PacketObject.notify packet).transmit = some [(target.getClientInfor, stBuffer)] ∧
      parseIncomingPacket stBuffer = some (.notify subject.typeNode.value
        (ntohs subject.clientAddr.sinPort).toNat subject.state.value text)

theorem notifyPacketTo_tells (subject : StrMessageState) (target : NodeBase) :
    (notifyPacketTo subject target).Tells subject target := by
  refine ⟨rfl, rfl, rfl, rfl, rfl, fun fits => ?_⟩
  obtain ⟨stBuffer, encoded, _, parsed⟩ := notify_parsed subject target
  rw [Nat.mod_eq_of_lt fits] at parsed
  have type : (notifyPacketTo subject target).typeMessage = .notify := rfl
  refine ⟨stBuffer, _, ?_, parsed⟩
  simp only [PacketObject.transmit, PacketObject.base, type, encoded, Option.map_some]
  rfl

namespace System

open Transition

theorem handleMessage_timeout {system : System}
    (working : system.monitor.nodeHandleThread.pc = .working)
    (notifies : system.monitor.nodeHandleThread.item.message.messageType = 1)
    (timeout : system.monitor.nodeHandleThread.item.message.state = .timeout) :
    ∃ monitor, monitor.registry = system.monitor.registry ∧
      system.step .handleMessage = some { system with
        monitor := monitor
        outbox := (system.monitor.registry.vecNodeBase.map
          (notifyPacketTo system.monitor.nodeHandleThread.item.message)).map .notify } := by
  have handled : system.monitor.registry.handleMessage
      system.monitor.nodeHandleThread.item.message =
        (system.monitor.registry, (system.monitor.registry.vecNodeBase.map
          (notifyPacketTo system.monitor.nodeHandleThread.item.message)).map .notify) := by
    simp [Registry.handleMessage, Registry.checkNotifyMessage, notifies, timeout]
  have joined : system.monitor.registry.joinBlocked
      system.monitor.nodeHandleThread.item.message = false := by
    simp [Registry.joinBlocked, StrMessageState.isDead, timeout]
  refine ⟨_, ?_, by simp only [step, joined, Bool.false_eq_true, if_false, monitorStep,
    Monitor.step, if_pos working, handled, Option.map_some]; rfl⟩
  rfl

/-- The call of `checkNotifyMessage` for a TIMEOUT message: the registry stays as it is, and
`g_sendIOQueue` ends with one packet for each entry, in the order of the entries. -/
theorem timeout_broadcast (system : System)
    (working : system.monitor.nodeHandleThread.pc = .working)
    (notifies : system.monitor.nodeHandleThread.item.message.messageType = 1)
    (timeout : system.monitor.nodeHandleThread.item.message.state = .timeout)
    (running : system.sendIOQueue.queue.running = true)
    (bounded : system.sendIOQueue.queue.queue.length ≤ maxSafeQueue) :
    ∃ (after : System) (packets : List NotifyPacket),
      runFrom step system (.handleMessage ::
        List.replicate system.monitor.registry.vecNodeBase.length .pushPacket) = some after ∧
      after.outbox = [] ∧ after.monitor.registry = system.monitor.registry ∧
      after.sendIOQueue.queue.queue = (system.sendIOQueue.queue.queue ++
        freshPointers system.nextIdentity (packets.map .notify)).rtake maxSafeQueue ∧
      List.Forall₂ (fun packet receiver =>
          packet.stateNodeNotify = .timeout ∧
            packet.Tells system.monitor.nodeHandleThread.item.message receiver)
        packets system.monitor.registry.vecNodeBase := by
  obtain ⟨monitor, registry, taken⟩ := handleMessage_timeout working notifies timeout
  have pushed := pushPackets_run { system with
    monitor := monitor
    outbox := (system.monitor.registry.vecNodeBase.map
      (notifyPacketTo system.monitor.nodeHandleThread.item.message)).map .notify }
  refine ⟨_, system.monitor.registry.vecNodeBase.map
    (notifyPacketTo system.monitor.nodeHandleThread.item.message), Eq.trans ?_ pushed, rfl,
    registry, (ThreadSafeQueue.pushAll_eq running bounded _).2, ?_⟩
  · simp only [runFrom, taken, Option.bind_some, List.length_map]
  · rw [List.forall₂_map_left_iff]
    exact List.forall₂_same.mpr fun receiver _ =>
      ⟨timeout, notifyPacketTo_tells _ receiver⟩

end System

def timeoutInHandEvents : List SystemEvent :=
  startNodeManagamentEvents ++ startIOHandlerEvents ++ takeInEvents registerDatagram ++
    takeInEvents otherRegisterDatagram ++ List.replicate 7 (.nodeStep 0 [] true) ++
    [.popMessage, .checkMessage, .handleMessage, .pushPacket, .popMessage, .checkMessage]

theorem timeout_broadcast_two_nodes :
    ∃ (system after : System) (packets : List NotifyPacket),
      system.monitor.registry.vecNodeBase.length = 2 ∧
      system.sendIOQueue.queue.queue.length = 1 ∧
      Transition.runFrom System.step system [.handleMessage, .pushPacket, .pushPacket] =
        some after ∧
      after.sendIOQueue.queue.queue = (system.sendIOQueue.queue.queue ++
        System.freshPointers system.nextIdentity (packets.map .notify)).rtake maxSafeQueue ∧
      List.Forall₂ (fun packet receiver =>
          packet.stateNodeNotify = .timeout ∧
            packet.Tells system.monitor.nodeHandleThread.item.message receiver)
        packets system.monitor.registry.vecNodeBase := by
  obtain ⟨system, _, found⟩ := Transition.exists_reaches System.step (fun _ _ => true)
    (fun system => system.monitor.registry.vecNodeBase.length == 2 &&
      (system.sendIOQueue.queue.queue.length == 1 &&
      (system.monitor.nodeHandleThread.pc == .working &&
      (system.monitor.nodeHandleThread.item.message.messageType == 1 &&
      (system.monitor.nodeHandleThread.item.message.state == .timeout &&
      system.sendIOQueue.queue.running)))))
    .initial timeoutInHandEvents (fun _ _ _ => trivial) (by decide +kernel) (by decide +kernel)
  simp only [Bool.and_eq_true, beq_iff_eq] at found
  obtain ⟨two, one, working, notifies, timeout, running⟩ := found
  obtain ⟨after, packets, run, _, _, queue, told⟩ :=
    System.timeout_broadcast system working notifies timeout running
      (by rw [one]; decide)
  rw [two] at run
  exact ⟨system, after, packets, two, one, run, queue, told⟩

end NodeManagement
