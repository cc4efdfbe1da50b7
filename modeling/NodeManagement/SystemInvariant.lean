import NodeManagement.MonitorInvariant
import NodeManagement.System

/-!
The invariant of the whole program over every run: each of the three consumers agrees with its
module, and a consumer's local pointer owns a packet only while the packet is in hand.  The
monitoring system inside runs as it does on its own.
-/

namespace NodeManagement

def receivedRegister (dataPDU : DataReceivedUDP) : RigisterPacket where
  typeMessage := .register
  payloadLengh := dataPDU.buffer.getD 1 0
  mes := stringOfCString ((dataPDU.buffer.drop 3).take ((dataPDU.buffer.getD 1 0).toNat - 3))
  clientAddr := dataPDU.clientAddr
  typeNode := .ofValue (dataPDU.buffer.getD 2 0).toNat

def receivedPong (dataPDU : DataReceivedUDP) : PongPacket where
  typeMessage := .pong
  payloadLengh := dataPDU.buffer.getD 1 0
  mes := (dataPDU.buffer.drop 2).take ((dataPDU.buffer.getD 1 0).toNat - 2)
  clientAddr := dataPDU.clientAddr

theorem decodeReceived_eq (dataPDU : DataReceivedUDP) :
    decodeReceived dataPDU =
      if dataPDU.buffer.getD 0 0 = 0x00 then some (.rigister (receivedRegister dataPDU))
      else if dataPDU.buffer.getD 0 0 = 0x02 then some (.pong (receivedPong dataPDU))
      else none := by
  have type := checkMessageType_eq (show 0 < dataPDU.buffer.length by rw [dataPDU.size]; decide)
  simp only [decodeReceived, RigisterPacket.decode_eq _ dataPDU.size,
    PongPacket.decode_eq _ dataPDU.size, type, Option.bind_eq_bind, Option.bind_some]
  split
  next register =>
    have first : (dataPDU.buffer.getD 0 0).toNat = 0 := by
      rw [← TypeMessage.value_ofValue (dataPDU.buffer.getD 0 0).toNat, register]
      rfl
    have zero : dataPDU.buffer.getD 0 0 = 0x00 := BitVec.eq_of_toNat_eq first
    rw [if_pos zero, register]
    rfl
  next pong =>
    have first : (dataPDU.buffer.getD 0 0).toNat = 2 := by
      rw [← TypeMessage.value_ofValue (dataPDU.buffer.getD 0 0).toNat, pong]
      rfl
    have two : dataPDU.buffer.getD 0 0 = 0x02 := BitVec.eq_of_toNat_eq first
    rw [two, if_neg (by decide), if_pos rfl, ← two, pong]
    rfl
  next _ noRegister noPong =>
    rw [if_neg, if_neg]
    · intro two
      exact noPong (by rw [two]; rfl)
    · intro zero
      exact noRegister (by rw [zero]; rfl)

def MonitorEvent.isMenu : MonitorEvent → Bool
  | .start | .stop | .proceed => true
  | _ => false

def MonitorEvent.isNodeStep : MonitorEvent → Bool
  | .nodeStep _ _ _ => true
  | _ => false

def SystemEvent.isNodeStep : SystemEvent → Bool
  | .nodeStep _ _ _ => true
  | _ => false

namespace Monitor

variable {monitor after : Monitor}

theorem step_flags {event : MonitorEvent} (inner : event.isMenu = false)
    (taken : monitor.step event = some after) :
    after.phase = monitor.phase ∧ after.running = monitor.running := by
  cases step_move taken with
  | startAgain | start | stopAgain | stop | proceed => simp [MonitorEvent.isMenu] at inner
  | nodeStep stepped =>
      obtain ⟨node, moved, pushed, _, _, rfl⟩ := nodeStep_cases stepped
      exact ⟨rfl, rfl⟩
  | register | pong | waitAndPop | checkRunning | handleMessage => exact ⟨rfl, rfl⟩

theorem handlePacket_cases {object : PacketObject}
    (taken : monitor.handlePacket object = some after) :
    after = monitor ∨ ∃ event : MonitorEvent, event.isMenu = false ∧
      event.isNodeStep = false ∧ monitor.step event = some after := by
  unfold handlePacket at taken
  split at taken
  next => exact .inr ⟨_, rfl, rfl, taken⟩
  next =>
    split at taken
    next =>
      split at taken
      · exact .inr ⟨_, rfl, rfl, taken⟩
      · simp at taken
    next =>
      simp only [Option.some.injEq] at taken
      exact .inl taken.symm

theorem handlePacket_flags {object : PacketObject}
    (taken : monitor.handlePacket object = some after) :
    after.phase = monitor.phase ∧ after.running = monitor.running := by
  rcases handlePacket_cases taken with rfl | ⟨event, inner, _, stepped⟩
  · exact ⟨rfl, rfl⟩
  · exact step_flags inner stepped

end Monitor

namespace Consumer

/-- A queue of packets holds no null pointer, and the local pointer owns the packet in hand and
nothing else. -/
structure PointersValid (consumer : Consumer PacketPointer) : Prop where
  inHand : consumer.thread.item.owned = consumer.thread.held.flatMap PacketPointer.owned
  queued : ∀ pointer ∈ consumer.queue.queue, ∃ packet, pointer = .heap packet

def packets (consumer : Consumer PacketPointer) : List HeapPacket :=
  consumer.items.flatMap PacketPointer.owned

variable {consumer after : Consumer PacketPointer} {role : Role} {phase : ModulePhase}
  {running : Bool}

theorem PointersValid.packets_eq (valid : consumer.PointersValid) :
    consumer.packets =
      consumer.thread.item.owned ++ consumer.queue.queue.flatMap PacketPointer.owned := by
  rw [packets, items, List.flatMap_append, valid.inHand]

theorem create_pointers : (create PacketPointer.null).PointersValid :=
  ⟨rfl, by simp [create]⟩

theorem PointersValid.push (valid : consumer.PointersValid) (packet : HeapPacket) :
    (consumer.push (.heap packet)).PointersValid := by
  refine ⟨valid.inHand, ?_⟩
  intro pointer member
  have known : pointer ∈ consumer.queue.queue ∨ pointer = .heap packet := by
    rw [push_queue] at member
    split at member
    · exact .inl member
    · split at member
      · rcases List.mem_append.mp member with inside | last
        · exact .inl (List.mem_of_mem_tail inside)
        · exact .inr (List.mem_singleton.mp last)
      · rcases List.mem_append.mp member with inside | last
        · exact .inl inside
        · exact .inr (List.mem_singleton.mp last)
  rcases known with inside | rfl
  · exact valid.queued pointer inside
  · exact ⟨packet, rfl⟩

theorem PointersValid.pop (valid : consumer.PointersValid)
    (agrees : consumer.Agrees role phase running) (popped : consumer.pop = some after) :
    after.PointersValid := by
  obtain ⟨⟨thread, rest⟩, taken, rfl⟩ := Option.map_eq_some_iff.mp popped
  obtain ⟨waiting, ⟨_, rfl, rfl⟩ | ⟨_, front, others, contents, rfl, rfl⟩⟩ :=
    ConsumerThread.pop_cases taken
  · -- the call returned -1 and left the pointer, which owned nothing
    have none := valid.inHand
    rw [ConsumerThread.held, Handshake.rested agrees waiting] at none
    exact ⟨by simpa [ConsumerThread.held] using none, valid.queued⟩
  · refine ⟨by simp [ConsumerThread.held, ConsumerThread.live], ?_⟩
    intro pointer member
    exact valid.queued pointer (by rw [contents]; exact List.mem_cons_of_mem _ member)

theorem PointersValid.finish (valid : consumer.PointersValid) {pointer : PacketPointer}
    (none : pointer.owned = []) : (consumer.finish pointer).PointersValid :=
  ⟨by simp [Consumer.finish, ConsumerThread.finish, ConsumerThread.held, none], valid.queued⟩

theorem PointersValid.proceed (valid : consumer.PointersValid)
    (taken : consumer.proceed role phase .initial = some after) : after.PointersValid := by
  obtain ⟨_, queue, _, thread⟩ := proceed_cases taken
  refine ⟨?_, queue ▸ valid.queued⟩
  rw [thread]
  split
  · rfl
  · exact valid.inHand

theorem checkPointer_spec (valid : consumer.PointersValid)
    (agrees : consumer.Agrees role phase running) {freed : List HeapPacket}
    (taken : System.checkPointer consumer running = some (after, freed)) :
    after.Agrees role phase running ∧ after.PointersValid ∧
      consumer.packets = freed ++ after.packets ∧ (running = true → freed = []) := by
  obtain ⟨checked, passed, same⟩ := Option.map_eq_some_iff.mp taken
  have kept := check_agrees agrees passed
  obtain ⟨thread, moved, rfl⟩ := Option.map_eq_some_iff.mp passed
  obtain ⟨checking, rfl⟩ := ConsumerThread.check_cases moved
  cases running with
  | true =>
      simp only [if_true, Prod.mk.injEq] at same
      obtain ⟨rfl, rfl⟩ := same
      refine ⟨kept, ⟨?_, valid.queued⟩, ?_, fun _ => rfl⟩
      · simpa [ConsumerThread.held, ConsumerThread.live, checking] using valid.inHand
      · simp [packets, items, ConsumerThread.held, ConsumerThread.live, checking]
  | false =>
      simp only [Bool.false_eq_true, if_false, Prod.mk.injEq] at same
      obtain ⟨rfl, rfl⟩ := same
      refine ⟨⟨kept.starting, kept.stopping, kept.away, kept.opened, kept.stale, kept.fresh,
        kept.rested⟩, ⟨rfl, valid.queued⟩, ?_, fun runs => by simp at runs⟩
      rw [valid.packets_eq]
      rfl

end Consumer

namespace System

structure Invariant (system : System) : Prop where
  received : system.receivedIOQueue.Agrees receivedRole system.monitor.phase
    system.monitor.running
  buffer : system.bufferUDPRecv.Agrees bufferRole system.ioPhase system.ioRunning
  send : system.sendIOQueue.Agrees sendRole system.ioPhase system.ioRunning
  receivedPointers : system.receivedIOQueue.PointersValid
  sendPointers : system.sendIOQueue.PointersValid

theorem initial_invariant : initial.Invariant :=
  ⟨Consumer.create_agrees _, Consumer.create_agrees _, Consumer.create_agrees _,
    Consumer.create_pointers, Consumer.create_pointers⟩

variable {system after : System}

theorem owned_of_pointee_none {pointer : PacketPointer} (none : pointer.pointee = .none) :
    pointer.owned = [] := by
  cases pointer <;> simp_all [PacketPointer.pointee, PacketPointer.owned]

theorem monitorStep_cases {event : MonitorEvent} (taken : system.monitorStep event = some after) :
    ∃ monitor, system.monitor.step event = some monitor ∧
      after = { system with monitor := monitor } := by
  obtain ⟨monitor, stepped, same⟩ := Option.map_eq_some_iff.mp taken
  exact ⟨monitor, stepped, same.symm⟩

theorem Invariant.monitor (inv : system.Invariant) {monitor : Monitor}
    (flags : monitor.phase = system.monitor.phase ∧ monitor.running = system.monitor.running) :
    ({ system with monitor := monitor }).Invariant :=
  ⟨by simpa only [flags] using inv.received, inv.buffer, inv.send, inv.receivedPointers,
    inv.sendPointers⟩

theorem pushPacket_cases (taken : system.pushPacket = some after) :
    ∃ object rest, system.outbox = object :: rest ∧ after = { system with
      outbox := rest
      nextIdentity := system.nextIdentity + 1
      sendIOQueue := system.sendIOQueue.push (.heap ⟨system.nextIdentity, object, none⟩) } := by
  unfold pushPacket at taken
  split at taken
  next => simp at taken
  next object rest contents =>
    simp only [Option.some.injEq] at taken
    exact ⟨object, rest, contents, taken.symm⟩

theorem handleReceived_cases (taken : system.handleReceived = some after) :
    system.receivedIOQueue.thread.pc = .working ∧
      (system.receivedIOQueue.thread.item.pointee = none ∧ after = { system with
          receivedIOQueue := system.receivedIOQueue.finish system.receivedIOQueue.thread.item } ∨
        ∃ object monitor, system.receivedIOQueue.thread.item.pointee = some object ∧
          system.monitor.handlePacket object = some monitor ∧ after = { system with
            monitor := monitor
            receivedIOQueue := system.receivedIOQueue.finish .null
            handled := if object.isHandled then
                system.handled ++ system.receivedIOQueue.thread.item.owned
              else system.handled
            deleted := system.deleted ++ system.receivedIOQueue.thread.item.owned }) := by
  unfold handleReceived at taken
  simp only [Option.ite_none_right_eq_some] at taken
  obtain ⟨working, taken⟩ := taken
  refine ⟨working, ?_⟩
  split at taken
  next null =>
    simp only [Option.some.injEq] at taken
    exact .inl ⟨null, taken.symm⟩
  next object points =>
    obtain ⟨monitor, dispatched, same⟩ := Option.map_eq_some_iff.mp taken
    exact .inr ⟨object, monitor, points, dispatched, same.symm⟩

theorem pushMessageReceived_cases (taken : system.pushMessageReceived = some after) :
    system.bufferUDPRecv.thread.pc = .working ∧
      (decodeReceived system.bufferUDPRecv.thread.item.dataUDP = none ∧ after = { system with
          bufferUDPRecv := system.bufferUDPRecv.finish system.bufferUDPRecv.thread.item } ∨
        ∃ object, decodeReceived system.bufferUDPRecv.thread.item.dataUDP = some object ∧
          after = { system with
            bufferUDPRecv := system.bufferUDPRecv.finish system.bufferUDPRecv.thread.item
            nextIdentity := system.nextIdentity + 1
            receivedIOQueue := system.receivedIOQueue.push (.heap ⟨system.nextIdentity, object,
              some system.bufferUDPRecv.thread.item.serial⟩) }) := by
  unfold pushMessageReceived at taken
  simp only [Option.ite_none_right_eq_some] at taken
  obtain ⟨working, taken⟩ := taken
  refine ⟨working, ?_⟩
  split at taken
  next ignored =>
    simp only [Option.some.injEq] at taken
    exact .inl ⟨ignored, taken.symm⟩
  next object decoded =>
    simp only [Option.some.injEq] at taken
    exact .inr ⟨object, decoded, taken.symm⟩

theorem transmit_cases (taken : system.transmit = some after) :
    system.sendIOQueue.thread.pc = .working ∧
      (system.sendIOQueue.thread.item.pointee = none ∧ after = { system with
          sendIOQueue := system.sendIOQueue.finish system.sendIOQueue.thread.item } ∨
        ∃ object datagrams, system.sendIOQueue.thread.item.pointee = some object ∧
          object.transmit = some datagrams ∧ after = { system with
            sendIOQueue := system.sendIOQueue.finish .null
            deleted := system.deleted ++ system.sendIOQueue.thread.item.owned
            sent := system.sent ++ datagrams }) := by
  unfold transmit at taken
  simp only [Option.ite_none_right_eq_some] at taken
  obtain ⟨working, taken⟩ := taken
  refine ⟨working, ?_⟩
  split at taken
  next null =>
    simp only [Option.some.injEq] at taken
    exact .inl ⟨null, taken.symm⟩
  next object points =>
    obtain ⟨datagrams, encoded, same⟩ := Option.map_eq_some_iff.mp taken
    exact .inr ⟨object, datagrams, points, encoded, same.symm⟩

theorem sendtoFails_cases (taken : system.sendtoFails = some after) :
    system.sendIOQueue.thread.pc = .working ∧ ∃ object datagrams,
      system.sendIOQueue.thread.item.pointee = some object ∧ object.transmit = some datagrams ∧
        after = { system with
          sendIOQueue := system.sendIOQueue.finish .null
          deleted := system.deleted ++ system.sendIOQueue.thread.item.owned } := by
  unfold sendtoFails at taken
  split at taken
  next => simp at taken
  next object points =>
    obtain ⟨middle, moved, rfl⟩ := Option.map_eq_some_iff.mp taken
    obtain ⟨working, ⟨null, _⟩ | ⟨other, datagrams, same, encoded, rfl⟩⟩ := transmit_cases moved
    · simp [points] at null
    · exact ⟨working, other, datagrams, points.symm.trans same ▸ points, encoded, rfl⟩

theorem proceedIOHandler_cases (taken : system.proceedIOHandler = some after) :
    system.ioPhase ≠ .idle ∧ ∃ bufferUDPRecv sendIOQueue,
      system.bufferUDPRecv.proceed bufferRole system.ioPhase .initial = some bufferUDPRecv ∧
      system.sendIOQueue.proceed sendRole system.ioPhase .initial = some sendIOQueue ∧
      after = { system with
        bufferUDPRecv := bufferUDPRecv
        sendIOQueue := sendIOQueue
        ioPhase := system.ioPhase.next } := by
  unfold proceedIOHandler at taken
  simp only [Option.ite_none_left_eq_some] at taken
  obtain ⟨busy, taken⟩ := taken
  obtain ⟨bufferUDPRecv, first, taken⟩ := Option.bind_eq_some_iff.mp taken
  obtain ⟨sendIOQueue, second, same⟩ := Option.map_eq_some_iff.mp taken
  refine ⟨?_, bufferUDPRecv, sendIOQueue, first, second, same.symm⟩
  intro idle
  simp [idle] at busy

theorem receive_cases {result : Recvfrom} (taken : system.step (.receive result) = some after) :
    dataToPush result = none ∧ after = system ∨
      ∃ dataUDP, dataToPush result = some dataUDP ∧ after = { system with
        reception := system.reception ++ [⟨dataUDP, system.reception.length⟩]
        bufferUDPRecv := system.bufferUDPRecv.push ⟨dataUDP, system.reception.length⟩ } := by
  simp only [step, Option.ite_none_right_eq_some] at taken
  obtain ⟨_, taken⟩ := taken
  split at taken
  next nothing =>
    simp only [Option.some.injEq] at taken
    exact .inl ⟨nothing, taken.symm⟩
  next dataUDP pushed =>
    simp only [Option.some.injEq] at taken
    exact .inr ⟨dataUDP, pushed, taken.symm⟩

inductive StepMove (system : System) : SystemEvent → System → Prop
  | nodeStep {monitor : Monitor} (index : Nat) (now : Bytes) (timedOut : Bool)
      (stepped : system.monitor.step (.nodeStep index now timedOut) = some monitor) :
      StepMove system (.nodeStep index now timedOut) { system with monitor := monitor }
  | popMessage {monitor : Monitor} (pushedAll : system.outbox = [])
      (stepped : system.monitor.step .waitAndPop = some monitor) :
      StepMove system .popMessage { system with monitor := monitor }
  | checkMessage {monitor : Monitor}
      (stepped : system.monitor.step .checkRunning = some monitor) :
      StepMove system .checkMessage { system with monitor := monitor }
  | handleMessage {monitor : Monitor}
      (stepped : system.monitor.step .handleMessage = some monitor)
      (joined : system.monitor.registry.joinBlocked
        system.monitor.nodeHandleThread.item.message = false) :
      StepMove system .handleMessage { system with
        monitor := monitor
        outbox := (system.monitor.registry.handleMessage
          system.monitor.nodeHandleThread.item.message).2 }
  | pushPacket {object : PacketObject} {rest : List PacketObject}
      (contents : system.outbox = object :: rest) :
      StepMove system .pushPacket { system with
        outbox := rest
        nextIdentity := system.nextIdentity + 1
        sendIOQueue := system.sendIOQueue.push (.heap ⟨system.nextIdentity, object, none⟩) }
  | popReceived {receivedIOQueue : Consumer PacketPointer}
      (popped : system.receivedIOQueue.pop = some receivedIOQueue) :
      StepMove system .popReceived { system with receivedIOQueue := receivedIOQueue }
  | checkReceived {receivedIOQueue : Consumer PacketPointer} {freed : List HeapPacket}
      (checked : checkPointer system.receivedIOQueue system.monitor.running =
        some (receivedIOQueue, freed)) :
      StepMove system .checkReceived { system with
        receivedIOQueue := receivedIOQueue, deleted := system.deleted ++ freed }
  | skipReceived (working : system.receivedIOQueue.thread.pc = .working)
      (null : system.receivedIOQueue.thread.item.pointee = none) :
      StepMove system .handleReceived { system with
        receivedIOQueue := system.receivedIOQueue.finish system.receivedIOQueue.thread.item }
  | handleReceived {object : PacketObject} {monitor : Monitor}
      (working : system.receivedIOQueue.thread.pc = .working)
      (points : system.receivedIOQueue.thread.item.pointee = some object)
      (dispatched : system.monitor.handlePacket object = some monitor) :
      StepMove system .handleReceived { system with
        monitor := monitor
        receivedIOQueue := system.receivedIOQueue.finish .null
        handled := if object.isHandled then
            system.handled ++ system.receivedIOQueue.thread.item.owned
          else system.handled
        deleted := system.deleted ++ system.receivedIOQueue.thread.item.owned }
  | receiveNothing {result : Recvfrom} (nothing : dataToPush result = none) :
      StepMove system (.receive result) system
  | receive {result : Recvfrom} {dataUDP : DataReceivedUDP}
      (pushed : dataToPush result = some dataUDP) :
      StepMove system (.receive result) { system with
        reception := system.reception ++ [⟨dataUDP, system.reception.length⟩]
        bufferUDPRecv := system.bufferUDPRecv.push ⟨dataUDP, system.reception.length⟩ }
  | popBuffer {bufferUDPRecv : Consumer Reception}
      (popped : system.bufferUDPRecv.pop = some bufferUDPRecv) :
      StepMove system .popBuffer { system with bufferUDPRecv := bufferUDPRecv }
  | checkBuffer {bufferUDPRecv : Consumer Reception}
      (checked : system.bufferUDPRecv.check system.ioRunning = some bufferUDPRecv) :
      StepMove system .checkBuffer { system with bufferUDPRecv := bufferUDPRecv }
  | skipBuffer (working : system.bufferUDPRecv.thread.pc = .working)
      (ignored : decodeReceived system.bufferUDPRecv.thread.item.dataUDP = none) :
      StepMove system .pushMessageReceived { system with
        bufferUDPRecv := system.bufferUDPRecv.finish system.bufferUDPRecv.thread.item }
  | pushMessageReceived {object : PacketObject}
      (working : system.bufferUDPRecv.thread.pc = .working)
      (decoded : decodeReceived system.bufferUDPRecv.thread.item.dataUDP = some object) :
      StepMove system .pushMessageReceived { system with
        bufferUDPRecv := system.bufferUDPRecv.finish system.bufferUDPRecv.thread.item
        nextIdentity := system.nextIdentity + 1
        receivedIOQueue := system.receivedIOQueue.push (.heap ⟨system.nextIdentity, object,
          some system.bufferUDPRecv.thread.item.serial⟩) }
  | popSend {sendIOQueue : Consumer PacketPointer}
      (popped : system.sendIOQueue.pop = some sendIOQueue) :
      StepMove system .popSend { system with sendIOQueue := sendIOQueue }
  | checkSend {sendIOQueue : Consumer PacketPointer} {freed : List HeapPacket}
      (checked : checkPointer system.sendIOQueue system.ioRunning = some (sendIOQueue, freed)) :
      StepMove system .checkSend { system with
        sendIOQueue := sendIOQueue, deleted := system.deleted ++ freed }
  | skipSend (working : system.sendIOQueue.thread.pc = .working)
      (null : system.sendIOQueue.thread.item.pointee = none) :
      StepMove system .transmit { system with
        sendIOQueue := system.sendIOQueue.finish system.sendIOQueue.thread.item }
  | transmit {object : PacketObject} {datagrams : List (SockaddrIn × Bytes)}
      (working : system.sendIOQueue.thread.pc = .working)
      (points : system.sendIOQueue.thread.item.pointee = some object)
      (encoded : object.transmit = some datagrams) :
      StepMove system .transmit { system with
        sendIOQueue := system.sendIOQueue.finish .null
        deleted := system.deleted ++ system.sendIOQueue.thread.item.owned
        sent := system.sent ++ datagrams }
  | sendtoFails {object : PacketObject} {datagrams : List (SockaddrIn × Bytes)}
      (working : system.sendIOQueue.thread.pc = .working)
      (points : system.sendIOQueue.thread.item.pointee = some object)
      (encoded : object.transmit = some datagrams) :
      StepMove system .sendtoFails { system with
        sendIOQueue := system.sendIOQueue.finish .null
        deleted := system.deleted ++ system.sendIOQueue.thread.item.owned }
  | startNodeManagament {monitor : Monitor} (idle : system.ioPhase = .idle)
      (stepped : system.monitor.step .start = some monitor) :
      StepMove system .startNodeManagament { system with monitor := monitor }
  | stopNodeManagament {monitor : Monitor} (idle : system.ioPhase = .idle)
      (stepped : system.monitor.step .stop = some monitor) :
      StepMove system .stopNodeManagament { system with monitor := monitor }
  | proceedNodeManagament {receivedIOQueue : Consumer PacketPointer} {monitor : Monitor}
      (first : system.receivedIOQueue.proceed receivedRole system.monitor.phase .initial =
        some receivedIOQueue)
      (proceeded : system.monitor.proceed = some monitor) :
      StepMove system .proceedNodeManagament { system with
        monitor := monitor, receivedIOQueue := receivedIOQueue }
  | startIOHandlerAgain (running : system.ioRunning = true) :
      StepMove system .startIOHandler system
  | startIOHandler (idle : system.ioPhase = .idle) (stopped : system.ioRunning = false) :
      StepMove system .startIOHandler { system with
        ioRunning := true, ioPhase := .startFirstQueue }
  | startReceiver (phase : system.ioPhase = .startFirstQueue)
      (stopped : system.udpRunning = false) :
      StepMove system .startReceiver { system with udpRunning := true }
  | stopIOHandlerAgain (stopped : system.ioRunning = false) :
      StepMove system .stopIOHandler system
  | stopIOHandler (idle : system.ioPhase = .idle) (running : system.ioRunning = true) :
      StepMove system .stopIOHandler { system with
        ioRunning := false, ioPhase := .stopFirstQueue }
  | proceedIOHandler {bufferUDPRecv : Consumer Reception} {sendIOQueue : Consumer PacketPointer}
      (busy : system.ioPhase ≠ .idle)
      (first : system.bufferUDPRecv.proceed bufferRole system.ioPhase .initial =
        some bufferUDPRecv)
      (second : system.sendIOQueue.proceed sendRole system.ioPhase .initial =
        some sendIOQueue) :
      StepMove system .proceedIOHandler { system with
        bufferUDPRecv := bufferUDPRecv
        sendIOQueue := sendIOQueue
        ioPhase := system.ioPhase.next }

theorem step_move {event : SystemEvent} (taken : system.step event = some after) :
    system.StepMove event after := by
  cases event with
  | nodeStep index now timedOut =>
      obtain ⟨monitor, stepped, rfl⟩ := monitorStep_cases taken
      exact .nodeStep index now timedOut stepped
  | popMessage =>
      simp only [step, Option.ite_none_right_eq_some, List.isEmpty_iff] at taken
      obtain ⟨monitor, stepped, rfl⟩ := monitorStep_cases taken.2
      exact .popMessage taken.1 stepped
  | checkMessage =>
      obtain ⟨monitor, stepped, rfl⟩ := monitorStep_cases taken
      exact .checkMessage stepped
  | handleMessage =>
      simp only [step, Option.ite_none_left_eq_some, Bool.not_eq_true] at taken
      obtain ⟨joined, taken⟩ := taken
      obtain ⟨middle, moved, rfl⟩ := Option.map_eq_some_iff.mp taken
      obtain ⟨monitor, stepped, rfl⟩ := monitorStep_cases moved
      exact .handleMessage stepped joined
  | pushPacket =>
      obtain ⟨object, rest, contents, rfl⟩ := pushPacket_cases taken
      exact .pushPacket contents
  | popReceived =>
      obtain ⟨receivedIOQueue, popped, rfl⟩ := Option.map_eq_some_iff.mp taken
      exact .popReceived popped
  | checkReceived =>
      obtain ⟨⟨receivedIOQueue, freed⟩, checked, rfl⟩ := Option.map_eq_some_iff.mp taken
      exact .checkReceived checked
  | handleReceived =>
      obtain ⟨working, ⟨null, rfl⟩ | ⟨object, monitor, points, dispatched, rfl⟩⟩ :=
        handleReceived_cases taken
      · exact .skipReceived working null
      · exact .handleReceived working points dispatched
  | receive result =>
      obtain ⟨nothing, rfl⟩ | ⟨dataUDP, pushed, rfl⟩ := receive_cases taken
      · exact .receiveNothing nothing
      · exact .receive pushed
  | popBuffer =>
      obtain ⟨bufferUDPRecv, popped, rfl⟩ := Option.map_eq_some_iff.mp taken
      exact .popBuffer popped
  | checkBuffer =>
      obtain ⟨bufferUDPRecv, checked, rfl⟩ := Option.map_eq_some_iff.mp taken
      exact .checkBuffer checked
  | pushMessageReceived =>
      obtain ⟨working, ⟨ignored, rfl⟩ | ⟨object, decoded, rfl⟩⟩ := pushMessageReceived_cases taken
      · exact .skipBuffer working ignored
      · exact .pushMessageReceived working decoded
  | popSend =>
      obtain ⟨sendIOQueue, popped, rfl⟩ := Option.map_eq_some_iff.mp taken
      exact .popSend popped
  | checkSend =>
      obtain ⟨⟨sendIOQueue, freed⟩, checked, rfl⟩ := Option.map_eq_some_iff.mp taken
      exact .checkSend checked
  | transmit =>
      obtain ⟨working, ⟨null, rfl⟩ | ⟨object, datagrams, points, encoded, rfl⟩⟩ :=
        transmit_cases taken
      · exact .skipSend working null
      · exact .transmit working points encoded
  | sendtoFails =>
      obtain ⟨working, object, datagrams, points, encoded, rfl⟩ := sendtoFails_cases taken
      exact .sendtoFails working points encoded
  | startNodeManagament =>
      simp only [step, Option.ite_none_right_eq_some] at taken
      obtain ⟨monitor, stepped, rfl⟩ := monitorStep_cases taken.2
      exact .startNodeManagament taken.1 stepped
  | stopNodeManagament =>
      simp only [step, Option.ite_none_right_eq_some] at taken
      obtain ⟨monitor, stepped, rfl⟩ := monitorStep_cases taken.2
      exact .stopNodeManagament taken.1 stepped
  | proceedNodeManagament =>
      obtain ⟨receivedIOQueue, first, moved⟩ := Option.bind_eq_some_iff.mp taken
      obtain ⟨middle, stepped, rfl⟩ := Option.map_eq_some_iff.mp moved
      obtain ⟨monitor, proceeded, rfl⟩ := monitorStep_cases stepped
      exact .proceedNodeManagament first proceeded
  | startIOHandler =>
      simp only [step, Option.ite_none_right_eq_some, Bool.and_eq_true, decide_eq_true_eq] at taken
      obtain ⟨⟨_, idle⟩, moved⟩ := taken
      cases running : system.ioRunning with
      | true =>
          obtain rfl : system = after := by simpa [running] using moved
          exact .startIOHandlerAgain running
      | false =>
          obtain rfl : _ = after := by simpa [running] using moved
          exact .startIOHandler idle running
  | startReceiver =>
      simp only [step, Option.ite_none_right_eq_some, Bool.and_eq_true, decide_eq_true_eq,
        Bool.not_eq_true', Option.some.injEq] at taken
      obtain ⟨⟨phase, stopped⟩, rfl⟩ := taken
      exact .startReceiver phase stopped
  | stopIOHandler =>
      simp only [step, Option.ite_none_right_eq_some, Bool.and_eq_true, decide_eq_true_eq] at taken
      obtain ⟨⟨_, idle⟩, moved⟩ := taken
      cases running : system.ioRunning with
      | true =>
          obtain rfl : _ = after := by simpa [running] using moved
          exact .stopIOHandler idle running
      | false =>
          obtain rfl : system = after := by simpa [running] using moved
          exact .stopIOHandlerAgain running
  | proceedIOHandler =>
      obtain ⟨busy, bufferUDPRecv, sendIOQueue, first, second, rfl⟩ := proceedIOHandler_cases taken
      exact .proceedIOHandler busy first second

theorem step_invariant {event : SystemEvent} (inv : system.Invariant)
    (taken : system.step event = some after) : after.Invariant := by
  cases step_move taken with
  | nodeStep _ _ _ stepped | popMessage _ stepped | checkMessage stepped =>
      exact inv.monitor (Monitor.step_flags rfl stepped)
  | handleMessage stepped =>
      have kept := inv.monitor (Monitor.step_flags rfl stepped)
      exact ⟨kept.received, kept.buffer, kept.send, kept.receivedPointers, kept.sendPointers⟩
  | pushPacket =>
      exact ⟨inv.received, inv.buffer, Consumer.push_agrees inv.send _, inv.receivedPointers,
        inv.sendPointers.push _⟩
  | popReceived popped =>
      exact ⟨Consumer.pop_agrees inv.received popped, inv.buffer, inv.send,
        inv.receivedPointers.pop inv.received popped, inv.sendPointers⟩
  | checkReceived checked =>
      have kept := Consumer.checkPointer_spec inv.receivedPointers inv.received checked
      exact ⟨kept.1, inv.buffer, inv.send, kept.2.1, inv.sendPointers⟩
  | skipReceived working null =>
      exact ⟨Consumer.finish_agrees inv.received working _, inv.buffer, inv.send,
        inv.receivedPointers.finish (owned_of_pointee_none null), inv.sendPointers⟩
  | handleReceived working _ dispatched =>
      have kept := inv.monitor (Monitor.handlePacket_flags dispatched)
      exact ⟨Consumer.finish_agrees kept.received working _, inv.buffer, inv.send,
        inv.receivedPointers.finish rfl, inv.sendPointers⟩
  | receiveNothing | startIOHandlerAgain | stopIOHandlerAgain => exact inv
  | receive =>
      exact ⟨inv.received, Consumer.push_agrees inv.buffer _, inv.send, inv.receivedPointers,
        inv.sendPointers⟩
  | popBuffer popped =>
      exact ⟨inv.received, Consumer.pop_agrees inv.buffer popped, inv.send,
        inv.receivedPointers, inv.sendPointers⟩
  | checkBuffer checked =>
      exact ⟨inv.received, Consumer.check_agrees inv.buffer checked, inv.send,
        inv.receivedPointers, inv.sendPointers⟩
  | skipBuffer working =>
      exact ⟨inv.received, Consumer.finish_agrees inv.buffer working _, inv.send,
        inv.receivedPointers, inv.sendPointers⟩
  | pushMessageReceived working =>
      exact ⟨Consumer.push_agrees inv.received _, Consumer.finish_agrees inv.buffer working _,
        inv.send, inv.receivedPointers.push _, inv.sendPointers⟩
  | popSend popped =>
      exact ⟨inv.received, inv.buffer, Consumer.pop_agrees inv.send popped,
        inv.receivedPointers, inv.sendPointers.pop inv.send popped⟩
  | checkSend checked =>
      have kept := Consumer.checkPointer_spec inv.sendPointers inv.send checked
      exact ⟨inv.received, inv.buffer, kept.1, inv.receivedPointers, kept.2.1⟩
  | skipSend working null =>
      exact ⟨inv.received, inv.buffer, Consumer.finish_agrees inv.send working _,
        inv.receivedPointers, inv.sendPointers.finish (owned_of_pointee_none null)⟩
  | transmit working | sendtoFails working =>
      exact ⟨inv.received, inv.buffer, Consumer.finish_agrees inv.send working _,
        inv.receivedPointers, inv.sendPointers.finish rfl⟩
  | startNodeManagament _ stepped =>
      have agrees := inv.received
      cases Monitor.step_move stepped with
      | startAgain => exact inv
      | start idle stopped =>
          rw [idle, stopped] at agrees
          exact ⟨Consumer.start_agrees agrees, inv.buffer, inv.send, inv.receivedPointers,
            inv.sendPointers⟩
  | stopNodeManagament _ stepped =>
      have agrees := inv.received
      cases Monitor.step_move stepped with
      | stopAgain => exact inv
      | stop idle started =>
          rw [idle, started] at agrees
          exact ⟨Consumer.stop_agrees agrees, inv.buffer, inv.send, inv.receivedPointers,
            inv.sendPointers⟩
  | proceedNodeManagament first proceeded =>
      obtain ⟨busy, phase, running, _⟩ := Monitor.proceed_cases proceeded
      refine ⟨?_, inv.buffer, inv.send, inv.receivedPointers.proceed first, inv.sendPointers⟩
      simpa only [phase, running] using Consumer.proceed_agrees inv.received busy first
  | startIOHandler idle stopped =>
      have buffer := inv.buffer
      have sendIOQueue := inv.send
      rw [idle, stopped] at buffer sendIOQueue
      exact ⟨inv.received, Consumer.start_agrees buffer, Consumer.start_agrees sendIOQueue,
        inv.receivedPointers, inv.sendPointers⟩
  | startReceiver =>
      exact ⟨inv.received, inv.buffer, inv.send, inv.receivedPointers, inv.sendPointers⟩
  | stopIOHandler idle started =>
      have buffer := inv.buffer
      have sendIOQueue := inv.send
      rw [idle, started] at buffer sendIOQueue
      exact ⟨inv.received, Consumer.stop_agrees buffer, Consumer.stop_agrees sendIOQueue,
        inv.receivedPointers, inv.sendPointers⟩
  | proceedIOHandler busy first second =>
      exact ⟨inv.received, Consumer.proceed_agrees inv.buffer busy first,
        Consumer.proceed_agrees inv.send busy second, inv.receivedPointers,
        inv.sendPointers.proceed second⟩

theorem reachableBy_invariant {allowed : System → SystemEvent → Prop}
    (reached : ReachableBy allowed system) : system.Invariant :=
  Transition.Reaches.invariant Invariant reached initial_invariant
    fun _ _ _ inv _ taken => step_invariant inv taken

theorem step_monitor {event : SystemEvent} (taken : system.step event = some after) :
    after.monitor = system.monitor ∨ ∃ inner : MonitorEvent,
      inner.isNodeStep = event.isNodeStep ∧ system.monitor.step inner = some after.monitor := by
  cases step_move taken with
  | nodeStep _ _ _ stepped | popMessage _ stepped | checkMessage stepped | handleMessage stepped
    | startNodeManagament _ stepped | stopNodeManagament _ stepped =>
      exact .inr ⟨_, rfl, stepped⟩
  | proceedNodeManagament _ proceeded => exact .inr ⟨.proceed, rfl, proceeded⟩
  | handleReceived _ _ dispatched =>
      rcases Monitor.handlePacket_cases dispatched with same | ⟨inner, _, kind, stepped⟩
      · exact .inl same
      · exact .inr ⟨inner, kind, stepped⟩
  | _ => exact .inl rfl

end System

end NodeManagement
