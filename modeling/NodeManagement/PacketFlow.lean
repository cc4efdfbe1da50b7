import Mathlib.Data.List.Flatten
import NodeManagement.SystemInvariant

/-!
What the program does with datagrams and packets, apart from when it does it: a ledger of
everything that is on its way, done with or deleted, and the nine kinds of entries a step of the
program can make in it.
-/

namespace NodeManagement

structure Ledger where
  reception : List Reception
  buffered : List Reception
  received : List HeapPacket
  handled : List HeapPacket
  sending : List HeapPacket
  deleted : List HeapPacket
  nextIdentity : Nat

inductive Flow
  | quiet
  | arrive (accepted : Bool)
  | dropBuffered
  | ignore
  | decode (accepted : Bool)
  | leaveReceived
  | handle
  | release
  | make (accepted : Bool)

namespace Ledger

open Consumer (PushEffect)

def Moves (ledger : Ledger) (flow : Flow) (after : Ledger) : Prop :=
  match flow with
  | .quiet => after = ledger
  | .arrive accepted => ∃ dataUDP buffered,
      PushEffect accepted ledger.buffered ⟨dataUDP, ledger.reception.length⟩ buffered ∧
      after = { ledger with
        reception := ledger.reception ++ [⟨dataUDP, ledger.reception.length⟩]
        buffered := buffered }
  | .dropBuffered => ∃ rest, rest.Sublist ledger.buffered ∧
      after = { ledger with buffered := rest }
  | .ignore => ∃ dataPDU rest, ledger.buffered = dataPDU :: rest ∧
      decodeReceived dataPDU.dataUDP = none ∧ after = { ledger with buffered := rest }
  | .decode accepted => ∃ dataPDU rest object received, ledger.buffered = dataPDU :: rest ∧
      decodeReceived dataPDU.dataUDP = some object ∧
      PushEffect accepted ledger.received ⟨ledger.nextIdentity, object, some dataPDU.serial⟩
        received ∧
      after = { ledger with
        buffered := rest
        received := received
        nextIdentity := ledger.nextIdentity + 1 }
  | .leaveReceived => ∃ freed rest, ledger.received = freed ++ rest ∧
      after = { ledger with received := rest, deleted := ledger.deleted ++ freed }
  | .handle => ∃ packet rest, ledger.received = packet :: rest ∧
      after = { ledger with
        received := rest
        handled := if packet.object.isHandled then ledger.handled ++ [packet] else ledger.handled
        deleted := ledger.deleted ++ [packet] }
  | .release => ∃ freed rest, ledger.sending = freed ++ rest ∧
      after = { ledger with sending := rest, deleted := ledger.deleted ++ freed }
  | .make accepted => ∃ object sending,
      PushEffect accepted ledger.sending ⟨ledger.nextIdentity, object, none⟩ sending ∧
      after = { ledger with
        sending := sending
        nextIdentity := ledger.nextIdentity + 1 }

end Ledger

def Flow.losesNoDatagram : Flow → Bool
  | arrive accepted | decode accepted => accepted
  | dropBuffered | leaveReceived => false
  | _ => true

def Flow.keepsPacket : Flow → Bool
  | decode accepted | make accepted => accepted
  | _ => true

namespace Consumer

theorem flatMap_owned_length {pointers : List PacketPointer}
    (valid : ∀ pointer ∈ pointers, ∃ packet, pointer = .heap packet) :
    (pointers.flatMap PacketPointer.owned).length = pointers.length := by
  induction pointers with
  | nil => rfl
  | cons pointer rest ih =>
      obtain ⟨packet, rfl⟩ := valid pointer List.mem_cons_self
      have others := ih fun other member => valid other (List.mem_cons_of_mem _ member)
      simp [PacketPointer.owned, others]

theorem push_packets_effect {consumer : Consumer PacketPointer} (valid : consumer.PointersValid)
    (packet : HeapPacket) :
    PushEffect consumer.accepts consumer.packets packet (consumer.push (.heap packet)).packets := by
  have effect := push_queue_effect consumer (.heap packet)
  have pushed := valid.push packet
  rw [valid.packets_eq, pushed.packets_eq, push_thread]
  constructor
  · rw [List.append_assoc]
    apply List.Sublist.append_left
    simpa [PacketPointer.owned] using effect.sublist.flatMap PacketPointer.owned
  · have length := effect.length
    simp only [List.length_append, flatMap_owned_length valid.queued,
      flatMap_owned_length pushed.queued]
    omega

variable {consumer after : Consumer PacketPointer} {role : Role} {phase : ModulePhase}
  {running : Bool}

theorem packets_of_working (agrees : consumer.Agrees role phase running)
    (working : consumer.thread.pc = .working) :
    consumer.packets =
      consumer.thread.item.owned ++ consumer.queue.queue.flatMap PacketPointer.owned := by
  rw [packets, items_of_working agrees working, List.flatMap_cons]

@[simp] theorem finish_packets (pointer : PacketPointer) :
    (consumer.finish pointer).packets = consumer.queue.queue.flatMap PacketPointer.owned := by
  rw [packets, finish_items]

end Consumer

namespace System

def ledger (system : System) : Ledger where
  reception := system.reception
  buffered := system.bufferUDPRecv.items
  received := system.receivedIOQueue.packets
  handled := system.handled
  sending := system.sendIOQueue.packets
  deleted := system.deleted
  nextIdentity := system.nextIdentity

/-- No menu call is stopping a module, and the two queues of the receiving side run. -/
structure Calm (system : System) : Prop where
  nodeManagament : system.monitor.phase.stopping = false
  ioHandler : system.ioPhase.stopping = false
  received : system.receivedIOQueue.queue.running = true
  buffer : system.bufferUDPRecv.queue.running = true

end System

def SystemEvent.isStop : SystemEvent → Bool
  | .stopNodeManagament | .stopIOHandler => true
  | _ => false

namespace System

def undisturbed (system : System) (event : SystemEvent) : Bool :=
  !event.isStop && !system.receivedIOQueue.queue.isFull && !system.bufferUDPRecv.queue.isFull

def keepsPacket (system : System) : SystemEvent → Bool
  | .pushPacket => system.sendIOQueue.accepts
  | .pushMessageReceived =>
      (decodeReceived system.bufferUDPRecv.thread.item.dataUDP).isNone ||
        system.receivedIOQueue.accepts
  | _ => true

variable {system after : System}

structure Enters (system : System) (event : SystemEvent) (after : System) (flow : Flow) :
    Prop where
  moves : system.ledger.Moves flow after.ledger
  keeps : flow.keepsPacket = system.keepsPacket event
  undisturbed : system.Calm → system.undisturbed event = true → flow.losesNoDatagram = true

theorem Enters.quiet {event : SystemEvent} (same : after.ledger = system.ledger)
    (keeps : system.keepsPacket event = true) : system.Enters event after .quiet :=
  ⟨same, keeps.symm, fun _ _ => rfl⟩

theorem accepts_of_undisturbed {event : SystemEvent} (calm : system.Calm)
    (undisturbed : system.undisturbed event = true) :
    system.receivedIOQueue.accepts = true ∧ system.bufferUDPRecv.accepts = true := by
  simp only [System.undisturbed, Bool.and_eq_true] at undisturbed
  simp only [Consumer.accepts, calm.received, calm.buffer, Bool.true_and]
  exact ⟨undisturbed.1.2, undisturbed.2⟩

theorem handleReceived_enters (inv : system.Invariant)
    (taken : system.handleReceived = some after) :
    ∃ flow, system.Enters .handleReceived after flow := by
  obtain ⟨working, ⟨null, rfl⟩ | ⟨object, monitor, points, dispatched, rfl⟩⟩ :=
    handleReceived_cases taken
  · refine ⟨.quiet, .quiet ?_ rfl⟩
    have none := owned_of_pointee_none null
    simp [ledger, Consumer.packets_of_working inv.received working, none]
  · cases pointer : system.receivedIOQueue.thread.item with
    | null => simp [pointer, PacketPointer.pointee] at points
    | initial =>
        -- the packet of `new Packet()` is no RigisterPacket
        simp only [pointer, PacketPointer.pointee, Option.some.injEq] at points
        subst points
        simp [Monitor.handlePacket, PacketObject.base, Packet.create] at dispatched
    | heap packet =>
        simp only [pointer, PacketPointer.pointee, Option.some.injEq] at points
        subst points
        refine ⟨.handle, ⟨packet, system.receivedIOQueue.queue.queue.flatMap
          PacketPointer.owned, ?_, ?_⟩, rfl, fun _ _ => rfl⟩
        · simp [ledger, Consumer.packets_of_working inv.received working, pointer,
            PacketPointer.owned]
        · simp [ledger, PacketPointer.owned]

theorem pushMessageReceived_enters (inv : system.Invariant)
    (taken : system.pushMessageReceived = some after) :
    ∃ flow, system.Enters .pushMessageReceived after flow := by
  obtain ⟨working, ⟨ignored, rfl⟩ | ⟨object, decoded, rfl⟩⟩ := pushMessageReceived_cases taken
  · refine ⟨.ignore, ⟨system.bufferUDPRecv.thread.item, _,
      Consumer.items_of_working inv.buffer working, ignored, ?_⟩, ?_, fun _ _ => rfl⟩
    · simp [ledger]
    · simp [Flow.keepsPacket, keepsPacket, ignored]
  · refine ⟨.decode system.receivedIOQueue.accepts, ⟨system.bufferUDPRecv.thread.item, _, object, _,
      Consumer.items_of_working inv.buffer working, decoded,
      Consumer.push_packets_effect inv.receivedPointers _, ?_⟩, ?_, ?_⟩
    · simp [ledger]
    · simp [Flow.keepsPacket, keepsPacket, decoded]
    · intro calm undisturbed
      exact (accepts_of_undisturbed calm undisturbed).1

theorem transmit_enters (inv : system.Invariant) (taken : system.transmit = some after) :
    ∃ flow, system.Enters .transmit after flow := by
  obtain ⟨working, ⟨null, rfl⟩ | ⟨object, datagrams, _, _, rfl⟩⟩ := transmit_cases taken
  · refine ⟨.quiet, .quiet ?_ rfl⟩
    have none := owned_of_pointee_none null
    simp [ledger, Consumer.packets_of_working inv.send working, none]
  · refine ⟨.release, ⟨_, _, Consumer.packets_of_working inv.send working, ?_⟩, rfl,
      fun _ _ => rfl⟩
    simp [ledger]

theorem checkReceived_enters (inv : system.Invariant)
    (taken : system.step .checkReceived = some after) :
    ∃ flow, system.Enters .checkReceived after flow := by
  obtain ⟨⟨receivedIOQueue, freed⟩, checked, rfl⟩ := Option.map_eq_some_iff.mp taken
  obtain ⟨_, _, split, kept⟩ :=
    Consumer.checkPointer_spec inv.receivedPointers inv.received checked
  cases running : system.monitor.running with
  | true =>
      refine ⟨.quiet, .quiet ?_ rfl⟩
      simp [ledger, split, kept running]
  | false =>
      refine ⟨.leaveReceived, ⟨freed, receivedIOQueue.packets, split, rfl⟩, rfl, ?_⟩
      intro calm _
      obtain ⟨passed, moved, _⟩ := Option.map_eq_some_iff.mp checked
      obtain ⟨thread, moved, _⟩ := Option.map_eq_some_iff.mp moved
      have live := ConsumerThread.live_of_check moved
      simp [Consumer.running_of_live inv.received calm.nodeManagament live] at running

theorem checkBuffer_enters (inv : system.Invariant)
    (taken : system.step .checkBuffer = some after) :
    ∃ flow, system.Enters .checkBuffer after flow := by
  obtain ⟨bufferUDPRecv, checked, rfl⟩ := Option.map_eq_some_iff.mp taken
  cases running : system.ioRunning with
  | true =>
      refine ⟨.quiet, .quiet ?_ rfl⟩
      simp [ledger, Consumer.check_items checked, running]
  | false =>
      refine ⟨.dropBuffered, ⟨_, Consumer.check_items_sublist checked, rfl⟩, rfl, ?_⟩
      intro calm _
      obtain ⟨thread, moved, _⟩ := Option.map_eq_some_iff.mp checked
      have live := ConsumerThread.live_of_check moved
      simp [Consumer.running_of_live inv.buffer calm.ioHandler live] at running

/-- The refinement: every step of the program is one entry in the ledger. -/
theorem step_enters {event : SystemEvent} (inv : system.Invariant)
    (taken : system.step event = some after) : ∃ flow, system.Enters event after flow := by
  cases step_move taken with
  | pushPacket =>
      exact ⟨.make system.sendIOQueue.accepts, ⟨_, _,
        Consumer.push_packets_effect inv.sendPointers _, rfl⟩, rfl, fun _ _ => rfl⟩
  | popReceived popped =>
      refine ⟨.quiet, .quiet ?_ rfl⟩
      simp [ledger, Consumer.packets, Consumer.pop_items inv.received popped]
  | checkReceived => exact checkReceived_enters inv taken
  | skipReceived | handleReceived => exact handleReceived_enters inv taken
  | receive =>
      refine ⟨.arrive system.bufferUDPRecv.accepts, ⟨_, _, Consumer.push_items_effect _ _, rfl⟩,
        rfl, ?_⟩
      intro calm undisturbed
      exact (accepts_of_undisturbed calm undisturbed).2
  | popBuffer popped =>
      refine ⟨.quiet, .quiet ?_ rfl⟩
      simp [ledger, Consumer.pop_items inv.buffer popped]
  | checkBuffer => exact checkBuffer_enters inv taken
  | skipBuffer | pushMessageReceived => exact pushMessageReceived_enters inv taken
  | popSend popped =>
      refine ⟨.quiet, .quiet ?_ rfl⟩
      simp [ledger, Consumer.packets, Consumer.pop_items inv.send popped]
  | checkSend checked =>
      obtain ⟨_, _, split, _⟩ := Consumer.checkPointer_spec inv.sendPointers inv.send checked
      exact ⟨.release, ⟨_, _, split, rfl⟩, rfl, fun _ _ => rfl⟩
  | skipSend | transmit => exact transmit_enters inv taken
  | sendtoFails working =>
      refine ⟨.release, ⟨_, _, Consumer.packets_of_working inv.send working, ?_⟩, rfl,
        fun _ _ => rfl⟩
      simp [ledger]
  | proceedNodeManagament first =>
      refine ⟨.quiet, .quiet ?_ rfl⟩
      simp [ledger, Consumer.packets, Consumer.proceed_items inv.received first]
  | proceedIOHandler _ first second =>
      refine ⟨.quiet, .quiet ?_ rfl⟩
      simp [ledger, Consumer.packets, Consumer.proceed_items inv.buffer first,
        Consumer.proceed_items inv.send second]
  | _ => exact ⟨.quiet, .quiet rfl rfl⟩

end System

end NodeManagement
