import NodeManagement.PacketFlow

/-!
The receive pipeline: what the handlers get is a subsequence of the decoded datagrams in the
order of reception, and all of them are on their way while nothing is stopped and no queue is
full.
-/

namespace NodeManagement

def HeapPacket.content (packet : HeapPacket) : Option Nat × PacketObject :=
  (packet.origin, packet.object)

def Reception.decoded (received : Reception) : Option (Option Nat × PacketObject) :=
  (decodeReceived received.dataUDP).map fun object => (some received.serial, object)

theorem isHandled_of_decodeReceived {dataPDU : DataReceivedUDP} {object : PacketObject}
    (decoded : decodeReceived dataPDU = some object) : object.isHandled = true := by
  rw [decodeReceived_eq] at decoded
  split at decoded
  · obtain rfl := Option.some.inj decoded
    rfl
  · split at decoded
    · obtain rfl := Option.some.inj decoded
      rfl
    · simp at decoded

namespace Ledger

def expected (ledger : Ledger) : List (Option Nat × PacketObject) :=
  ledger.reception.filterMap Reception.decoded

def pipeline (ledger : Ledger) : List (Option Nat × PacketObject) :=
  (ledger.handled ++ ledger.received).map HeapPacket.content ++
    ledger.buffered.filterMap Reception.decoded

variable {ledger after : Ledger} {flow : Flow}

theorem isHandled_of_expected {content : Option Nat × PacketObject}
    (member : content ∈ ledger.expected) : content.2.isHandled = true := by
  obtain ⟨received, _, decoded⟩ := List.mem_filterMap.mp member
  obtain ⟨object, made, rfl⟩ := Option.map_eq_some_iff.mp decoded
  exact isHandled_of_decodeReceived made

theorem Moves.pipeline_sublist (moves : ledger.Moves flow after)
    (ordered : ledger.pipeline.Sublist ledger.expected) :
    after.pipeline.Sublist after.expected := by
  cases flow with
  | quiet => exact moves ▸ ordered
  | arrive accepted =>
      obtain ⟨dataUDP, buffered, effect, rfl⟩ := moves
      have more := (effect.sublist.filterMap Reception.decoded).append_left
        ((ledger.handled ++ ledger.received).map HeapPacket.content)
      refine more.trans ?_
      simp only [expected, List.filterMap_append, ← List.append_assoc]
      exact ordered.append_right _
  | dropBuffered =>
      obtain ⟨rest, fewer, rfl⟩ := moves
      exact ((fewer.filterMap Reception.decoded).append_left _).trans ordered
  | ignore =>
      obtain ⟨dataPDU, rest, front, ignored, rfl⟩ := moves
      simpa [pipeline, expected, front, Reception.decoded, ignored] using ordered
  | decode accepted =>
      obtain ⟨dataPDU, rest, object, received, front, decoded, effect, rfl⟩ := moves
      have more := ((effect.sublist.append_left ledger.handled).map HeapPacket.content).append_right
        (rest.filterMap Reception.decoded)
      refine more.trans ?_
      simpa [pipeline, expected, front, Reception.decoded, decoded, HeapPacket.content]
        using ordered
  | leaveReceived =>
      obtain ⟨freed, rest, split, rfl⟩ := moves
      have fewer : (ledger.handled ++ rest).Sublist (ledger.handled ++ ledger.received) := by
        rw [split]
        exact (List.sublist_append_right freed rest).append_left _
      exact ((fewer.map HeapPacket.content).append_right _).trans ordered
  | handle =>
      obtain ⟨packet, rest, front, rfl⟩ := moves
      refine List.Sublist.trans ?_ ordered
      refine (List.Sublist.map HeapPacket.content ?_).append_right _
      dsimp only
      rw [front]
      split
      · simp
      · exact (List.sublist_cons_self packet rest).append_left _
  | release =>
      obtain ⟨freed, rest, _, rfl⟩ := moves
      exact ordered
  | make accepted =>
      obtain ⟨object, sending, _, rfl⟩ := moves
      exact ordered

theorem Moves.pipeline_eq (moves : ledger.Moves flow after)
    (lossless : flow.losesNoDatagram = true) (complete : ledger.pipeline = ledger.expected) :
    after.pipeline = after.expected := by
  cases flow with
  | quiet => exact moves ▸ complete
  | arrive accepted =>
      obtain ⟨dataUDP, buffered, effect, rfl⟩ := moves
      subst lossless
      simp only [pipeline, expected, effect.eq_of_accepted, List.filterMap_append,
        ← List.append_assoc] at complete ⊢
      rw [complete]
  | dropBuffered => simp [Flow.losesNoDatagram] at lossless
  | ignore =>
      obtain ⟨dataPDU, rest, front, ignored, rfl⟩ := moves
      simpa [pipeline, expected, front, Reception.decoded, ignored] using complete
  | decode accepted =>
      obtain ⟨dataPDU, rest, object, received, front, decoded, effect, rfl⟩ := moves
      subst lossless
      rw [effect.eq_of_accepted]
      simpa [pipeline, expected, front, Reception.decoded, decoded, HeapPacket.content]
        using complete
  | leaveReceived => simp [Flow.losesNoDatagram] at lossless
  | handle =>
      obtain ⟨packet, rest, front, rfl⟩ := moves
      have known : packet.object.isHandled = true := by
        refine @isHandled_of_expected ledger packet.content ?_
        rw [← complete]
        simp [pipeline, front]
      simpa [pipeline, expected, front, known] using complete
  | release =>
      obtain ⟨freed, rest, _, rfl⟩ := moves
      exact complete
  | make accepted =>
      obtain ⟨object, sending, _, rfl⟩ := moves
      exact complete

theorem Moves.serials (moves : ledger.Moves flow after)
    (counted : ledger.reception.map Reception.serial = List.range ledger.reception.length) :
    after.reception.map Reception.serial = List.range after.reception.length := by
  cases flow with
  | arrive accepted =>
      obtain ⟨dataUDP, buffered, _, rfl⟩ := moves
      simp [counted, List.range_succ]
  | quiet => exact moves ▸ counted
  | dropBuffered =>
      obtain ⟨rest, _, rfl⟩ := moves
      exact counted
  | ignore =>
      obtain ⟨dataPDU, rest, _, _, rfl⟩ := moves
      exact counted
  | decode accepted =>
      obtain ⟨dataPDU, rest, object, received, _, _, _, rfl⟩ := moves
      exact counted
  | leaveReceived =>
      obtain ⟨freed, rest, _, rfl⟩ := moves
      exact counted
  | handle =>
      obtain ⟨packet, rest, _, rfl⟩ := moves
      exact counted
  | release =>
      obtain ⟨freed, rest, _, rfl⟩ := moves
      exact counted
  | make accepted =>
      obtain ⟨object, sending, _, rfl⟩ := moves
      exact counted

end Ledger

namespace Consumer

theorem checkPointer_running {consumer after : Consumer PacketPointer} {running : Bool}
    {freed : List HeapPacket}
    (taken : System.checkPointer consumer running = some (after, freed)) :
    after.queue.running = consumer.queue.running := by
  obtain ⟨checked, passed, same⟩ := Option.map_eq_some_iff.mp taken
  rw [← check_running passed]
  split at same <;> simp only [Prod.mk.injEq] at same <;> exact same.1 ▸ rfl

end Consumer

namespace System

variable {system after : System}

theorem initial_calm : initial.Calm := ⟨rfl, rfl, rfl, rfl⟩

theorem step_calm {event : SystemEvent} (calm : system.Calm) (noStop : event.isStop = false)
    (taken : system.step event = some after) : after.Calm := by
  cases step_move taken with
  | nodeStep _ _ _ stepped | popMessage _ stepped | checkMessage stepped | handleMessage stepped =>
      refine ⟨?_, calm.ioHandler, calm.received, calm.buffer⟩
      rw [(Monitor.step_flags rfl stepped).1]
      exact calm.nodeManagament
  | handleReceived _ _ dispatched =>
      refine ⟨?_, calm.ioHandler, calm.received, calm.buffer⟩
      rw [(Monitor.handlePacket_flags dispatched).1]
      exact calm.nodeManagament
  | popReceived popped =>
      exact ⟨calm.nodeManagament, calm.ioHandler, (Consumer.pop_running popped).trans calm.received,
        calm.buffer⟩
  | checkReceived checked =>
      exact ⟨calm.nodeManagament, calm.ioHandler,
        (Consumer.checkPointer_running checked).trans calm.received, calm.buffer⟩
  | receive =>
      exact ⟨calm.nodeManagament, calm.ioHandler, calm.received,
        (Consumer.push_queue_running _).trans calm.buffer⟩
  | popBuffer popped =>
      exact ⟨calm.nodeManagament, calm.ioHandler, calm.received,
        (Consumer.pop_running popped).trans calm.buffer⟩
  | checkBuffer checked =>
      exact ⟨calm.nodeManagament, calm.ioHandler, calm.received,
        (Consumer.check_running checked).trans calm.buffer⟩
  | pushMessageReceived =>
      exact ⟨calm.nodeManagament, calm.ioHandler,
        (Consumer.push_queue_running _).trans calm.received, calm.buffer⟩
  | startNodeManagament _ stepped =>
      cases Monitor.step_move stepped with
      | startAgain => exact calm
      | start => exact ⟨rfl, calm.ioHandler, calm.received, calm.buffer⟩
  | proceedNodeManagament first proceeded =>
      refine ⟨?_, calm.ioHandler,
        Consumer.proceed_running calm.nodeManagament calm.received first, calm.buffer⟩
      rw [(Monitor.proceed_cases proceeded).2.1]
      exact ModulePhase.next_calm calm.nodeManagament
  | startIOHandler => exact ⟨calm.nodeManagament, rfl, calm.received, calm.buffer⟩
  | proceedIOHandler _ first =>
      exact ⟨calm.nodeManagament, ModulePhase.next_calm calm.ioHandler, calm.received,
        Consumer.proceed_running calm.ioHandler calm.buffer first⟩
  | stopNodeManagament | stopIOHandler | stopIOHandlerAgain => simp [SystemEvent.isStop] at noStop
  | receiveNothing | startIOHandlerAgain => exact calm
  | pushPacket | skipReceived | skipBuffer | popSend | checkSend | skipSend | transmit
    | sendtoFails | startReceiver =>
      exact ⟨calm.nodeManagament, calm.ioHandler, calm.received, calm.buffer⟩

theorem decoded_origins (receptions : List Reception) :
    ((receptions.filterMap Reception.decoded).map Prod.fst).Sublist
      (receptions.map fun received => some received.serial) := by
  induction receptions with
  | nil => exact List.Sublist.refl _
  | cons received rest ih =>
      cases decoded : decodeReceived received.dataUDP with
      | none => simpa [Reception.decoded, decoded] using ih.cons _
      | some object => simpa [Reception.decoded, decoded] using ih

theorem reachable_pipeline_sublist (reached : Reachable system) :
    system.ledger.pipeline.Sublist system.ledger.expected ∧
      system.reception.map Reception.serial = List.range system.reception.length := by
  refine (Transition.Reaches.invariant (fun system => system.Invariant ∧
    system.ledger.pipeline.Sublist system.ledger.expected ∧
    system.reception.map Reception.serial = List.range system.reception.length) reached
    ⟨initial_invariant, List.Sublist.refl _, rfl⟩ ?_).2
  intro before event after ⟨inv, ordered, counted⟩ _ taken
  obtain ⟨flow, enters⟩ := step_enters inv taken
  exact ⟨step_invariant inv taken, enters.moves.pipeline_sublist ordered,
    enters.moves.serials counted⟩

def Undisturbed (system : System) (event : SystemEvent) : Prop :=
  system.undisturbed event = true

theorem undisturbed_pipeline_eq (reached : ReachableBy Undisturbed system) :
    system.ledger.pipeline = system.ledger.expected := by
  refine (Transition.Reaches.invariant (fun system => system.Invariant ∧ system.Calm ∧
    system.ledger.pipeline = system.ledger.expected) reached
    ⟨initial_invariant, initial_calm, rfl⟩ ?_).2.2
  intro before event after ⟨inv, calm, complete⟩ undisturbed taken
  obtain ⟨flow, enters⟩ := step_enters inv taken
  have noStop : event.isStop = false := by
    simp only [Undisturbed, System.undisturbed, Bool.and_eq_true, Bool.not_eq_true'] at undisturbed
    exact undisturbed.1.1
  exact ⟨step_invariant inv taken, step_calm calm noStop taken,
    enters.moves.pipeline_eq (enters.undisturbed calm undisturbed) complete⟩

/-- Over every interleaving, with stops, restarts and overflow: the handlers get decoded
datagrams in the order of reception, none of them twice, and both loop bodies work only on what
their last `waitAndPop` delivered.  Undisturbed, nothing is missing. -/
theorem received_in_order (reached : Reachable system) :
    (system.handled.map HeapPacket.content).Sublist system.ledger.expected ∧
      (system.handled.map HeapPacket.origin).Nodup ∧
      (system.receivedIOQueue.thread.pc = .working → system.receivedIOQueue.thread.popped = true) ∧
      (system.bufferUDPRecv.thread.pc = .working → system.bufferUDPRecv.thread.popped = true) ∧
      (ReachableBy Undisturbed system → system.ledger.pipeline = system.ledger.expected) := by
  have inv := reachableBy_invariant reached
  obtain ⟨ordered, counted⟩ := reachable_pipeline_sublist reached
  have handled : (system.handled.map HeapPacket.content).Sublist system.ledger.expected := by
    refine List.Sublist.trans ?_ ordered
    simp [Ledger.pipeline, ledger]
  refine ⟨handled, ?_, Handshake.fresh inv.received, Handshake.fresh inv.buffer,
    undisturbed_pipeline_eq⟩
  have origins : (system.handled.map HeapPacket.origin).Sublist
      (system.reception.map fun received => some received.serial) := by
    have first := handled.map Prod.fst
    rw [List.map_map] at first
    exact first.trans (decoded_origins system.reception)
  have serials : (system.reception.map fun received => some received.serial).Nodup := by
    have distinct := (@List.nodup_range system.reception.length).map
      (Option.some_injective Nat)
    rw [← counted, List.map_map] at distinct
    exact distinct
  exact serials.sublist origins

end System

def pingDatagram : Recvfrom := .received [0x01] ⟨0x0100007f, 0x204e⟩ (by decide)

def threeDatagrams : List SystemEvent :=
  startNodeManagamentEvents ++ startIOHandlerEvents ++
    [.receive registerDatagram, .receive pingDatagram, .receive otherRegisterDatagram] ++
    (List.replicate 3 [.popBuffer, .checkBuffer, .pushMessageReceived]).flatten ++
    (List.replicate 2 [.popReceived, .checkReceived, .handleReceived]).flatten

theorem received_in_order_threeDatagrams :
    ∃ system : System, system.reception.length = 3 ∧
      system.handled.map HeapPacket.origin = [some 0, some 2] ∧
      (system.handled.map HeapPacket.content).Sublist system.ledger.expected ∧
      system.ledger.pipeline = system.ledger.expected := by
  obtain ⟨system, reached, found⟩ := Transition.exists_reaches System.step System.undisturbed
    (fun system => system.reception.length == 3 &&
      system.handled.map HeapPacket.origin == [some 0, some 2]) .initial threeDatagrams
    (fun _ _ calm => calm) (by decide +kernel) (by decide +kernel)
  simp only [Bool.and_eq_true, beq_iff_eq] at found
  have ordered := System.received_in_order (reached.mono fun _ _ _ => trivial)
  exact ⟨system, found.1, found.2, ordered.1, ordered.2.2.2.2 reached⟩

end NodeManagement
