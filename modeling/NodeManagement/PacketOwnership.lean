import Mathlib.Data.List.Perm.Subperm
import NodeManagement.PacketFlow

/-!
Who owns a packet: a slot of a queue, the local pointer of a consumer thread, or nobody any more
once it is deleted.  No packet is ever in two of these places; a packet is in none of them
exactly when a push has lost one.
-/

namespace NodeManagement

open Transition

namespace Ledger

def packets (ledger : Ledger) : List HeapPacket :=
  ledger.received ++ ledger.sending ++ ledger.deleted

def Distinct (ledger : Ledger) : Prop :=
  (ledger.packets.map HeapPacket.identity).Subperm (List.range ledger.nextIdentity)

def missing (ledger : Ledger) : Nat := ledger.nextIdentity - ledger.packets.length

variable {ledger after : Ledger} {flow : Flow}

theorem Distinct.packets_length_le (distinct : ledger.Distinct) :
    ledger.packets.length ≤ ledger.nextIdentity := by
  simpa using List.Subperm.length_le distinct

theorem Distinct.of_perm (distinct : ledger.Distinct)
    (same : after.packets.Perm ledger.packets) (next : after.nextIdentity = ledger.nextIdentity) :
    after.Distinct := by
  unfold Distinct
  rw [next]
  exact (same.map HeapPacket.identity).subperm.trans distinct

theorem Distinct.of_subperm (distinct : ledger.Distinct) {packet : HeapPacket}
    (fresh : packet.identity = ledger.nextIdentity)
    (same : after.packets.Subperm (ledger.packets ++ [packet]))
    (next : after.nextIdentity = ledger.nextIdentity + 1) : after.Distinct := by
  unfold Distinct
  rw [next, List.range_succ, ← fresh]
  obtain ⟨kept, permuted, inside⟩ := same
  have moved : (after.packets.map HeapPacket.identity).Subperm
      ((ledger.packets ++ [packet]).map HeapPacket.identity) :=
    ⟨kept.map _, permuted.map _, inside.map _⟩
  refine moved.trans ?_
  rw [List.map_append]
  exact (List.subperm_append_right _).mpr (fresh ▸ distinct)

theorem Moves.packets (moves : ledger.Moves flow after) :
    (after.packets.Perm ledger.packets ∧ after.nextIdentity = ledger.nextIdentity ∧
        flow.keepsPacket = true) ∨
      ∃ packet, packet.identity = ledger.nextIdentity ∧
        after.packets.Subperm (ledger.packets ++ [packet]) ∧
        after.nextIdentity = ledger.nextIdentity + 1 ∧
        after.packets.length + (if flow.keepsPacket then 0 else 1) =
          ledger.packets.length + 1 := by
  cases flow with
  | quiet => exact .inl ⟨by rw [moves], by rw [moves], rfl⟩
  | arrive accepted =>
      obtain ⟨dataUDP, buffered, _, rfl⟩ := moves
      exact .inl ⟨.refl _, rfl, rfl⟩
  | dropBuffered =>
      obtain ⟨rest, _, rfl⟩ := moves
      exact .inl ⟨.refl _, rfl, rfl⟩
  | ignore =>
      obtain ⟨dataPDU, rest, _, _, rfl⟩ := moves
      exact .inl ⟨.refl _, rfl, rfl⟩
  | decode accepted =>
      obtain ⟨dataPDU, rest, object, received, _, _, effect, rfl⟩ := moves
      refine .inr ⟨⟨ledger.nextIdentity, object, some dataPDU.serial⟩, rfl, ?_, rfl, ?_⟩
      · refine ((effect.sublist.append_right _).append_right _).subperm.trans ?_
        refine (List.perm_iff_count.mpr fun packet => ?_).subperm
        simp only [Ledger.packets, List.count_append]
        omega
      · have length := effect.length
        cases accepted <;>
          simp only [Ledger.packets, List.length_append, Flow.keepsPacket, if_true,
            Bool.false_eq_true, if_false] at length ⊢ <;> omega
  | leaveReceived =>
      obtain ⟨freed, rest, split, rfl⟩ := moves
      refine .inl ⟨List.perm_iff_count.mpr fun packet => ?_, rfl, rfl⟩
      simp only [Ledger.packets, split, List.count_append]
      omega
  | handle =>
      obtain ⟨packet, rest, front, rfl⟩ := moves
      refine .inl ⟨List.perm_iff_count.mpr fun other => ?_, rfl, rfl⟩
      simp only [Ledger.packets, front, List.count_append, List.count_cons, List.count_nil]
      omega
  | release =>
      obtain ⟨freed, rest, split, rfl⟩ := moves
      refine .inl ⟨List.perm_iff_count.mpr fun packet => ?_, rfl, rfl⟩
      simp only [Ledger.packets, split, List.count_append]
      omega
  | make accepted =>
      obtain ⟨object, sending, effect, rfl⟩ := moves
      refine .inr ⟨⟨ledger.nextIdentity, object, none⟩, rfl, ?_, rfl, ?_⟩
      · refine ((effect.sublist.append_left _).append_right _).subperm.trans ?_
        refine (List.perm_iff_count.mpr fun packet => ?_).subperm
        simp only [Ledger.packets, List.count_append]
        omega
      · have length := effect.length
        cases accepted <;>
          simp only [Ledger.packets, List.length_append, Flow.keepsPacket, if_true,
            Bool.false_eq_true, if_false] at length ⊢ <;> omega

theorem Moves.distinct (moves : ledger.Moves flow after) (distinct : ledger.Distinct) :
    after.Distinct := by
  obtain ⟨same, next, _⟩ | ⟨packet, fresh, fewer, next, _⟩ := moves.packets
  · exact distinct.of_perm same next
  · exact distinct.of_subperm fresh fewer next

theorem Moves.missing_eq_zero_iff (moves : ledger.Moves flow after) (distinct : ledger.Distinct) :
    after.missing = 0 ↔ ledger.missing = 0 ∧ flow.keepsPacket = true := by
  have before := distinct.packets_length_le
  have later := (moves.distinct distinct).packets_length_le
  unfold missing
  obtain ⟨same, next, keeps⟩ | ⟨packet, _, _, next, length⟩ := moves.packets
  · rw [same.length_eq, next, keeps]
    simp
  · cases keeps : flow.keepsPacket with
    | true =>
        simp only [keeps, if_true] at length
        simp only [and_true]
        omega
    | false =>
        simp only [keeps, Bool.false_eq_true, if_false] at length
        simp only [Bool.false_eq_true, and_false, iff_false]
        omega

end Ledger

namespace System

/-- Where packets can be: the slots of both queues, the local pointers of their consumers, and
the set of deleted packets. -/
def places (system : System) : List Nat :=
  (system.receivedIOQueue.queue.queue.flatMap PacketPointer.owned ++
    system.receivedIOQueue.thread.item.owned ++
    system.sendIOQueue.queue.queue.flatMap PacketPointer.owned ++
    system.sendIOQueue.thread.item.owned ++ system.deleted).map HeapPacket.identity

def Accounted (system : System) : Prop :=
  ∀ identity, identity < system.nextIdentity → system.places.count identity = 1

instance (system : System) : Decidable system.Accounted :=
  inferInstanceAs (Decidable (∀ identity, identity < system.nextIdentity → _))

variable {system after : System}

theorem places_perm (inv : system.Invariant) :
    system.places.Perm (system.ledger.packets.map HeapPacket.identity) := by
  refine List.Perm.map _ (List.perm_iff_count.mpr fun packet => ?_)
  simp only [Ledger.packets, ledger, inv.receivedPointers.packets_eq, inv.sendPointers.packets_eq,
    List.count_append]
  omega

theorem accounted_iff (inv : system.Invariant) (distinct : system.ledger.Distinct) :
    system.Accounted ↔ system.ledger.missing = 0 := by
  have places := places_perm inv
  have within : system.places.Subperm (List.range system.nextIdentity) :=
    places.subperm.trans distinct
  have length : system.places.length = system.ledger.packets.length := by
    rw [places.length_eq, List.length_map]
  have missing : system.ledger.missing = system.nextIdentity - system.places.length := by
    rw [length]
    rfl
  rw [missing]
  constructor
  · intro accounted
    have covered : (List.range system.nextIdentity).Subperm system.places := by
      apply List.nodup_range.subperm
      intro identity made
      have once := accounted identity (List.mem_range.mp made)
      exact List.count_pos_iff.mp (by omega)
    have length := covered.length_le
    rw [List.length_range] at length
    omega
  · intro none identity made
    have whole := within.perm_of_length_le (by rw [List.length_range]; omega)
    rw [whole.count_eq]
    exact List.count_eq_one_of_mem List.nodup_range (List.mem_range.mpr made)

theorem initial_distinct : initial.ledger.Distinct := by
  simp [Ledger.Distinct, Ledger.packets, ledger, initial, Consumer.packets]

theorem run_missing {events : List SystemEvent} {final : System} (inv : system.Invariant)
    (distinct : system.ledger.Distinct) (replay : runFrom step system events = some final) :
    final.Invariant ∧ final.ledger.Distinct ∧ (final.ledger.missing = 0 ↔
      system.ledger.missing = 0 ∧ checkFrom step keepsPacket system events = true) := by
  induction events generalizing system with
  | nil =>
      simp only [runFrom, Option.some.injEq] at replay
      subst replay
      exact ⟨inv, distinct, by simp [checkFrom]⟩
  | cons event rest ih =>
      simp only [runFrom, Option.bind_eq_some_iff] at replay
      obtain ⟨next, taken, tail⟩ := replay
      obtain ⟨flow, enters⟩ := step_enters inv taken
      obtain ⟨finalInv, finalDistinct, exactly⟩ :=
        ih (step_invariant inv taken) (enters.moves.distinct distinct) tail
      refine ⟨finalInv, finalDistinct, ?_⟩
      rw [exactly, enters.moves.missing_eq_zero_iff distinct, enters.keeps]
      simp only [checkFrom, taken, Bool.and_eq_true, and_assoc]

/-- In every run no packet is deleted twice, whatever the pushes lose. -/
theorem deleted_once (reached : Reachable system) :
    (system.deleted.map HeapPacket.identity).Nodup := by
  obtain ⟨_, distinct⟩ := Transition.Reaches.invariant
    (fun system => system.Invariant ∧ system.ledger.Distinct) reached
    ⟨initial_invariant, initial_distinct⟩ fun before event after ⟨inv, distinct⟩ _ taken => by
      obtain ⟨flow, enters⟩ := step_enters inv taken
      exact ⟨step_invariant inv taken, enters.moves.distinct distinct⟩
  obtain ⟨same, permuted, inside⟩ := distinct
  have all : (system.ledger.packets.map HeapPacket.identity).Nodup :=
    permuted.nodup_iff.mp (List.nodup_range.sublist inside)
  refine all.sublist (List.Sublist.map _ ?_)
  exact List.sublist_append_right _ _

/-- All packets are accounted for at every point of a run exactly when every push of a packet in
it found its queue running and not full. -/
theorem packets_accounted_iff {events : List SystemEvent} {final : System}
    (replay : runFrom step .initial events = some final) :
    (∀ first second middle, events = first ++ second →
        runFrom step .initial first = some middle → middle.Accounted) ↔
      checkFrom step keepsPacket .initial events = true := by
  have start : initial.ledger.missing = 0 := rfl
  constructor
  · intro always
    obtain ⟨inv, distinct, exactly⟩ := run_missing initial_invariant initial_distinct replay
    have accounted := always events [] final (List.append_nil _).symm replay
    exact (exactly.mp ((accounted_iff inv distinct).mp accounted)).2
  · intro checked first second middle split run
    subst split
    obtain ⟨inv, distinct, exactly⟩ := run_missing initial_invariant initial_distinct run
    exact (accounted_iff inv distinct).mpr (exactly.mpr ⟨start, checkFrom_of_append checked⟩)

end System

def registerEvents : List SystemEvent :=
  startNodeManagamentEvents ++ startIOHandlerEvents ++ receiveEvents ++
    [.popReceived, .checkReceived, .handleReceived]

theorem packets_accounted_register :
    ∃ final : System, Transition.runFrom System.step .initial registerEvents = some final ∧
      final.deleted.length = 1 ∧ final.Accounted := by
  have ended : (Transition.runFrom System.step .initial registerEvents).any
      (fun final => final.deleted.length == 1) = true := by decide +kernel
  obtain ⟨final, replay, freed⟩ := (Option.any_eq_true _ _).mp ended
  refine ⟨final, replay, by simpa using freed, ?_⟩
  exact (System.packets_accounted_iff replay).mpr (by decide +kernel) registerEvents [] final
    (List.append_nil _).symm replay

def registerWhileStopped : List SystemEvent :=
  startNodeManagamentEvents ++ startIOHandlerEvents ++
    [.stopNodeManagament, .proceedNodeManagament, .proceedNodeManagament, .popReceived,
      .checkReceived, .proceedNodeManagament, .popMessage, .checkMessage,
      .proceedNodeManagament] ++ receiveEvents

theorem packet_leaked_while_stopped :
    ∃ final : System, System.Reachable final ∧ ¬final.Accounted := by
  obtain ⟨final, reached, leaked⟩ := Transition.exists_reaches System.step (fun _ _ => true)
    (fun final => !decide final.Accounted) .initial registerWhileStopped
    (fun _ _ _ => trivial) (by decide +kernel) (by decide +kernel)
  exact ⟨final, reached, by simpa using leaked⟩

end NodeManagement
