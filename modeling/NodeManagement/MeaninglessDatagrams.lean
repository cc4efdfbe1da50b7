import NodeManagement.Downcasts
import NodeManagement.ReceivePipeline

/-!
Datagrams that must not do anything: all but the REGISTER of a monitored type from a new port
and the PONG of a registered one.
-/

namespace NodeManagement

open KeyedList

namespace Registry

/-- The datagram is a REGISTER with node type byte 1, 2 or 3 from an unregistered port, or a PONG
from a registered one. -/
def Meaningful (registry : Registry) (dataPDU : DataReceivedUDP) : Prop :=
  (dataPDU.buffer.getD 0 0 = 0x00 ∧
      (dataPDU.buffer.getD 2 0 = 0x01 ∨ dataPDU.buffer.getD 2 0 = 0x02 ∨
        dataPDU.buffer.getD 2 0 = 0x03) ∧
      ∀ node ∈ registry.vecNodeBase, node.getPortInfo ≠ dataPDU.clientAddr.sinPort) ∨
    (dataPDU.buffer.getD 0 0 = 0x02 ∧
      ∃ node ∈ registry.vecNodeBase, node.getPortInfo = dataPDU.clientAddr.sinPort)

instance (registry : Registry) (dataPDU : DataReceivedUDP) :
    Decidable (registry.Meaningful dataPDU) :=
  inferInstanceAs (Decidable (_ ∨ _))

variable {registry : Registry} {dataPDU : DataReceivedUDP}

theorem isMonitored_ofValue {byte : BitVec 8}
    (monitored : (TypeNode.ofValue byte.toNat).isMonitored = true) :
    byte = 0x01 ∨ byte = 0x02 ∨ byte = 0x03 := by
  have value := TypeNode.value_ofValue byte.toNat
  cases type : TypeNode.ofValue byte.toNat with
  | base => simp [type, TypeNode.isMonitored] at monitored
  | unnamed beyond => simp [type, TypeNode.isMonitored] at monitored
  | dataPlane => exact .inl (BitVec.eq_of_toNat_eq (by rw [← value, type]; rfl))
  | controlPlane => exact .inr (.inl (BitVec.eq_of_toNat_eq (by rw [← value, type]; rfl)))
  | oam => exact .inr (.inr (BitVec.eq_of_toNat_eq (by rw [← value, type]; rfl)))

theorem checkRegisterMessage_of_meaningless (meaningless : ¬registry.Meaningful dataPDU)
    (first : dataPDU.buffer.getD 0 0 = 0x00) :
    registry.checkRegisterMessage (receivedRegister dataPDU) = registry := by
  rw [checkRegisterMessage_eq, if_neg]
  intro added
  simp only [Bool.and_eq_true, Bool.not_eq_true', hasKey_eq_false_iff] at added
  exact meaningless (.inl ⟨first, isMonitored_ofValue added.1, added.2⟩)

theorem checkPongMessage_of_unregistered {packet : Packet}
    (absent : ∀ node ∈ registry.vecNodeBase, node.getPortInfo ≠ packet.clientAddr.sinPort) :
    registry.pongBlocked packet = false ∧ registry.checkPongMessage packet = registry := by
  constructor
  · simp [pongBlocked, toMap_eq_none_iff.mpr absent]
  · rw [checkPongMessage_eq,
      updateFirst_of_fixed fun node member port => absurd port (absent node member)]

end Registry

theorem Monitor.handlePacket_of_meaningless {monitor : Monitor} {dataPDU : DataReceivedUDP}
    {object : PacketObject} (meaningless : ¬monitor.registry.Meaningful dataPDU)
    (decoded : decodeReceived dataPDU = some object) :
    monitor.handlePacket object = some monitor := by
  rw [decodeReceived_eq] at decoded
  split at decoded
  next first =>
    obtain rfl := Option.some.inj decoded
    have other : ¬(receivedRegister dataPDU).typeMessage = .pong := by simp [receivedRegister]
    have type : (receivedRegister dataPDU).typeMessage = .register := rfl
    simp only [handlePacket, PacketObject.base, if_neg other, if_pos type, step,
      Registry.checkRegisterMessage_of_meaningless meaningless first]
  next =>
    split at decoded
    next first =>
      obtain rfl := Option.some.inj decoded
      have absent : ∀ node ∈ monitor.registry.vecNodeBase,
          node.getPortInfo ≠ (receivedPong dataPDU).clientAddr.sinPort := by
        intro node member port
        exact meaningless (.inr ⟨first, node, member, port⟩)
      have type : (receivedPong dataPDU).typeMessage = .pong := rfl
      obtain ⟨free, same⟩ := Registry.checkPongMessage_of_unregistered absent
      simp only [handlePacket, PacketObject.base, if_pos type, step, free, Bool.false_eq_true,
        if_false, same]
    next => simp at decoded

def Recvfrom.Empty : Recvfrom → Prop
  | received content _ _ => content = []
  | socketError err _ => err = wsaEConnReset

theorem dataToPush_of_empty {result : Recvfrom} (empty : result.Empty) :
    ∃ dataUDP, dataToPush result = some dataUDP ∧
      dataUDP.buffer = List.replicate bufferSize 0 := by
  cases result with
  | received content sender fits =>
      have none : content = [] := empty
      subst none
      exact ⟨_, rfl, rfl⟩
  | socketError err left =>
      have reset : err = wsaEConnReset := empty
      subst reset
      exact ⟨_, rfl, rfl⟩

theorem Registry.not_meaningful_of_zeros (registry : Registry) {dataPDU : DataReceivedUDP}
    (zeros : dataPDU.buffer = List.replicate bufferSize 0) : ¬registry.Meaningful dataPDU := by
  have read (index : Nat) : dataPDU.buffer.getD index 0 = 0x00 := by
    rw [zeros]
    simp only [List.getD, List.getElem?_replicate]
    split <;> rfl
  unfold Meaningful
  rw [read 0, read 2]
  rintro (⟨_, type, _⟩ | ⟨type, _⟩)
  · exact absurd type (by decide)
  · exact absurd type (by decide)

namespace System

/-- The registry with all its nodes and counters, `g_messageNodeQueue` and `g_sendIOQueue` are as
they were, and nothing is on its way into them. -/
structure Unaffected (system after : System) : Prop where
  monitor : after.monitor = system.monitor
  outbox : after.outbox = system.outbox
  sendIOQueue : after.sendIOQueue = system.sendIOQueue

variable {system : System}

theorem pushMessageReceived_unaffected (working : system.bufferUDPRecv.thread.pc = .working) :
    ∃ after, system.step .pushMessageReceived = some after ∧ system.Unaffected after := by
  simp only [step, pushMessageReceived, if_pos working]
  split
  · exact ⟨_, rfl, rfl, rfl, rfl⟩
  · exact ⟨_, rfl, rfl, rfl, rfl⟩

theorem handleReceived_unaffected {dataPDU : DataReceivedUDP} {packet : HeapPacket}
    (working : system.receivedIOQueue.thread.pc = .working)
    (inHand : system.receivedIOQueue.thread.item = .heap packet)
    (decoded : decodeReceived dataPDU = some packet.object)
    (meaningless : ¬system.monitor.registry.Meaningful dataPDU) :
    ∃ after, system.step .handleReceived = some after ∧ system.Unaffected after := by
  have dispatched := Monitor.handlePacket_of_meaningless meaningless decoded
  simp only [step, handleReceived, if_pos working, inHand, PacketPointer.pointee, dispatched,
    Option.map_some]
  exact ⟨_, rfl, rfl, rfl, rfl⟩

theorem received_of_working (reached : Reachable system)
    (working : system.receivedIOQueue.thread.pc = .working) :
    ∃ received ∈ system.reception, ∃ packet,
      system.receivedIOQueue.thread.item = .heap packet ∧
        packet.origin = some received.serial ∧
        decodeReceived received.dataUDP = some packet.object := by
  obtain ⟨inv, tags⟩ := reachable_tags reached
  have items := Consumer.items_of_working inv.received working
  obtain ⟨packet, inHand, _⟩ := tags.received system.receivedIOQueue.thread.item
    (by rw [items]; exact List.mem_cons_self)
  have waiting : packet ∈ system.receivedIOQueue.packets := by
    rw [Consumer.packets, items, List.flatMap_cons, inHand]
    exact List.mem_append_left _ (List.mem_singleton.mpr rfl)
  have inPipeline : packet.content ∈ system.ledger.pipeline :=
    List.mem_append_left _ (List.mem_map_of_mem (List.mem_append_right _ waiting))
  obtain ⟨received, member, decoded⟩ := List.mem_filterMap.mp
    ((reachable_pipeline_sublist reached).1.subset inPipeline)
  obtain ⟨object, made, same⟩ := Option.map_eq_some_iff.mp decoded
  simp only [HeapPacket.content, Prod.mk.injEq] at same
  exact ⟨received, member, packet, inHand, same.1.symm, same.2 ▸ made⟩

/-- On its way through both threads a datagram that is meaningless when it is handled has no
effect, and what the receiver pushes when it has received nothing is always meaningless. -/
theorem meaningless_unaffected (reached : Reachable system) :
    (system.bufferUDPRecv.thread.pc = .working →
      ∃ after, system.step .pushMessageReceived = some after ∧ system.Unaffected after) ∧
    (system.receivedIOQueue.thread.pc = .working →
      ∃ received ∈ system.reception, ∃ packet,
        system.receivedIOQueue.thread.item = .heap packet ∧
          packet.origin = some received.serial ∧
          decodeReceived received.dataUDP = some packet.object ∧
          (¬system.monitor.registry.Meaningful received.dataUDP →
            ∃ after, system.step .handleReceived = some after ∧ system.Unaffected after)) ∧
    ∀ result : Recvfrom, result.Empty → ∃ dataUDP, dataToPush result = some dataUDP ∧
      ¬system.monitor.registry.Meaningful dataUDP := by
  refine ⟨pushMessageReceived_unaffected, ?_, ?_⟩
  · intro working
    obtain ⟨received, member, packet, inHand, origin, decoded⟩ :=
      received_of_working reached working
    exact ⟨received, member, packet, inHand, origin, decoded, fun meaningless =>
      handleReceived_unaffected working inHand decoded meaningless⟩
  · intro result empty
    obtain ⟨dataUDP, pushed, zeros⟩ := dataToPush_of_empty empty
    exact ⟨dataUDP, pushed, system.monitor.registry.not_meaningful_of_zeros zeros⟩

end System

def secondRegisterEvents : List SystemEvent :=
  startNodeManagamentEvents ++ startIOHandlerEvents ++ takeInEvents registerDatagram ++
    receiveEvents ++ [.popReceived, .checkReceived]

theorem meaningless_unaffected_secondRegister :
    ∃ system after : System, system.monitor.registry.vecNodeBase.length = 1 ∧
      (∃ received ∈ system.reception, ∃ packet,
        system.receivedIOQueue.thread.item = .heap packet ∧
          packet.origin = some received.serial ∧
          decodeReceived received.dataUDP = some packet.object ∧
          ¬system.monitor.registry.Meaningful received.dataUDP) ∧
      system.step .handleReceived = some after ∧ system.Unaffected after ∧
      ∃ dataUDP, dataToPush (.socketError wsaEConnReset .zero) = some dataUDP ∧
        ¬system.monitor.registry.Meaningful dataUDP := by
  obtain ⟨system, reached, found⟩ := Transition.exists_reaches System.step (fun _ _ => true)
    (fun system => decide (system.receivedIOQueue.thread.pc = .working ∧
      system.monitor.registry.vecNodeBase.length = 1 ∧ ∀ received ∈ system.reception,
        ¬system.monitor.registry.Meaningful received.dataUDP)) .initial secondRegisterEvents
    (fun _ _ _ => trivial) (by decide +kernel) (by decide +kernel)
  obtain ⟨working, one, meaningless⟩ := of_decide_eq_true found
  obtain ⟨_, handles, resets⟩ := System.meaningless_unaffected reached
  obtain ⟨received, member, packet, inHand, origin, decoded, unaffected⟩ := handles working
  obtain ⟨after, handled, same⟩ := unaffected (meaningless received member)
  exact ⟨system, after, one,
    ⟨received, member, packet, inHand, origin, decoded, meaningless received member⟩, handled, same,
    resets _ (by simp [Recvfrom.Empty])⟩

end NodeManagement
