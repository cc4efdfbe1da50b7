import Mathlib.Data.List.TakeWhile
import NodeManagement.Client
import NodeManagement.Packet
import NodeManagement.UDPConnector

/-!
The two decoders on a received buffer, and the way of a REGISTER from the Python client through
the receive buffer into the decoder.
-/

namespace NodeManagement

theorem toInt_of_byte (byte : BitVec 8) : (byte.zeroExtend 32).toInt = byte.toNat := by
  have bound := byte.isLt
  rw [BitVec.toInt_eq_toNat_cond]
  simp only [BitVec.truncate_eq_setWidth, BitVec.toNat_setWidth]
  split <;> omega

theorem toNat_of_byte (byte : BitVec 8) : (byte.zeroExtend 32).toNat = byte.toNat := by
  have bound := byte.isLt
  simp only [BitVec.truncate_eq_setWidth, BitVec.toNat_setWidth]
  omega

theorem truncate_of_byte (byte : BitVec 8) : (byte.zeroExtend 32).truncate 8 = byte := by
  simp

theorem getBitsString_declared {buffer : Bytes} (size : buffer.length = bufferSize)
    (declared : BitVec 8) (header : Nat) (short : header ≤ 255) :
    getBitsString buffer (8 * header) ((declared.toNat : Int) - header).toNat =
      some ((buffer.drop header).take (declared.toNat - header),
        8 * (header + (declared.toNat - header))) := by
  have bound := declared.isLt
  have count : ((declared.toNat : Int) - header).toNat = declared.toNat - header := by omega
  rw [count, getBitsString_aligned (by rw [size]; unfold bufferSize; omega) (by omega)]

theorem RigisterPacket.decode_eq (packet : RigisterPacket) {buffer : Bytes}
    (size : buffer.length = bufferSize) :
    packet.decode buffer = some { packet with
      typeMessage := .ofValue (buffer.getD 0 0).toNat
      payloadLengh := buffer.getD 1 0
      typeNode := .ofValue (buffer.getD 2 0).toNat
      mes := stringOfCString ((buffer.drop 3).take ((buffer.getD 1 0).toNat - 3)) } := by
  have inside : 2 < buffer.length := by rw [size]; decide
  have first : getBits buffer 0 8 = _ := getBits_byte (show 0 < buffer.length by omega) (by omega)
  have second : getBits buffer (8 * 0 + 8) 8 = _ :=
    getBits_byte (show 1 < buffer.length by omega) (by omega)
  have third : getBits buffer (8 * 1 + 8) 8 = _ := getBits_byte inside (by omega)
  have message : getBitsString buffer (8 * 2 + 8) _ = _ :=
    getBitsString_declared size (buffer.getD 1 0) 3 (by omega)
  have offset : (8 * 2 + 8) / 8 = 3 := rfl
  simp only [decode, first, second, third, Option.bind_eq_bind, Option.bind_some, offset,
    toInt_of_byte, toNat_of_byte, truncate_of_byte]
  split
  next =>
    rw [message]
    rfl
  next small =>
    have empty : (buffer.getD 1 0).toNat - 3 = 0 := by omega
    rw [empty]
    rfl

theorem PongPacket.decode_eq (packet : PongPacket) {buffer : Bytes}
    (size : buffer.length = bufferSize) :
    packet.decode buffer = some { packet with
      typeMessage := .ofValue (buffer.getD 0 0).toNat
      payloadLengh := buffer.getD 1 0
      mes := (buffer.drop 2).take ((buffer.getD 1 0).toNat - 2) } := by
  have inside : 1 < buffer.length := by rw [size]; decide
  have first : getBits buffer 0 8 = _ := getBits_byte (show 0 < buffer.length by omega) (by omega)
  have second : getBits buffer (8 * 0 + 8) 8 = _ := getBits_byte inside (by omega)
  have message : getBitsString buffer (8 * 1 + 8) _ = _ :=
    getBitsString_declared size (buffer.getD 1 0) 2 (by omega)
  have offset : (8 * 1 + 8) / 8 = 2 := rfl
  simp only [decode, first, second, Option.bind_eq_bind, Option.bind_some, offset,
    toInt_of_byte, toNat_of_byte, truncate_of_byte]
  split
  next =>
    rw [message]
    rfl
  next small =>
    have empty : (buffer.getD 1 0).toNat - 2 = 0 := by omega
    rw [empty]
    rfl

theorem stringOfCString_eq_self_iff (cMessage : Bytes) :
    stringOfCString cMessage = cMessage ↔ 0 ∉ cMessage := by
  rw [stringOfCString, List.takeWhile_eq_self_iff]
  constructor
  · intro nonzero member
    simpa using nonzero 0 member
  · intro absent byte member
    have : byte ≠ 0 := fun zero => absent (zero ▸ member)
    simpa using this

/-- The client builds a packet for a node type and a message, the packet is received as sent,
and the server reads from it what the client put in. -/
def RegisterRoundTrips (nodeType : BitVec 8) (msgBytes : Bytes) (sender : SockaddrIn) : Prop :=
  ∃ (datagram : Bytes) (fits : datagram.length < bufferSize) (dataPDU : DataReceivedUDP)
      (packet : RigisterPacket),
    buildRegisterPacket nodeType msgBytes = some datagram ∧
      dataToPush (.received datagram sender fits) = some dataPDU ∧
      checkMessageType dataPDU.buffer = some .register ∧
      RigisterPacket.create.decode dataPDU.buffer = some packet ∧
      packet.typeMessage = .register ∧ packet.payloadLengh.toNat = datagram.length ∧
      packet.typeNode.value = nodeType.toNat ∧ packet.mes = msgBytes

theorem buildRegisterPacket_eq (nodeType : BitVec 8) (msgBytes : Bytes) :
    buildRegisterPacket nodeType msgBytes =
      if msgBytes.length ≤ 252 then
        some (0x00 :: .ofNat 8 (3 + msgBytes.length) :: nodeType :: msgBytes)
      else none := by
  have total : 2 + (nodeType :: msgBytes).length = 3 + msgBytes.length := by
    simp only [List.length_cons]
    omega
  simp only [buildRegisterPacket, total]
  split <;> split <;> first | rfl | omega

theorem register_received (nodeType : BitVec 8) {msgBytes : Bytes} (sender : SockaddrIn)
    {datagram : Bytes} (fits : datagram.length < bufferSize)
    (built : buildRegisterPacket nodeType msgBytes = some datagram) :
    ∃ dataPDU, dataToPush (.received datagram sender fits) = some dataPDU ∧
      checkMessageType dataPDU.buffer = some .register ∧
      RigisterPacket.create.decode dataPDU.buffer = some { RigisterPacket.create with
        payloadLengh := .ofNat 8 datagram.length
        typeNode := .ofValue nodeType.toNat
        mes := stringOfCString msgBytes } := by
  rw [buildRegisterPacket_eq] at built
  split at built
  next short =>
    obtain rfl := Option.some.inj built
    obtain ⟨dataPDU, pushed, _, buffer⟩ := dataToPush_received sender fits (by simp)
    refine ⟨dataPDU, pushed, ?_, ?_⟩
    · rw [checkMessageType_eq (by rw [dataPDU.size]; decide), buffer]
      rfl
    · have size : (3 + msgBytes.length) % 256 - 3 = msgBytes.length := by omega
      rw [RigisterPacket.decode_eq _ dataPDU.size, buffer]
      simp [size, RigisterPacket.create, Packet.create, TypeMessage.ofValue]
      congr 1
      omega
  next => simp at built

theorem RegisterRoundTrips.short {nodeType : BitVec 8} {msgBytes : Bytes} {sender : SockaddrIn}
    (survives : RegisterRoundTrips nodeType msgBytes sender) : msgBytes.length ≤ 252 := by
  obtain ⟨datagram, _, _, _, built, _⟩ := survives
  by_contra long
  simp [buildRegisterPacket_eq, long] at built

theorem RegisterRoundTrips.noNul {nodeType : BitVec 8} {msgBytes : Bytes} {sender : SockaddrIn}
    (survives : RegisterRoundTrips nodeType msgBytes sender) : 0 ∉ msgBytes := by
  obtain ⟨datagram, fits, dataPDU, packet, built, pushed, _, decoded, _, _, _, message⟩ := survives
  obtain ⟨_, pushed', _, decoded'⟩ := register_received nodeType sender fits built
  obtain rfl := Option.some.inj (pushed.symm.trans pushed')
  obtain rfl := Option.some.inj (decoded.symm.trans decoded')
  exact (stringOfCString_eq_self_iff msgBytes).mp message

theorem registerRoundTrips_of_noNul (nodeType : BitVec 8) {msgBytes : Bytes} (sender : SockaddrIn)
    (short : msgBytes.length ≤ 252) (noNul : 0 ∉ msgBytes) :
    RegisterRoundTrips nodeType msgBytes sender := by
  have built := buildRegisterPacket_eq nodeType msgBytes
  rw [if_pos short] at built
  have fits : (0x00 :: .ofNat 8 (3 + msgBytes.length) :: nodeType :: msgBytes).length <
      bufferSize := by
    simp only [List.length_cons, bufferSize]
    omega
  obtain ⟨dataPDU, pushed, type, decoded⟩ := register_received nodeType sender fits built
  refine ⟨_, fits, dataPDU, _, built, pushed, type, decoded, rfl, ?_, ?_, ?_⟩
  · simp only [BitVec.toNat_ofNat]
    exact Nat.mod_eq_of_lt fits
  · simp
  · exact (stringOfCString_eq_self_iff msgBytes).mpr noNul

/-- A REGISTER survives the trip exactly when the client can build it and its message has no
zero byte. -/
theorem registerRoundTrips_iff (nodeType : BitVec 8) (msgBytes : Bytes) (sender : SockaddrIn) :
    RegisterRoundTrips nodeType msgBytes sender ↔ msgBytes.length ≤ 252 ∧ 0 ∉ msgBytes :=
  ⟨fun survives => ⟨survives.short, survives.noNul⟩,
    fun ⟨short, noNul⟩ => registerRoundTrips_of_noNul nodeType sender short noNul⟩

theorem register_with_nul_cut :
    ¬RegisterRoundTrips 0x01 [0x41, 0x00, 0x42] ⟨0x0100007f, 0x204e⟩ :=
  fun survives => survives.noNul (by decide)

theorem buildPongPacket_eq (msgBytes : Bytes) :
    buildPongPacket msgBytes =
      if msgBytes.length ≤ 253 then some (0x02 :: .ofNat 8 (2 + msgBytes.length) :: msgBytes)
      else none := by
  simp only [buildPongPacket]
  split <;> split <;> first | rfl | omega

theorem pong_received {msgBytes datagram : Bytes} (sender : SockaddrIn)
    (fits : datagram.length < bufferSize) (built : buildPongPacket msgBytes = some datagram) :
    ∃ dataPDU, dataToPush (.received datagram sender fits) = some dataPDU ∧
      checkMessageType dataPDU.buffer = some .pong ∧
      PongPacket.create.decode dataPDU.buffer = some { PongPacket.create with
        typeMessage := .pong
        payloadLengh := .ofNat 8 datagram.length
        mes := msgBytes } := by
  rw [buildPongPacket_eq] at built
  split at built
  next short =>
    obtain rfl := Option.some.inj built
    obtain ⟨dataPDU, pushed, _, buffer⟩ := dataToPush_received sender fits (by simp)
    refine ⟨dataPDU, pushed, ?_, ?_⟩
    · rw [checkMessageType_eq (by rw [dataPDU.size]; decide), buffer]
      rfl
    · have size : (2 + msgBytes.length) % 256 - 2 = msgBytes.length := by omega
      rw [PongPacket.decode_eq _ dataPDU.size, buffer]
      simp [size, PongPacket.create, Packet.create, TypeMessage.ofValue]
      congr 1
      omega
  next => simp at built

def PongRoundTrips (msgBytes : Bytes) (sender : SockaddrIn) : Prop :=
  ∃ (datagram : Bytes) (fits : datagram.length < bufferSize) (dataPDU : DataReceivedUDP)
      (packet : PongPacket),
    buildPongPacket msgBytes = some datagram ∧
      dataToPush (.received datagram sender fits) = some dataPDU ∧
      checkMessageType dataPDU.buffer = some .pong ∧
      PongPacket.create.decode dataPDU.buffer = some packet ∧
      packet.typeMessage = .pong ∧ packet.payloadLengh.toNat = datagram.length ∧
      packet.mes = msgBytes

/-- Every PONG that the client can build survives, zero bytes and bytes from 128 on included. -/
theorem pongRoundTrips_iff (msgBytes : Bytes) (sender : SockaddrIn) :
    PongRoundTrips msgBytes sender ↔ msgBytes.length ≤ 253 := by
  constructor
  · rintro ⟨datagram, _, _, _, built, _⟩
    by_contra long
    simp [buildPongPacket_eq, long] at built
  · intro short
    have built := buildPongPacket_eq msgBytes
    rw [if_pos short] at built
    have fits : (0x02 :: .ofNat 8 (2 + msgBytes.length) :: msgBytes).length < bufferSize := by
      simp only [List.length_cons, bufferSize]
      omega
    obtain ⟨dataPDU, pushed, type, decoded⟩ := pong_received sender fits built
    refine ⟨_, fits, dataPDU, _, built, pushed, type, decoded, rfl, ?_, rfl⟩
    simp only [BitVec.toNat_ofNat]
    exact Nat.mod_eq_of_lt fits

end NodeManagement
