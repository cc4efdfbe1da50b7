import NodeManagement.Client
import NodeManagement.NodeManagament

/-!
The packets that NodeManagament builds against the parser of the Python client: what the two
encoders write, and for which messages the client reads it back.
-/

namespace NodeManagement

theorem intOfSize_le (size : Nat) : intOfSize size ≤ size := by
  unfold intOfSize
  rw [BitVec.toInt_eq_toNat_cond, BitVec.toNat_ofNat]
  have reduced := Nat.mod_le size (2 ^ 32)
  split <;> omega

def writtenSize (size room : Nat) : Nat :=
  if intOfSize size < room then (intOfSize size).toNat else room - 1

theorem writtenSize_le (size : Nat) {room : Nat} (positive : 0 < room) :
    writtenSize size room ≤ min size (room - 1) := by
  have bound := intOfSize_le size
  unfold writtenSize
  split <;> omega

def messageField (strMessage : Bytes) (size room : Nat) : Bytes :=
  strMessage.take size ++ List.replicate (room - size) 0#8

@[simp] theorem messageField_length {strMessage : Bytes} {size room : Nat}
    (inside : size ≤ strMessage.length) (fits : size ≤ room) :
    (messageField strMessage size room).length = room := by
  simp [messageField, inside, fits]

theorem setBitsString_field (front strMessage : Bytes) (room : Nat) (strLen : Int)
    (small : 8 * (front.length + room) < 2 ^ 31) (inside : strLen.toNat ≤ strMessage.length)
    (fits : strLen.toNat ≤ room) :
    setBitsString (front ++ List.replicate (room + 1) 0#8) (8 * front.length) strMessage strLen =
      some (front ++ messageField strMessage strLen.toNat room ++ [0#8],
        8 * (front.length + strLen.toNat)) := by
  have size : (strMessage.take strLen.toNat).length = strLen.toNat := by simp [inside]
  have whole : List.replicate (room + 1) 0#8 =
      List.replicate (strMessage.take strLen.toNat).length 0#8 ++
        (List.replicate (room - strLen.toNat) 0#8 ++ [0#8]) := by
    rw [size, ← List.append_assoc, List.replicate_append_replicate, Nat.add_sub_cancel' fits,
      List.replicate_succ']
  rw [setBitsString, if_pos inside, whole, setBitsChars_aligned (by omega), size]
  simp [messageField]

theorem closing (content : Bytes) :
    ((content ++ [0#8])[content.length]?).bind (fun _ =>
      some (((content ++ [0#8]).set content.length 0).take content.length)) = some content := by
  simp

theorem encodeMessage_eq (front strMessage : Bytes) {room : Nat} {playloadLength : BitVec 8}
    (positive : 0 < room) (fits : playloadLength.toNat = front.length + room) :
    encodeMessage (front ++ List.replicate (room + 1) 0#8) (8 * front.length) strMessage
        playloadLength =
      some (front ++ messageField strMessage (writtenSize strMessage.length room) room) := by
  have bound := writtenSize_le strMessage.length positive
  have small : 8 * (front.length + room) < 2 ^ 31 := by
    have inByte := playloadLength.isLt
    omega
  have remain : (playloadLength.toNat : Int) - (8 * front.length / 8 : Nat) = room := by omega
  have some_ : (room : Int) > 0 := by omega
  have length : (front ++ messageField strMessage (writtenSize strMessage.length room)
      room).length = playloadLength.toNat := by
    rw [List.length_append, messageField_length (by omega) (by omega), fits]
  by_cases shorter : intOfSize strMessage.length < room
  · have count : (intOfSize strMessage.length).toNat = writtenSize strMessage.length room := by
      simp [writtenSize, shorter]
    have field := setBitsString_field front strMessage room
      (intOfSize strMessage.length) small (by omega) (by omega)
    simp only [encodeMessage, remain, some_, shorter, if_true, field, Option.bind_eq_bind,
      Option.bind_some, count]
    rw [← length]
    exact closing _
  · have count : ((room : Int) - 1).toNat = writtenSize strMessage.length room := by
      simp [writtenSize, shorter]
    have field := setBitsString_field front strMessage room (room - 1) small (by omega) (by omega)
    simp only [encodeMessage, remain, some_, shorter, if_true, if_false, field,
      Option.bind_eq_bind, Option.bind_some, count]
    rw [← length]
    exact closing _

theorem setBits_next {front : Bytes} (small : front.length < 255) (count : Nat)
    (value : BitVec 32) :
    setBits (front ++ List.replicate (count + 1) 0#8) (8 * front.length) value 8 =
      some (front ++ [value.truncate 8] ++ List.replicate count 0#8,
        8 * (front ++ [value.truncate 8]).length) := by
  rw [List.replicate_succ, setBits_byte (by omega)]
  simp [Nat.mul_add]

theorem setBits_nextTwo {front : Bytes} (small : front.length < 255) (count : Nat)
    (value : BitVec 32) :
    setBits (front ++ List.replicate (count + 2) 0#8) (8 * front.length) value 16 =
      some (front ++ [(value >>> 8).truncate 8, value.truncate 8] ++ List.replicate count 0#8,
        8 * (front ++ [(value >>> 8).truncate 8, value.truncate 8]).length) := by
  rw [List.replicate_succ, List.replicate_succ, setBits_twoBytes (by omega)]
  simp [Nat.mul_add]

theorem PingPacket.encode_eq (packet : PingPacket) :
    packet.encode = some ([.ofNat 8 packet.typeMessage.value, packet.payloadLengh] ++
      messageField packet.mes (writtenSize packet.mes.length 18) 18) := by
  have first : setBits (List.replicate (pingPlayloadLength.toNat + 1) 0) 0 _ 8 = _ :=
    setBits_next (show ([] : Bytes).length < 255 by decide) 20 (.ofNat 32 packet.typeMessage.value)
  have message (front : Bytes) (header : front.length = 2) :=
    encodeMessage_eq front packet.mes (show 0 < 18 by omega)
      (show pingPlayloadLength.toNat = front.length + 18 by rw [header]; rfl)
  simp (disch := simp) only [encode, first, setBits_next, Option.bind_eq_bind, Option.bind_some]
  rw [message _ rfl]
  simp

theorem truncate_high_byte (port : BitVec 16) :
    (port.zeroExtend 32 >>> 8).truncate 8 = ((port >>> 8).truncate 8 : BitVec 8) := by
  have bound := port.isLt
  apply BitVec.eq_of_toNat_eq
  simp only [BitVec.truncate_eq_setWidth, BitVec.toNat_setWidth, BitVec.toNat_ushiftRight,
    Nat.shiftRight_eq_div_pow]
  omega

theorem NotifyPacket.encode_eq (packet : NotifyPacket) :
    packet.encode = some ([.ofNat 8 packet.typeMessage.value, packet.payloadLengh,
      .ofNat 8 packet.typeNode.value, (packet.portNodeNotify >>> 8).truncate 8,
      packet.portNodeNotify.truncate 8, .ofNat 8 packet.stateNodeNotify.value] ++
      messageField packet.mes (writtenSize packet.mes.length 34) 34) := by
  have first : setBits (List.replicate (notifyPlayloadLength.toNat + 1) 0) 0 _ 8 = _ :=
    setBits_next (show ([] : Bytes).length < 255 by decide) 40 (.ofNat 32 packet.typeMessage.value)
  have message (front : Bytes) (header : front.length = 6) :=
    encodeMessage_eq front packet.mes (show 0 < 34 by omega)
      (show notifyPlayloadLength.toNat = front.length + 34 by rw [header]; rfl)
  simp (disch := simp) only [encode, first, setBits_next, setBits_nextTwo, Option.bind_eq_bind,
    Option.bind_some]
  rw [message _ rfl, truncate_high_byte]
  simp

def paddedMessage (strMessage : Bytes) (room : Nat) : Bytes :=
  messageField strMessage (min strMessage.length (room - 1)) room

/-- Modulo `2 ^ 32` the size of the message covers the bytes that belong into the field, or those
that it leaves out are NULs anyway; from `2 ^ 31` on it is negative and covers none. -/
def DropsOnlyNul (strMessage : Bytes) (room : Nat) : Prop :=
  ∀ index, index < room - 1 →
    2 ^ 31 ≤ strMessage.length % 2 ^ 32 ∨ strMessage.length % 2 ^ 32 ≤ index →
    strMessage.getD index 0 = 0

theorem intOfSize_toNat_le_iff (size index : Nat) :
    (intOfSize size).toNat ≤ index ↔ 2 ^ 31 ≤ size % 2 ^ 32 ∨ size % 2 ^ 32 ≤ index := by
  unfold intOfSize
  rw [BitVec.toInt_eq_toNat_cond, BitVec.toNat_ofNat]
  split <;> omega

theorem DropsOnlyNul.of_lt {strMessage : Bytes} (small : strMessage.length < 2 ^ 31) (room : Nat) :
    DropsOnlyNul strMessage room := by
  intro index _ beyond
  have missing : strMessage.length ≤ index := by omega
  simp [List.getD, List.getElem?_eq_none missing]

theorem messageField_getElem? (strMessage : Bytes) {size room index : Nat}
    (inside : size ≤ strMessage.length) (fits : size ≤ room) (bound : index < room) :
    (messageField strMessage size room)[index]? =
      some (if index < size then strMessage.getD index 0 else 0) := by
  unfold messageField
  by_cases before : index < size
  · rw [List.getElem?_append_left (by simp; omega), List.getElem?_take_of_lt before, if_pos before]
    simp [List.getD, List.getElem?_eq_getElem (show index < strMessage.length by omega)]
  · have written : (strMessage.take size).length = size := by simp [inside]
    rw [List.getElem?_append_right (by omega), written, if_neg before, List.getElem?_replicate,
      if_pos (by omega)]
    rfl

theorem messageField_eq_padded_iff (strMessage : Bytes) {room : Nat} (positive : 0 < room) :
    messageField strMessage (writtenSize strMessage.length room) room =
      paddedMessage strMessage room ↔ DropsOnlyNul strMessage room := by
  have bound := writtenSize_le strMessage.length positive
  have narrowed := intOfSize_le strMessage.length
  constructor
  · intro same index inside narrow
    have beyond := (intOfSize_toNat_le_iff _ index).mpr narrow
    have bytes := congrArg (fun field => field[index]?) same
    simp only [paddedMessage] at bytes
    rw [messageField_getElem? _ (by omega) (by omega) (by omega),
      messageField_getElem? _ (by omega) (by omega) (by omega)] at bytes
    have notWritten : ¬index < writtenSize strMessage.length room := by
      unfold writtenSize
      split <;> omega
    by_cases present : index < strMessage.length
    · have should : index < min strMessage.length (room - 1) := by omega
      simpa [notWritten, should] using bytes.symm
    · simp [List.getD, List.getElem?_eq_none (show strMessage.length ≤ index by omega)]
  · intro drops
    apply List.ext_getElem?
    intro index
    by_cases inside : index < room
    · rw [paddedMessage, messageField_getElem? _ (by omega) (by omega) inside,
        messageField_getElem? _ (by omega) (by omega) inside]
      by_cases written : index < writtenSize strMessage.length room
      · rw [if_pos written, if_pos (by omega)]
      · rw [if_neg written]
        split
        next should =>
          rw [drops index (by omega) ((intOfSize_toNat_le_iff _ index).mp ?_)]
          unfold writtenSize at written
          split at written <;> omega
        next => rfl
    · rw [List.getElem?_eq_none, List.getElem?_eq_none]
      · rw [paddedMessage, messageField_length (by omega) (by omega)]
        omega
      · rw [messageField_length (by omega) (by omega)]
        omega

/-- The PING built for a message stays inside its buffer, is 20 bytes long and gives the
client the message. -/
def PingAgrees (message : StrMessageState) : Prop :=
  ∃ result, (checkPingMessage message).encode = some result ∧ result.length = 20 ∧
    parseIncomingPacket result = some (.ping (paddedMessage message.message 18))

/-- The NOTIFY built for a message and a receiver stays inside its buffer, is 40 bytes long and
gives the client the node type, the port in host order, the state and the message. -/
def NotifyAgrees (message : StrMessageState) (receiver : NodeBase) : Prop :=
  ∃ result, (notifyPacketTo message receiver).encode = some result ∧ result.length = 40 ∧
    parseIncomingPacket result = some (.notify message.typeNode.value
      (ntohs message.clientAddr.sinPort).toNat message.state.value
      (paddedMessage message.message 34))

theorem parseIncomingPacket_ping {field : Bytes} (length : field.length = 18) :
    parseIncomingPacket (0x01 :: pingPlayloadLength :: field) = some (.ping field) := by
  have fits : (field.take 18) = field := List.take_of_length_le (by omega)
  simp [parseIncomingPacket, pingPlayloadLength, length, fits]

theorem parseIncomingPacket_notify {field : Bytes} (length : field.length = 34)
    (typeNode portLow portHigh state : BitVec 8) :
    parseIncomingPacket (0x03 :: notifyPlayloadLength :: typeNode :: portLow :: portHigh ::
        state :: field) =
      some (.notify typeNode.toNat (portLow.toNat + 256 * portHigh.toNat) state.toNat field) := by
  have fits : (field.take 34) = field := List.take_of_length_le (by omega)
  simp [parseIncomingPacket, notifyPlayloadLength, length, fits]

theorem ntohs_bytes (netshort : BitVec 16) :
    ((netshort >>> 8).truncate 8 : BitVec 8).toNat +
      256 * (netshort.truncate 8 : BitVec 8).toNat = (ntohs netshort).toNat := by
  have bound := netshort.isLt
  simp only [ntohs, BitVec.truncate_eq_setWidth, BitVec.toNat_setWidth, BitVec.toNat_ushiftRight,
    BitVec.toNat_append, BitVec.extractLsb'_toNat, Nat.shiftRight_eq_div_pow]
  rw [← Nat.shiftLeft_add_eq_or_of_lt (by omega), Nat.shiftLeft_eq]
  omega

theorem ping_parsed (message : StrMessageState) :
    ∃ result, (checkPingMessage message).encode = some result ∧ result.length = 20 ∧
      parseIncomingPacket result = some (.ping (messageField message.message
        (writtenSize message.message.length 18) 18)) := by
  have bound := writtenSize_le message.message.length (show 0 < 18 by omega)
  have length := @messageField_length message.message _ 18
    (show writtenSize message.message.length 18 ≤ _ by omega) (by omega)
  refine ⟨_, PingPacket.encode_eq _, ?_, parseIncomingPacket_ping length⟩
  simp [checkPingMessage, length]

theorem notify_parsed (message : StrMessageState) (receiver : NodeBase) :
    ∃ result, (notifyPacketTo message receiver).encode = some result ∧ result.length = 40 ∧
      parseIncomingPacket result = some (.notify (message.typeNode.value % 256)
        (ntohs message.clientAddr.sinPort).toNat message.state.value
        (messageField message.message (writtenSize message.message.length 34) 34)) := by
  have bound := writtenSize_le message.message.length (show 0 < 34 by omega)
  have length := @messageField_length message.message _ 34
    (show writtenSize message.message.length 34 ≤ _ by omega) (by omega)
  have state : message.state.value % 256 = message.state.value := by
    cases message.state <;> rfl
  refine ⟨_, NotifyPacket.encode_eq _, ?_, ?_⟩
  · simp [notifyPacketTo, length]
  · refine (parseIncomingPacket_notify length _ _ _ _).trans ?_
    rw [ntohs_bytes]
    simp [notifyPacketTo, state]

theorem pingAgrees_iff (message : StrMessageState) :
    PingAgrees message ↔ DropsOnlyNul message.message 18 := by
  obtain ⟨sent, encoded, length, parsed⟩ := ping_parsed message
  rw [← messageField_eq_padded_iff message.message (show 0 < 18 by omega)]
  constructor
  · rintro ⟨result, built, _, read⟩
    obtain rfl : sent = result := Option.some.inj (encoded.symm.trans built)
    simpa [read] using parsed.symm
  · intro same
    exact ⟨sent, encoded, length, same ▸ parsed⟩

theorem notifyAgrees_iff (message : StrMessageState) (receiver : NodeBase) :
    NotifyAgrees message receiver ↔
      DropsOnlyNul message.message 34 ∧ message.typeNode.value < 256 := by
  obtain ⟨sent, encoded, length, parsed⟩ := notify_parsed message receiver
  rw [← messageField_eq_padded_iff message.message (show 0 < 34 by omega)]
  constructor
  · rintro ⟨result, built, _, read⟩
    obtain rfl : sent = result := Option.some.inj (encoded.symm.trans built)
    rw [read] at parsed
    injection parsed with parsed
    injection parsed with type _ _ field
    exact ⟨field.symm, by omega⟩
  · rintro ⟨same, fits⟩
    rw [Nat.mod_eq_of_lt fits, same] at parsed
    exact ⟨sent, encoded, length, parsed⟩

/-- The client reads the PING as it should exactly when the narrowing of the size drops only
NULs, and the NOTIFY when moreover the node type fits its byte. -/
theorem encoders_agree_iff (message : StrMessageState) (receiver : NodeBase) :
    (PingAgrees message ↔ DropsOnlyNul message.message 18) ∧
      (NotifyAgrees message receiver ↔
        DropsOnlyNul message.message 34 ∧ message.typeNode.value < 256) :=
  ⟨pingAgrees_iff message, notifyAgrees_iff message receiver⟩

theorem encoders_agree_of_lt (message : StrMessageState) (receiver : NodeBase)
    (small : message.message.length < 2 ^ 31) (fits : message.typeNode.value < 256) :
    PingAgrees message ∧ NotifyAgrees message receiver :=
  ⟨(pingAgrees_iff message).mpr (.of_lt small 18),
    (notifyAgrees_iff message receiver).mpr ⟨.of_lt small 34, fits⟩⟩

def hugeMessage : StrMessageState :=
  { StrMessageState.initial with
    typeNode := .dataPlane
    state := .timeout
    message := List.replicate (2 ^ 31) 0x41 }

theorem hugeMessage_not_dropsOnlyNul {room : Nat} (two : 2 ≤ room) :
    ¬DropsOnlyNul hugeMessage.message room := by
  intro drops
  have size : hugeMessage.message.length = 2 ^ 31 := by rw [hugeMessage, List.length_replicate]
  have first := drops 0 (by omega) (.inl (by rw [size]; decide))
  rw [hugeMessage, List.getD, List.getElem?_replicate, if_pos (by decide)] at first
  exact absurd first (by decide)

theorem encoders_disagree_hugeMessage :
    ¬PingAgrees hugeMessage ∧ ¬NotifyAgrees hugeMessage (NodeBase.create .dataPlane 1) :=
  ⟨fun agrees => hugeMessage_not_dropsOnlyNul (by omega) ((pingAgrees_iff _).mp agrees),
    fun agrees => hugeMessage_not_dropsOnlyNul (by omega) ((notifyAgrees_iff _ _).mp agrees).1⟩

end NodeManagement
