import NodeManagement.Decoding

/-!
The decoders on an arbitrary receive buffer, with the array `cMessage` they write to made
explicit: every access is inside its array, and bytes behind the declared length do not matter.
-/

namespace NodeManagement

def memsetZero (str : Bytes) (count : Nat) : Option Bytes :=
  if count ≤ str.length then some (List.replicate count 0 ++ str.drop count) else none

def storeChar (str : Bytes) (i : Nat) (cValue : BitVec 8) : Option Bytes :=
  if i < str.length then some (str.set i cValue) else none

def storeBits (buffer : Bytes) (bitOffset : Nat) (str : Bytes) (i : Nat) :
    Nat → Option (Bytes × Nat)
  | 0 => some (str, bitOffset)
  | remaining + 1 => do
      let (cValue, next) ← getBitsChar buffer bitOffset 0 8
      let str ← storeChar str i cValue
      storeBits buffer next str (i + 1) remaining

def getBitsInto (buffer : Bytes) (bitOffset : Nat) (str : Bytes) (strLen : Nat) :
    Option (Bytes × Nat) := do
  let str ← memsetZero str strLen
  storeBits buffer bitOffset str 0 strLen

/-- `cMessage` as both decoders fill it: `size + 1` bytes, whatever they hold, cleared, filled and
closed with a NUL. -/
def readMessage (buffer : Bytes) (offset size : Nat) (uninitialised : Nat → BitVec 8) :
    Option Bytes := do
  let cMessage := (List.range (size + 1)).map uninitialised
  let cMessage ← memsetZero cMessage (size + 1)
  let (cMessage, _) ← getBitsInto buffer offset cMessage size
  storeChar cMessage size 0

namespace RigisterPacket

def decodeInto (packet : RigisterPacket) (buffer : Bytes) (uninitialised : Nat → BitVec 8) :
    Option RigisterPacket := do
  let (typeMessage, offset) ← getBits buffer 0 8
  let (payloadLengh, offset) ← getBits buffer offset 8
  let (typeNode, offset) ← getBits buffer offset 8
  let size : Int := payloadLengh.toInt - (offset / 8 : Nat)
  let mes ← if size > 0 then
      (readMessage buffer offset size.toNat uninitialised).map stringOfCString
    else some []
  return { packet with
    typeMessage := .ofValue typeMessage.toNat
    payloadLengh := payloadLengh.truncate 8
    typeNode := .ofValue typeNode.toNat
    mes := mes }

end RigisterPacket

namespace PongPacket

def decodeInto (packet : PongPacket) (buffer : Bytes) (uninitialised : Nat → BitVec 8) :
    Option PongPacket := do
  let (typeMessage, offset) ← getBits buffer 0 8
  let (payloadLengh, offset) ← getBits buffer offset 8
  let size : Int := payloadLengh.toInt - (offset / 8 : Nat)
  let mes ← if size > 0 then
      (readMessage buffer offset size.toNat uninitialised).map (List.take size.toNat)
    else some []
  return { packet with
    typeMessage := .ofValue typeMessage.toNat
    payloadLengh := payloadLengh.truncate 8
    mes := mes }

end PongPacket

theorem storeBits_eq {buffer : Bytes} {bitOffset : Nat} {filled rest : Bytes} (remaining : Nat)
    (room : remaining ≤ rest.length) :
    storeBits buffer bitOffset (filled ++ rest) filled.length remaining =
      (getBitsString buffer bitOffset remaining).map fun (read, last) =>
        (filled ++ read ++ rest.drop remaining, last) := by
  induction remaining generalizing bitOffset filled rest with
  | zero => simp [storeBits, getBitsString]
  | succ remaining ih =>
      obtain ⟨stale, rest, rfl⟩ := List.exists_cons_of_length_pos (show 0 < rest.length by omega)
      cases read : getBitsChar buffer bitOffset 0 8 with
      | none =>
          simp only [storeBits, getBitsString, read, Option.bind_eq_bind, Option.bind_none,
            Option.map_none]
      | some found =>
          obtain ⟨cValue, next⟩ := found
          have stored : storeChar (filled ++ stale :: rest) filled.length cValue =
              some ((filled ++ [cValue]) ++ rest) := by
            simp [storeChar]
          have loop := @ih next (filled ++ [cValue]) rest (by simpa using room)
          simp only [List.length_append, List.length_singleton] at loop
          simp only [storeBits, getBitsString, read, Option.bind_eq_bind, Option.bind_some, stored,
            loop, Option.map_map]
          congr 1
          funext result
          simp

theorem getBitsString_length {buffer : Bytes} {bitOffset strLen : Nat} {result : Bytes × Nat}
    (read : getBitsString buffer bitOffset strLen = some result) :
    result.1.length = strLen := by
  induction strLen generalizing bitOffset result with
  | zero =>
      obtain rfl := Option.some.inj read
      rfl
  | succ strLen ih =>
      obtain ⟨⟨cValue, next⟩, _, more⟩ := Option.bind_eq_some_iff.mp read
      obtain ⟨rest, tail, rfl⟩ := Option.map_eq_some_iff.mp more
      simp [ih tail]

theorem memsetZero_eq {str : Bytes} {count : Nat} (room : count ≤ str.length) :
    memsetZero str count = some (List.replicate count 0 ++ str.drop count) := if_pos room

theorem readMessage_eq (buffer : Bytes) (offset size : Nat) (uninitialised : Nat → BitVec 8) :
    readMessage buffer offset size uninitialised =
      (getBitsString buffer offset size).map fun (read, _) => read ++ [0] := by
  have cleared : memsetZero ((List.range (size + 1)).map uninitialised) (size + 1) =
      some (List.replicate size 0 ++ [0]) := by
    rw [memsetZero_eq (by simp), List.replicate_succ']
    simp
  have again : memsetZero (List.replicate size 0 ++ [0]) size =
      some (List.replicate size 0 ++ [0]) := by
    rw [memsetZero_eq (by simp)]
    simp
  have loop := @storeBits_eq buffer offset [] (List.replicate size 0 ++ [0]) size (by simp)
  simp only [List.nil_append, List.length_nil] at loop
  simp only [readMessage, getBitsInto, cleared, again, loop, Option.bind_eq_bind,
    Option.bind_some]
  cases read : getBitsString buffer offset size with
  | none => rfl
  | some found =>
      obtain ⟨message, last⟩ := found
      have length : message.length = size := getBitsString_length read
      simp [storeChar, length]

theorem stringOfCString_closed (message : Bytes) :
    stringOfCString (message ++ [0]) = stringOfCString message := by
  rw [stringOfCString, List.takeWhile_append]
  split
  next whole =>
    rw [stringOfCString, (List.takeWhile_prefix _).eq_of_length whole]
    simp
  next => rfl

theorem RigisterPacket.decodeInto_eq (packet : RigisterPacket) (buffer : Bytes)
    (uninitialised : Nat → BitVec 8) :
    packet.decodeInto buffer uninitialised = packet.decode buffer := by
  simp only [decodeInto, decode, readMessage_eq, Option.map_map, Function.comp_def,
    stringOfCString_closed]

theorem PongPacket.decodeInto_eq (packet : PongPacket) (buffer : Bytes)
    (uninitialised : Nat → BitVec 8) :
    packet.decodeInto buffer uninitialised = packet.decode buffer := by
  have message (offset size : Nat) :
      (readMessage buffer offset size uninitialised).map (List.take size) =
        (getBitsString buffer offset size).map fun (cMessage, _) => cMessage := by
    rw [readMessage_eq]
    cases read : getBitsString buffer offset size with
    | none => rfl
    | some found => simp [← getBitsString_length read]
  simp only [decodeInto, decode, message]

def AgreeUpTo (header : Nat) (buffer other : Bytes) : Prop :=
  ∀ index, index < max header (buffer.getD 1 0).toNat → other.getD index 0 = buffer.getD index 0

theorem AgreeUpTo.message {header : Nat} {buffer other : Bytes}
    (agree : AgreeUpTo header buffer other) (same : other.length = buffer.length) (start : Nat) :
    (other.drop start).take ((buffer.getD 1 0).toNat - start) =
      (buffer.drop start).take ((buffer.getD 1 0).toNat - start) := by
  apply List.ext_getElem?
  intro index
  simp only [List.getElem?_take, List.getElem?_drop]
  split
  next declared =>
    have bytes := agree (start + index) (by omega)
    simp only [List.getD] at bytes
    rcases Nat.lt_or_ge (start + index) buffer.length with inside | beyond
    · rw [List.getElem?_eq_getElem inside, List.getElem?_eq_getElem (by omega)] at bytes ⊢
      simpa using bytes
    · rw [List.getElem?_eq_none beyond, List.getElem?_eq_none (by omega)]
  next => rfl

/-- On every content of the receive buffer the decoders run through, which they do not where an
access is outside `buffer` or `cMessage`; the fields they read are bytes; and what lies behind the
declared length does not change the packet. -/
theorem decode_inBounds {buffer : Bytes} (size : buffer.length = bufferSize)
    (uninitialised : Nat → BitVec 8) :
    (∃ type, checkMessageType buffer = some type ∧ type.value ≤ 255) ∧
    (∀ index, index < 3 → ∃ field, getBits buffer (8 * index) 8 = some (field, 8 * index + 8) ∧
      0 ≤ field.toInt ∧ field.toInt ≤ 255) ∧
    (∀ packet : RigisterPacket, ∃ decoded,
      packet.decodeInto buffer uninitialised = some decoded ∧
        ∀ other stale, other.length = bufferSize → AgreeUpTo 3 buffer other →
          packet.decodeInto other stale = some decoded) ∧
    (∀ packet : PongPacket, ∃ decoded,
      packet.decodeInto buffer uninitialised = some decoded ∧
        ∀ other stale, other.length = bufferSize → AgreeUpTo 2 buffer other →
          packet.decodeInto other stale = some decoded) := by
  refine ⟨⟨_, checkMessageType_eq (by rw [size]; decide), ?_⟩, ?_, ?_, ?_⟩
  · rw [TypeMessage.value_ofValue]
    exact Nat.le_of_lt_succ (buffer.getD 0 0).isLt
  · intro index small
    have inside : index < buffer.length := by
      rw [size]
      exact Nat.lt_trans small (by decide)
    have bound := (buffer.getD index 0).isLt
    refine ⟨_, getBits_byte inside (by omega), ?_, ?_⟩ <;>
      rw [toInt_of_byte] <;> omega
  · intro packet
    refine ⟨_, (packet.decodeInto_eq buffer _).trans (packet.decode_eq size), ?_⟩
    intro other stale otherSize agree
    have header := fun index small => agree index (Nat.lt_of_lt_of_le small (le_max_left 3 _))
    rw [packet.decodeInto_eq, packet.decode_eq otherSize, header 0 (by omega),
      header 1 (by omega), header 2 (by omega), agree.message (otherSize.trans size.symm)]
  · intro packet
    refine ⟨_, (packet.decodeInto_eq buffer _).trans (packet.decode_eq size), ?_⟩
    intro other stale otherSize agree
    have header := fun index small => agree index (Nat.lt_of_lt_of_le small (le_max_left 2 _))
    rw [packet.decodeInto_eq, packet.decode_eq otherSize, header 0 (by omega),
      header 1 (by omega), agree.message (otherSize.trans size.symm)]

theorem decode_inBounds_longest :
    ∃ decoded, PongPacket.create.decodeInto (List.replicate bufferSize 0xff) (fun _ => 0x55) =
        some decoded := by
  obtain ⟨_, _, _, pong⟩ := @decode_inBounds (List.replicate bufferSize 0xff)
    List.length_replicate (fun _ => 0x55)
  obtain ⟨decoded, whole, _⟩ := pong PongPacket.create
  exact ⟨decoded, whole⟩

end NodeManagement
