import NodeManagement.Utils
import NodeManagement.Library.BitString

/-!
`set_bits`, `get_bits` and `checkMessageType` of `Utils.cpp`.  An access outside the buffer and
an offset that outgrows its `int` are undefined in C++ and yield `none` here.  `char` is signed:
it is sign-extended to a 32-bit `int` before every bit operation, and the result is cut back to
eight bits.
-/

namespace NodeManagement

open BitString

/-- `++offset`; an `int` goes up to `2 ^ 31 - 1`. -/
def nextOffset (offset : Nat) : Option Nat :=
  if offset + 1 < 2 ^ 31 then some (offset + 1) else none

/-- `set_bits` for a value; the argument counts down as the loop variable does. -/
def setBits (buffer : Bytes) (offset : Nat) (value : BitVec 32) : Nat → Option (Bytes × Nat)
  | 0 => some (buffer, offset)
  | i + 1 =>
      (buffer[offset / 8]?).bind fun byte =>
        let bitIndex := 7 - offset % 8
        let written := byte.signExtend 32 ||| ((value >>> i) &&& 1#32) <<< bitIndex
        (nextOffset offset).bind fun next =>
          setBits (buffer.set (offset / 8) (written.truncate 8)) next value i

def setBitsChar (buffer : Bytes) (offset : Nat) (currentChar : BitVec 8) :
    Nat → Option (Bytes × Nat)
  | 0 => some (buffer, offset)
  | bit + 1 =>
      (buffer[offset / 8]?).bind fun byte =>
        let bitIndex := 7 - offset % 8
        let written := byte.signExtend 32 |||
          (((currentChar.signExtend 32).sshiftRight bit) &&& 1#32) <<< bitIndex
        (nextOffset offset).bind fun next =>
          setBitsChar (buffer.set (offset / 8) (written.truncate 8)) next currentChar bit

def setBitsChars (buffer : Bytes) (offset : Nat) : Bytes → Option (Bytes × Nat)
  | [] => some (buffer, offset)
  | currentChar :: rest =>
      (setBitsChar buffer offset currentChar 8).bind fun (written, next) =>
        setBitsChars written next rest

/-- `set_bits` for a string; the loop runs while `i < strLen`, not at all for a negative
`strLen`, and must not read past the string. -/
def setBitsString (buffer : Bytes) (offset : Nat) (str : Bytes) (strLen : Int) :
    Option (Bytes × Nat) :=
  if strLen.toNat ≤ str.length then setBitsChars buffer offset (str.take strLen.toNat) else none

/-- The loop of `get_bits` for a value; `remaining` is `numBits - i`. -/
def getBitsLoop (buffer : Bytes) (bitOffset : Nat) (value : BitVec 32) :
    Nat → Option (BitVec 32 × Nat)
  | 0 => some (value, bitOffset)
  | remaining + 1 =>
      (buffer[bitOffset / 8]?).bind fun byte =>
        let bitIndex := 7 - bitOffset % 8
        let read := if byte.signExtend 32 &&& 1#32 <<< bitIndex ≠ 0
          then value ||| 1#32 <<< remaining else value
        (nextOffset bitOffset).bind fun next => getBitsLoop buffer next read remaining

def getBits (buffer : Bytes) (bitOffset numBits : Nat) : Option (BitVec 32 × Nat) :=
  getBitsLoop buffer bitOffset 0 numBits

def getBitsChar (buffer : Bytes) (bitOffset : Nat) (cValue : BitVec 8) :
    Nat → Option (BitVec 8 × Nat)
  | 0 => some (cValue, bitOffset)
  | bit + 1 =>
      (buffer[bitOffset / 8]?).bind fun byte =>
        let bitIndex := 7 - bitOffset % 8
        let read := if byte.signExtend 32 &&& 1#32 <<< bitIndex ≠ 0
          then (cValue.signExtend 32 ||| 1#32 <<< bit).truncate 8 else cValue
        (nextOffset bitOffset).bind fun next => getBitsChar buffer next read bit

def getBitsString (buffer : Bytes) (bitOffset : Nat) : Nat → Option (Bytes × Nat)
  | 0 => some ([], bitOffset)
  | strLen + 1 =>
      (getBitsChar buffer bitOffset 0 8).bind fun (cValue, next) =>
        (getBitsString buffer next strLen).map fun (rest, last) => (cValue :: rest, last)

def checkMessageType (buffer : Bytes) : Option TypeMessage :=
  (getBits buffer 0 8).map fun (value, _) => .ofValue value.toNat

theorem nextOffset_of_lt {offset : Nat} (small : offset + 1 < 2 ^ 31) :
    nextOffset offset = some (offset + 1) := if_pos small

/-! Writing is oring a run of bits. -/

def fieldBits {width : Nat} (value : BitVec width) (count : Nat) : List Bool :=
  (List.range count).map fun index => value.getLsbD (count - 1 - index)

@[simp] theorem fieldBits_length {width : Nat} (value : BitVec width) (count : Nat) :
    (fieldBits value count).length = count := by
  simp [fieldBits]

theorem fieldBits_succ {width : Nat} (value : BitVec width) (count : Nat) :
    fieldBits value (count + 1) = value.getLsbD count :: fieldBits value count := by
  simp only [fieldBits, List.range_succ_eq_map, List.map_cons, List.map_map]
  refine congrArg₂ _ (by simp) (List.map_congr_left ?_)
  intro index member
  simp only [Function.comp_apply]
  congr 1
  have bound := List.mem_range.mp member
  omega

theorem fieldBits_eight (byte : BitVec 8) : fieldBits byte 8 = bitsOf byte := rfl

theorem written_eq_orBit {buffer : Bytes} {offset : Nat} {byte : BitVec 8} {word : BitVec 32}
    {bit : Bool} (found : buffer[offset / 8]? = some byte)
    (lowest : word &&& 1#32 = (BitVec.ofBool bit).zeroExtend 32) :
    buffer.set (offset / 8)
      ((byte.signExtend 32 ||| (word &&& 1#32) <<< (7 - offset % 8)).truncate 8) =
        orBit buffer offset bit := by
  unfold orBit
  congr 1
  have read : buffer.getD (offset / 8) 0 = byte := by simp [List.getD, found]
  rw [read, lowest]
  apply BitVec.eq_of_getLsbD_eq
  intro index small
  have inWord : index < 32 := by omega
  simp [BitVec.getElem_signExtend, small, inWord]

theorem shifted_lowest (value : BitVec 32) (index : Nat) :
    (value >>> index) &&& 1#32 = (BitVec.ofBool (value.getLsbD index)).zeroExtend 32 := by
  apply BitVec.eq_of_getLsbD_eq
  intro place bound
  cases place with
  | zero => simp
  | succ place => simp

theorem char_lowest (currentChar : BitVec 8) {bit : Nat} (small : bit < 8) :
    ((currentChar.signExtend 32).sshiftRight bit) &&& 1#32 =
      (BitVec.ofBool (currentChar.getLsbD bit)).zeroExtend 32 := by
  apply BitVec.eq_of_getLsbD_eq
  intro place bound
  cases place with
  | zero =>
      simp [BitVec.getElem_sshiftRight, BitVec.getElem_signExtend, small,
        show bit < 32 by omega]
  | succ place => simp

theorem setBits_eq {buffer : Bytes} {offset : Nat} {value : BitVec 32} {bitCount : Nat}
    (bound : offset + bitCount ≤ 8 * buffer.length) (small : offset + bitCount < 2 ^ 31) :
    setBits buffer offset value bitCount =
      some (orBits buffer offset (fieldBits value bitCount), offset + bitCount) := by
  induction bitCount generalizing buffer offset with
  | zero => rfl
  | succ count ih =>
      have inside : offset / 8 < buffer.length := by omega
      have found := List.getElem?_eq_getElem inside
      simp only [setBits, found, Option.bind_some,
        nextOffset_of_lt (by omega : offset + 1 < 2 ^ 31)]
      rw [written_eq_orBit found (shifted_lowest value count), fieldBits_succ, orBits,
        ih (by simp; omega) (by omega), Nat.add_right_comm, Nat.add_assoc]

theorem setBitsChar_eq {buffer : Bytes} {offset : Nat} {currentChar : BitVec 8} {bits : Nat}
    (inChar : bits ≤ 8) (bound : offset + bits ≤ 8 * buffer.length)
    (small : offset + bits < 2 ^ 31) :
    setBitsChar buffer offset currentChar bits =
      some (orBits buffer offset (fieldBits currentChar bits), offset + bits) := by
  induction bits generalizing buffer offset with
  | zero => rfl
  | succ bit ih =>
      have inside : offset / 8 < buffer.length := by omega
      have found := List.getElem?_eq_getElem inside
      simp only [setBitsChar, found, Option.bind_some,
        nextOffset_of_lt (by omega : offset + 1 < 2 ^ 31)]
      rw [written_eq_orBit found (char_lowest currentChar (by omega)), fieldBits_succ, orBits,
        ih (by omega) (by simp; omega) (by omega), Nat.add_right_comm, Nat.add_assoc]

theorem setBitsChars_eq {buffer : Bytes} {offset : Nat} {str : Bytes}
    (bound : offset + 8 * str.length ≤ 8 * buffer.length)
    (small : offset + 8 * str.length < 2 ^ 31) :
    setBitsChars buffer offset str =
      some (orBits buffer offset (str.flatMap bitsOf), offset + 8 * str.length) := by
  induction str generalizing buffer offset with
  | nil => rfl
  | cons currentChar rest ih =>
      simp only [List.length_cons] at bound small
      have inside : offset + 8 + 8 * rest.length ≤
          8 * (orBits buffer offset (bitsOf currentChar)).length := by
        rw [orBits_length]
        omega
      simp only [setBitsChars, setBitsChar_eq (Nat.le_refl 8)
        (show offset + 8 ≤ 8 * buffer.length by omega) (by omega), Option.bind_some,
        fieldBits_eight]
      rw [ih inside (by omega), List.flatMap_cons, orBits_append, bitsOf_length]
      congr 2
      simp only [List.length_cons]
      omega

/-! Fields at byte boundaries, which is all the packets use. -/

theorem fieldBits_byte (value : BitVec 32) : fieldBits value 8 = bitsOf (value.truncate 8) := by
  refine List.map_congr_left ?_
  intro index _
  simp [show 8 - 1 - index < 8 by omega]

theorem fieldBits_twoBytes (value : BitVec 32) :
    fieldBits value 16 = bitsOf ((value >>> 8).truncate 8) ++ bitsOf (value.truncate 8) := by
  apply List.ext_getElem (by simp)
  intro index leftBound _
  have bound : index < 16 := by simpa using leftBound
  by_cases first : index < 8
  · rw [List.getElem_append_left (by simpa using first)]
    simp only [fieldBits, bitsOf, List.getElem_map, List.getElem_range]
    rw [BitVec.getLsbD_setWidth, BitVec.getLsbD_ushiftRight]
    simp [show 7 - index < 8 by omega, show 8 + (7 - index) = 16 - 1 - index by omega]
  · rw [List.getElem_append_right (by simpa using first)]
    simp only [fieldBits, bitsOf, List.getElem_map, List.getElem_range, List.length_map,
      List.length_range]
    rw [BitVec.getLsbD_setWidth]
    simp [show 7 - (index - 8) = 16 - 1 - index by omega, show 16 - 1 - index < 8 by omega]

theorem setBits_byte {front : Bytes} (small : 8 * front.length + 8 < 2 ^ 31) (back : Bytes)
    (value : BitVec 32) :
    setBits (front ++ 0#8 :: back) (8 * front.length) value 8 =
      some (front ++ value.truncate 8 :: back, 8 * front.length + 8) := by
  rw [setBits_eq (by simp; omega) small, fieldBits_byte, orBits_byte]

theorem setBits_twoBytes {front : Bytes} (small : 8 * front.length + 16 < 2 ^ 31) (back : Bytes)
    (value : BitVec 32) :
    setBits (front ++ 0#8 :: 0#8 :: back) (8 * front.length) value 16 =
      some (front ++ (value >>> 8).truncate 8 :: value.truncate 8 :: back,
        8 * front.length + 16) := by
  have bytes := orBits_bytes front [(value >>> 8).truncate 8, value.truncate 8] back
  simp only [List.flatMap_cons, List.flatMap_nil, List.append_nil] at bytes
  rw [setBits_eq (by simp; omega) small, fieldBits_twoBytes]
  exact congrArg (fun written => some (written, 8 * front.length + 16)) bytes

theorem setBitsChars_aligned {front str : Bytes}
    (small : 8 * (front.length + str.length) < 2 ^ 31) (back : Bytes) :
    setBitsChars (front ++ (List.replicate str.length 0#8 ++ back)) (8 * front.length) str =
      some (front ++ (str ++ back), 8 * (front.length + str.length)) := by
  rw [setBitsChars_eq (by simp; omega) (by omega), orBits_bytes, Nat.mul_add]

/-! Reading looks up the same bits. -/

theorem testBit_iff (byte : BitVec 8) {index : Nat} (small : index < 8) :
    byte.signExtend 32 &&& 1#32 <<< index ≠ 0 ↔ byte.getLsbD index = true := by
  constructor
  · intro nonzero
    by_contra clear
    apply nonzero
    apply BitVec.eq_of_getLsbD_eq
    intro place bound
    by_cases same : place = index
    · subst same
      simp [BitVec.getLsbD_signExtend, small] at clear ⊢
      simp [clear]
    · rcases Nat.lt_or_ge place index with below | above
      · simp [below]
      · have later : place - index ≠ 0 := by omega
        simp [later]
  · intro set zero
    have bit := congrArg (fun word : BitVec 32 => word.getLsbD index) zero
    have value : (byte.signExtend 32).getLsbD index = true := by
      simp only [BitVec.getLsbD_signExtend, small, show index < 32 by omega, decide_true,
        Bool.true_and, if_true, set]
    rw [BitVec.getLsbD_and, value] at bit
    simp [show index < 32 by omega] at bit

theorem bitAt_of_getElem? {buffer : Bytes} {offset : Nat} {byte : BitVec 8}
    (found : buffer[offset / 8]? = some byte) :
    bitAt buffer offset = byte.getLsbD (7 - offset % 8) := by
  simp [bitAt, List.getD, found]

theorem getBitsLoop_eq {buffer : Bytes} {bitOffset : Nat} (remaining : Nat) (value : BitVec 32)
    (bound : bitOffset + remaining ≤ 8 * buffer.length) (small : bitOffset + remaining < 2 ^ 31) :
    ∃ result, getBitsLoop buffer bitOffset value remaining =
        some (result, bitOffset + remaining) ∧
      ∀ place, place < 32 → result.getLsbD place =
        (value.getLsbD place || (decide (place < remaining) &&
          bitAt buffer (bitOffset + (remaining - 1 - place)))) := by
  induction remaining generalizing bitOffset value with
  | zero => exact ⟨value, rfl, by simp⟩
  | succ remaining ih =>
      have inside : bitOffset / 8 < buffer.length := by omega
      have found := List.getElem?_eq_getElem inside
      obtain ⟨result, loops, bits⟩ := ih
        (if buffer[bitOffset / 8].signExtend 32 &&& 1#32 <<< (7 - bitOffset % 8) ≠ 0
          then value ||| 1#32 <<< remaining else value)
        (show bitOffset + 1 + remaining ≤ 8 * buffer.length by omega) (by omega)
      refine ⟨result, ?_, ?_⟩
      · simp only [getBitsLoop, found, Option.bind_some,
          nextOffset_of_lt (by omega : bitOffset + 1 < 2 ^ 31), loops]
        rw [Nat.add_right_comm, Nat.add_assoc]
      · intro place inWord
        rw [bits place inWord]
        have read := bitAt_of_getElem? found
        have tested := testBit_iff buffer[bitOffset / 8] (show 7 - bitOffset % 8 < 8 by omega)
        rcases Nat.lt_trichotomy place remaining with before | same | after
        · have unchanged : (value ||| 1#32 <<< remaining).getLsbD place = value.getLsbD place := by
            simp [before]
          have place_eq : bitOffset + 1 + (remaining - 1 - place) =
              bitOffset + (remaining + 1 - 1 - place) := by omega
          rw [place_eq]
          split <;> simp [unchanged, before, show place < remaining + 1 by omega]
        · subst same
          simp only [Nat.lt_irrefl, decide_false, Bool.false_and, Bool.or_false,
            Nat.lt_succ_self, decide_true, Bool.true_and, Nat.add_sub_cancel, Nat.sub_self,
            Nat.add_zero, read, tested]
          split
          next set => simp [set, inWord]
          next clear => simp [clear]
        · have unchanged : (value ||| 1#32 <<< remaining).getLsbD place = value.getLsbD place := by
            simp [show place - remaining ≠ 0 by omega]
          split <;>
            simp [unchanged, show ¬place < remaining by omega, show ¬place < remaining + 1 by omega]

theorem getBitsChar_eq {buffer : Bytes} {bitOffset bits : Nat} (cValue : BitVec 8)
    (inChar : bits ≤ 8) (bound : bitOffset + bits ≤ 8 * buffer.length)
    (small : bitOffset + bits < 2 ^ 31) :
    ∃ result, getBitsChar buffer bitOffset cValue bits = some (result, bitOffset + bits) ∧
      ∀ place, place < 8 → result.getLsbD place =
        (cValue.getLsbD place || (decide (place < bits) &&
          bitAt buffer (bitOffset + (bits - 1 - place)))) := by
  induction bits generalizing bitOffset cValue with
  | zero => exact ⟨cValue, rfl, by simp⟩
  | succ bit ih =>
      have inside : bitOffset / 8 < buffer.length := by omega
      have found := List.getElem?_eq_getElem inside
      obtain ⟨result, loops, each⟩ := ih
        (if buffer[bitOffset / 8].signExtend 32 &&& 1#32 <<< (7 - bitOffset % 8) ≠ 0
          then (cValue.signExtend 32 ||| 1#32 <<< bit).truncate 8 else cValue)
        (by omega) (show bitOffset + 1 + bit ≤ 8 * buffer.length by omega) (by omega)
      refine ⟨result, ?_, ?_⟩
      · simp only [getBitsChar, found, Option.bind_some,
          nextOffset_of_lt (by omega : bitOffset + 1 < 2 ^ 31), loops]
        rw [Nat.add_right_comm, Nat.add_assoc]
      · intro place inByte
        rw [each place inByte]
        have read := bitAt_of_getElem? found
        have tested := testBit_iff buffer[bitOffset / 8] (show 7 - bitOffset % 8 < 8 by omega)
        have stored : ((cValue.signExtend 32 ||| 1#32 <<< bit).truncate 8).getLsbD place =
            (cValue.getLsbD place || decide (place = bit)) := by
          have extended : (cValue.signExtend 32).getLsbD place = cValue.getLsbD place := by
            simp only [BitVec.getLsbD_signExtend, inByte, show place < 32 by omega, decide_true,
              Bool.true_and, if_true]
          have one : (1#32 <<< bit).getLsbD place = decide (place = bit) := by
            rcases Nat.lt_trichotomy place bit with before | same | after
            · simp [before, show place ≠ bit by omega]
            · simp [same, show bit < 32 by omega]
            · simp [show place ≠ bit by omega, show place - bit ≠ 0 by omega]
          simp only [BitVec.truncate, BitVec.getLsbD_setWidth, BitVec.getLsbD_or, inByte,
            decide_true, Bool.true_and, extended, one]
        rcases Nat.lt_trichotomy place bit with before | same | after
        · have place_eq : bitOffset + 1 + (bit - 1 - place) =
              bitOffset + (bit + 1 - 1 - place) := by omega
          rw [place_eq]
          split
          · rw [stored]
            simp [before, show place ≠ bit by omega, show place < bit + 1 by omega]
          · simp [before, show place < bit + 1 by omega]
        · subst same
          simp only [Nat.lt_irrefl, decide_false, Bool.false_and, Bool.or_false,
            Nat.lt_succ_self, decide_true, Bool.true_and, Nat.add_sub_cancel, Nat.sub_self,
            Nat.add_zero, read, tested]
          split
          next set => rw [stored]; simp [set]
          next clear => simp [clear]
        · split
          · rw [stored]
            simp [show place ≠ bit by omega, show ¬place < bit by omega,
              show ¬place < bit + 1 by omega]
          · simp [show ¬place < bit by omega, show ¬place < bit + 1 by omega]

/-! What has been written at any offset is read back. -/

theorem getBits_of_holds {buffer : Bytes} {bitOffset numBits : Nat} {value : BitVec 32}
    (bound : bitOffset + numBits ≤ 8 * buffer.length) (small : bitOffset + numBits < 2 ^ 31)
    (holds : Holds buffer bitOffset (fieldBits value numBits)) :
    getBits buffer bitOffset numBits =
      some ((value.truncate numBits).zeroExtend 32, bitOffset + numBits) := by
  obtain ⟨result, loops, bits⟩ := getBitsLoop_eq numBits 0 bound small
  rw [getBits, loops]
  congr 2
  apply BitVec.eq_of_getLsbD_eq
  intro place inWord
  rw [bits place inWord]
  by_cases inside : place < numBits
  · have read := holds (numBits - 1 - place) (by rw [fieldBits_length]; omega)
    have written : (fieldBits value numBits).getD (numBits - 1 - place) false =
        value.getLsbD place := by
      rw [fieldBits, List.getD, List.getElem?_map, List.getElem?_range (by omega)]
      simp [show numBits - 1 - (numBits - 1 - place) = place by omega]
    rw [read, written]
    simp [inside, inWord]
  · simp [inside]

theorem getBitsChar_of_holds {buffer : Bytes} {bitOffset : Nat} {currentChar : BitVec 8}
    (bound : bitOffset + 8 ≤ 8 * buffer.length) (small : bitOffset + 8 < 2 ^ 31)
    (holds : Holds buffer bitOffset (bitsOf currentChar)) :
    getBitsChar buffer bitOffset 0 8 = some (currentChar, bitOffset + 8) := by
  obtain ⟨result, loops, bits⟩ := getBitsChar_eq 0 (Nat.le_refl 8) bound small
  rw [loops]
  congr 2
  apply BitVec.eq_of_getLsbD_eq
  intro place inByte
  have read := holds (8 - 1 - place) (by rw [bitsOf_length]; omega)
  rw [bits place inByte, read, bitsOf_getD]
  simp [inByte, show 7 - place < 8 by omega, show 7 - (7 - place) = place by omega]

theorem getBitsString_of_holds {buffer : Bytes} {bitOffset : Nat} {str : Bytes}
    (bound : bitOffset + 8 * str.length ≤ 8 * buffer.length)
    (small : bitOffset + 8 * str.length < 2 ^ 31)
    (holds : Holds buffer bitOffset (str.flatMap bitsOf)) :
    getBitsString buffer bitOffset str.length = some (str, bitOffset + 8 * str.length) := by
  induction str generalizing bitOffset with
  | nil => rfl
  | cons currentChar rest ih =>
      simp only [List.length_cons] at bound small
      rw [List.flatMap_cons, holds_append, bitsOf_length] at holds
      have first := getBitsChar_of_holds (by omega) (by omega) holds.1
      have others := ih (show bitOffset + 8 + 8 * rest.length ≤ 8 * buffer.length by omega)
        (by omega) holds.2
      simp only [List.length_cons, getBitsString, first, others, Option.bind_some,
        Option.map_some]
      congr 2
      omega

/-! At byte boundaries whole bytes are read. -/

theorem getBits_byte {buffer : Bytes} {index : Nat} (bound : index < buffer.length)
    (small : 8 * index + 8 < 2 ^ 31) :
    getBits buffer (8 * index) 8 =
      some ((buffer.getD index 0).zeroExtend 32, 8 * index + 8) := by
  have byte : fieldBits ((buffer.getD index 0).zeroExtend 32) 8 = bitsOf (buffer.getD index 0) := by
    rw [fieldBits_byte]
    simp
  rw [getBits_of_holds (by omega) small (byte ▸ holds_byte buffer index)]
  simp

theorem getBitsChar_byte {buffer : Bytes} {index : Nat} (bound : index < buffer.length)
    (small : 8 * index + 8 < 2 ^ 31) :
    getBitsChar buffer (8 * index) 0 8 = some (buffer.getD index 0, 8 * index + 8) :=
  getBitsChar_of_holds (by omega) small (holds_byte buffer index)

theorem getBitsString_aligned {buffer : Bytes} {index strLen : Nat}
    (bound : index + strLen ≤ buffer.length) (small : 8 * (index + strLen) < 2 ^ 31) :
    getBitsString buffer (8 * index) strLen =
      some ((buffer.drop index).take strLen, 8 * (index + strLen)) := by
  induction strLen generalizing index with
  | zero => simp [getBitsString]
  | succ strLen ih =>
      have inside : index < buffer.length := by omega
      have behind : index + 1 + strLen ≤ buffer.length := by omega
      simp only [getBitsString, getBitsChar_byte inside (by omega), Option.bind_some]
      rw [show 8 * index + 8 = 8 * (index + 1) by omega, ih behind (by omega)]
      rw [List.drop_eq_getElem_cons inside, List.take_succ_cons]
      simp only [Option.map_some, List.getD, List.getElem?_eq_getElem inside, Option.getD_some]
      congr 2
      omega

theorem checkMessageType_eq {buffer : Bytes} (bound : 0 < buffer.length) :
    checkMessageType buffer = some (.ofValue (buffer.getD 0 0).toNat) := by
  have read := getBits_byte bound (by omega)
  simp only [Nat.mul_zero] at read
  have word : ((buffer.getD 0 0).zeroExtend 32).toNat = (buffer.getD 0 0).toNat := by
    simp only [BitVec.truncate_eq_setWidth, BitVec.toNat_setWidth]
    have small := (buffer.getD 0 0).isLt
    omega
  simp only [checkMessageType, read, Option.map_some, word]

end NodeManagement
