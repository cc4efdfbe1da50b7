import NodeManagement.BitFields

/-!
Whole sequences of fields.  `set_bits` only ors bits in, so a sequence of calls writes one run
of bits into a cleared range, and the same sequence of `get_bits` calls finds each field there.
The parameters `offset` and `strLen` are an `int`, which bounds the range.
-/

namespace NodeManagement

open BitString

/-- A field: the `value` and `bitCount` of the one `set_bits`, or the `str` of the other.  Up to
31 bits the `int` of `get_bits` can hold the value. -/
inductive Field
  | value (value : BitVec 32) (bitCount : Nat) (small : bitCount ≤ 31)
  | string (str : Bytes)

inductive FieldLayout
  | value (numBits : Nat)
  | string (strLen : Nat)
deriving DecidableEq

inductive FieldRead
  | value (value : Int)
  | string (str : Bytes)
deriving DecidableEq

namespace Field

def set (buffer : Bytes) (offset : Nat) : Field → Option (Bytes × Nat)
  | value number bitCount _ => setBits buffer offset number bitCount
  | string str => setBitsString buffer offset str (int32 str.length)

def layout : Field → FieldLayout
  | value _ bitCount _ => .value bitCount
  | string str => .string str.length

def width : Field → Nat
  | value _ bitCount _ => bitCount
  | string str => 8 * str.length

def expected : Field → FieldRead
  | value number bitCount _ => .value (number.toNat % 2 ^ bitCount : Nat)
  | string str => .string str

def bits : Field → List Bool
  | value number bitCount _ => fieldBits number bitCount
  | string str => str.flatMap bitsOf

end Field

def FieldLayout.get (buffer : Bytes) (bitOffset : Nat) :
    FieldLayout → Option (FieldRead × Nat)
  | value numBits =>
      (getBits buffer bitOffset numBits).map fun (number, next) => (.value number.toInt, next)
  | string strLen =>
      if int32 strLen < 0 then none
      else (getBitsString buffer bitOffset (int32 strLen).toNat).map fun (str, next) =>
        (.string str, next)

def setFields (buffer : Bytes) (offset : Nat) : List Field → Option (Bytes × Nat)
  | [] => some (buffer, offset)
  | field :: rest =>
      (field.set buffer offset).bind fun (written, next) => setFields written next rest

def getFields (buffer : Bytes) (bitOffset : Nat) :
    List FieldLayout → Option (List FieldRead × Nat)
  | [] => some ([], bitOffset)
  | layout :: rest =>
      (layout.get buffer bitOffset).bind fun (read, next) =>
        (getFields buffer next rest).map fun (others, last) => (read :: others, last)

def totalBits (fields : List Field) : Nat := (fields.map Field.width).sum

namespace Field

@[simp] theorem bits_length (field : Field) : field.bits.length = field.width := by
  cases field with
  | value number bitCount small => simp [bits, width]
  | string str =>
      simp only [bits, width]
      induction str with
      | nil => rfl
      | cons currentChar rest ih =>
          simp only [List.flatMap_cons, List.length_append, bitsOf_length, ih, List.length_cons]
          omega

theorem set_eq {buffer : Bytes} {offset : Nat} (field : Field)
    (bound : offset + field.width ≤ 8 * buffer.length) (inInt : offset + field.width < 2 ^ 31) :
    field.set buffer offset =
      some (orBits buffer offset field.bits, offset + field.width) := by
  cases field with
  | value number bitCount small => exact setBits_eq bound inInt
  | string str =>
      simp only [width] at inInt
      simp only [set, setBitsString, int32_of_lt (by omega : str.length < 2 ^ 31),
        Int.toNat_natCast, Nat.le_refl, if_true, List.take_length]
      exact setBitsChars_eq bound inInt

theorem toInt_low_bits (value : BitVec 32) {bitCount : Nat} (small : bitCount ≤ 31) :
    ((value.truncate bitCount).zeroExtend 32).toInt = (value.toNat % 2 ^ bitCount : Nat) := by
  have low : value.toNat % 2 ^ bitCount < 2 ^ bitCount := Nat.mod_lt _ (Nat.two_pow_pos _)
  have half : 2 ^ bitCount ≤ 2 ^ 31 := Nat.pow_le_pow_right (by decide) small
  have word : ((value.truncate bitCount).zeroExtend 32).toNat = value.toNat % 2 ^ bitCount := by
    simp only [BitVec.truncate_eq_setWidth, BitVec.toNat_setWidth]
    omega
  rw [BitVec.toInt_eq_toNat_of_lt (by omega), word]

theorem get_of_holds {buffer : Bytes} {bitOffset : Nat} (field : Field)
    (bound : bitOffset + field.width ≤ 8 * buffer.length)
    (inInt : bitOffset + field.width < 2 ^ 31)
    (holds : Holds buffer bitOffset field.bits) :
    field.layout.get buffer bitOffset = some (field.expected, bitOffset + field.width) := by
  cases field with
  | value number bitCount small =>
      have read : getBits buffer bitOffset bitCount =
          some ((number.truncate bitCount).zeroExtend 32, bitOffset + bitCount) :=
        getBits_of_holds bound inInt holds
      simp only [layout, FieldLayout.get, read, Option.map_some, toInt_low_bits number small,
        expected, width]
  | string str =>
      have read : getBitsString buffer bitOffset str.length =
          some (str, bitOffset + 8 * str.length) := getBitsString_of_holds bound inInt holds
      simp only [width] at inInt
      have size : int32 str.length = str.length := int32_of_lt (by omega)
      have positive : ¬(str.length : Int) < 0 := by omega
      simp only [layout, FieldLayout.get, size, positive, if_false, Int.toNat_natCast, read,
        Option.map_some, expected, width]

end Field

theorem flatMap_bits_length (fields : List Field) :
    (fields.flatMap Field.bits).length = totalBits fields := by
  induction fields with
  | nil => rfl
  | cons field rest ih => simp [totalBits, ih]

theorem setFields_eq {buffer : Bytes} {offset : Nat} {fields : List Field}
    (bound : offset + totalBits fields ≤ 8 * buffer.length)
    (inInt : offset + totalBits fields < 2 ^ 31) :
    setFields buffer offset fields =
      some (orBits buffer offset (fields.flatMap Field.bits), offset + totalBits fields) := by
  induction fields generalizing buffer offset with
  | nil => rfl
  | cons field rest ih =>
      have total : totalBits (field :: rest) = field.width + totalBits rest := rfl
      rw [total] at bound inInt
      have behind : offset + field.width + totalBits rest ≤
          8 * (orBits buffer offset field.bits).length := by
        rw [orBits_length]
        omega
      have first : field.set buffer offset = _ := field.set_eq (by omega) (by omega)
      simp only [setFields, first, Option.bind_some]
      rw [ih behind (by omega), List.flatMap_cons, orBits_append, Field.bits_length, total,
        Nat.add_assoc]

theorem getFields_of_holds {buffer : Bytes} {bitOffset : Nat} {fields : List Field}
    (bound : bitOffset + totalBits fields ≤ 8 * buffer.length)
    (inInt : bitOffset + totalBits fields < 2 ^ 31)
    (holds : Holds buffer bitOffset (fields.flatMap Field.bits)) :
    getFields buffer bitOffset (fields.map Field.layout) =
      some (fields.map Field.expected, bitOffset + totalBits fields) := by
  induction fields generalizing bitOffset with
  | nil => rfl
  | cons field rest ih =>
      have total : totalBits (field :: rest) = field.width + totalBits rest := rfl
      rw [total] at bound inInt
      rw [List.flatMap_cons, holds_append, Field.bits_length] at holds
      have first := field.get_of_holds (by omega) (by omega) holds.1
      have others := ih (show bitOffset + field.width + totalBits rest ≤ 8 * buffer.length by omega)
        (by omega) holds.2
      simp only [List.map_cons, getFields, first, others, Option.bind_some, Option.map_some,
        total, Nat.add_assoc]

/-- Whatever the widths and the start offset, fields written into a cleared range that ends where
an `int` can still follow are read back from it, both sides end behind the range, and no bit
outside it changes. -/
theorem fields_roundTrip (fields : List Field) {buffer : Bytes} {offset : Nat}
    (bound : offset + totalBits fields ≤ 8 * buffer.length)
    (inInt : offset + totalBits fields < 2 ^ 31)
    (clear : ∀ place, offset ≤ place → place < offset + totalBits fields →
      bitAt buffer place = false) :
    ∃ written, setFields buffer offset fields = some (written, offset + totalBits fields) ∧
      getFields written offset (fields.map Field.layout) =
        some (fields.map Field.expected, offset + totalBits fields) ∧
      written.length = buffer.length ∧
      ∀ place, place < offset ∨ offset + totalBits fields ≤ place →
        bitAt written place = bitAt buffer place := by
  have length := flatMap_bits_length fields
  refine ⟨_, setFields_eq bound inInt, ?_, orBits_length _ _ _, ?_⟩
  · exact getFields_of_holds (by rwa [orBits_length]) inInt
      (holds_orBits (by rwa [length]) (by rwa [length]))
  · intro place outside
    exact bitAt_orBits_outside (by rwa [length]) (by rwa [length])

def mixedFields : List Field :=
  [.value 21 3 (by decide), .string [0xc3, 0x00], .value 0xffffffff 31 (by decide)]

theorem fields_roundTrip_mixedFields :
    ∃ written, setFields [0xc0, 0, 0, 0, 0, 0, 0] 2 mixedFields = some (written, 52) ∧
      getFields written 2 [.value 3, .string 2, .value 31] =
        some ([.value 5, .string [0xc3, 0x00], .value 0x7fffffff], 52) ∧
      written.length = 7 ∧
      ∀ place, place < 2 ∨ 52 ≤ place →
        bitAt written place = bitAt [0xc0, 0, 0, 0, 0, 0, 0] place := by
  have clear : ∀ place, place < 52 → 2 ≤ place →
      bitAt [0xc0, 0, 0, 0, 0, 0, 0] place = false := by decide
  exact fields_roundTrip mixedFields (by decide) (by decide) fun place first last =>
    clear place last first

theorem setBits_intMax (buffer : Bytes) (value : BitVec 32) (i : Nat) :
    setBits buffer (2 ^ 31 - 1) value (i + 1) = none := by
  have overflows : nextOffset (2 ^ 31 - 1) = none := by decide
  simp only [setBits, overflows, Option.bind_none, Option.bind_fun_none]

/-- A single bit at the end of 256 MiB of zeros: there is room for it, and `offset` overflows. -/
theorem fields_roundTrip_intMax :
    2 ^ 31 - 1 + totalBits [.value 1 1 (by decide)] ≤
        8 * (List.replicate (2 ^ 28) 0#8).length ∧
      (∀ place, bitAt (List.replicate (2 ^ 28) 0#8) place = false) ∧
      setFields (List.replicate (2 ^ 28) 0#8) (2 ^ 31 - 1) [.value 1 1 (by decide)] = none := by
  refine ⟨?_, ?_, ?_⟩
  · rw [List.length_replicate]
    decide
  · intro place
    simp only [bitAt, List.getD, List.getElem?_replicate]
    split <;> simp
  · rw [setFields, Field.set, setBits_intMax]
    rfl

end NodeManagement
