import Mathlib.Data.BitVec
import Mathlib.Data.List.GetD

/-!
Bytes seen as a string of bits, most significant bit of the first byte first.  Position
`p` is bit `7 - p % 8` of byte `p / 8`; positions past the end read as zero.
-/

namespace BitString

abbrev Byte := BitVec 8

def bitAt (bytes : List Byte) (position : Nat) : Bool :=
  (bytes.getD (position / 8) 0).getLsbD (7 - position % 8)

def orBit (bytes : List Byte) (position : Nat) (bit : Bool) : List Byte :=
  bytes.set (position / 8) (bytes.getD (position / 8) 0 |||
    (BitVec.ofBool bit).zeroExtend 8 <<< (7 - position % 8))

def orBits : List Byte → Nat → List Bool → List Byte
  | bytes, _, [] => bytes
  | bytes, position, bit :: rest => orBits (orBit bytes position bit) (position + 1) rest

@[simp] theorem orBit_length (bytes : List Byte) (position : Nat) (bit : Bool) :
    (orBit bytes position bit).length = bytes.length := by
  simp [orBit]

@[simp] theorem orBits_length (bytes : List Byte) (position : Nat) (bits : List Bool) :
    (orBits bytes position bits).length = bytes.length := by
  induction bits generalizing bytes position with
  | nil => rfl
  | cons bit rest ih => simp [orBits, ih]

theorem orBits_append (bytes : List Byte) (position : Nat) (first second : List Bool) :
    orBits bytes position (first ++ second) =
      orBits (orBits bytes position first) (position + first.length) second := by
  induction first generalizing bytes position with
  | nil => rfl
  | cons bit rest ih =>
      simp only [List.cons_append, orBits, List.length_cons]
      rw [ih, Nat.add_right_comm, Nat.add_assoc]

theorem getLsbD_bit_shift (bit : Bool) {target source : Nat} (small : source < 8)
    (bound : target < 8) :
    ((BitVec.ofBool bit).zeroExtend 8 <<< target).getLsbD source =
      (decide (source = target) && bit) := by
  by_cases below : source < target
  · have different : source ≠ target := by omega
    simp [below, different]
  · by_cases same : source = target
    · subst same
      simp [small]
    · have later : source - target ≠ 0 := by omega
      simp [below, same, later, BitVec.getLsbD_ofBool]

theorem bitAt_orBit {bytes : List Byte} {position : Nat} (bound : position / 8 < bytes.length)
    (bit : Bool) (place : Nat) :
    bitAt (orBit bytes position bit) place =
      (bitAt bytes place || (decide (place = position) && bit)) := by
  unfold bitAt orBit
  by_cases sameByte : place / 8 = position / 8
  · have read : (bytes.set (position / 8) (bytes.getD (position / 8) 0 |||
        (BitVec.ofBool bit).zeroExtend 8 <<< (7 - position % 8))).getD (place / 8) 0 =
        bytes.getD (position / 8) 0 |||
          (BitVec.ofBool bit).zeroExtend 8 <<< (7 - position % 8) := by
      simp [List.getD, sameByte, bound]
    rw [read, BitVec.getLsbD_or, getLsbD_bit_shift bit (by omega) (by omega), sameByte]
    have places : (7 - place % 8 = 7 - position % 8) ↔ place = position := by omega
    simp [places]
  · have different : place ≠ position := by
      intro same
      exact sameByte (same ▸ rfl)
    simp [List.getD, Ne.symm sameByte, different]

/-- The frame rule of a run of bits: inside the run each bit is ored in, outside nothing
changes. -/
theorem bitAt_orBits {bytes : List Byte} {position : Nat} {bits : List Bool}
    (bound : position + bits.length ≤ 8 * bytes.length) (place : Nat) :
    bitAt (orBits bytes position bits) place =
      (bitAt bytes place || (decide (position ≤ place) && bits.getD (place - position) false)) := by
  induction bits generalizing bytes position with
  | nil => simp [orBits]
  | cons bit rest ih =>
      simp only [List.length_cons] at bound
      have inside : position / 8 < bytes.length := by omega
      rw [orBits, ih (by simpa using (by omega : position + 1 + rest.length ≤ 8 * bytes.length)),
        bitAt_orBit inside]
      rcases Nat.lt_trichotomy place position with before | same | after
      · have first : ¬position ≤ place := by omega
        have second : ¬position + 1 ≤ place := by omega
        have different : place ≠ position := by omega
        simp [first, second, different]
      · subst same
        simp
      · have first : position ≤ place := by omega
        have second : position + 1 ≤ place := by omega
        have different : place ≠ position := by omega
        have shifted : place - position = (place - (position + 1)) + 1 := by omega
        simp [first, second, different, shifted]

theorem bitAt_orBits_outside {bytes : List Byte} {position : Nat} {bits : List Bool}
    (bound : position + bits.length ≤ 8 * bytes.length) {place : Nat}
    (outside : place < position ∨ position + bits.length ≤ place) :
    bitAt (orBits bytes position bits) place = bitAt bytes place := by
  rw [bitAt_orBits bound]
  rcases outside with before | behind
  · have early : ¬position ≤ place := by omega
    simp [early]
  · have late : bits.length ≤ place - position := by omega
    simp [List.getD, List.getElem?_eq_none late]

def Holds (bytes : List Byte) (position : Nat) (bits : List Bool) : Prop :=
  ∀ index, index < bits.length → bitAt bytes (position + index) = bits.getD index false

theorem holds_append {bytes : List Byte} {position : Nat} {first second : List Bool} :
    Holds bytes position (first ++ second) ↔
      Holds bytes position first ∧ Holds bytes (position + first.length) second := by
  constructor
  · intro holds
    refine ⟨fun index small => ?_, fun index small => ?_⟩
    · have read := holds index (by simp; omega)
      rwa [List.getD_append _ _ _ _ small] at read
    · have read := holds (first.length + index) (by simp; omega)
      rw [List.getD_append_right _ _ _ _ (by omega), Nat.add_sub_cancel_left] at read
      rwa [Nat.add_assoc]
  · rintro ⟨front, back⟩ index small
    rw [List.length_append] at small
    by_cases early : index < first.length
    · rw [List.getD_append _ _ _ _ early]
      exact front index early
    · have late : first.length ≤ index := by omega
      rw [List.getD_append_right _ _ _ _ late, ← back (index - first.length) (by omega)]
      congr 1
      omega

theorem holds_orBits {bytes : List Byte} {position : Nat} {bits : List Bool}
    (bound : position + bits.length ≤ 8 * bytes.length)
    (clear : ∀ place, position ≤ place → place < position + bits.length →
      bitAt bytes place = false) : Holds (orBits bytes position bits) position bits := by
  intro index small
  rw [bitAt_orBits bound, clear (position + index) (by omega) (by omega)]
  simp

theorem bitAt_byte (bytes : List Byte) {index bit : Nat} (small : bit < 8) :
    bitAt bytes (8 * index + (7 - bit)) = (bytes.getD index 0).getLsbD bit := by
  have byteIndex : (8 * index + (7 - bit)) / 8 = index := by omega
  have bitIndex : 7 - (8 * index + (7 - bit)) % 8 = bit := by omega
  rw [bitAt, byteIndex, bitIndex]

theorem eq_of_bitAt_eq {left right : List Byte} (length : left.length = right.length)
    (same : ∀ place, place < 8 * left.length → bitAt left place = bitAt right place) :
    left = right := by
  apply List.ext_getElem length
  intro index leftBound rightBound
  apply BitVec.eq_of_getLsbD_eq
  intro bit small
  have read := same (8 * index + (7 - bit)) (by omega)
  rw [bitAt_byte left small, bitAt_byte right small] at read
  simpa [List.getD, leftBound, rightBound] using read

theorem bitAt_append (front back : List Byte) (place : Nat) :
    bitAt (front ++ back) place =
      if place < 8 * front.length then bitAt front place
      else bitAt back (place - 8 * front.length) := by
  unfold bitAt
  split
  · have byte : place / 8 < front.length := by omega
    simp [List.getD, List.getElem?_append_left byte]
  · have byte : front.length ≤ place / 8 := by omega
    have index : place / 8 - front.length = (place - 8 * front.length) / 8 := by omega
    have bit : place % 8 = (place - 8 * front.length) % 8 := by omega
    rw [List.getD, List.getElem?_append_right byte, index, bit, List.getD]

theorem bitAt_zeros (count place : Nat) : bitAt (List.replicate count 0#8) place = false := by
  unfold bitAt
  by_cases inside : place / 8 < count
  · simp [List.getD, inside]
  · simp [List.getD, inside]

def bitsOf (byte : Byte) : List Bool := (List.range 8).map fun index => byte.getLsbD (7 - index)

@[simp] theorem bitsOf_length (byte : Byte) : (bitsOf byte).length = 8 := by simp [bitsOf]

theorem bitsOf_getD (byte : Byte) (index : Nat) :
    (bitsOf byte).getD index false = (decide (index < 8) && byte.getLsbD (7 - index)) := by
  by_cases small : index < 8
  · simp [bitsOf, List.getD, small]
  · simp [bitsOf, List.getD, small]

theorem holds_byte (bytes : List Byte) (index : Nat) :
    Holds bytes (8 * index) (bitsOf (bytes.getD index 0)) := by
  intro place small
  rw [bitsOf_length] at small
  have read : bitAt bytes (8 * index + (7 - (7 - place))) = _ := bitAt_byte bytes (by omega)
  rw [show 7 - (7 - place) = place by omega] at read
  rw [read, bitsOf_getD]
  simp [small]

theorem bitAt_singleton (byte : Byte) (place : Nat) :
    bitAt [byte] place = (bitsOf byte).getD place false := by
  rw [bitsOf_getD]
  unfold bitAt
  by_cases small : place < 8
  · have first : place / 8 = 0 := by omega
    have rest : place % 8 = place := by omega
    simp [first, rest, small]
  · have later : place / 8 ≠ 0 := by omega
    obtain ⟨index, shifted⟩ := Nat.exists_eq_succ_of_ne_zero later
    simp [shifted, small]

theorem orBits_byte (front : List Byte) (byte : Byte) (back : List Byte) :
    orBits (front ++ 0#8 :: back) (8 * front.length) (bitsOf byte) = front ++ byte :: back := by
  apply eq_of_bitAt_eq (by simp)
  intro place _
  rw [bitAt_orBits (by simp; omega)]
  rw [show front ++ 0#8 :: back = front ++ ([0#8] ++ back) from rfl,
    show front ++ byte :: back = front ++ ([byte] ++ back) from rfl]
  simp only [bitAt_append, List.length_singleton]
  by_cases before : place < 8 * front.length
  · have early : ¬8 * front.length ≤ place := by omega
    simp [before, early]
  · have start : 8 * front.length ≤ place := by omega
    simp only [before, if_false, start, decide_true, Bool.true_and]
    rw [bitAt_singleton byte]
    by_cases here : place - 8 * front.length < 8 * 1
    · have zero : bitAt [0#8] (place - 8 * front.length) = false := bitAt_zeros 1 _
      simp [here, zero]
    · simp only [here, if_false]
      rw [bitsOf_getD]
      simp [show ¬place - 8 * front.length < 8 by omega]

theorem orBits_bytes (front str back : List Byte) :
    orBits (front ++ (List.replicate str.length 0#8 ++ back)) (8 * front.length)
      (str.flatMap bitsOf) = front ++ (str ++ back) := by
  induction str generalizing front with
  | nil => rfl
  | cons byte rest ih =>
      have first := orBits_byte front byte (List.replicate rest.length 0#8 ++ back)
      have next := ih (front ++ [byte])
      simp only [List.append_assoc, List.cons_append, List.nil_append, List.length_append,
        List.length_singleton, Nat.mul_add, Nat.mul_one] at next
      rw [List.flatMap_cons, orBits_append, bitsOf_length, List.length_cons,
        List.replicate_succ, List.cons_append, first, next, List.cons_append]

end BitString
