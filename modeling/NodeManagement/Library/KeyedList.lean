import Mathlib.Data.List.Nodup
import Mathlib.Data.List.Pairwise
import Mathlib.Logic.Function.Basic

/-!
Lists searched for the first entry with a given key.  When the keys are distinct such a list
is a finite map, and the first-match operations are the map operations.
-/

namespace KeyedList

variable {Entry Key : Type} [DecidableEq Key]

def updateFirst (key : Entry → Key) (wanted : Key) (change : Entry → Entry) :
    List Entry → List Entry
  | [] => []
  | entry :: rest =>
      if key entry = wanted then change entry :: rest
      else entry :: updateFirst key wanted change rest

def eraseFirst (key : Entry → Key) (wanted : Key) : List Entry → List Entry
  | [] => []
  | entry :: rest => if key entry = wanted then rest else entry :: eraseFirst key wanted rest

def hasKey (key : Entry → Key) (wanted : Key) (entries : List Entry) : Bool :=
  entries.any fun entry => decide (key entry = wanted)

/-- The map a list stands for: each key is sent to the first entry that has it. -/
def toMap (key : Entry → Key) (entries : List Entry) (wanted : Key) : Option Entry :=
  entries.find? fun entry => decide (key entry = wanted)

variable {key : Entry → Key} {wanted : Key} {entries : List Entry}

theorem hasKey_iff : hasKey key wanted entries = true ↔ ∃ entry ∈ entries, key entry = wanted := by
  simp [hasKey]

theorem hasKey_eq_false_iff :
    hasKey key wanted entries = false ↔ ∀ entry ∈ entries, key entry ≠ wanted := by
  simp [hasKey]

theorem toMap_eq_none_iff :
    toMap key entries wanted = none ↔ ∀ entry ∈ entries, key entry ≠ wanted := by
  simp [toMap]

theorem toMap_cons (entry : Entry) :
    toMap key (entry :: entries) wanted =
      if key entry = wanted then some entry else toMap key entries wanted := by
  simp only [toMap, List.find?_cons]
  by_cases same : key entry = wanted <;> simp [same]

theorem toMap_append (key : Entry → Key) {added : Entry}
    (absent : ∀ entry ∈ entries, key entry ≠ key added) :
    toMap key (entries ++ [added]) =
      Function.update (toMap key entries) (key added) (some added) := by
  funext asked
  by_cases same : asked = key added
  · subst same
    have missing := toMap_eq_none_iff.mpr absent
    unfold toMap at missing ⊢
    simp [List.find?_append, missing]
  · simp [toMap, List.find?_append, same, Ne.symm same]

theorem map_updateFirst {Feature : Type} (feature : Entry → Feature)
    {change : Entry → Entry} (kept : ∀ entry, feature (change entry) = feature entry) :
    (updateFirst key wanted change entries).map feature = entries.map feature := by
  induction entries with
  | nil => rfl
  | cons entry rest ih =>
      unfold updateFirst
      split
      · simp [kept]
      · simp [ih]

theorem mem_updateFirst {change : Entry → Entry} {entry : Entry}
    (member : entry ∈ updateFirst key wanted change entries) :
    entry ∈ entries ∨ ∃ old ∈ entries, key old = wanted ∧ entry = change old := by
  induction entries with
  | nil => simp [updateFirst] at member
  | cons first rest ih =>
      unfold updateFirst at member
      split at member
      next matched =>
        rcases List.mem_cons.mp member with same | later
        · exact .inr ⟨first, by simp, matched, same⟩
        · exact .inl (by simp [later])
      next unmatched =>
        rcases List.mem_cons.mp member with same | later
        · exact .inl (by simp [same])
        · rcases ih later with old | ⟨old, found, matched, same⟩
          · exact .inl (by simp [old])
          · exact .inr ⟨old, by simp [found], matched, same⟩

theorem toMap_updateFirst (key : Entry → Key) {change : Entry → Entry}
    (kept : ∀ entry, key (change entry) = key entry) :
    toMap key (updateFirst key wanted change entries) =
      Function.update (toMap key entries) wanted ((toMap key entries wanted).map change) := by
  funext asked
  induction entries with
  | nil =>
      by_cases same : asked = wanted
      · subst same; simp [updateFirst, toMap]
      · simp [updateFirst, toMap, same]
  | cons entry rest ih =>
      unfold updateFirst
      by_cases matched : key entry = wanted
      · by_cases same : asked = wanted
        · subst same; simp [toMap_cons, matched, kept]
        · have other : key entry ≠ asked := fun equal => same (equal ▸ matched)
          rw [Function.update_of_ne same, if_pos matched, toMap_cons, toMap_cons, if_neg other,
            if_neg (by rw [kept]; exact other)]
      · by_cases same : asked = wanted
        · subst same
          simpa [toMap_cons, matched] using ih
        · simp only [if_neg matched, toMap_cons, Function.update_of_ne same] at ih ⊢
          rw [ih]

theorem eraseFirst_sublist : (eraseFirst key wanted entries).Sublist entries := by
  induction entries with
  | nil => exact .slnil
  | cons entry rest ih =>
      unfold eraseFirst
      split
      · exact List.sublist_cons_self entry rest
      · exact ih.cons_cons entry

theorem eraseFirst_of_absent (absent : ∀ entry ∈ entries, key entry ≠ wanted) :
    eraseFirst key wanted entries = entries := by
  induction entries with
  | nil => rfl
  | cons entry rest ih =>
      unfold eraseFirst
      rw [if_neg (absent entry (by simp)), ih fun later member => absent later (by simp [member])]

theorem eraseFirst_eq_filter (distinct : (entries.map key).Nodup) :
    eraseFirst key wanted entries = entries.filter fun entry => decide (key entry ≠ wanted) := by
  induction entries with
  | nil => rfl
  | cons entry rest ih =>
      simp only [List.map_cons, List.nodup_cons] at distinct
      unfold eraseFirst
      by_cases matched : key entry = wanted
      · have others : ∀ later ∈ rest, key later ≠ wanted := by
          intro later member equal
          exact distinct.1 (List.mem_map.mpr ⟨later, member, equal.trans matched.symm⟩)
        rw [if_pos matched, List.filter_cons_of_neg (by simpa using matched)]
        exact (List.filter_eq_self.mpr fun later member => by simpa using others later member).symm
      · rw [if_neg matched, List.filter_cons_of_pos (by simpa using matched), ih distinct.2]

theorem mem_eraseFirst_iff (distinct : (entries.map key).Nodup) {entry : Entry} :
    entry ∈ eraseFirst key wanted entries ↔ entry ∈ entries ∧ key entry ≠ wanted := by
  rw [eraseFirst_eq_filter distinct, List.mem_filter]
  simp

theorem toMap_eraseFirst (distinct : (entries.map key).Nodup) :
    toMap key (eraseFirst key wanted entries) =
      Function.update (toMap key entries) wanted none := by
  funext asked
  rw [eraseFirst_eq_filter distinct]
  by_cases same : asked = wanted
  · subst same
    simp [toMap]
  · rw [Function.update_of_ne same, toMap, List.find?_filter, toMap]
    congr 1
    funext entry
    by_cases matched : key entry = asked
    · simp [matched, same]
    · simp [matched]

def ClearBefore (key : Entry → Key) (wanted : Key) (position : Nat) (entries : List Entry) : Prop :=
  ∀ entry ∈ entries.take position, key entry ≠ wanted

omit [DecidableEq Key] in
theorem ClearBefore.next {position : Nat} {entry : Entry}
    (clear : ClearBefore key wanted position entries) (found : entries[position]? = some entry)
    (other : key entry ≠ wanted) : ClearBefore key wanted (position + 1) entries := by
  intro earlier member
  rw [List.take_add_one, found, Option.toList_some] at member
  rcases List.mem_append.mp member with before | here
  · exact clear earlier before
  · simp only [List.mem_singleton] at here
    exact here ▸ other

omit [DecidableEq Key] in
theorem ClearBefore.of_getElem {position : Nat}
    (clear : ∀ (index : Nat) entry, index < position → entries[index]? = some entry →
      key entry ≠ wanted) : ClearBefore key wanted position entries := by
  intro entry member
  obtain ⟨index, found⟩ := List.mem_iff_getElem?.mp member
  rw [List.getElem?_take] at found
  split at found
  next before => exact clear index entry before found
  next => simp at found

omit [DecidableEq Key] in
theorem ClearBefore.getElem {position index : Nat} {entry : Entry}
    (clear : ClearBefore key wanted position entries) (before : index < position)
    (found : entries[index]? = some entry) : key entry ≠ wanted := by
  apply clear
  apply List.mem_of_getElem? (i := index)
  rw [List.getElem?_take_of_lt before]
  exact found

theorem updateFirst_of_clear {position : Nat} {entry : Entry} {change : Entry → Entry}
    (clear : ClearBefore key wanted position entries) (found : entries[position]? = some entry)
    (matched : key entry = wanted) :
    updateFirst key wanted change entries = entries.set position (change entry) := by
  induction entries generalizing position with
  | nil => simp at found
  | cons first rest ih =>
      cases position with
      | zero =>
          simp only [List.getElem?_cons_zero, Option.some.injEq] at found
          subst found
          simp [updateFirst, matched]
      | succ position =>
          have other : key first ≠ wanted := clear first (by simp)
          rw [updateFirst, if_neg other, List.set_cons_succ]
          congr 1
          exact ih (fun later member => clear later (by simp [member])) (by simpa using found)

theorem eraseFirst_of_clear {position : Nat} {entry : Entry}
    (clear : ClearBefore key wanted position entries) (found : entries[position]? = some entry)
    (matched : key entry = wanted) :
    eraseFirst key wanted entries = entries.eraseIdx position := by
  induction entries generalizing position with
  | nil => simp at found
  | cons first rest ih =>
      cases position with
      | zero =>
          simp only [List.getElem?_cons_zero, Option.some.injEq] at found
          subst found
          simp [eraseFirst, matched]
      | succ position =>
          have other : key first ≠ wanted := clear first (by simp)
          rw [eraseFirst, if_neg other, List.eraseIdx_cons_succ]
          congr 1
          exact ih (fun later member => clear later (by simp [member])) (by simpa using found)

theorem toMap_set (distinct : (entries.map key).Nodup) {index : Nat} {old new : Entry}
    (found : entries[index]? = some old) (kept : key new = key old) :
    toMap key (entries.set index new) =
      Function.update (toMap key entries) (key old) (some new) := by
  funext asked
  induction entries generalizing index with
  | nil => simp at found
  | cons first rest ih =>
      simp only [List.map_cons, List.nodup_cons] at distinct
      cases index with
      | zero =>
          obtain rfl : first = old := by simpa using found
          by_cases same : asked = key first
          · simp [toMap_cons, kept, same]
          · simp [toMap_cons, kept, same, Ne.symm same]
      | succ index =>
          have inside : old ∈ rest := List.mem_of_getElem? (by simpa using found)
          have other : key first ≠ key old :=
            fun equal => distinct.1 (List.mem_map.mpr ⟨old, inside, equal.symm⟩)
          have later := ih distinct.2 (by simpa using found)
          rw [List.set_cons_succ, toMap_cons, later]
          by_cases same : asked = key old
          · simp [same, other]
          · simp [toMap_cons, same]

theorem toMap_of_getElem (distinct : (entries.map key).Nodup) {index : Nat} {entry : Entry}
    (found : entries[index]? = some entry) : toMap key entries (key entry) = some entry := by
  obtain ⟨inside, here⟩ := List.getElem?_eq_some_iff.mp found
  have same : entries.set index entry = entries := by rw [← here, List.set_getElem_self]
  have replaced := toMap_set distinct found rfl
  rw [same] at replaced
  rw [replaced, Function.update_self]

omit [DecidableEq Key] in
theorem index_unique (distinct : (entries.map key).Nodup) {index other : Nat} {entry second : Entry}
    (found : entries[index]? = some entry) (foundOther : entries[other]? = some second)
    (same : key entry = key second) : index = other := by
  obtain ⟨inside, _⟩ := List.getElem?_eq_some_iff.mp found
  refine (List.getElem?_inj (by simpa using inside) distinct).mp ?_
  rw [List.getElem?_map, List.getElem?_map, found, foundOther, Option.map_some, Option.map_some,
    same]

theorem key_ne_of_mem_eraseIdx (distinct : (entries.map key).Nodup) {position : Nat}
    {erased entry : Entry} (found : entries[position]? = some erased)
    (member : entry ∈ entries.eraseIdx position) : key entry ≠ key erased := by
  have clear : ClearBefore key (key erased) position entries := by
    apply ClearBefore.of_getElem
    intro index earlier before foundEarlier same
    have equal := index_unique distinct foundEarlier found same
    omega
  rw [← eraseFirst_of_clear clear found rfl] at member
  exact ((mem_eraseFirst_iff distinct).mp member).2

theorem updateFirst_of_fixed {change : Entry → Entry}
    (fixed : ∀ entry ∈ entries, key entry = wanted → change entry = entry) :
    updateFirst key wanted change entries = entries := by
  induction entries with
  | nil => rfl
  | cons entry rest ih =>
      unfold updateFirst
      split
      next matched => rw [fixed entry (by simp) matched]
      next => rw [ih fun later member => fixed later (by simp [member])]

theorem updateFirst_all {change : Entry → Entry} (property : Entry → Prop)
    (distinct : (entries.map key).Nodup) (changed : ∀ entry, property (change entry))
    {entry : Entry} (member : entry ∈ updateFirst key wanted change entries)
    (matched : key entry = wanted) : property entry := by
  induction entries with
  | nil => simp [updateFirst] at member
  | cons first rest ih =>
      simp only [List.map_cons, List.nodup_cons] at distinct
      unfold updateFirst at member
      split at member
      next here =>
        rcases List.mem_cons.mp member with rfl | later
        · exact changed first
        · exact absurd (List.mem_map.mpr ⟨entry, later, matched.trans here.symm⟩) distinct.1
      next elsewhere =>
        rcases List.mem_cons.mp member with rfl | later
        · exact absurd matched elsewhere
        · exact ih distinct.2 later

theorem updateFirst_eq_map {change : Entry → Entry} (distinct : (entries.map key).Nodup) :
    updateFirst key wanted change entries =
      entries.map fun entry => if key entry = wanted then change entry else entry := by
  induction entries with
  | nil => rfl
  | cons entry rest ih =>
      simp only [List.map_cons, List.nodup_cons] at distinct
      unfold updateFirst
      by_cases matched : key entry = wanted
      · have others : ∀ later ∈ rest, key later ≠ wanted := by
          intro later member equal
          exact distinct.1 (List.mem_map.mpr ⟨later, member, equal.trans matched.symm⟩)
        rw [if_pos matched, List.map_cons, if_pos matched]
        congr 1
        refine (List.map_congr_left fun later member => ?_).trans (List.map_id rest) |>.symm
        exact if_neg (others later member)
      · rw [if_neg matched, List.map_cons, if_neg matched, ih distinct.2]

theorem mem_updateFirst_of_mem (wanted : Key) (change : Entry → Entry)
    (distinct : (entries.map key).Nodup) {entry : Entry} (member : entry ∈ entries) :
    (if key entry = wanted then change entry else entry) ∈
      updateFirst key wanted change entries := by
  rw [updateFirst_eq_map distinct]
  exact List.mem_map_of_mem member

theorem map_set_of_same {Feature : Type} {feature : Entry → Feature} {index : Nat}
    {old new : Entry} (found : entries[index]? = some old)
    (kept : feature new = feature old) :
    (entries.set index new).map feature = entries.map feature := by
  obtain ⟨inside, equal⟩ := List.getElem?_eq_some_iff.mp found
  rw [List.map_set, kept, ← equal, ← List.getElem_map feature (h := by simpa using inside),
    List.set_getElem_self]

end KeyedList
