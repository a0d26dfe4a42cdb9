import ZioControl.Attribute

/-!
# Attribute sets as maps

What each operation on an attribute set does to the map from slots to words that the set is
(`AttributeSet.get?`). Together with `AttributeSet.ext_get?` these are all that there is to know
about the operations, so what is built on sets need not look at masks and stored values.
-/

namespace ZioControl.AttributeSet

variable {capacity : Nat} (s : AttributeSet capacity) {i : Nat}

/-- A set made from a mask and a list has the values of the list at the slots of the mask. -/
theorem get?_ofValues (mask : Mask) (list : List UInt32) :
    (ofValues mask list : AttributeSet capacity).get? i =
      if i < capacity ∧ mask.has i = true then list[i]? else none := by
  by_cases hi : i < capacity
  · rw [get?_of_lt _ hi]
    simp only [ofValues, Mask.has_and, Mask.has_first, Vector.getElem_ofFn]
    by_cases hm : mask.has i = true
    · have hi32 : i < 32 := Nat.lt_of_not_le fun h => by simp [mask.has_of_le h] at hm
      by_cases hlen : i < list.length
      · have hmin : i < min capacity list.length := by omega
        simp [hi, hm, hi32, hlen, hmin]
      · have hmin : ¬ i < min capacity list.length := by omega
        simp [hi, hm, hlen, hmin]
    · simp [hm]
  · rw [get?_of_le _ (by omega), if_neg (by simp [hi])]

/-- Changing the mask keeps the values of the slots that stay, and the others start with zero. -/
theorem get?_remask (mask : Mask) : (s.remask mask).get? i =
    if i < capacity ∧ mask.has i = true then some ((s.get? i).getD 0) else none := by
  by_cases hi : i < capacity
  · rw [get?_of_lt _ hi, ← s.getElem_values i hi]
    simp only [remask, select, slots, Mask.has_and, Mask.has_first, Vector.getElem_ofFn]
    by_cases hm : mask.has i = true
    · have hi32 : i < 32 := Nat.lt_of_not_le fun h => by simp [mask.has_of_le h] at hm
      simp [hi, hm, hi32]
    · simp [hm]
  · rw [get?_of_le _ (by omega), if_neg (by simp [hi])]

/-- A set takes a value for each of its slots that a mask reaches, and for no other. -/
theorem exists_insert?_eq (v : UInt32) (hi : i < capacity) (hi32 : i < 32) :
    ∃ t, s.insert? i v = some t := by
  rw [insert?, dif_pos ⟨hi, hi32⟩]
  exact ⟨_, rfl⟩

/-- Inserting sets one slot. -/
theorem get?_insert? {t : AttributeSet capacity} {v : UInt32} (h : s.insert? i v = some t)
    (j : Nat) : t.get? j = if j = i then some v else s.get? j := by
  rw [insert?] at h
  split at h
  · next hi =>
    obtain rfl := Option.some.inj h
    by_cases hj : j < capacity
    · rw [get?_of_lt _ hj, get?_of_lt _ hj]
      simp only [Mask.has_or, Mask.has_single, hi.2, decide_true, Bool.true_and,
        Vector.getElem_set]
      by_cases hji : j = i
      · simp [hji]
      · simp [hji, Ne.symm hji]
    · rw [get?_of_le _ (by omega), get?_of_le _ (by omega), if_neg (by omega)]
  · cases h

/-- Disabling takes one slot out. -/
theorem get?_erase (j : Nat) : (s.erase i).get? j = if j = i then none else s.get? j := by
  by_cases hj : j < capacity
  · rw [get?_of_lt _ hj, get?_of_lt _ hj]
    simp only [erase, Mask.has_and, Mask.has_complement, Mask.has_single, Vector.getElem_ofFn]
    by_cases hm : s.mask.has j = true
    · have hj32 : j < 32 := Nat.lt_of_not_le fun h => by simp [s.mask.has_of_le h] at hm
      by_cases hji : j = i
      · subst hji
        simp [hj32]
      · simp [hm, hj32, hji, Ne.symm hji]
    · simp [hm]
  · rw [get?_of_le _ (by omega), get?_of_le _ (by omega), ite_self]

/-- The list of a vector whose elements are known by their places. -/
theorem toList_eq_map_range {v : Vector UInt32 capacity} {f : Nat → UInt32}
    (h : ∀ i (hi : i < capacity), v[i] = f i) : v.toList = (List.range capacity).map f := by
  apply List.ext_getElem
  · simp
  · intro i hi _
    have hlt : i < capacity := by simpa using hi
    simp [h i hlt]

end ZioControl.AttributeSet
