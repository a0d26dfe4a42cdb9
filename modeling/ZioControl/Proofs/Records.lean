import ZioControl.Proofs.Cells
import ZioControl.Proofs.Names
import ZioControl.Proofs.Slots

/-!
# Attribute sets as bytes

The mask and the values of an attribute set, written as words, give the set again
(`AttributeSet.ofBytes_toBytes`). Of any other mask and values the set keeps the words at the slots
of the mask (`AttributeSet.valueBytes_ofBytes`) and the mask itself, as far as there are slots
(`AttributeSet.mask_ofBytes`).
-/

namespace ZioControl

namespace Mask

/-- A mask below a power of two has no slot from the exponent on. -/
theorem has_eq_false_of_lt {mask : Mask} {n i : Nat} (h : mask.toNat < 2 ^ n) (hi : n ≤ i) :
    mask.has i = false :=
  Nat.testBit_lt_two_pow (Nat.lt_of_lt_of_le h (Nat.pow_le_pow_right (by omega) hi))

/-- A mask without slots from a number on is below that power of two. -/
theorem toNat_lt_of_has {mask : Mask} {n : Nat} (h : ∀ i, n ≤ i → mask.has i = false) :
    mask.toNat < 2 ^ n :=
  Nat.lt_pow_two_of_testBit _ h

end Mask

namespace AttributeSet

variable {capacity : Nat}

/-- The words of a set's values. -/
theorem valueBytes_eq (s : AttributeSet capacity) : s.valueBytes =
    (List.range capacity).flatMap fun i => Word.toBytes 4 ((s.get? i).getD 0).toNat := by
  have hlist : s.values.toList = (List.range capacity).map fun i => (s.get? i).getD 0 :=
    toList_eq_map_range s.getElem_values
  rw [valueBytes, hlist, List.flatMap_map]

/-- A set has a word for each of its slots. -/
theorem length_valueBytes (s : AttributeSet capacity) : s.valueBytes.length = 4 * capacity := by
  simp [valueBytes, List.length_flatMap, Nat.mul_comm]

/-- A set that was read from words has those at the slots of the mask. -/
theorem get?_ofBytes (mask values : List UInt8) (i : Nat) :
    (ofBytes mask values : AttributeSet capacity).get? i =
      if i < capacity ∧ Mask.has (UInt32.ofNat (Word.ofBytes mask)) i = true then
        some (UInt32.ofNat (Word.ofBytes (Word.word 4 i values)))
      else none := by
  rw [ofBytes, get?_ofValues]
  split
  · next h => simp [h.1, Word.word]
  · rfl

/-- The words at the slots of the mask are kept, and the others become zero. -/
theorem valueBytes_ofBytes {mask values : List UInt8} (h : values.length = 4 * capacity) :
    (ofBytes mask values : AttributeSet capacity).valueBytes =
      (List.range capacity).flatMap fun i =>
        if Mask.has (UInt32.ofNat (Word.ofBytes mask)) i then Word.word 4 i values
        else List.replicate 4 0 := by
  rw [valueBytes_eq]
  refine List.flatMap_congr fun i hi => ?_
  have hi := List.mem_range.1 hi
  rw [get?_ofBytes]
  by_cases hm : Mask.has (UInt32.ofNat (Word.ofBytes mask)) i = true
  · rw [if_pos ⟨hi, hm⟩, if_pos hm, Option.getD_some, Word.toBytes_uint32 (Word.length_word h hi)]
  · rw [if_neg (by simp [hm]), if_neg hm]
    rfl

/-- A mask without slots past the capacity is kept. -/
theorem mask_ofBytes {mask values : List UInt8} (hlt : Word.ofBytes mask < 2 ^ capacity)
    (hcap : capacity ≤ 32) :
    (ofBytes mask values : AttributeSet capacity).mask.toNat = Word.ofBytes mask := by
  have hnat : (UInt32.ofNat (Word.ofBytes mask)).toNat = Word.ofBytes mask := by
    rw [UInt32.toNat_ofNat']
    exact Nat.mod_eq_of_lt (Nat.lt_of_lt_of_le hlt (Nat.pow_le_pow_right (by omega) hcap))
  have hmask : (ofBytes mask values : AttributeSet capacity).mask =
      UInt32.ofNat (Word.ofBytes mask) := by
    apply Mask.ext_has
    intro i
    rw [← isSome_get?, get?_ofBytes]
    by_cases hi : i < capacity
    · simp only [hi, true_and]
      split <;> simp_all
    -- past the capacity neither side has a slot
    · rw [if_neg (by simp [hi]), Mask.has_eq_false_of_lt (hnat ▸ hlt) (by omega)]
      rfl
  rw [hmask, hnat]

/-- A mask of as many bits as there are slots is kept as bytes. -/
theorem toBytes_mask_ofBytes {width : Nat} {mask values : List UInt8} (h : mask.length = width)
    (hcap : capacity = 8 * width) (hle : width ≤ 4) :
    Word.toBytes width (ofBytes mask values : AttributeSet capacity).mask.toNat = mask := by
  have hlt := Word.ofBytes_lt mask
  rw [h, show 256 = 2 ^ 8 by rfl, ← Nat.pow_mul, ← hcap] at hlt
  rw [mask_ofBytes hlt (by omega), ← h, Word.toBytes_ofBytes]

/-- A set comes back from its mask and its values as words. -/
theorem ofBytes_toBytes (s : AttributeSet capacity) {width : Nat} (hw : capacity ≤ 8 * width) :
    ofBytes (Word.toBytes width s.mask.toNat) s.valueBytes = s := by
  have hlt : s.mask.toNat < 256 ^ width := by
    rw [show 256 = 2 ^ 8 by rfl, ← Nat.pow_mul]
    exact Nat.lt_of_lt_of_le (Mask.toNat_lt_of_has s.within) (Nat.pow_le_pow_right (by omega) hw)
  apply ext_get?
  intro i
  rw [get?_ofBytes, Word.ofBytes_toBytes, Nat.mod_eq_of_lt hlt, UInt32.ofNat_toNat]
  by_cases hi : i < capacity
  · rw [s.get?_of_lt hi, valueBytes_eq, Word.word_flatMap (fun i _ => Word.length_toBytes 4 _) hi,
      Word.ofBytes_uint32, ← s.getElem_values i hi]
    simp [hi]
  · rw [if_neg (by simp [hi]), s.get?_of_le (by omega)]

end AttributeSet

end ZioControl
