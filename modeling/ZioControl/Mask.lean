/-!
# Slot masks

A word as a set of slot numbers: bit `i` says whether slot `i` is in it. Numbers past the width of
the word are in no mask.
-/

namespace ZioControl

/-- A word whose bits stand for slots. -/
abbrev Mask := UInt32

namespace Mask

/-- Whether slot `i` is in the mask. -/
def has (mask : Mask) (i : Nat) : Bool := mask.toBitVec.getLsbD i

/-- The mask of slot `i` alone, empty if the word has no such bit. -/
def single (i : Nat) : Mask := if i < 32 then ⟨BitVec.twoPow 32 i⟩ else 0

/-- The mask of the first `n` slots. -/
def first (n : Nat) : Mask := ⟨BitVec.setWidth 32 (BitVec.allOnes n)⟩

/-- No mask has a slot past the width of the word. -/
theorem has_of_le (mask : Mask) {i : Nat} (h : 32 ≤ i) : mask.has i = false :=
  BitVec.getLsbD_of_ge _ _ h

/-- The empty mask has no slot. -/
@[simp]
theorem has_zero (i : Nat) : has 0 i = false := by
  simp [has]

/-- The union of two masks has the slots of either. -/
@[simp]
theorem has_or (a b : Mask) (i : Nat) : has (a ||| b) i = (a.has i || b.has i) := by
  simp [has]

/-- The intersection of two masks has the slots of both. -/
@[simp]
theorem has_and (a b : Mask) (i : Nat) : has (a &&& b) i = (a.has i && b.has i) := by
  simp [has]

/-- The complement of a mask has the slots of the word that the mask lacks. -/
@[simp]
theorem has_complement (a : Mask) (i : Nat) : has (~~~a) i = (decide (i < 32) && !a.has i) := by
  simp [has]

/-- The mask of one slot has that slot and no other. -/
@[simp]
theorem has_single (i j : Nat) : has (single i) j = (decide (i < 32) && decide (i = j)) := by
  by_cases h : i < 32 <;> simp [has, single, BitVec.getLsbD_twoPow, h]

/-- The mask of the first `n` slots has just them, as far as the word reaches. -/
@[simp]
theorem has_first (n i : Nat) : has (first n) i = (decide (i < 32) && decide (i < n)) := by
  simp [has, first]

/-- Masks with the same slots are equal. -/
theorem ext_has {a b : Mask} (h : ∀ i, a.has i = b.has i) : a = b := by
  apply UInt32.toBitVec_inj.1
  apply BitVec.eq_of_getLsbD_eq
  intro i _
  exact h i

end Mask

end ZioControl
