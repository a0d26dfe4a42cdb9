import ZioControl.Mask

/-!
# Attribute sets

An attribute set holds a word for each of its enabled slots (`AttributeSet` in §3 of
`SPEC_FULL.md`). It is stored the way a device stores it, as a mask and one value a slot, and both
conditions on that form belong to the type: no bit past the last slot, and zero in every disabled
slot. So a set is the same thing as a partial map from slots to words (`get?`, `ext_get?`), and no
stale value survives a change of the mask. The operations are those of §4.2.
-/

namespace ZioControl

/-- A mask of enabled slots and a value for every slot. -/
@[ext]
structure AttributeSet (capacity : Nat) where
  /-- The enabled slots. -/
  mask : Mask
  /-- The value of each slot. -/
  values : Vector UInt32 capacity
  /-- Only slots of the set are enabled. -/
  within : ∀ i, capacity ≤ i → mask.has i = false
  /-- A disabled slot holds zero. -/
  blank : ∀ i (h : i < capacity), mask.has i = false → values[i] = 0
  deriving DecidableEq

namespace AttributeSet

variable {capacity : Nat}

/-- The set without an enabled slot. -/
def empty : AttributeSet capacity where
  mask := 0
  values := Vector.replicate capacity 0
  within := by simp
  blank := by simp

instance : Inhabited (AttributeSet capacity) := ⟨empty⟩

/-- The mask of all slots that a set of this capacity has. -/
def slots (capacity : Nat) : Mask := Mask.first capacity

/-- Whether slot `i` is enabled. -/
def isEnabled (s : AttributeSet capacity) (i : Nat) : Bool := s.mask.has i

/-- The value of slot `i` if it is enabled. -/
def get? (s : AttributeSet capacity) (i : Nat) : Option UInt32 :=
  if s.mask.has i then s.values[i]? else none

/-- Enables slot `i` with the value `v`. There is no result if the set has no such slot. -/
def insert? (s : AttributeSet capacity) (i : Nat) (v : UInt32) : Option (AttributeSet capacity) :=
  if h : i < capacity ∧ i < 32 then
    some {
      mask := s.mask ||| Mask.single i
      values := s.values.set i v h.1
      within := fun j hj => by
        have : i ≠ j := by omega
        simp [s.within j hj, this]
      blank := fun j hj hm => by
        simp only [Mask.has_or, Mask.has_single, h.2, decide_true, Bool.true_and,
          Bool.or_eq_false_iff, decide_eq_false_iff_not] at hm
        rw [Vector.getElem_set_ne _ hj hm.2]
        exact s.blank j hj hm.1 }
  else none

/-- Disables slot `i`. -/
def erase (s : AttributeSet capacity) (i : Nat) : AttributeSet capacity where
  mask := s.mask &&& ~~~Mask.single i
  values := Vector.ofFn fun j => if j.val = i then 0 else s.values[j]
  within := fun j hj => by simp [s.within j hj]
  blank := fun j hj hm => by
    rw [Vector.getElem_ofFn]
    split
    · rfl
    · next hne =>
      refine s.blank j hj ?_
      have hne' : ¬ i = j := fun h => hne h.symm
      by_cases hj32 : j < 32
      · simpa [hj32, hne'] using hm
      · exact s.mask.has_of_le (by omega)

/-- The set whose enabled slots are those of the mask for which the list has a value: `setValues` of
§4.2. -/
def ofValues (mask : Mask) (list : List UInt32) : AttributeSet capacity where
  mask := mask &&& Mask.first (min capacity list.length)
  values := Vector.ofFn fun i => if mask.has i then list[i.val]?.getD 0 else 0
  within := fun i hi => by
    have : ¬ i < min capacity list.length := by omega
    simp [this]
  blank := fun i hi hm => by
    rw [Vector.getElem_ofFn]
    split
    -- the mask has the slot, so the list must be too short for it
    · next hmask =>
      have hi32 : i < 32 := Nat.lt_of_not_le fun h => by simp [mask.has_of_le h] at hmask
      have hlen : list.length ≤ i := by
        simp only [Mask.has_and, Mask.has_first, hmask, hi32, decide_true, Bool.true_and,
          decide_eq_false_iff_not] at hm
        omega
      simp [hlen]
    · rfl

/-- The value of every slot of the mask, and zero elsewhere: `getValues` of §4.2. -/
def select (s : AttributeSet capacity) (mask : Mask) : Vector UInt32 capacity :=
  Vector.ofFn fun i => if mask.has i then s.values[i] else 0

/-- Changes only which slots are enabled: those of the mask. A slot that stays enabled keeps its
value, and one that was disabled starts with zero. This is `setDisabledMask` of §4.2, with the
values of disabled slots cleared as §8 has it. -/
def remask (s : AttributeSet capacity) (mask : Mask) : AttributeSet capacity where
  mask := mask &&& slots capacity
  values := s.select mask
  within := fun i hi => by
    have : ¬ i < capacity := by omega
    simp [slots, this]
  blank := fun i hi hm => by
    rw [select, Vector.getElem_ofFn]
    split
    · next hmask =>
      have hi32 : i < 32 := Nat.lt_of_not_le fun h => by simp [mask.has_of_le h] at hmask
      simp [slots, hi, hi32, show mask.has i = true from hmask] at hm
    · rfl

/-- The enabled slots with their values, in the order of the slots. -/
def entries (s : AttributeSet capacity) : List (Nat × UInt32) :=
  (List.range capacity).filterMap fun i => (s.get? i).map fun v => (i, v)

/-- Looking up a slot of the set in its mask and its values. -/
theorem get?_of_lt (s : AttributeSet capacity) {i : Nat} (h : i < capacity) :
    s.get? i = if s.mask.has i then some s.values[i] else none := by
  simp [get?, h]

/-- A slot that the set does not have is not enabled. -/
theorem get?_of_le (s : AttributeSet capacity) {i : Nat} (h : capacity ≤ i) : s.get? i = none := by
  simp [get?, s.within i h]

/-- The mask is the domain of the map. -/
theorem isSome_get? (s : AttributeSet capacity) (i : Nat) : (s.get? i).isSome = s.mask.has i := by
  by_cases h : i < capacity
  · rw [s.get?_of_lt h]; split <;> simp_all
  · rw [s.get?_of_le (by omega), s.within i (by omega)]; rfl

/-- The stored value of a slot is the one of the map, or zero. -/
theorem getElem_values (s : AttributeSet capacity) (i : Nat) (h : i < capacity) :
    s.values[i] = (s.get? i).getD 0 := by
  rw [s.get?_of_lt h]
  split
  · rfl
  · next hm => exact s.blank i h (by simpa using hm)

/-- Sets that are the same map are equal. -/
theorem ext_get? {s t : AttributeSet capacity} (h : ∀ i, s.get? i = t.get? i) : s = t := by
  apply AttributeSet.ext
  · apply Mask.ext_has
    intro i
    rw [← s.isSome_get?, ← t.isSome_get?, h]
  · apply Vector.ext
    intro i hi
    rw [s.getElem_values i hi, t.getElem_values i hi, h]

end AttributeSet

end ZioControl
