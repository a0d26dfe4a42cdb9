import Mathlib.Data.List.Basic
import Mathlib.Logic.Function.Basic
import ZioControl.Proofs.Records

/-!
# Attribute sets under any changes

However an attribute set is changed, it stays the partial map from slots to words that the same
changes make of the map without entries (`AttributeSet.represents_run`). A change of a map
(`SlotChange.onMap`) says nothing of masks and stored values, so this is all that there is to know
of a set: `AttributeSet.Represents` lists how each way of looking at a set shows its map. One change
keeps the map that a set is (`SlotChange.get?_onSet`), and a run of them is a fold.
-/

namespace ZioControl

/-- The words of the slots that hold one. -/
abbrev SlotMap := Nat → Option UInt32

/-- A change of an attribute set. -/
inductive SlotChange where
  /-- A slot is enabled with a value. -/
  | insert (i : Nat) (v : UInt32)
  /-- A slot is disabled. -/
  | erase (i : Nat)
  /-- The slots of a mask get the values of a list, and the others are disabled. -/
  | replace (mask : Mask) (list : List UInt32)
  /-- The slots of a mask are enabled, and the others are disabled. -/
  | remask (mask : Mask)
  deriving DecidableEq, Repr

namespace SlotChange

variable {capacity : Nat}

/-- The set after a change. A value for a slot that the set does not have leaves it alone. -/
def onSet (s : AttributeSet capacity) : SlotChange → AttributeSet capacity
  | insert i v => (s.insert? i v).getD s
  | erase i => s.erase i
  | replace mask list => .ofValues mask list
  | remask mask => s.remask mask

/-- The map after a change, if slots are numbered below the capacity. -/
def onMap (capacity : Nat) (m : SlotMap) : SlotChange → SlotMap
  | insert i v => if i < capacity then Function.update m i (some v) else m
  | erase i => Function.update m i none
  | replace mask list => fun i => if i < capacity ∧ mask.has i = true then list[i]? else none
  | remask mask => fun i =>
    if i < capacity ∧ mask.has i = true then some ((m i).getD 0) else none

end SlotChange

namespace AttributeSet

variable {capacity : Nat} {s : AttributeSet capacity} {m : SlotMap}

/-- Whether a set shows a partial map in each of the ways in which it can be looked at. -/
structure Represents (s : AttributeSet capacity) (m : SlotMap) : Prop where
  /-- A value is taken for the slots below the capacity, and for no other. -/
  takes : ∀ i v, (s.insert? i v).isSome = decide (i < capacity)
  /-- The mask is the domain of the map. -/
  domain : ∀ i, s.mask.has i = (m i).isSome
  /-- The mask has no bit from the capacity on. -/
  within : s.mask.toNat < 2 ^ capacity
  /-- A slot without an entry holds zero. -/
  stored : s.values.toList = (List.range capacity).map fun i => (m i).getD 0
  /-- Looking up a slot is looking it up in the map. -/
  lookup : ∀ i, s.get? i = m i
  /-- A slot is enabled if it has an entry. -/
  enabled : ∀ i, s.isEnabled i = (m i).isSome
  /-- A mask selects the stored values at its slots, and every slot has its place. -/
  selected : ∀ mask : Mask, (s.select mask).toList =
    (List.range capacity).map fun i => if mask.has i = true then (m i).getD 0 else 0
  /-- What a set lists are the entries of the map. -/
  listed : ∀ i v, (i, v) ∈ s.entries ↔ m i = some v
  /-- It lists them from the lowest slot to the highest one. -/
  ordered : (s.entries.map Prod.fst).Pairwise (· < ·)

/-- The slots that a set lists ascend. -/
theorem pairwise_entries (s : AttributeSet capacity) :
    (s.entries.map Prod.fst).Pairwise (· < ·) := by
  have hslots : s.entries.map Prod.fst =
      (List.range capacity).filter fun i => (s.get? i).isSome := by
    unfold entries
    rw [List.map_filterMap, ← List.filterMap_eq_filter]
    refine List.filterMap_congr fun i _ => ?_
    cases hget : s.get? i <;> simp [Option.guard, hget]
  rw [hslots]
  exact List.pairwise_lt_range.filter _

/-- A set lists the slots that it has a value for. -/
theorem mem_entries_iff (s : AttributeSet capacity) (i : Nat) (v : UInt32) :
    (i, v) ∈ s.entries ↔ s.get? i = some v := by
  unfold entries
  simp only [List.mem_filterMap, List.mem_range, Option.map_eq_some_iff, Prod.mk.injEq]
  constructor
  · rintro ⟨j, -, w, hget, rfl, rfl⟩
    exact hget
  · intro hget
    have hlt : i < capacity := Nat.lt_of_not_le fun hle => by simp [s.get?_of_le hle] at hget
    exact ⟨i, hlt, v, hget, rfl, rfl⟩

/-- All that a set shows follows from its map. -/
theorem represents_of_get? (hcap : capacity ≤ 32) (h : ∀ i, s.get? i = m i) :
    s.Represents m where
  takes i v := by
    unfold insert?
    by_cases hi : i < capacity
    · have hi32 : i < 32 := by omega
      simp [hi, hi32]
    · simp [hi]
  domain i := by rw [← s.isSome_get?, h]
  within := Mask.toNat_lt_of_has s.within
  stored := toList_eq_map_range fun i hi => by rw [s.getElem_values i hi, h]
  lookup := h
  enabled i := by rw [← h, s.isSome_get?, isEnabled]
  selected mask := toList_eq_map_range fun i hi => by
    have hvalue : s.values[i] = (m i).getD 0 := by rw [s.getElem_values i hi, h]
    unfold select
    rw [Vector.getElem_ofFn, ← hvalue]
    rfl
  listed i v := by rw [mem_entries_iff, h]
  ordered := s.pairwise_entries

/-- One change does to a set what it does to the set's map. -/
theorem get?_onSet (hcap : capacity ≤ 32) (s : AttributeSet capacity) (change : SlotChange)
    (i : Nat) : (change.onSet s).get? i = change.onMap capacity s.get? i := by
  cases change with
  | insert j v =>
    by_cases hj : j < capacity
    · obtain ⟨t, ht⟩ := s.exists_insert?_eq v hj (Nat.lt_of_lt_of_le hj hcap)
      have hset : (SlotChange.insert j v).onSet s = t := by
        rw [SlotChange.onSet, ht, Option.getD_some]
      rw [hset, s.get?_insert? ht, SlotChange.onMap, if_pos hj, Function.update_apply]
    · have hnone : s.insert? j v = none := by
        unfold insert?
        rw [dif_neg (by omega)]
      rw [SlotChange.onSet, hnone, Option.getD_none, SlotChange.onMap, if_neg hj]
  | erase j => rw [SlotChange.onSet, s.get?_erase, SlotChange.onMap, Function.update_apply]
  | replace mask list => rw [SlotChange.onSet, get?_ofValues, SlotChange.onMap]
  | remask mask => rw [SlotChange.onSet, s.get?_remask, SlotChange.onMap]

/-- Changes one after the other do to a set what they do to its map. -/
theorem get?_foldl_onSet (hcap : capacity ≤ 32) (changes : List SlotChange)
    (s : AttributeSet capacity) (h : s.get? = m) :
    (changes.foldl SlotChange.onSet s).get? = changes.foldl (SlotChange.onMap capacity) m := by
  induction changes generalizing s m with
  | nil => exact h
  | cons change changes ih =>
    refine ih (change.onSet s) ?_
    subst h
    exact funext (get?_onSet hcap s change)

/-- After any changes the empty set is the map that the same changes make of the map without
entries, in whatever way it is looked at. -/
theorem represents_run (hcap : capacity ≤ 32) (changes : List SlotChange) :
    (changes.foldl SlotChange.onSet (empty : AttributeSet capacity)).Represents
      (changes.foldl (SlotChange.onMap capacity) fun _ => none) := by
  have hempty : (empty : AttributeSet capacity).get? = fun _ => none := by
    funext i
    unfold get? empty
    rw [Mask.has_zero, if_neg Bool.false_ne_true]
  have hrun := get?_foldl_onSet hcap changes empty hempty
  exact represents_of_get? hcap (congrFun hrun)

/-- Of a set of full width, a slot that was disabled by a mask starts again with zero, the last bit
of the word is a slot, and the number behind it is none. -/
theorem represents_run_full_width :
    let changes : List SlotChange :=
      [.replace 0xffffffff [7, 8, 9], .remask 0x80000001, .insert 32 5, .insert 31 4,
        .remask 0xffffffff, .erase 2]
    let s := changes.foldl SlotChange.onSet (empty : AttributeSet 32)
    32 ≤ 32 ∧ s.get? 0 = some 7 ∧ s.get? 1 = some 0 ∧ s.get? 2 = none ∧ s.get? 31 = some 4 ∧
      s.get? 32 = none := by
  intro changes s
  have hrun : s.Represents _ := represents_run (Nat.le_refl 32) changes
  refine ⟨Nat.le_refl 32, ?_, ?_, ?_, ?_, ?_⟩
  all_goals exact (hrun.lookup _).trans rfl

end AttributeSet

end ZioControl
