import Mathlib.Algebra.Ring.Nat
import ZioControl.Layout

/-!
# No gap and no overlap

The cells of the layout stand one after the other (`offset_eq_sum`) and fill a block (`sum_size`).
So no two of them share a byte (`disjoint_of_ne`).
-/

namespace ZioControl.Cell

/-- The cells fill a block. -/
theorem sum_size : (all.map size).sum = 512 := by decide

/-- Every cell begins where the one before it ends. -/
theorem offset_eq_sum (i : Fin all.length) :
    all[i].offset = ((all.take i.val).map size).sum := by
  revert i
  decide

/-- Of two cells one ends before the other one begins. -/
theorem disjoint_of_ne {cell other : Cell} (h : cell ≠ other) :
    cell.offset + cell.size ≤ other.offset ∨ other.offset + other.size ≤ cell.offset := by
  have hall : ∀ cell ∈ all, ∀ other ∈ all, cell ≠ other →
      cell.offset + cell.size ≤ other.offset ∨ other.offset + other.size ≤ cell.offset := by
    decide
  exact hall cell (mem_all cell) other (mem_all other) h

end ZioControl.Cell
