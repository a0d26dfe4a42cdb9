import Mathlib.Algebra.Ring.Nat
import ZioControl.Word

/-!
# The range of words

Bytes spell exactly the numbers below the power of 256 that their count gives: each spells one
(`ofBytes_lt`), and such a number comes back from its bytes (`ofBytes_toBytes`).
-/

namespace ZioControl.Word

/-- The bytes of a number spell it again, as far as it fits. -/
theorem ofBytes_toBytes (width n : Nat) : ofBytes (toBytes width n) = n % 256 ^ width := by
  induction width generalizing n with
  | zero => simp [toBytes, ofBytes, Nat.mod_one]
  | succ width ih =>
    rw [toBytes, ofBytes, ih, UInt8.toNat_ofNat', @Nat.pow_succ' 256, @Nat.mod_mul 256]

/-- Bytes spell a number below the power of 256 that their count gives. -/
theorem ofBytes_lt (bytes : List UInt8) : ofBytes bytes < 256 ^ bytes.length := by
  induction bytes with
  | nil => simp [ofBytes]
  | cons b rest ih =>
    have hb := b.toNat_lt
    rw [ofBytes, List.length_cons, Nat.pow_succ']
    omega

end ZioControl.Word
