/-!
# Words as bytes

A number as a fixed count of bytes, the low byte first, and the reversal that leads to the other
byte order. The two functions `toBytes` and `ofBytes` are inverse to each other, on numbers that fit
and on byte strings of the right length (`toBytes_ofBytes`).
-/

namespace ZioControl

/-- The order of the bytes of a word in memory. -/
inductive ByteOrder where
  | little
  | big
  deriving DecidableEq, Repr, Inhabited

namespace Word

/-- The lowest `width` bytes of a number, the low byte first. -/
def toBytes : (width : Nat) → Nat → List UInt8
  | 0, _ => []
  | width + 1, n => UInt8.ofNat n :: toBytes width (n / 256)

/-- The number that bytes spell, the low byte first. -/
def ofBytes : List UInt8 → Nat
  | [] => 0
  | b :: rest => b.toNat + 256 * ofBytes rest

/-- The words of `width` bytes one after the other. A last word may be shorter. -/
def split (width : Nat) (bytes : List UInt8) : List (List UInt8) :=
  if _h : width = 0 ∨ bytes.length ≤ width then [bytes]
  else bytes.take width :: split width (bytes.drop width)
termination_by bytes.length
decreasing_by rw [List.length_drop]; omega

/-- Every word of `width` bytes reversed, which changes the byte order. -/
def swap (width : Nat) (bytes : List UInt8) : List UInt8 :=
  (split width bytes).flatMap List.reverse

/-- Words of `width` bytes between the little-endian order and another one. -/
def orient (order : ByteOrder) (width : Nat) (bytes : List UInt8) : List UInt8 :=
  match order with
  | .little => bytes
  | .big => swap width bytes

/-- A number has as many bytes as it is given room for. -/
@[simp]
theorem length_toBytes (width n : Nat) : (toBytes width n).length = width := by
  induction width generalizing n with
  | zero => rfl
  | succ width ih => simp [toBytes, ih]

/-- The number that bytes spell has these bytes. -/
theorem toBytes_ofBytes (bytes : List UInt8) : toBytes bytes.length (ofBytes bytes) = bytes := by
  induction bytes with
  | nil => rfl
  | cons b rest ih =>
    have hb := b.toNat_lt
    have hdiv : (b.toNat + 256 * ofBytes rest) / 256 = ofBytes rest := by omega
    have hmod : UInt8.ofNat (b.toNat + 256 * ofBytes rest) = b := by
      apply UInt8.toNat_inj.1
      rw [UInt8.toNat_ofNat']
      omega
    rw [List.length_cons, toBytes, ofBytes, hdiv, hmod, ih]

end Word

end ZioControl
