import Mathlib.Algebra.BigOperators.Intervals
import Mathlib.Algebra.Order.BigOperators.Group.Finset
import ZioControl.Counter

/-!
# What a counter counts as lost

A device numbers its blocks without end, and a counter sees these numbers modulo `2^32`. As long as
no step between two of them leaves the half range `-2^31, ..., 2^31 - 1`, the counter recovers each
step from the two words (`Counter.lt_horizon_iff`, `Counter.toNat_ahead`): it takes a step on by `d`
for `d - 1` missing blocks, and any other one for a step back. So a run of blocks loses the sum of
what its steps miss, however often the numbers wrap around (`Counter.lost_counted`,
`Counter.counts_losses`).
-/

namespace ZioControl.Counter

/-- The counter that has counted the first blocks, as many as `n`, of a device that numbers its
blocks like this. -/
def counted (number : ℕ → ℤ) (n : ℕ) : Counter :=
  ((List.range n).map fun i => UInt32.ofInt (number i)).foldl increment {}

/-- The blocks that a step from one block's number to the next one's misses. -/
def missed (number : ℕ → ℤ) (i : ℕ) : ℤ := max (number (i + 1) - number i - 1) 0

variable {a b : ℤ}

/-! ## One step -/

/-- How far a number lies ahead is the difference of both, less the one that was expected. -/
theorem ahead_ofInt (a b : ℤ) :
    ahead (UInt32.ofInt a) (UInt32.ofInt b) = UInt32.ofInt (b - a - 1) := by
  have hsplit : b = b - a - 1 + (a + 1) := by omega
  have hword : UInt32.ofInt b = UInt32.ofInt (b - a - 1) + (UInt32.ofInt a + 1) := by
    conv_lhs => rw [hsplit]
    rw [UInt32.ofInt_add, UInt32.ofInt_add, UInt32.ofInt_one]
  rw [ahead, hword, UInt32.add_sub_cancel]

/-- A word holds an integer modulo `2^32`. -/
theorem toNat_ofInt (n : ℤ) : ((UInt32.ofInt n).toNat : ℤ) = n % 2^32 := by
  have hword : (UInt32.ofInt n).toNat = (n % 2^32).toNat % 2^32 := rfl
  omega

/-- A word that is widened holds the same integer. -/
theorem ofInt_toNat (w : UInt32) : UInt64.ofInt (w.toNat : ℤ) = w.toUInt64 := by
  have hlt := w.toNat_lt
  have hword : (UInt64.ofInt (w.toNat : ℤ)).toNat = ((w.toNat : ℤ) % 2^64).toNat % 2^64 := rfl
  apply UInt64.toNat.inj
  rw [hword, UInt32.toNat_toUInt64]
  omega

/-- In the half range a step on, and no other, is less far ahead than the horizon. -/
theorem lt_horizon_iff (hlow : -2^31 ≤ b - a) (hhigh : b - a ≤ 2^31 - 1) :
    ahead (UInt32.ofInt a) (UInt32.ofInt b) < horizon ↔ 0 < b - a := by
  have hword := toNat_ofInt (b - a - 1)
  have hhorizon : horizon.toNat = 2^31 - 1 := rfl
  rw [ahead_ofInt, UInt32.lt_iff_toNat_lt, hhorizon]
  omega

variable {c : Counter}

/-- A counter finds out how many blocks a step misses. -/
theorem toNat_gap (hlast : c.last = some (UInt32.ofInt a)) (hlow : -2^31 ≤ b - a)
    (hhigh : b - a ≤ 2^31 - 1) :
    ((c.gap (UInt32.ofInt b)).toNat : ℤ) = max (b - a - 1) 0 := by
  have hon := lt_horizon_iff hlow hhigh
  unfold gap
  rw [hlast]
  dsimp only
  by_cases hstep : 0 < b - a
  · have hword := toNat_ofInt (b - a - 1)
    rw [if_pos (hon.mpr hstep), ahead_ofInt]
    omega
  · have hzero : (0 : UInt32).toNat = 0 := rfl
    rw [if_neg (mt hon.mp hstep), hzero]
    omega

/-- A counter says of a step that it went back, and of no other. -/
theorem notice?_eq (hlast : c.last = some (UInt32.ofInt a)) (hlow : -2^31 ≤ b - a)
    (hhigh : b - a ≤ 2^31 - 1) : c.notice? (UInt32.ofInt b) =
      if b - a ≤ 0 then some (.wentBack (UInt32.ofInt a) (UInt32.ofInt b)) else none := by
  have hon := lt_horizon_iff hlow hhigh
  unfold notice?
  rw [hlast]
  dsimp only
  by_cases hstep : 0 < b - a
  · rw [if_pos (hon.mpr hstep), if_neg (not_le.mpr hstep)]
  · rw [if_neg (mt hon.mp hstep), if_pos (not_lt.mp hstep)]

/-! ## A run of blocks -/

variable {number : ℕ → ℤ} {k : ℕ}

/-- No step of a run leaves the half range. -/
def InRange (number : ℕ → ℤ) (k : ℕ) : Prop :=
  ∀ i < k, -2^31 ≤ number (i + 1) - number i ∧ number (i + 1) - number i ≤ 2^31 - 1

/-- The blocks are counted one after the other. -/
theorem counted_succ (number : ℕ → ℤ) (n : ℕ) :
    counted number (n + 1) = (counted number n).increment (UInt32.ofInt (number n)) := by
  unfold counted
  rw [List.range_succ, List.map_append, List.foldl_append]
  rfl

/-- A counter has seen the last number. -/
theorem last_counted (number : ℕ → ℤ) (n : ℕ) :
    (counted number (n + 1)).last = some (UInt32.ofInt (number n)) := by
  rw [counted_succ]
  rfl

/-- A counter has counted as many blocks as there are. -/
theorem blocks_counted (number : ℕ → ℤ) (n : ℕ) : (counted number n).blocks = n := by
  induction n with
  | zero => rfl
  | succ n ih =>
    have hone : ((counted number n).increment (UInt32.ofInt (number n))).blocks =
        (counted number n).blocks + 1 := rfl
    rw [counted_succ, hone, ih]

/-- What a run loses is what its steps miss, modulo `2^64`. -/
theorem lost_counted (h : InRange number k) : (counted number (k + 1)).lost =
    UInt64.ofInt (∑ i ∈ Finset.range k, missed number i) := by
  induction k with
  | zero => rfl
  | succ k ih =>
    have hbefore := ih fun i hi => h i (Nat.lt_succ_of_lt hi)
    obtain ⟨hlow, hhigh⟩ := h k (Nat.lt_succ_self k)
    have hgap := toNat_gap (last_counted number k) hlow hhigh
    have hword : ((counted number (k + 1)).gap (UInt32.ofInt (number (k + 1)))).toUInt64 =
        UInt64.ofInt (missed number k) := by
      rw [missed, ← hgap, ofInt_toNat]
    have hlost : ((counted number (k + 1)).increment (UInt32.ofInt (number (k + 1)))).lost =
        (counted number (k + 1)).lost +
          ((counted number (k + 1)).gap (UInt32.ofInt (number (k + 1)))).toUInt64 := rfl
    rw [counted_succ, hlost, hbefore, hword, Finset.sum_range_succ, UInt64.ofInt_add]

/-- Steps that all go on miss what they are further than one block each. -/
theorem sum_missed (h : ∀ i < k, number i < number (i + 1)) :
    ∑ i ∈ Finset.range k, missed number i = number k - number 0 - k := by
  have hon : ∀ i ∈ Finset.range k, missed number i = (number (i + 1) - number i) - 1 := by
    intro i hi
    have hlt := h i (Finset.mem_range.mp hi)
    exact max_eq_left (by omega)
  rw [Finset.sum_congr rfl hon, Finset.sum_sub_distrib, Finset.sum_range_sub]
  simp

/-- A counter of the blocks of a device, whose numbers it sees modulo `2^32`, finds out what each
step in the half range misses, says which steps went back, and adds up the losses. -/
theorem counts_losses
    (hstep : ∀ i < k, -2^31 ≤ number (i + 1) - number i ∧ number (i + 1) - number i ≤ 2^31 - 1)
    (hlost : ∑ i ∈ Finset.range k, max (number (i + 1) - number i - 1) 0 < 2^64) :
    -- before the first block there is nothing to miss
    (counted number 0).gap (UInt32.ofInt (number 0)) = 0 ∧
      (counted number 0).notice? (UInt32.ofInt (number 0)) = none ∧
      (∀ i < k,
        (((counted number (i + 1)).gap (UInt32.ofInt (number (i + 1)))).toNat : ℤ) =
          max (number (i + 1) - number i - 1) 0 ∧
        (counted number (i + 1)).notice? (UInt32.ofInt (number (i + 1))) =
          if number (i + 1) - number i ≤ 0 then
            some (.wentBack (UInt32.ofInt (number i)) (UInt32.ofInt (number (i + 1))))
          else none) ∧
      (counted number (k + 1)).blocks = k + 1 ∧
      ((counted number (k + 1)).lost.toNat : ℤ) =
        ∑ i ∈ Finset.range k, max (number (i + 1) - number i - 1) 0 ∧
      ((∀ i < k, number i < number (i + 1)) →
        ((counted number (k + 1)).lost.toNat : ℤ) = number k - number 0 - k) := by
  have hsum : ((counted number (k + 1)).lost.toNat : ℤ) =
      ∑ i ∈ Finset.range k, missed number i := by
    have hnonneg : 0 ≤ ∑ i ∈ Finset.range k, missed number i :=
      Finset.sum_nonneg fun i _ => le_max_right _ 0
    have hlt : ∑ i ∈ Finset.range k, missed number i < 2^64 := hlost
    have hword : (UInt64.ofInt (∑ i ∈ Finset.range k, missed number i)).toNat =
        ((∑ i ∈ Finset.range k, missed number i) % 2^64).toNat % 2^64 := rfl
    rw [lost_counted hstep, hword]
    omega
  refine ⟨rfl, rfl, fun i hi => ?_, blocks_counted number (k + 1), hsum, fun hon => ?_⟩
  · obtain ⟨hlow, hhigh⟩ := hstep i hi
    have hlast := last_counted number i
    exact ⟨toNat_gap hlast hlow hhigh, notice?_eq hlast hlow hhigh⟩
  · rw [hsum, sum_missed hon]

/-- The numbers wrap around twice, with the longest steps in both directions, a number that comes
twice and one that follows the one before it. -/
theorem counts_losses_wrap :
    let number (i : ℕ) : ℤ :=
      [-1, 2^31 - 2, 2^32 - 3, 2^32 + 5, 2^32 + 5, 2^31 + 5, 2^31 + 6].getD i 0
    (∀ i < 6, -2^31 ≤ number (i + 1) - number i ∧ number (i + 1) - number i ≤ 2^31 - 1) ∧
      (counted number 1).gap 0x7ffffffe = 0x7ffffffe ∧
      (counted number 4).notice? 5 = some (.wentBack 5 5) ∧
      (counted number 5).notice? 0x80000005 = some (.wentBack 5 0x80000005) ∧
      (counted number 6).notice? 0x80000006 = none ∧
      (counted number 7).blocks = 7 ∧ (counted number 7).lost.toNat = 2^32 + 3 ∧
      ((counted number 4).lost.toNat : ℤ) = number 3 - number 0 - 3 := by
  intro number
  have hstep : ∀ i < 6, -2^31 ≤ number (i + 1) - number i ∧
      number (i + 1) - number i ≤ 2^31 - 1 := by decide
  have hsum : ∑ i ∈ Finset.range 6, max (number (i + 1) - number i - 1) 0 = 2^32 + 3 := by decide
  obtain ⟨-, -, hsteps, hblocks, hlost, -⟩ :=
    counts_losses hstep (hsum.trans_lt (by decide))
  -- the numbers up to the second wrap all go on
  have hfirst : ∑ i ∈ Finset.range 3, max (number (i + 1) - number i - 1) 0 < 2^64 := by decide
  obtain ⟨-, -, -, -, -, hon⟩ :=
    counts_losses (k := 3) (fun i hi => hstep i (by omega)) hfirst
  have hgap : ((counted number 1).gap 0x7ffffffe).toNat = 0x7ffffffe :=
    Int.natCast_inj.mp (hsteps 0 (by decide)).1
  have htotal : (counted number 7).lost.toNat = 2^32 + 3 := Int.natCast_inj.mp (hlost.trans hsum)
  exact ⟨hstep, UInt32.toNat.inj hgap, (hsteps 3 (by decide)).2, (hsteps 4 (by decide)).2,
    (hsteps 5 (by decide)).2, hblocks, htotal, hon (by decide)⟩

end ZioControl.Counter
