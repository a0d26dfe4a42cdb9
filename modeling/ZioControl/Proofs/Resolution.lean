import ZioControl.Proofs.Ordinary

/-!
# The number of bits after an edit of the resolution

An edit of the channel's resolution writes the number of bits anew from the text that was typed,
and `Block.syncBits` does so from the word that the slot reads the text as. The two agree unless the
text is a number with a plus sign in front, which the slot reads and the number of bits does not
(`Form.syncBits_apply_edit_iff`): all other texts that are not plain numbers leave no bits in
either, for a word of two's complement is as much too wide as a number that needs more than 16 bits.
Where they do not, the device refuses the block for its number of bits
(`Form.syncBits_apply_ne_of_plus`).
-/

namespace ZioControl

/-- The number of bits that a resolution gives, zero if it is too wide. -/
def bitsOf (word : UInt32) : UInt16 := if word < 0x10000 then word.toUInt16 else 0

/-- A word that 16 bits hold gives its value, and any other gives zero. -/
theorem toNat_bitsOf (word : UInt32) :
    (bitsOf word).toNat = if word.toNat < UInt16.size then word.toNat else 0 := by
  have hlt : word < 0x10000 ↔ word.toNat < UInt16.size := UInt32.lt_iff_toNat_lt
  by_cases h : word.toNat < UInt16.size
  · rw [bitsOf, if_pos (hlt.mpr h), if_pos h, UInt32.toNat_toUInt16]
    exact Nat.mod_eq_of_lt h
  · rw [bitsOf, if_neg (mt hlt.mp h), if_neg h]
    rfl

/-- A number that is cut off at 32 bits gives the bits that it gives cut off at 16. -/
theorem bitsOf_ofNat_filter (number : Option Nat) :
    bitsOf (UInt32.ofNat ((number.filter (· < UInt32.size)).getD 0)) =
      UInt16.ofNat ((number.filter (· < UInt16.size)).getD 0) := by
  have hsize : UInt32.size = 4294967296 ∧ UInt16.size = 65536 := ⟨rfl, rfl⟩
  cases number with
  | none => rfl
  | some v =>
    simp only [Option.filter_some, decide_eq_true_eq]
    by_cases h32 : v < UInt32.size
    · have hword : (UInt32.ofNat v).toNat = v := UInt32.toNat_ofNat_of_lt' h32
      rw [if_pos h32, Option.getD_some, ← UInt16.toNat_inj, toNat_bitsOf, hword]
      split
      · next h16 => exact (UInt16.toNat_ofNat_of_lt' h16).symm
      · rfl
    · rw [if_neg h32, if_neg (by omega)]
      rfl

namespace Text

variable {text digits : List Char} {limit : Nat}

/-- A plus sign with a number behind it that is positive and below the limit. -/
def IsPlusNumber (limit : Nat) (text : List Char) : Prop :=
  ∃ digits v, text = '+' :: digits ∧ natural? 10 digits = some v ∧ 0 < v ∧ v < limit

/-- What is behind the plus sign is a number other than zero. -/
theorem isPlusNumber_cons_iff : IsPlusNumber limit ('+' :: digits) ↔
    ((natural? 10 digits).filter (· < limit)).getD 0 ≠ 0 := by
  simp only [IsPlusNumber, List.cons.injEq, true_and, exists_and_left, exists_eq_left']
  cases natural? 10 digits with
  | none => simp
  | some v =>
    rw [Option.filter_some]
    by_cases h : v < limit
    · simp [h, Nat.pos_iff_ne_zero]
    · simp [h]

/-- A text with a sign in front is no numeral. -/
theorem natural?_of_sign {sign : Char} (hsign : sign = '+' ∨ sign = '-') :
    natural? 10 (sign :: digits) = none := by
  cases hv : natural? 10 (sign :: digits) with
  | none => rfl
  | some v =>
    obtain ⟨hplus, hminus⟩ := head?_of_natural? hv
    rcases hsign with rfl | rfl
    · exact absurd rfl hplus
    · exact absurd rfl hminus

/-- A text with a sign in front is read as zero where only digits count. -/
theorem lenientDecimal_of_sign {sign : Char} (hsign : sign = '+' ∨ sign = '-')
    (htext : trim text = sign :: digits) : lenientDecimal limit text = 0 := by
  rw [lenientDecimal, htext, natural?_of_sign hsign]
  rfl

/-- A text with a minus sign gives no bits: it is read as zero or as a word that is too wide. -/
theorem bitsOf_lenientWord_of_minus (htext : trim text = '-' :: digits) :
    bitsOf (lenientWord text) = 0 := by
  have hunsigned : unsigned? 10 UInt32.size ('-' :: digits) = none := by
    rw [unsigned?, dropPlus_eq_self (by simp), natural?_of_sign (.inr rfl)]
    rfl
  cases hv : natural? 10 digits with
  | none =>
    have hword : lenientWord text = 0 := by
      rw [lenientWord, htext, hunsigned]
      simp only [hv]
    rw [hword]
    rfl
  | some v =>
    have hword : lenientWord text =
        if v ≤ UInt32.size / 2 then UInt32.ofNat (UInt32.size - v) else 0 := by
      rw [lenientWord, htext, hunsigned]
      simp only [hv]
    rw [hword]
    by_cases hzero : v = 0
    · subst hzero
      decide
    split
    · next hle =>
      have hsize : UInt32.size = 4294967296 ∧ UInt16.size = 65536 := ⟨rfl, rfl⟩
      have htoNat : (UInt32.ofNat (UInt32.size - v)).toNat = UInt32.size - v :=
        UInt32.toNat_ofNat_of_lt' (by omega)
      rw [← UInt16.toNat_inj, toNat_bitsOf, htoNat, if_neg (by omega)]
      rfl
    · rfl

/-- Where a sign counts, a text with a plus sign is read as the number behind it. -/
theorem lenientWord_of_plus (htext : trim text = '+' :: digits) :
    lenientWord text =
      UInt32.ofNat (((natural? 10 digits).filter (· < UInt32.size)).getD 0) := by
  rw [lenientWord, htext, unsigned?, dropPlus]
  cases (natural? 10 digits).filter (· < UInt32.size) with
  | none => rfl
  | some v => rfl

/-- A text gives the bits that its word gives, unless it is a number of 16 bits with a plus sign. -/
theorem ofNat_lenientDecimal_eq_bitsOf_iff (text : List Char) :
    UInt16.ofNat (lenientDecimal UInt16.size text) = bitsOf (lenientWord text) ↔
      ¬IsPlusNumber UInt16.size (trim text) := by
  by_cases hplus : (trim text).head? = some '+'
  · obtain ⟨digits, htext⟩ := List.head?_eq_some_iff.mp hplus
    have hlt := getD_filter_lt (show 0 < UInt16.size by decide) (natural? 10 digits)
    -- the number of bits is blank, so the two agree if there is nothing but zero behind the sign
    rw [lenientDecimal_of_sign (.inl rfl) htext, lenientWord_of_plus htext, bitsOf_ofNat_filter,
      htext, isPlusNumber_cons_iff, not_not, ← UInt16.toNat_inj, UInt16.toNat_ofNat_of_lt' hlt]
    exact eq_comm
  · have hnot : ¬IsPlusNumber UInt16.size (trim text) := by
      rintro ⟨digits, -, htext, -⟩
      exact hplus (htext ▸ rfl)
    simp only [hnot, not_false_eq_true, iff_true]
    by_cases hminus : (trim text).head? = some '-'
    · obtain ⟨digits, htext⟩ := List.head?_eq_some_iff.mp hminus
      rw [lenientDecimal_of_sign (.inr rfl) htext, bitsOf_lenientWord_of_minus htext]
      rfl
    · rw [lenientWord_eq hplus hminus, lenientDecimal, lenientDecimal, bitsOf_ofNat_filter]

end Text

/-- A slot that holds a word under some condition, and is disabled else, holds it if it is
enabled. -/
theorem AttributeSet.get?_eq_of_isEnabled {capacity i : Nat} {s : AttributeSet capacity}
    {v : UInt32} {p : Prop} [Decidable p] (h : s.get? i = if p then some v else none) :
    s.get? i = if s.isEnabled i then some v else none := by
  rw [isEnabled, ← isSome_get?, h]
  split <;> rfl

namespace Block

variable {b : Block}

/-- The number of bits follows the resolution exactly when the slot is disabled or gives it. -/
theorem syncBits_eq_self_iff : b.syncBits = b ↔
    ∀ word ∈ b.channel.standard.get? Slot.resolution, b.sampleBits = bitsOf word := by
  rw [syncBits]
  cases b.channel.standard.get? Slot.resolution with
  | none => simp
  | some word =>
    simp only [Option.mem_some_iff, forall_eq']
    constructor
    · intro h
      exact (congrArg Block.sampleBits h).symm
    · intro h
      change { b with sampleBits := bitsOf word } = b
      rw [← h]

end Block

namespace Form

variable {form : Form} {text : String}

/-- After an edit of the resolution its slot holds the word of the text, if it is enabled. -/
theorem get?_resolution_edit {base : Block} :
    ((form.edit resolution text).apply base).channel.standard.get? Slot.resolution =
      if ((form.edit resolution text).apply base).channel.standard.isEnabled Slot.resolution then
        some (Text.lenientWord text.toList)
      else none := by
  have htext : (form.edit resolution text).text (.slot .channel .standard resolutionSlot) = text :=
    text_edit_self
  have hget := get?_attributeSet (form.edit resolution text) .channel resolutionSlot
  rw [htext, slotValue_eq_lenientWord (by decide)] at hget
  exact AttributeSet.get?_eq_of_isEnabled hget

/-- Whatever a form holds, an edit of the resolution leaves a block whose number of bits is in line
with its channel, unless the slot is enabled and was typed a number of 16 bits with a plus sign in
front. -/
theorem syncBits_apply_edit_iff (form : Form) (text : String) (base : Block) :
    ∃ next, form.set "channel.std.0" text = .ok next ∧
      ((next.apply base).syncBits = next.apply base ↔
        ¬((next.apply base).channel.standard.isEnabled Slot.resolution = true ∧
          Text.IsPlusNumber UInt16.size (Text.trim text.toList))) := by
  have hname : Field.ofName? "channel.std.0" = some resolution := by decide
  refine ⟨form.edit resolution text, set_eq_ok_iff.mpr ⟨_, hname, by decide, rfl⟩, ?_⟩
  have hbits : ((form.edit resolution text).apply base).sampleBits =
      UInt16.ofNat (Text.lenientDecimal UInt16.size text.toList) :=
    congrArg UInt16.ofNat number_sampleBits_edit
  rw [Block.syncBits_eq_self_iff, hbits, get?_resolution_edit]
  split
  · next henabled =>
    simp only [Option.mem_some_iff, forall_eq', henabled, true_and]
    exact Text.ofNat_lenientDecimal_eq_bitsOf_iff text.toList
  · next hdisabled => simp [hdisabled]

/-- A plus sign in front of the resolution. -/
theorem syncBits_apply_ne_of_plus :
    let b : Block := { sampleBits := 12, channel := { standard := .ofValues 1 [12] } }
    ∃ next, (ofBlock b).set "channel.std.0" "+5" = .ok next ∧
      (next.apply b).sampleBits = 0 ∧ (next.apply b).syncBits.sampleBits = 5 ∧
      (next.apply b).checkAgainst b = .error (.rejected (.bits 0 5)) := by
  intro b
  have hname : Field.ofName? "channel.std.0" = some resolution := by decide
  exact ⟨(ofBlock b).edit resolution "+5", set_eq_ok_iff.mpr ⟨_, hname, by decide, rfl⟩,
    by decide +kernel, by decide +kernel, by decide +kernel⟩

end Form

end ZioControl
