import ZioControl.Proofs.Languages
import ZioControl.Proofs.Resolution

/-!
# Counting the samples

The number of samples is counted from the texts of the operands by the reader that takes digits
alone, while the slots of the operands take the same texts with a sign. The two readers agree on a
text exactly if it is not a number other than zero with a sign in front
(`Text.toNat_lenientWord_eq_lenientDecimal_iff`), and so a count of operands without signs is the
number that the trigger takes, also where the sum does not fit a word. This is the main theorem,
`Form.samples_updateSamples`.
-/

namespace ZioControl

namespace Text

/-- A text without a sign in front, blanks apart. -/
def Signless (text : List Char) : Prop :=
  (trim text).head? ≠ some '+' ∧ (trim text).head? ≠ some '-'

variable {text : List Char}

/-- The two readers agree on a text without a sign in front. -/
theorem Signless.toNat_lenientWord (h : Signless text) :
    (lenientWord text).toNat = lenientDecimal UInt32.size text := by
  rw [lenientWord_eq h.1 h.2]
  exact UInt32.toNat_ofNat_of_lt' (lenientDecimal_lt (by decide) text)

/-- A text with a minus sign in front is zero to the one reader, and to the other if it is no
negative number. -/
theorem toNat_lenientWord_eq_zero_iff {digits : List Char} (htext : trim text = '-' :: digits) :
    (lenientWord text).toNat = 0 ↔ ∀ value, ¬IsNegative (trim text) value := by
  constructor
  · intro hzero value hvalue
    have hword := lenientWord_of_isNegative hvalue
    obtain ⟨_, _, _, _, hle⟩ := hvalue
    have hsize : UInt32.size = 4294967296 := rfl
    omega
  · intro hnone
    rw [toNat_lenientWord_eq_iff]
    refine .nothing (fun value hvalue => ?_) hnone
    rw [htext, ← unsigned?_eq_some_iff (by decide), unsigned?_minus] at hvalue
    cases hvalue

/-- The two readers agree on a text exactly if it is neither a positive number with a plus sign in
front nor a negative one. -/
theorem toNat_lenientWord_eq_lenientDecimal_iff (text : List Char) :
    (lenientWord text).toNat = lenientDecimal UInt32.size text ↔
      ¬IsPlusNumber UInt32.size (trim text) ∧ ∀ value, ¬IsNegative (trim text) value := by
  by_cases hplus : (trim text).head? = some '+'
  · obtain ⟨digits, htext⟩ := List.head?_eq_some_iff.mp hplus
    have hlt := getD_filter_lt (show 0 < UInt32.size by decide) (natural? 10 digits)
    have hnegative : ∀ value, ¬IsNegative (trim text) value := by
      rintro value ⟨_, hminus, -⟩
      simp [htext] at hminus
    rw [lenientDecimal_of_sign (.inl rfl) htext, lenientWord_of_plus htext,
      UInt32.toNat_ofNat_of_lt' hlt, and_iff_left hnegative, htext, isPlusNumber_cons_iff, not_not]
  have hnotPlus : ¬IsPlusNumber UInt32.size (trim text) := by
    rintro ⟨digits, -, htext, -⟩
    exact hplus (htext ▸ rfl)
  rw [and_iff_right hnotPlus]
  by_cases hminus : (trim text).head? = some '-'
  · obtain ⟨digits, htext⟩ := List.head?_eq_some_iff.mp hminus
    rw [lenientDecimal_of_sign (.inr rfl) htext]
    exact toNat_lenientWord_eq_zero_iff htext
  · have hsignless : Signless text := ⟨hplus, hminus⟩
    refine iff_of_true hsignless.toNat_lenientWord ?_
    rintro value ⟨digits, htext, -⟩
    exact hminus (htext ▸ rfl)

end Text

namespace Form

variable (form : Form) (base : Block)

/-- A count writes the sum of the operands, and it is read back. -/
theorem samples_apply_updateSamples :
    (form.updateSamples.apply base).samples = form.operandSum :=
  Text.lenientDecimal_uint32 form.operandSum

/-- The sum of the operands is that of the numbers typed for them, cut off at the width of a
word. -/
theorem toNat_operandSum : form.operandSum.toNat =
    (form.number UInt32.size preSamples + form.number UInt32.size postSamples) % UInt32.size := by
  have hlt : ∀ field, form.number UInt32.size field < UInt32.size := form.number_lt (by decide)
  rw [operandSum, UInt32.toNat_add, UInt32.toNat_ofNat_of_lt' (hlt preSamples),
    UInt32.toNat_ofNat_of_lt' (hlt postSamples)]

/-- An enabled slot without a sign is read as the count reads it. -/
theorem getD_get?_of_signless {index : Fin Kind.standard.capacity}
    (hindex : index.val ≠ Slot.version)
    (hmask : Mask.has (form.hexWord (.mask .trigger .standard)) index.val = true)
    (htext : Text.Signless (form.text (.slot .trigger .standard index)).toList) :
    ((form.attributeSet .trigger .standard).get? index.val).getD 0 =
      UInt32.ofNat (form.number UInt32.size (.slot .trigger .standard index)) := by
  rw [getD_get?_attributeSet, if_pos hmask, typedSlot, slotValue_eq_lenientWord hindex, number,
    ← htext.toNat_lenientWord, UInt32.ofNat_toNat]

/-- The two readers of decimal numbers agree on every text without a sign in front, and on no others
but those that stand for nothing or for zero. So on every form whose mask enables both operands of
the trigger and whose texts for them have no sign, a count makes the number of samples that of the
trigger, whatever the base: it is the sum of the two numbers, cut off at the width of a word. -/
theorem samples_updateSamples :
    (∀ text, (Text.Signless text →
        (Text.lenientWord text).toNat = Text.lenientDecimal UInt32.size text) ∧
      ((Text.lenientWord text).toNat = Text.lenientDecimal UInt32.size text ↔
        ¬Text.IsPlusNumber UInt32.size (Text.trim text) ∧
          ∀ value, ¬Text.IsNegative (Text.trim text) value)) ∧
    ∀ form : Form,
      Mask.has (form.hexWord (.mask .trigger .standard)) Slot.preSamples = true →
      Mask.has (form.hexWord (.mask .trigger .standard)) Slot.postSamples = true →
      (∀ field ∈ [preSamples, postSamples], Text.Signless (form.text field).toList) →
      ∀ base, (form.updateSamples.apply base).samples =
          (form.updateSamples.apply base).triggerSamples ∧
        (form.updateSamples.apply base).samples.toNat =
          (form.number UInt32.size preSamples + form.number UInt32.size postSamples) %
            UInt32.size := by
  refine ⟨fun text => ⟨fun h => h.toNat_lenientWord,
    Text.toNat_lenientWord_eq_lenientDecimal_iff text⟩, fun form hpre hpost hsignless base => ?_⟩
  -- a count changes neither the mask nor the operands, so the set of the form is the one to sum up
  have hpreSlot : ((form.updateSamples.attributeSet .trigger .standard).get? preSlot.val).getD 0 =
      UInt32.ofNat (form.number UInt32.size preSamples) :=
    getD_get?_of_signless form.updateSamples (by decide) hpre
      (hsignless preSamples (by simp))
  have hpostSlot : ((form.updateSamples.attributeSet .trigger .standard).get? postSlot.val).getD 0 =
      UInt32.ofNat (form.number UInt32.size postSamples) :=
    getD_get?_of_signless form.updateSamples (by decide) hpost
      (hsignless postSamples (by simp))
  have htrigger : (form.updateSamples.apply base).triggerSamples = form.operandSum := by
    calc (form.updateSamples.apply base).triggerSamples
        = ((form.updateSamples.attributeSet .trigger .standard).get? preSlot.val).getD 0 +
            ((form.updateSamples.attributeSet .trigger .standard).get? postSlot.val).getD 0 := rfl
      _ = form.operandSum := by rw [hpreSlot, hpostSlot, operandSum]
  rw [htrigger, samples_apply_updateSamples]
  exact ⟨rfl, toNat_operandSum form⟩

set_option maxRecDepth 20000 in
/-- A count whose sum does not fit a word, of texts with blanks and zeros around the numbers. -/
theorem samples_updateSamples_wraps :
    let form := ((ofBlock {}).write (.mask .trigger .standard) "0x6").write preSamples
      "\u2003004294967290\n" |>.write postSamples " 16"
    (∀ field ∈ [preSamples, postSamples], Text.Signless (form.text field).toList) ∧
      (form.updateSamples.apply {}).triggerSamples = 10 ∧
      (form.updateSamples.apply {}).samples = 10 := by
  intro form
  have hpre : Mask.has (form.hexWord (.mask .trigger .standard)) Slot.preSamples = true := by
    decide +kernel
  have hpost : Mask.has (form.hexWord (.mask .trigger .standard)) Slot.postSamples = true := by
    decide +kernel
  have hsignless : ∀ field ∈ [preSamples, postSamples],
      Text.Signless (form.text field).toList := by
    rw [List.forall_mem_cons, List.forall_mem_singleton]
    exact ⟨⟨by decide +kernel, by decide +kernel⟩, by decide +kernel, by decide +kernel⟩
  obtain ⟨hsum, hsamples⟩ := samples_updateSamples.2 form hpre hpost hsignless {}
  have hten : (form.updateSamples.apply {}).samples = 10 := by
    rw [← UInt32.toNat_inj, hsamples]
    decide +kernel
  exact ⟨hsignless, hsum ▸ hten, hten⟩

end Form

end ZioControl
