import Mathlib.Data.List.Pairwise
import ZioControl.Proofs.Numerals
import ZioControl.Proofs.Reach

/-!
# The order of edits

Edits of which neither reaches the field of the other can be carried out in either order
(`Form.edit_comm`), and for all others the order matters for some texts (`Form.edit_comm_iff`). So a
list of edits whose names do not conflict leads to the same form in every order
(`Form.setEach_perm`).

What an edit writes at a place depends on the text at that place and on nothing else in the form,
with one exception: the number of samples is the sum of both operands, so an edit of the one reads
the other. The edits of the two operands reach a common field for that reason, and this is the only
case in which edits do that neither of which reaches the other's field (`Form.operands_of_reaches`).
-/

namespace ZioControl.Form

/-- The order of edits of two names can matter. -/
def Conflict (name other : String) : Prop := Overrides name other ∨ Overrides other name

instance (name other : String) : Decidable (Conflict name other) :=
  inferInstanceAs (Decidable (_ ∨ _))

variable {form : Form} {field other place : Field} {text typed : String}
  {edits : List (String × String)}

/-- Names that conflict do so in either order. -/
theorem conflict_symm {name other : String} (h : Conflict name other) : Conflict other name :=
  h.symm

/-- Besides an edit of one of the trigger's standard slots itself, only one of their mask reaches
it. -/
theorem reaches_slot_iff {index : Fin Kind.standard.capacity} :
    Reaches field (.slot .trigger .standard index) ↔
      field = .slot .trigger .standard index ∨ field = .mask .trigger .standard := by
  constructor
  · intro h
    cases h with
    | self => exact .inl rfl
    | slot => exact .inr rfl
  · rintro (rfl | rfl)
    · exact .self _
    · exact .slot _ _ _

/-- What reaches neither the number of samples nor one of the operands reaches no operand. -/
theorem not_reaches_operand (hoperand : field = preSamples ∨ field = postSamples)
    (hfield : ¬Reaches other field) (hsamples : ¬Reaches other .samples) :
    ¬Reaches other preSamples ∧ ¬Reaches other postSamples := by
  have hmask : other ≠ .mask .trigger .standard := by
    rintro rfl
    rcases hoperand with rfl | rfl
    · exact hfield (.slot _ _ _)
    · exact hfield (.slot _ _ _)
  constructor
  · intro hpre
    obtain rfl : other = preSamples := (reaches_slot_iff.mp hpre).resolve_right hmask
    exact hsamples .pre
  · intro hpost
    obtain rfl : other = postSamples := (reaches_slot_iff.mp hpost).resolve_right hmask
    exact hsamples .post

/-- Edits that reach a common field, but not each other's, are those of both operands. -/
theorem operands_of_reaches (hother : ¬Reaches field other) (hfield : ¬Reaches other field)
    (h : Reaches field place) (h' : Reaches other place) :
    place = .samples ∧
      (field = preSamples ∧ other = postSamples ∨ field = postSamples ∧ other = preSamples) := by
  cases h with
  | self => exact absurd h' hfield
  | pre =>
    cases h' with
    | self => exact absurd .pre hother
    | pre => exact absurd (.self _) hother
    | post => exact ⟨rfl, .inl ⟨rfl, rfl⟩⟩
  | post =>
    cases h' with
    | self => exact absurd .post hother
    | pre => exact ⟨rfl, .inr ⟨rfl, rfl⟩⟩
    | post => exact absurd (.self _) hother
  | bits =>
    cases h' with
    | self => exact absurd .bits hother
    | bits => exact absurd (.self _) hother
  | slot owner kind index =>
    cases h' with
    | self => exact absurd (.slot owner kind index) hother
    | slot => exact absurd (.self _) hother

/-- The number of samples after an edit of an operand does not depend on an edit before it that
reaches neither. -/
theorem text_samples_edit_edit (hoperand : field = preSamples ∨ field = postSamples)
    (hfield : ¬Reaches other field) (hsamples : ¬Reaches other .samples) :
    ((form.edit other typed).edit field text).text .samples =
      (form.edit field text).text .samples := by
  obtain ⟨hpre, hpost⟩ := not_reaches_operand hoperand hfield hsamples
  have hsum : ((form.edit other typed).edit field text).operandSum =
      (form.edit field text).operandSum := by
    apply operandSum_congr
    · rw [text_operand_edit hoperand (.inl rfl), text_operand_edit hoperand (.inl rfl),
        text_edit_of_not_reaches hpre]
    · rw [text_operand_edit hoperand (.inr rfl), text_operand_edit hoperand (.inr rfl),
        text_edit_of_not_reaches hpost]
  rw [text_samples_edit hoperand, text_samples_edit hoperand, hsum]

/-- What an edit writes does not depend on an edit before it that reaches neither the field nor the
place. -/
theorem text_edit_edit (hfield : ¬Reaches other field) (hplace : ¬Reaches other place) :
    ((form.edit other typed).edit field text).text place = (form.edit field text).text place := by
  by_cases h : Reaches field place
  · cases h with
    | self => rw [text_edit_self, text_edit_self]
    | pre => exact text_samples_edit_edit (.inl rfl) hfield hplace
    | post => exact text_samples_edit_edit (.inr rfl) hfield hplace
    | bits => rw [text_sampleBits_edit, text_sampleBits_edit]
    | slot owner kind index =>
      rw [text_edit_mask_slot, text_edit_mask_slot, text_edit_of_not_reaches hplace]
  · rw [text_edit_of_not_reaches h, text_edit_of_not_reaches h, text_edit_of_not_reaches hplace]

/-- Edits of both operands lead to the same number of samples in either order. -/
theorem text_samples_edit_comm (form : Form) (text typed : String) :
    ((form.edit preSamples text).edit postSamples typed).text .samples =
      ((form.edit postSamples typed).edit preSamples text).text .samples := by
  have hne : postSamples ≠ preSamples := by decide
  have hsum : ((form.edit preSamples text).edit postSamples typed).operandSum =
      ((form.edit postSamples typed).edit preSamples text).operandSum := by
    apply operandSum_congr
    · rw [text_operand_edit (.inr rfl) (.inl rfl), if_neg hne, text_edit_self, text_edit_self]
    · rw [text_edit_self, text_operand_edit (.inl rfl) (.inr rfl), if_neg hne.symm, text_edit_self]
  rw [text_samples_edit (.inr rfl), text_samples_edit (.inl rfl), hsum]

/-- Edits of which neither reaches the field of the other can be carried out in either order. -/
theorem edit_comm (hother : ¬Reaches field other) (hfield : ¬Reaches other field) (form : Form)
    (text typed : String) :
    (form.edit field text).edit other typed = (form.edit other typed).edit field text := by
  ext place
  by_cases hplace : Reaches other place
  · by_cases hplace' : Reaches field place
    -- both write at the place, so it is the number of samples
    · obtain ⟨rfl, ⟨rfl, rfl⟩ | ⟨rfl, rfl⟩⟩ := operands_of_reaches hother hfield hplace' hplace
      · rw [text_samples_edit_comm]
      · rw [text_samples_edit_comm]
    · rw [text_edit_of_not_reaches hplace', text_edit_edit hother hplace']
  · rw [text_edit_of_not_reaches hplace, text_edit_edit hfield hplace]

/-- An edit changes what was typed into a field that it reaches, at least for some texts. -/
theorem text_edit_ne_of_reaches (h : Reaches field other) (form : Form) :
    ((form.edit other "x").edit field "").text other ≠ "x" := by
  have hdecimal (n : Nat) : Text.decimal n ≠ "x" := by
    intro heq
    have hnatural := Text.natural?_decimal n
    rw [heq] at hnatural
    simp [Text.natural?, Text.readDigits?, Text.digit?] at hnatural
  cases h with
  | self => simp [text_edit_self]
  | pre =>
    rw [text_samples_edit (.inl rfl)]
    exact hdecimal _
  | post =>
    rw [text_samples_edit (.inr rfl)]
    exact hdecimal _
  | bits =>
    rw [text_sampleBits_edit]
    decide
  | slot owner kind index =>
    -- a text that is no number is a mask that lacks every slot
    have hlacks : Mask.has (Text.lenientHex "".toList) index.val = false := Mask.has_zero _
    rw [text_edit_mask_slot, if_pos ⟨rfl, rfl, hlacks⟩]
    decide

/-- Two edits can be carried out in either order, whatever is typed, exactly if neither reaches the
field of the other. -/
theorem edit_comm_iff : (∀ (form : Form) (text typed : String),
    (form.edit field text).edit other typed = (form.edit other typed).edit field text) ↔
      ¬Reaches field other ∧ ¬Reaches other field := by
  constructor
  · intro hcomm
    have hblank (form : Form) : ((form.edit other "x").edit field "").text other = "x" := by
      rw [← hcomm, text_edit_self]
    have hblank' (form : Form) : ((form.edit field "x").edit other "").text field = "x" := by
      rw [hcomm, text_edit_self]
    let form : Form := ⟨fun _ => ""⟩
    exact ⟨fun h => text_edit_ne_of_reaches h form (hblank form),
      fun h => text_edit_ne_of_reaches h form (hblank' form)⟩
  · rintro ⟨hother, hfield⟩ form text typed
    exact edit_comm hother hfield form text typed

/-- Attempts to edit by names that do not conflict can be made in either order. -/
theorem attempt_comm {first second : String × String} (h : ¬Conflict first.1 second.1)
    (form : Form) : (form.attempt first).attempt second = (form.attempt second).attempt first := by
  rcases attempt_cases first with hfirst | ⟨field, hfield, hfirst⟩
  · rw [hfirst, hfirst]
  · rcases attempt_cases second with hsecond | ⟨other, hother, hsecond⟩
    · rw [hsecond, hsecond]
    · rw [← Field.name_of_ofName? hfield, ← Field.name_of_ofName? hother, Conflict,
        overrides_name_iff, overrides_name_iff, not_or] at h
      rw [hfirst, hfirst, hsecond, hsecond, edit_comm h.1 h.2]

/-- Edits whose names do not conflict lead to the same form in every order, whatever the form shows
at first. An edit that fails does nothing, wherever it stands. -/
theorem setEach_perm {other : List (String × String)} (hperm : edits.Perm other)
    (hedits : edits.Pairwise fun edit later => ¬Conflict edit.1 later.1) (form : Form) :
    form.setEach edits = form.setEach other := by
  rw [setEach_eq_foldl, setEach_eq_foldl]
  refine hperm.foldl_eq' (fun edit hedit later hlater form => ?_) form
  by_cases hsame : edit = later
  · rw [hsame]
  · have hsymm : Std.Symm fun edit later : String × String => ¬Conflict edit.1 later.1 :=
      ⟨fun _ _ h => mt conflict_symm h⟩
    exact attempt_comm (hedits.forall hedit hlater hsame) form

set_option maxRecDepth 20000 in
/-- Both operands, two masks of other slots, a number that no attribute decides, and two edits that
fail, in reverse. -/
theorem setEach_perm_operands :
    let b : Block := { samples := 16, trigger := { standard := .ofValues 6 [0, 8, 8] } }
    let form := (ofBlock b).setEach [("trigger.std_mask", "0x8006"), ("nbits", "x")]
    let edits := [("trigger.std.1", "4294967295"), ("channel.std_mask", "0x3"), ("no field", "1"),
      ("trigger.std.2", "18"), ("nbits", "12"), ("addr.hostid", "00"), ("trigger.ext_mask", "7")]
    edits.Perm edits.reverse ∧ (edits.Pairwise fun edit later => ¬Conflict edit.1 later.1) ∧
      form.setEach edits = form.setEach edits.reverse ∧
      (form.setEach edits.reverse).text .samples = "17" := by
  intro b form edits
  have hperm : edits.Perm edits.reverse := (List.reverse_perm edits).symm
  have hedits : edits.Pairwise fun edit later => ¬Conflict edit.1 later.1 := by decide +kernel
  exact ⟨hperm, hedits, setEach_perm hperm hedits form, by decide +kernel⟩

end ZioControl.Form
