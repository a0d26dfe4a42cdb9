import Mathlib.Data.List.Nodup
import ZioControl.Form

/-!
# Edits of a form

Which field a name edits and what an edit changes. No two fields share a name, so a field is found
by its own (`Field.ofName?_name`). An edited field shows what was typed (`text_edit_self`), and an
edit reaches no other field (`Reaches`, `text_edit_of_not_reaches`) but the two numbers that follow
attributes (`text_samples_edit`, `text_sampleBits_edit`) and, for a mask, its slots
(`text_edit_mask_slot`). A run of edits is taken apart at any place (`setAll_append_eq_ok_iff`), and
so is one in which those that fail do nothing, for it is a fold of attempts (`setEach_eq_foldl`).
What each of its edits keeps, a run keeps (`setAll_invariant`, `setEach_invariant`), so it leaves
alone what none of them reaches (`text_setEach_of_not_reaches`).
-/

namespace ZioControl

set_option maxRecDepth 20000 in
/-- No two fields share a name. -/
theorem Field.nodup_names : (Field.all.map Field.name).Nodup := by
  decide +kernel

/-- Fields with the same name are the same. -/
theorem Field.name_injective : Function.Injective Field.name := fun a b h =>
  List.inj_on_of_nodup_map Field.nodup_names (Field.mem_all a) (Field.mem_all b) h

/-- A field is found by its name. -/
theorem Field.ofName?_name (field : Field) : Field.ofName? field.name = some field := by
  cases hfound : Field.ofName? field.name with
  -- the list of fields has this one, so the search does not fail
  | none =>
    have hnone := List.find?_eq_none.mp hfound field (Field.mem_all field)
    simp at hnone
  | some other => rw [Field.name_injective (Field.name_of_ofName? hfound)]

namespace Form

/-- The form after edits one after the other, of which those that fail do nothing. -/
def setEach (form : Form) : List (String × String) → Form
  | [] => form
  | (name, text) :: rest =>
    match form.set name text with
    | .ok next => next.setEach rest
    | .error _ => form.setEach rest

/-- The form after an attempt to edit a field. -/
def attempt (form : Form) (edit : String × String) : Form :=
  match form.set edit.1 edit.2 with
  | .ok next => next
  | .error _ => form

/-- The sum, modulo `2^32`, of the numbers that are typed for the trigger's samples before and after
it fires. -/
def operandSum (form : Form) : UInt32 :=
  UInt32.ofNat (form.number UInt32.size preSamples) +
    UInt32.ofNat (form.number UInt32.size postSamples)

variable {form next : Form} {field other : Field} {name text : String}
  {edits : List (String × String)}

/-- An edit by name succeeds exactly when the name is that of a field other than the host's
identity, and then it edits that field. -/
theorem set_eq_ok_iff : form.set name text = .ok next ↔
    ∃ field, Field.ofName? name = some field ∧ field ≠ .hostId ∧ form.edit field text = next := by
  unfold set
  split
  · next hnone => simp [hnone]
  · next hhost => simp [hhost]
  · next field hhost hfield =>
    have hhost' : field ≠ .hostId := hhost
    simp [hfield, hhost']

/-- A run of edits with one more edit in front. -/
theorem setAll_cons_eq_ok_iff {rest : List (String × String)} :
    form.setAll ((name, text) :: rest) = .ok next ↔
      ∃ mid, form.set name text = .ok mid ∧ mid.setAll rest = .ok next := by
  rw [setAll]
  cases form.set name text with
  | error e => simp [bind, Except.bind]
  | ok mid => simp [bind, Except.bind]

/-- A run of edits of two parts. -/
theorem setAll_append_eq_ok_iff {first rest : List (String × String)} :
    form.setAll (first ++ rest) = .ok next ↔
      ∃ mid, form.setAll first = .ok mid ∧ mid.setAll rest = .ok next := by
  induction first generalizing form with
  | nil => simp [setAll]
  | cons e first ih =>
    obtain ⟨name, text⟩ := e
    simp only [List.cons_append, setAll_cons_eq_ok_iff, ih]
    constructor
    · rintro ⟨mid, hset, mid', hfirst, hrest⟩
      exact ⟨mid', ⟨mid, hset, hfirst⟩, hrest⟩
    · rintro ⟨mid', ⟨mid, hset, hfirst⟩, hrest⟩
      exact ⟨mid, hset, mid', hfirst, hrest⟩

/-- What every edit of a run keeps, the whole run keeps. -/
theorem setAll_invariant {motive : Form → Prop} (hrun : form.setAll edits = .ok next)
    (hform : motive form) (hstep : ∀ edit ∈ edits, ∀ form next : Form, motive form →
      form.set edit.1 edit.2 = .ok next → motive next) : motive next := by
  induction edits generalizing form with
  | nil =>
    obtain rfl := Except.ok.inj hrun
    exact hform
  | cons e rest ih =>
    obtain ⟨hfirst, hstep⟩ := List.forall_mem_cons.mp hstep
    obtain ⟨mid, hset, hrest⟩ := setAll_cons_eq_ok_iff.mp hrun
    exact ih hrest (hfirst form mid hform hset) hstep

/-- What each successful edit of a run keeps, the whole run keeps. -/
theorem setEach_invariant {motive : Form → Prop} (hform : motive form)
    (hstep : ∀ edit ∈ edits, ∀ form next : Form, motive form →
      form.set edit.1 edit.2 = .ok next → motive next) : motive (form.setEach edits) := by
  induction edits generalizing form with
  | nil => exact hform
  | cons e rest ih =>
    obtain ⟨name, text⟩ := e
    obtain ⟨hfirst, hstep⟩ := List.forall_mem_cons.mp hstep
    rw [setEach]
    cases hset : form.set name text with
    | ok next => exact ih (hfirst form next hform hset) hstep
    | error error => exact ih hform hstep

/-- In a run that succeeds no edit fails. -/
theorem setEach_of_setAll (h : form.setAll edits = .ok next) : form.setEach edits = next := by
  induction edits generalizing form with
  | nil => exact Except.ok.inj h
  | cons e rest ih =>
    obtain ⟨name, text⟩ := e
    obtain ⟨mid, hset, hrest⟩ := setAll_cons_eq_ok_iff.mp h
    rw [setEach, hset]
    exact ih hrest

/-- Edits one after the other are attempts one after the other. -/
theorem setEach_eq_foldl : form.setEach edits = edits.foldl attempt form := by
  induction edits generalizing form with
  | nil => rfl
  | cons e rest ih =>
    obtain ⟨name, text⟩ := e
    rw [setEach, List.foldl_cons, attempt]
    cases form.set name text with
    | ok next => exact ih
    | error error => exact ih

/-- An attempt in front of the others. -/
theorem setEach_cons {edit : String × String} :
    form.setEach (edit :: edits) = (form.attempt edit).setEach edits := by
  rw [setEach_eq_foldl, List.foldl_cons, ← setEach_eq_foldl]

/-- Edits of two parts, of which each that fails does nothing. -/
theorem setEach_append {first rest : List (String × String)} :
    form.setEach (first ++ rest) = (form.setEach first).setEach rest := by
  rw [setEach_eq_foldl, List.foldl_append, ← setEach_eq_foldl, ← setEach_eq_foldl]

/-- An attempt to edit a field by its name edits it, unless it is the host's identity. -/
theorem attempt_of_ofName? (hname : Field.ofName? name = some field) (hfield : field ≠ .hostId) :
    form.attempt (name, text) = form.edit field text := by
  rw [attempt, set_eq_ok_iff.mpr ⟨field, hname, hfield, rfl⟩]

/-- An attempt does nothing to any form, or it edits a field. -/
theorem attempt_cases (edit : String × String) :
    (∀ form : Form, form.attempt edit = form) ∨
      ∃ field, Field.ofName? edit.1 = some field ∧
        ∀ form : Form, form.attempt edit = form.edit field edit.2 := by
  obtain ⟨name, text⟩ := edit
  cases hname : Field.ofName? name with
  | none =>
    refine .inl fun form => ?_
    rw [attempt, set, hname]
  | some field =>
    by_cases hhost : field = .hostId
    · subst hhost
      refine .inl fun form => ?_
      rw [attempt, set, hname]
    · exact .inr ⟨field, rfl, fun form => attempt_of_ofName? hname hhost⟩

/-- A run of edits of fields other than the host's identity succeeds. -/
theorem exists_setAll_of_ofName? (form : Form)
    (h : ∀ edit ∈ edits, ∃ field, Field.ofName? edit.1 = some field ∧ field ≠ .hostId) :
    ∃ next, form.setAll edits = .ok next := by
  induction edits generalizing form with
  | nil => exact ⟨form, rfl⟩
  | cons e rest ih =>
    obtain ⟨⟨field, hname, hfield⟩, hrest⟩ := List.forall_mem_cons.mp h
    obtain ⟨next, hrun⟩ := ih (form.edit field e.2) hrest
    exact ⟨next, setAll_cons_eq_ok_iff.mpr
      ⟨_, set_eq_ok_iff.mpr ⟨field, hname, hfield, rfl⟩, hrun⟩⟩

/-- The text of a field after it was written, and of the others. -/
theorem text_write : (form.write field text).text other =
    if other = field then text else form.text other := rfl

/-- An edit of a mask blanks the slots that the mask lacks. -/
theorem text_edit_mask_slot (o owner : Owner) (k kind : Kind) (index : Fin kind.capacity) :
    (form.edit (.mask o k) text).text (.slot owner kind index) =
      if o = owner ∧ k = kind ∧ Mask.has (Text.lenientHex text.toList) index.val = false then ""
      else form.text (.slot owner kind index) := by
  simp only [edit, blankOutside, text_write, reduceCtorEq, if_false, eq_comm (a := owner),
    eq_comm (a := kind)]

/-- An edit of a mask writes its text and changes nothing else but slots. -/
theorem text_edit_mask (o : Owner) (k : Kind) (hslot : ∀ owner kind i, other ≠ .slot owner kind i) :
    (form.edit (.mask o k) text).text other =
      if other = .mask o k then text else form.text other := by
  cases other with
  | slot owner kind index => exact absurd rfl (hslot owner kind index)
  | _ => rfl

/-- An edit of any other field writes its text, and then the numbers that follow it. -/
theorem edit_eq (hmask : ∀ owner kind, field ≠ .mask owner kind) : form.edit field text =
    if field = preSamples ∨ field = postSamples then (form.write field text).updateSamples
    else if field = resolution then (form.write field text).updateBits
    else form.write field text := by
  cases field with
  | mask owner kind => exact absurd rfl (hmask owner kind)
  | _ => rfl

/-- An edited field shows what was typed, whatever else follows. -/
theorem text_edit_self : (form.edit field text).text field = text := by
  by_cases hmask : ∃ owner kind, field = .mask owner kind
  · obtain ⟨o, k, rfl⟩ := hmask
    rw [text_edit_mask o k (by simp), if_pos rfl]
  · rw [edit_eq fun owner kind heq => hmask ⟨owner, kind, heq⟩]
    split
    -- the numbers that follow are fields of their own
    · next hoperand =>
      have hsamples : field ≠ .samples := by
        rintro rfl
        simp [preSamples, postSamples] at hoperand
      rw [updateSamples, text_write, if_neg hsamples, text_write, if_pos rfl]
    · split
      · next hresolution =>
        have hbits : field ≠ .sampleBits := by
          rintro rfl
          simp [resolution] at hresolution
        rw [updateBits, text_write, if_neg hbits, text_write, if_pos rfl]
      · rw [text_write, if_pos rfl]

/-- After an edit of an operand the number of samples is the sum of both operands. -/
theorem text_samples_edit (hoperand : field = preSamples ∨ field = postSamples) :
    (form.edit field text).text .samples =
      Text.decimal (form.edit field text).operandSum.toNat := by
  have hmask : ∀ o k, field ≠ .mask o k := by
    rcases hoperand with rfl | rfl <;> simp [preSamples, postSamples]
  rw [edit_eq hmask, if_pos hoperand]
  -- the operands read the same before and after the sum is written
  rfl

/-- After an edit of the resolution the number of bits is its number, or blank if it is none that
fits. -/
theorem text_sampleBits_edit : (form.edit resolution text).text .sampleBits =
    (((Text.natural? 10 (Text.trim text.toList)).filter (· < UInt16.size)).map
      Text.decimal).getD "" := by
  rw [edit_eq (by simp [resolution]), if_neg (by decide), if_pos rfl, updateBits, text_write,
    if_pos rfl, text_write, if_pos rfl]

/-- The fields whose texts an edit of a field can change. -/
inductive Reaches : Field → Field → Prop
  /-- An edit changes the field itself. -/
  | self (field : Field) : Reaches field field
  /-- The samples are counted when one of those before the trigger fires is edited. -/
  | pre : Reaches preSamples .samples
  /-- So they are after an edit of those after it fires. -/
  | post : Reaches postSamples .samples
  /-- The number of bits follows the resolution. -/
  | bits : Reaches resolution .sampleBits
  /-- A mask blanks slots. -/
  | slot (owner : Owner) (kind : Kind) (index : Fin kind.capacity) :
    Reaches (.mask owner kind) (.slot owner kind index)

/-- The mask that a field is blanked by, if it is a slot. -/
def maskOf? : Field → Option Field
  | .slot owner kind _ => some (.mask owner kind)
  | _ => none

/-- Which fields an edit reaches, as a test. -/
theorem reaches_iff : Reaches field other ↔
    field = other ∨ other = .samples ∧ (field = preSamples ∨ field = postSamples) ∨
      other = .sampleBits ∧ field = resolution ∨ maskOf? other = some field := by
  constructor
  · intro h
    cases h with
    | self => exact .inl rfl
    | pre => exact .inr (.inl ⟨rfl, .inl rfl⟩)
    | post => exact .inr (.inl ⟨rfl, .inr rfl⟩)
    | bits => exact .inr (.inr (.inl ⟨rfl, rfl⟩))
    | slot => exact .inr (.inr (.inr rfl))
  · rintro (rfl | ⟨rfl, rfl | rfl⟩ | ⟨rfl, rfl⟩ | hmask)
    · exact .self _
    · exact .pre
    · exact .post
    · exact .bits
    · cases other with
      | slot owner kind index =>
        obtain rfl := Option.some.inj hmask
        exact .slot owner kind index
      | _ => cases hmask

instance : Decidable (Reaches field other) := decidable_of_iff _ reaches_iff.symm

/-- An edit leaves the texts of all other fields alone. -/
theorem text_edit_of_not_reaches (h : ¬Reaches field other) :
    (form.edit field text).text other = form.text other := by
  have hfield : other ≠ field := fun heq => h (heq ▸ .self _)
  by_cases hmask : ∃ owner kind, field = .mask owner kind
  · obtain ⟨o, k, rfl⟩ := hmask
    cases other with
    | slot owner kind index =>
      have hother : ¬(o = owner ∧ k = kind ∧
          Mask.has (Text.lenientHex text.toList) index.val = false) := by
        rintro ⟨rfl, rfl, -⟩
        exact h (.slot o k index)
      rw [text_edit_mask_slot, if_neg hother]
    | _ => rw [text_edit_mask o k (by simp), if_neg hfield]
  · rw [edit_eq fun owner kind heq => hmask ⟨owner, kind, heq⟩]
    split
    · next hoperand =>
      have hother : other ≠ .samples := by
        rintro rfl
        exact hoperand.elim (fun hpre => h (hpre ▸ .pre)) (fun hpost => h (hpost ▸ .post))
      rw [updateSamples, text_write, if_neg hother, text_write, if_neg hfield]
    · split
      · next hresolution =>
        have hother : other ≠ .sampleBits := by
          rintro rfl
          exact h (hresolution ▸ .bits)
        rw [updateBits, text_write, if_neg hother, text_write, if_neg hfield]
      · rw [text_write, if_neg hfield]

/-- An edit leaves a slot alone if it is neither of it nor of its mask. -/
theorem text_edit_slot_of_ne {owner : Owner} {kind : Kind} {index : Fin kind.capacity}
    (hfield : field ≠ .slot owner kind index) (hmask : field ≠ .mask owner kind) :
    (form.edit field text).text (.slot owner kind index) =
      form.text (.slot owner kind index) := by
  refine text_edit_of_not_reaches fun hreaches => ?_
  cases hreaches with
  | self => exact hfield rfl
  | slot => exact hmask rfl

/-- An edit of anything but its mask changes a slot only if it is of the slot itself. -/
theorem text_edit_slot {owner : Owner} {kind : Kind} {index : Fin kind.capacity}
    (hmask : field ≠ .mask owner kind) :
    (form.edit field text).text (.slot owner kind index) =
      if field = .slot owner kind index then text else form.text (.slot owner kind index) := by
  split
  · next heq => rw [heq, text_edit_self]
  · next hne => exact text_edit_slot_of_ne hne hmask

/-- The sum of the operands depends on their texts only. -/
theorem operandSum_congr {form other : Form} (hpre : form.text preSamples = other.text preSamples)
    (hpost : form.text postSamples = other.text postSamples) :
    form.operandSum = other.operandSum := by
  rw [operandSum, operandSum, number, number, number, number, hpre, hpost]

/-- An edit of an operand leaves the other operand alone. -/
theorem text_operand_edit (hoperand : field = preSamples ∨ field = postSamples)
    (hother : other = preSamples ∨ other = postSamples) :
    (form.edit field text).text other = if field = other then text else form.text other := by
  have hmask : field ≠ .mask .trigger .standard := by
    rcases hoperand with rfl | rfl <;> simp [preSamples, postSamples]
  rcases hother with rfl | rfl
  · exact text_edit_slot hmask
  · exact text_edit_slot hmask

/-- A run of edits leaves alone what none of them reaches. -/
theorem text_setEach_of_not_reaches
    (h : ∀ edit ∈ edits, ∀ field, Field.ofName? edit.1 = some field → ¬Reaches field other) :
    (form.setEach edits).text other = form.text other := by
  refine setEach_invariant (motive := fun next => next.text other = form.text other) rfl ?_
  intro edit hedit mid next hmid hset
  obtain ⟨field, hfield, -, rfl⟩ := set_eq_ok_iff.mp hset
  exact (text_edit_of_not_reaches (h edit hedit field hfield)).trans hmid

end Form

end ZioControl
