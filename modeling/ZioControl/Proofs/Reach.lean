import ZioControl.Proofs.Edits

/-!
# How far an edit reaches

An edit by name fails for the host's identity and for a name that no field has, and then the form
stays as it is. Every other edit succeeds: the field shows what was typed, a mask blanks the slots
that it lacks, the number of samples and the number of bits may follow, and nothing else changes
(`Form.set_reach`). `Form.Overrides` says by their names which fields can change. On the names of
fields it is the relation `Form.Reaches` of the fields themselves (`Form.overrides_name_iff`), and a
name that no field has overrides only itself (`Form.overrides_iff`). That the names are always the
same holds by the type of a form. `Proofs/Dictionary` proves it of edits of texts under any names.
-/

namespace ZioControl.Form

/-- The names of all fields of a form, in order. -/
def names (form : Form) : List String := form.entries.map Prod.fst

/-- An edit of the first name can change what the second one shows. -/
inductive Overrides : String → String → Prop
  /-- What is typed replaces what was there. -/
  | self (name : String) : Overrides name name
  /-- A mask blanks slots of its owner and kind. -/
  | slot (owner : Owner) (kind : Kind) (index : Fin kind.capacity) :
    Overrides (Field.mask owner kind).name (Field.slot owner kind index).name
  /-- The number of samples follows those before the trigger fires. -/
  | pre : Overrides "trigger.std.1" "nsamples"
  /-- It follows those after the trigger fires as well. -/
  | post : Overrides "trigger.std.2" "nsamples"
  /-- The number of bits follows the resolution. -/
  | bits : Overrides "channel.std.0" "nbits"

/-- What an edit by name makes of a form. -/
structure Edited (form : Form) (name text : String) (next : Form) : Prop where
  /-- The field shows the text as it was typed. -/
  typed : next.get? name = some text
  /-- A mask blanks those slots of its owner and kind that it lacks, and no others. -/
  slots : ∀ owner kind (index : Fin kind.capacity), name = (Field.mask owner kind).name →
    next.get? (Field.slot owner kind index).name =
      if Mask.has (Text.lenientHex text.toList) index.val = true then
        form.get? (Field.slot owner kind index).name
      else some ""
  /-- What the edit cannot change stays. -/
  kept : ∀ other, ¬Overrides name other → next.get? other = form.get? other

variable {form next : Form} {field other : Field} {name text : String}
  {edits : List (String × String)}

/-- A form has the name of each field. -/
theorem names_eq (form : Form) : form.names = Field.sorted.map Field.name := by
  rw [names, entries, List.map_map]
  rfl

/-- The names of a form are those by which fields are found. -/
theorem mem_names_iff : name ∈ form.names ↔ ∃ field, Field.ofName? name = some field := by
  rw [names_eq, List.mem_map]
  constructor
  · rintro ⟨field, -, rfl⟩
    exact ⟨field, Field.ofName?_name field⟩
  · rintro ⟨field, hfield⟩
    exact ⟨field, List.mem_mergeSort.mpr (Field.mem_all field), Field.name_of_ofName? hfield⟩

/-- What a form has no name for is no field. -/
theorem ofName?_eq_none_iff : Field.ofName? name = none ↔ name ∉ form.names := by
  rw [mem_names_iff, Option.eq_none_iff_forall_ne_some, not_exists]

/-- Only the host's identity has its name. -/
theorem ofName?_eq_hostId_iff : Field.ofName? name = some .hostId ↔ name = "addr.hostid" := by
  constructor
  · exact fun hname => (Field.name_of_ofName? hname).symm
  · rintro rfl
    exact Field.ofName?_name .hostId

/-- The text of a field by its name. -/
theorem get?_name (form : Form) (field : Field) :
    form.get? field.name = some (form.text field) := by
  rw [get?, Field.ofName?_name, Option.map_some]

/-- Of names that fields have, one overrides another exactly if the one field reaches the other. -/
theorem overrides_name_iff : Overrides field.name other.name ↔ Reaches field other := by
  constructor
  · intro h
    generalize hfield : field.name = name at h
    generalize hother : other.name = name' at h
    -- each rule is about the names of certain fields, and no other fields have these names
    cases h with
    | self =>
      obtain rfl := Field.name_injective (hfield.trans hother.symm)
      exact .self field
    | slot owner kind index =>
      obtain rfl := Field.name_injective hfield
      obtain rfl := Field.name_injective hother
      exact .slot owner kind index
    | pre =>
      obtain rfl : field = preSamples := Field.name_injective (hfield.trans (by decide))
      obtain rfl : other = .samples := Field.name_injective hother
      exact .pre
    | post =>
      obtain rfl : field = postSamples := Field.name_injective (hfield.trans (by decide))
      obtain rfl : other = .samples := Field.name_injective hother
      exact .post
    | bits =>
      obtain rfl : field = resolution := Field.name_injective (hfield.trans (by decide))
      obtain rfl : other = .sampleBits := Field.name_injective hother
      exact .bits
  · intro h
    cases h with
    | self => exact .self _
    | pre => exact .pre
    | post => exact .post
    | bits => exact .bits
    | slot owner kind index => exact .slot owner kind index

/-- A name overrides another exactly if both are names of fields of which the one reaches the other,
or if both are the same. -/
theorem overrides_iff {name other : String} : Overrides name other ↔
    name = other ∨ ∃ field ∈ Field.ofName? name, ∃ place ∈ Field.ofName? other,
      Reaches field place := by
  constructor
  · intro h
    cases h with
    | self => exact .inl rfl
    | slot owner kind index =>
      exact .inr ⟨_, Field.ofName?_name _, _, Field.ofName?_name _, .slot owner kind index⟩
    | pre => exact .inr ⟨_, Field.ofName?_name preSamples, _, Field.ofName?_name .samples, .pre⟩
    | post => exact .inr ⟨_, Field.ofName?_name postSamples, _, Field.ofName?_name .samples, .post⟩
    | bits =>
      exact .inr ⟨_, Field.ofName?_name resolution, _, Field.ofName?_name .sampleBits, .bits⟩
  · rintro (rfl | ⟨field, hfield, place, hplace, hreaches⟩)
    · exact .self name
    · rw [← Field.name_of_ofName? hfield, ← Field.name_of_ofName? hplace]
      exact overrides_name_iff.mpr hreaches

instance : Decidable (Overrides name text) := decidable_of_iff _ overrides_iff.symm

/-- An edit is refused as one of what cannot be edited exactly for the host's identity. -/
theorem set_eq_readOnly_iff {held : String} :
    form.set name text = .error (.readOnly held) ↔ held = "addr.hostid" ∧ name = "addr.hostid" := by
  rw [set]
  split
  · next hnone =>
    have hne : name ≠ "addr.hostid" := fun heq => by
      rw [ofName?_eq_hostId_iff.mpr heq] at hnone
      cases hnone
    simp [hne]
  · next hhost =>
    obtain rfl := ofName?_eq_hostId_iff.mp hhost
    simp [eq_comm]
  · next field hhost hfield =>
    have hne : name ≠ "addr.hostid" := fun heq => by
      rw [ofName?_eq_hostId_iff.mpr heq] at hfield
      exact hhost (Option.some.inj hfield).symm
    simp [hne]

/-- An edit is refused as one of an unknown field exactly for a name that the form does not have. -/
theorem set_eq_unknownField_iff {unknown : String} :
    form.set name text = .error (.unknownField unknown) ↔ unknown = name ∧ name ∉ form.names := by
  rw [← ofName?_eq_none_iff, set]
  split
  · next hnone => simp [hnone, eq_comm]
  · next hhost => simp [hhost]
  · next field hhost hfield => simp [hfield]

/-- What an edit of a field changes, by names. -/
theorem edited_edit (hname : Field.ofName? name = some field) :
    Edited form name text (form.edit field text) := by
  obtain rfl := Field.name_of_ofName? hname
  constructor
  · rw [get?_name, text_edit_self]
  · intro owner kind index hmask
    obtain rfl := Field.name_injective hmask
    rw [get?_name, get?_name, text_edit_mask_slot]
    cases Mask.has (Text.lenientHex text.toList) index.val <;> simp
  · intro other hother
    rw [get?, get?]
    cases hplace : Field.ofName? other with
    -- no field has the name, before the edit and after it
    | none => rfl
    | some place =>
      rw [← Field.name_of_ofName? hplace, overrides_name_iff] at hother
      rw [Option.map_some, Option.map_some, text_edit_of_not_reaches hother]

/-- No run of edits changes what the form shows for the host's identity. -/
theorem text_hostId_setEach : (form.setEach edits).text .hostId = form.text .hostId := by
  refine setEach_invariant (motive := fun next => next.text .hostId = form.text .hostId) rfl ?_
  intro edit _ mid next hmid hset
  obtain ⟨field, -, hhost, rfl⟩ := set_eq_ok_iff.mp hset
  have hreaches : ¬Reaches field .hostId := by
    rintro ⟨⟩
    exact hhost rfl
  exact (text_edit_of_not_reaches hreaches).trans hmid

/-- On every form that edits of the form of a block lead to, an edit fails for the host's identity,
and it fails for a name that the form does not have. Then nothing changes. For every other name it
succeeds and changes what `Edited` says. All these forms have the same names, and show the same
identity of the host. -/
theorem set_reach (b : Block) (edits : List (String × String)) (name text : String) :
    let form := (ofBlock b).setEach edits
    (∀ held, form.set name text = .error (.readOnly held) ↔
      held = "addr.hostid" ∧ name = "addr.hostid") ∧
    (∀ unknown, form.set name text = .error (.unknownField unknown) ↔
      unknown = name ∧ name ∉ form.names) ∧
    (∀ error, form.set name text = .error error → form.attempt (name, text) = form) ∧
    (name ∈ form.names → name ≠ "addr.hostid" →
      ∃ next, form.set name text = .ok next ∧ form.attempt (name, text) = next ∧
        Edited form name text next) ∧
    form.names = (ofBlock b).names ∧
    form.get? "addr.hostid" = (ofBlock b).get? "addr.hostid" := by
  intro form
  refine ⟨fun held => set_eq_readOnly_iff, fun unknown => set_eq_unknownField_iff, ?_, ?_, ?_, ?_⟩
  · intro error herror
    rw [attempt, herror]
  · intro hmem hhost
    obtain ⟨field, hname⟩ := mem_names_iff.mp hmem
    have hfield : field ≠ .hostId := by
      rintro rfl
      exact hhost (ofName?_eq_hostId_iff.mp hname)
    exact ⟨form.edit field text, set_eq_ok_iff.mpr ⟨field, hname, hfield, rfl⟩,
      attempt_of_ofName? hname hfield, edited_edit hname⟩
  · rw [names_eq, names_eq]
  · have hget (form : Form) : form.get? "addr.hostid" = some (form.text .hostId) :=
      get?_name form .hostId
    rw [hget, hget, text_hostId_setEach]

end ZioControl.Form
