import ZioControl.Description
import ZioControl.Proofs.Languages
import ZioControl.Proofs.Parting
import ZioControl.Proofs.Reach

/-!
# Names and labels of slots

The name of a slot begins with the words for its owner and its kind (`slotHeading`) and ends with
its number, so it tells all three (`slotName_inj`), and it has two points where the names of all
other fields have at most one (`Field.slot_or_count_point_le_one`). So an edit by the name of a slot
lands on no other one (`Form.get?_attempt_slotName`). A label is found by reading a name from its
front, and more names are read than are given: the numeral may have a plus sign or zeros in front,
and anything may follow a third point (`Designates`, `Description.fieldLabel?_eq_some_iff`). Among
the names of a form only those of slots are read, which is part of the main theorem,
`Description.names_labelled`.
-/

namespace ZioControl

/-- What the names of all slots of one kind of one owner begin with. -/
def slotHeading (owner : Owner) (kind : Kind) : String := owner.word ++ "." ++ kind.word ++ "."

/-- A name designates a slot: behind the beginning of the slot's name stands a numeral of its
number, and then the name ends, or a point follows with anything behind it. -/
def Designates (name : String) (owner : Owner) (kind : Kind) (index : Nat) : Prop :=
  ∃ numeral behind, name.toList = (slotHeading owner kind).toList ++ (numeral ++ behind) ∧
    Text.UnsignedNumeral 10 UInt64.size numeral index ∧ ∀ c ∈ behind.head?, c = '.'

variable {owner owner' : Owner} {kind kind' : Kind} {index index' : Nat} {name text label : String}

/-! ## Names of slots -/

/-- The name of a slot is its beginning and the number. -/
theorem slotName_eq (owner : Owner) (kind : Kind) (index : Nat) :
    slotName owner kind index = slotHeading owner kind ++ Text.decimal index := rfl

/-- The beginning of a slot's name tells its owner and its kind. -/
theorem slotHeading_inj :
    slotHeading owner kind = slotHeading owner' kind' ↔ owner = owner' ∧ kind = kind' := by
  cases owner <;> cases owner' <;> cases kind <;> cases kind' <;> decide

/-- The name of a slot tells the slot, whether or not there is such a slot. -/
theorem slotName_inj : slotName owner kind index = slotName owner' kind' index' ↔
    owner = owner' ∧ kind = kind' ∧ index = index' := by
  constructor
  · intro h
    -- the number is what stands behind the last point
    have hpoint : Text.PartsBehind "." := by decide
    obtain ⟨hwords, hindex⟩ := Text.append_decimal_inj hpoint h
    have hheading : slotHeading owner kind = slotHeading owner' kind' := congrArg (· ++ ".") hwords
    obtain ⟨howner, hkind⟩ := slotHeading_inj.mp hheading
    exact ⟨howner, hkind, hindex⟩
  · rintro ⟨rfl, rfl, rfl⟩
    rfl

/-- What begins like the name of a slot has two points. -/
theorem two_le_count_point (owner : Owner) (kind : Kind) (rest : List Char) :
    2 ≤ ((slotHeading owner kind).toList ++ rest).count '.' := by
  have hheading : (slotHeading owner kind).toList.count '.' = 2 := by
    cases owner <;> cases kind <;> decide
  rw [List.count_append, hheading]
  exact Nat.le_add_right 2 _

/-- A field is a slot, or its name has at most one point. -/
theorem Field.slot_or_count_point_le_one (field : Field) :
    (∃ owner kind index, field = .slot owner kind index) ∨ field.name.toList.count '.' ≤ 1 := by
  cases field with
  | slot owner kind index => exact .inl ⟨owner, kind, index, rfl⟩
  | mask owner kind =>
    right
    cases owner <;> cases kind <;> decide
  | _ =>
    right
    decide

/-- A field whose name begins like that of a slot is a slot. -/
theorem Field.exists_eq_slot {field : Field} {rest : List Char}
    (h : field.name.toList = (slotHeading owner kind).toList ++ rest) :
    ∃ owner kind index, field = .slot owner kind index := by
  refine field.slot_or_count_point_le_one.resolve_right fun hfew => ?_
  have hmany := two_le_count_point owner kind rest
  rw [← h] at hmany
  omega

/-- A field has the name of a slot exactly if it is the slot. -/
theorem slotName_eq_name_iff {field : Field} : slotName owner kind index = field.name ↔
    ∃ h : index < kind.capacity, field = .slot owner kind ⟨index, h⟩ := by
  constructor
  · intro h
    have hlist := congrArg String.toList h
    rw [slotName_eq, String.toList_append] at hlist
    obtain ⟨owner', kind', index', rfl⟩ := Field.exists_eq_slot hlist.symm
    obtain ⟨rfl, rfl, rfl⟩ := slotName_inj.mp h
    exact ⟨index'.isLt, rfl⟩
  · rintro ⟨h, rfl⟩
    rfl

/-- The field found by the name of a slot is the slot, if there is one. -/
theorem ofName?_slotName (owner : Owner) (kind : Kind) (index : Nat) :
    Field.ofName? (slotName owner kind index) =
      if h : index < kind.capacity then some (.slot owner kind ⟨index, h⟩) else none := by
  split
  · next h => exact Field.ofName?_name (.slot owner kind ⟨index, h⟩)
  · next h =>
    rw [Option.eq_none_iff_forall_ne_some]
    intro field hfield
    obtain ⟨hindex, -⟩ := slotName_eq_name_iff.mp (Field.name_of_ofName? hfield).symm
    exact h hindex

namespace Form

/-- An edit by the name of a slot overrides no other slot. -/
theorem eq_of_overrides_slotName
    (h : Overrides (slotName owner kind index) (slotName owner' kind' index')) :
    owner = owner' ∧ kind = kind' ∧ index = index' := by
  obtain heq | ⟨field, hfield, place, hplace, hreaches⟩ := overrides_iff.mp h
  · exact slotName_inj.mp heq
  · obtain ⟨hindex, rfl⟩ := slotName_eq_name_iff.mp (Field.name_of_ofName? hfield).symm
    obtain ⟨hindex', rfl⟩ := slotName_eq_name_iff.mp (Field.name_of_ofName? hplace).symm
    -- only the rule that an edit changes the field itself takes a slot to a slot
    cases hreaches
    exact ⟨rfl, rfl, rfl⟩

/-- An edit by the name of a slot puts the text there, if there is such a slot, and lands on no
other one. -/
theorem get?_attempt_slotName (form : Form) :
    (form.attempt (slotName owner kind index, text)).get? (slotName owner' kind' index') =
      if index < kind.capacity ∧ owner = owner' ∧ kind = kind' ∧ index = index' then some text
      else form.get? (slotName owner' kind' index') := by
  have hname := ofName?_slotName owner kind index
  split at hname
  · next hindex =>
    have hedited : Edited form (slotName owner kind index) text _ := edited_edit hname
    rw [attempt_of_ofName? hname nofun]
    split
    · next hsame =>
      rw [← slotName_inj.mpr hsame.2]
      exact hedited.typed
    · next hother =>
      exact hedited.kept _ fun hoverrides => hother ⟨hindex, eq_of_overrides_slotName hoverrides⟩
  · next hindex => rw [attempt, set, hname, if_neg fun h => hindex h.1]

end Form

/-! ## Names that are read -/

/-- A decimal numeral has no point. -/
theorem Text.UnsignedNumeral.point_notMem {limit value : Nat} {numeral : List Char}
    (h : UnsignedNumeral 10 limit numeral value) : '.' ∉ numeral := by
  intro hpoint
  obtain hplus | ⟨d, hd⟩ := h.eq_plus_or_exists_digit? (by decide) '.' hpoint
  · cases hplus
  · cases hd

/-- The beginning of a slot's name in front of other characters. -/
theorem toList_slotHeading_append (owner : Owner) (kind : Kind) (rest : List Char) :
    (slotHeading owner kind).toList ++ rest =
      owner.word.toList ++ '.' :: (kind.word.toList ++ '.' :: rest) := by
  simp [slotHeading]

/-- What begins like the name of a slot has the words for the owner and the kind as its first two
parts. -/
theorem splitOn_slotHeading_append (owner : Owner) (kind : Kind) (rest : List Char) :
    ((slotHeading owner kind).toList ++ rest).splitOn '.' =
      owner.word.toList :: kind.word.toList :: rest.splitOn '.' := by
  have howner : '.' ∉ owner.word.toList := by cases owner <;> decide
  have hkind : '.' ∉ kind.word.toList := by cases kind <;> decide
  rw [toList_slotHeading_append, List.splitOn_append_cons_self_of_not_mem howner,
    List.splitOn_append_cons_self_of_not_mem hkind]

/-- A name designates a slot exactly if its first three parts are the words for the slot's owner and
its kind and a numeral of its number. -/
theorem designates_iff : Designates name owner kind index ↔ ∃ numeral rest,
    name.toList.splitOn '.' = owner.word.toList :: kind.word.toList :: numeral :: rest ∧
      Text.UnsignedNumeral 10 UInt64.size numeral index := by
  constructor
  · rintro ⟨numeral, behind, hname, hnumeral, hbehind⟩
    rw [hname, splitOn_slotHeading_append]
    cases behind with
    | nil =>
      rw [List.append_nil, List.splitOn_eq_singleton hnumeral.point_notMem]
      exact ⟨numeral, [], rfl, hnumeral⟩
    | cons c rest =>
      obtain rfl : c = '.' := hbehind c rfl
      rw [List.splitOn_append_cons_self_of_not_mem hnumeral.point_notMem]
      exact ⟨numeral, rest.splitOn '.', rfl, hnumeral⟩
  · rintro ⟨numeral, rest, hparts, hnumeral⟩
    -- the parts are put together again
    have hname : ['.'].intercalate (name.toList.splitOn '.') = name.toList :=
      List.intercalate_splitOn '.'
    rw [hparts, List.intercalate_cons_cons, List.intercalate_cons_cons] at hname
    cases rest with
    | nil =>
      refine ⟨numeral, [], ?_, hnumeral, nofun⟩
      simp [← hname, toList_slotHeading_append]
    | cons part rest =>
      refine ⟨numeral, '.' :: ['.'].intercalate (part :: rest), ?_, hnumeral, by simp⟩
      simp [← hname, toList_slotHeading_append, List.intercalate_cons_cons]

/-- The name of a slot designates it, if the number is one of 64 bits. -/
theorem designates_slotName (owner : Owner) (kind : Kind) (h : index < UInt64.size) :
    Designates (slotName owner kind index) owner kind index := by
  refine ⟨(Text.decimal index).toList, [], ?_, ?_, nofun⟩
  · rw [slotName_eq, String.toList_append, List.append_nil]
  · exact .bare _ _ ((Text.natural?_eq_some_iff (by decide)).mp (Text.natural?_decimal index)) h

/-! ## Labels -/

namespace Description

variable {d : Description} {word : List Char}

/-- The word for an owner is read as that owner, and no other word is. -/
theorem ownerOfWord?_eq_some_iff : ownerOfWord? word = some owner ↔ word = owner.word.toList := by
  constructor
  · intro h
    rw [ownerOfWord?] at h
    split_ifs at h with hword hword
    all_goals rw [hword, ← Option.some.inj h]
  · rintro rfl
    cases owner <;> decide

/-- The word for a kind is read as that kind, and no other word is. -/
theorem kindOfWord?_eq_some_iff : kindOfWord? word = some kind ↔ word = kind.word.toList := by
  constructor
  · intro h
    rw [kindOfWord?] at h
    split_ifs at h with hword hword
    all_goals rw [hword, ← Option.some.inj h]
  · rintro rfl
    cases kind <;> decide

/-- A name has a label exactly if it designates a slot, and then it has the label of the slot. -/
theorem fieldLabel?_eq_some_iff : d.fieldLabel? name = some label ↔
    ∃ owner kind index, Designates name owner kind index ∧ label = d.label owner kind index := by
  simp only [designates_iff]
  constructor
  · intro h
    unfold fieldLabel? at h
    split at h
    · next numeral rest hparts =>
      split at h
      · next owner kind index howner hkind hindex =>
        rw [ownerOfWord?_eq_some_iff] at howner
        rw [kindOfWord?_eq_some_iff] at hkind
        rw [Text.unsigned?_eq_some_iff (by decide)] at hindex
        subst howner hkind
        exact ⟨owner, kind, index, ⟨numeral, rest, hparts, hindex⟩, (Option.some.inj h).symm⟩
      · cases h
    · cases h
  · rintro ⟨owner, kind, index, ⟨numeral, rest, hparts, hindex⟩, rfl⟩
    have howner : ownerOfWord? owner.word.toList = some owner := ownerOfWord?_eq_some_iff.mpr rfl
    have hkind : kindOfWord? kind.word.toList = some kind := kindOfWord?_eq_some_iff.mpr rfl
    rw [← Text.unsigned?_eq_some_iff (by decide)] at hindex
    simp only [fieldLabel?, hparts, howner, hkind, hindex]

/-- A sign, a zero and a part of its own behind the numeral are read over. -/
example (d : Description) :
    d.fieldLabel? "trigger.std.+02.x" = some (d.label .trigger .standard 2) := by
  rfl

/-- The name of a slot has the label of the slot. -/
theorem fieldLabel?_slotName (d : Description) (owner : Owner) (kind : Kind)
    (h : index < UInt64.size) :
    d.fieldLabel? (slotName owner kind index) = some (d.label owner kind index) :=
  fieldLabel?_eq_some_iff.mpr ⟨owner, kind, index, designates_slotName owner kind h, rfl⟩

/-- The name of a field has no label exactly if it is not that of a slot. -/
theorem fieldLabel?_name_eq_none_iff {field : Field} : d.fieldLabel? field.name = none ↔
    ∀ owner kind index, field.name ≠ slotName owner kind index := by
  constructor
  · rintro hnone owner kind index heq
    obtain ⟨hindex, rfl⟩ := slotName_eq_name_iff.mp heq.symm
    have hcapacity : kind.capacity ≤ UInt64.size := by cases kind <;> decide
    rw [heq, fieldLabel?_slotName d owner kind (hindex.trans_le hcapacity)] at hnone
    cases hnone
  · intro hne
    rw [Option.eq_none_iff_forall_ne_some]
    intro label hlabel
    -- a field that designates a slot begins like one, and so it is one
    obtain ⟨_, _, _, ⟨numeral, behind, hname, -⟩, -⟩ := fieldLabel?_eq_some_iff.mp hlabel
    obtain ⟨owner, kind, index, rfl⟩ := Field.exists_eq_slot hname
    exact hne owner kind index rfl

/-- Names and labels of slots agree. The name of a slot has the label that the description gives to
the slot, for each number of 64 bits. It tells the slot, whether or not there is such a slot, and a
field has the same name only if it is the slot. Whatever edits led to a form, of its names exactly
those that are no slot's have no label. -/
theorem names_labelled (d : Description) :
    (∀ owner kind (index : UInt64), d.fieldLabel? (slotName owner kind index.toNat) =
      some (d.label owner kind index.toNat)) ∧
    (∀ owner kind index owner' kind' index',
      slotName owner kind index = slotName owner' kind' index' ↔
        owner = owner' ∧ kind = kind' ∧ index = index') ∧
    (∀ owner kind index (field : Field), slotName owner kind index = field.name ↔
      ∃ h : index < kind.capacity, field = .slot owner kind ⟨index, h⟩) ∧
    ∀ (form : Form) (edits : List (String × String)), ∀ name ∈ (form.setEach edits).names,
      d.fieldLabel? name = none ↔ ∀ owner kind index, name ≠ slotName owner kind index := by
  refine ⟨?_, ?_, ?_, ?_⟩
  · exact fun owner kind index => fieldLabel?_slotName d owner kind index.toNat_lt
  · exact fun _ _ _ _ _ _ => slotName_inj
  · exact fun _ _ _ _ => slotName_eq_name_iff
  · intro form edits name hname
    obtain ⟨field, hfield⟩ := Form.mem_names_iff.mp hname
    rw [← Field.name_of_ofName? hfield]
    exact fieldLabel?_name_eq_none_iff

/-- A form after edits of a mask and of one of its slots, and an attribute with the largest
number. -/
theorem names_labelled_largest :
    let d : Description := ⟨[⟨"dev/trigger/delay", .extended, 2 ^ 64 - 1, true, true⟩]⟩
    let edits := [("trigger.std_mask", "0x6"), ("trigger.std.1", "8")]
    "trigger.std_mask" ∈ ((Form.ofBlock default).setEach edits).names ∧
      d.fieldLabel? "trigger.std_mask" = none ∧
      d.fieldLabel? "trigger.ext.18446744073709551615" = some "delay" := by
  intro d edits
  obtain ⟨hlabel, -, hfield, hnone⟩ := names_labelled d
  have hmem : "trigger.std_mask" ∈ ((Form.ofBlock default).setEach edits).names :=
    Form.mem_names_iff.mpr ⟨_, Field.ofName?_name (.mask .trigger .standard)⟩
  refine ⟨hmem, (hnone _ edits _ hmem).mpr fun owner kind index heq => ?_, ?_⟩
  · obtain ⟨_, hslot⟩ := (hfield owner kind index (.mask .trigger .standard)).mp heq.symm
    cases hslot
  · exact (hlabel .trigger .extended 0xffffffffffffffff).trans (by decide)

end Description

end ZioControl
