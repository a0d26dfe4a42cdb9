import ZioControl.Proofs.Edits
import ZioControl.Proofs.Numerals
import ZioControl.Proofs.Slots

/-!
# Editing texts and editing attribute sets

A form keeps the attributes as texts, one for each mask and each slot, and rebuilds the sets from
them in the end. An edit of such a text simulates an operation on the set itself: an edit of a mask
changes which slots are enabled (`AttributeSet.remask`), and an edit of an enabled slot sets its
value (`AttributeSet.insert?`). The invariant is `Form.Shows`. It holds of the form of a block
(`shows_ofBlock`) and every edit keeps it (`Shows.edit`), so after a run of edits the form stands
for the sets on which the run was carried out directly (`attributes_setAll`).
-/

namespace ZioControl

/-- The attribute sets of both owners. -/
abbrev Sets := Owner → (kind : Kind) → AttributeSet kind.capacity

/-- The attribute sets of a block. -/
def Block.sets (b : Block) : Sets := fun owner kind => (b.attributes owner).ofKind kind

namespace Sets

/-- The value that a person means who types a text into a slot: a hexadecimal word for the version,
which is the last of the standard slots, and a decimal one for all others. -/
def typedValue (kind : Kind) (index : Nat) (text : String) : UInt32 :=
  if kind = .standard ∧ index = 15 then Text.lenientHex text.toList
  else Text.lenientWord text.toList

/-- What an edit of a field does to the sets: that of a mask changes which slots of the set are
enabled, that of a slot sets the slot, and all others do nothing. -/
def edit (sets : Sets) (field : Field) (text : String) : Sets := fun owner kind =>
  match field with
  | .mask o k =>
    if o = owner ∧ k = kind then (sets owner kind).remask (Text.lenientHex text.toList)
    else sets owner kind
  | .slot o k index =>
    if o = owner ∧ k = kind then
      ((sets owner kind).insert? index.val (typedValue kind index.val text)).getD (sets owner kind)
    else sets owner kind
  | _ => sets owner kind

/-- The sets after a run of edits by name. -/
def editAll (sets : Sets) (edits : List (String × String)) : Sets :=
  edits.foldl (fun sets (name, text) =>
    match Field.ofName? name with
    | some field => sets.edit field text
    | none => sets) sets

variable (sets : Sets) (o owner : Owner) (k kind : Kind) (text : String)

/-- The slots of a set after an edit of a mask. -/
theorem get?_edit_mask (index : Fin kind.capacity) :
    (sets.edit (.mask o k) text owner kind).get? index.val =
      if o = owner ∧ k = kind then
        if Mask.has (Text.lenientHex text.toList) index.val = true then
          some (((sets owner kind).get? index.val).getD 0)
        else none
      else (sets owner kind).get? index.val := by
  rw [edit]
  split
  · rw [AttributeSet.get?_remask]
    simp only [index.isLt, true_and]
  · rfl

/-- The slots of a set after an edit of a slot. Both kinds have no more slots than a mask has bits,
so the set takes the value. -/
theorem get?_edit_slot (i : Fin k.capacity) (index : Fin kind.capacity) :
    (sets.edit (.slot o k i) text owner kind).get? index.val =
      if Field.slot owner kind index = .slot o k i then some (typedValue k i.val text)
      else (sets owner kind).get? index.val := by
  have hi32 : i.val < 32 := Nat.lt_of_lt_of_le i.isLt (by cases k <;> decide)
  obtain ⟨t, ht⟩ := (sets o k).exists_insert?_eq (typedValue k i.val text) i.isLt hi32
  rw [edit]
  by_cases hown : o = owner ∧ k = kind
  · obtain ⟨rfl, rfl⟩ := hown
    rw [if_pos ⟨rfl, rfl⟩, ht, Option.getD_some, AttributeSet.get?_insert? _ ht]
    simp only [Field.slot.injEq, heq_eq_eq, true_and, Fin.ext_iff]
  · rw [if_neg hown, if_neg]
    rintro heq
    cases heq
    exact hown ⟨rfl, rfl⟩

end Sets

namespace Form

/-- Whether a field is no slot that is disabled. -/
def isEnabled (form : Form) : Field → Bool
  | .slot owner kind index => (form.attributeSet owner kind).isEnabled index.val
  | _ => true

/-- Whether every edit of a slot in a run finds that slot enabled. -/
def editsEnabled (form : Form) : List (String × String) → Bool
  | [] => true
  | (name, text) :: rest =>
    (Field.ofName? name).all form.isEnabled &&
      match form.set name text with
      | .ok next => next.editsEnabled rest
      | .error _ => true

/-- The form stands for the sets slot by slot. The text of a disabled slot stands for zero too, for
that is the value which the slot starts with when a later mask enables it. -/
structure Shows (form : Form) (sets : Sets) : Prop where
  /-- The mask texts enable the slots that the sets have. -/
  enabled : ∀ owner kind (index : Fin kind.capacity),
    Mask.has (form.hexWord (.mask owner kind)) index.val =
      ((sets owner kind).get? index.val).isSome
  /-- The slot texts stand for the values, and for zero where there is none. -/
  value : ∀ owner kind (index : Fin kind.capacity),
    slotValue kind index.val (form.text (.slot owner kind index)) =
      ((sets owner kind).get? index.val).getD 0

variable {form next : Form} {sets : Sets} {field : Field} {text : String}

/-- The number of a field stays below its limit, whatever was typed. -/
theorem number_lt (form : Form) {limit : Nat} (h : 0 < limit) (field : Field) :
    form.number limit field < limit := Text.lenientDecimal_lt h _

/-- Reading a slot the way it is typed. -/
theorem slotValue_eq_typedValue (kind : Kind) (index : Nat) (text : String) :
    slotValue kind index text = Sets.typedValue kind index text := by
  have hhex : isHexSlot kind index = true ↔ kind = .standard ∧ index = 15 := by
    rw [isHexSlot, Bool.and_eq_true, decide_eq_true_eq, decide_eq_true_eq]
    rfl
  unfold slotValue Sets.typedValue
  simp only [hhex]

/-- The text of a slot stands for its value, or for zero if it is disabled. -/
theorem slotValue_slotText (kind : Kind) (index : Nat) (value? : Option UInt32) :
    slotValue kind index (slotText kind index value?) = value?.getD 0 := by
  cases value? with
  | none =>
    unfold slotValue slotText
    split <;> rfl
  | some v =>
    unfold slotValue slotText
    split
    · exact Text.lenientHex_hex v
    · exact Text.lenientWord_decimal v

/-- The enabled slots of the set that a mask text and slot texts stand for. -/
theorem get?_attributeSet (form : Form) (owner : Owner) {kind : Kind} (index : Fin kind.capacity) :
    (form.attributeSet owner kind).get? index.val =
      if Mask.has (form.hexWord (.mask owner kind)) index.val = true then
        some (slotValue kind index.val (form.text (.slot owner kind index)))
      else none := by
  rw [attributeSet, AttributeSet.get?_ofValues]
  simp [index.isLt]

/-- The mask that a form stands for is that of its text, as far as there are slots. -/
theorem mask_attributeSet (form : Form) (owner : Owner) (kind : Kind) :
    (form.attributeSet owner kind).mask =
      form.hexWord (.mask owner kind) &&& Mask.first kind.capacity := by
  simp [attributeSet, AttributeSet.ofValues]

/-- A form stands for the sets that it builds, whatever the base. -/
theorem sets_apply (form : Form) (base : Block) (owner : Owner) (kind : Kind) :
    (form.apply base).sets owner kind = form.attributeSet owner kind := by
  cases owner <;> cases kind <;> rfl

/-- A form that shows some sets stands for them. -/
theorem Shows.attributeSet_eq (h : form.Shows sets) (owner : Owner) (kind : Kind) :
    form.attributeSet owner kind = sets owner kind := by
  apply AttributeSet.ext_get?
  intro i
  by_cases hi : i < kind.capacity
  · rw [form.get?_attributeSet owner ⟨i, hi⟩, h.enabled, h.value]
    cases (sets owner kind).get? i with
    | none => rfl
    | some v => rfl
  · rw [AttributeSet.get?_of_le _ (by omega), AttributeSet.get?_of_le _ (by omega)]

/-- The form of a block shows the block's sets. -/
theorem shows_ofBlock (b : Block) : (ofBlock b).Shows b.sets where
  enabled owner kind index := by
    have hmask : (ofBlock b).hexWord (.mask owner kind) = (b.sets owner kind).mask :=
      Text.lenientHex_hex _
    rw [hmask, AttributeSet.isSome_get?]
  value owner kind index := slotValue_slotText kind index.val _

/-- The masks after an edit of a mask. -/
theorem hexWord_edit_mask (o owner : Owner) (k kind : Kind) :
    (form.edit (.mask o k) text).hexWord (.mask owner kind) =
      if o = owner ∧ k = kind then Text.lenientHex text.toList
      else form.hexWord (.mask owner kind) := by
  rw [hexWord, text_edit_mask o k (by simp), hexWord]
  simp only [Field.mask.injEq, eq_comm (a := owner), eq_comm (a := kind)]
  split <;> rfl

/-- An edit of a slot keeps the masks. -/
theorem hexWord_edit_slot (o owner : Owner) (k kind : Kind) (i : Fin k.capacity) :
    (form.edit (.slot o k i) text).hexWord (.mask owner kind) =
      form.hexWord (.mask owner kind) := by
  have hreaches : ¬Reaches (.slot o k i) (.mask owner kind) := nofun
  rw [hexWord, text_edit_of_not_reaches hreaches, hexWord]

/-- An edit of a mask enables the slots of the mask on both sides. A slot that the mask lacks is
blank then, and a slot that it brings back was blank before. -/
theorem Shows.edit_mask (h : form.Shows sets) (o : Owner) (k : Kind) :
    (form.edit (.mask o k) text).Shows (sets.edit (.mask o k) text) where
  enabled owner kind index := by
    rw [hexWord_edit_mask, Sets.get?_edit_mask]
    by_cases hown : o = owner ∧ k = kind
    · rw [if_pos hown, if_pos hown]
      cases Mask.has (Text.lenientHex text.toList) index.val <;> rfl
    · rw [if_neg hown, if_neg hown]
      exact h.enabled owner kind index
  value owner kind index := by
    rw [text_edit_mask_slot, Sets.get?_edit_mask]
    by_cases hown : o = owner ∧ k = kind
    · rw [if_pos hown]
      by_cases hm : Mask.has (Text.lenientHex text.toList) index.val = true
      -- a slot that the mask brings in has a text that stands for zero, by the invariant
      · rw [if_neg fun hlacks => by simp [hm] at hlacks, if_pos hm, Option.getD_some]
        exact h.value owner kind index
      · rw [if_pos ⟨hown.1, hown.2, Bool.eq_false_iff.mpr hm⟩, if_neg hm]
        exact slotValue_slotText kind index.val none
    · rw [if_neg hown, if_neg fun hlacks => hown ⟨hlacks.1, hlacks.2.1⟩]
      exact h.value owner kind index

/-- An edit of an enabled slot leaves the masks as they are and sets the value on both sides. -/
theorem Shows.edit_slot (h : form.Shows sets) (o : Owner) (k : Kind) (i : Fin k.capacity)
    (hi : form.isEnabled (.slot o k i) = true) :
    (form.edit (.slot o k i) text).Shows (sets.edit (.slot o k i) text) where
  enabled owner kind index := by
    rw [hexWord_edit_slot, h.enabled, Sets.get?_edit_slot]
    split
    -- the set has the slot already, so its mask does not change either
    · next heq =>
      cases heq
      rw [← h.attributeSet_eq o k, AttributeSet.isSome_get?]
      exact hi
    · rfl
  value owner kind index := by
    rw [Sets.get?_edit_slot]
    split
    · next heq =>
      cases heq
      rw [text_edit_self]
      exact slotValue_eq_typedValue k i.val text
    · next hne =>
      rw [text_edit_slot_of_ne (Ne.symm hne) nofun]
      exact h.value owner kind index

/-- An edit of any other field keeps all masks and slots, and the sets. -/
theorem Shows.edit_other (h : form.Shows sets) (hmask : ∀ o k, field ≠ .mask o k)
    (hslot : ∀ o k i, field ≠ .slot o k i) :
    (form.edit field text).Shows (sets.edit field text) := by
  have hsets : sets.edit field text = sets := by
    funext owner kind
    cases field with
    | mask o k => exact absurd rfl (hmask o k)
    | slot o k i => exact absurd rfl (hslot o k i)
    | _ => rfl
  rw [hsets]
  constructor
  · intro owner kind index
    have hreaches : ¬Reaches field (.mask owner kind) := by
      rintro ⟨⟩
      exact hmask owner kind rfl
    rw [hexWord, text_edit_of_not_reaches hreaches]
    exact h.enabled owner kind index
  · intro owner kind index
    rw [text_edit_slot_of_ne (hslot owner kind index) (hmask owner kind)]
    exact h.value owner kind index

/-- Every edit simulates what it does to the sets, unless it types into a disabled slot. -/
theorem Shows.edit (h : form.Shows sets) (henabled : form.isEnabled field = true) :
    (form.edit field text).Shows (sets.edit field text) := by
  cases field with
  | mask o k => exact h.edit_mask o k
  | slot o k i => exact h.edit_slot o k i henabled
  | _ => exact h.edit_other (by simp) (by simp)

/-- A run of edits that finds its slots enabled simulates what the edits do to the sets. -/
theorem Shows.setAll {edits : List (String × String)} (h : form.Shows sets)
    (hrun : form.setAll edits = .ok next) (henabled : form.editsEnabled edits = true) :
    next.Shows (sets.editAll edits) := by
  induction edits generalizing form sets with
  | nil =>
    obtain rfl := Except.ok.inj hrun
    exact h
  | cons e rest ih =>
    obtain ⟨name, text⟩ := e
    obtain ⟨mid, hset, hrest⟩ := setAll_cons_eq_ok_iff.mp hrun
    obtain ⟨field, hname, -, rfl⟩ := set_eq_ok_iff.mp hset
    simp only [editsEnabled, hname, hset, Option.all_some, Bool.and_eq_true] at henabled
    have hedit := ih (h.edit henabled.1) hrest henabled.2
    rw [Sets.editAll, List.foldl_cons]
    simp only [hname]
    exact hedit

/-- After a run of edits that finds its slots enabled, the form stands for the sets of the block on
which the run was carried out directly, whatever block the form is applied to. -/
theorem attributes_setAll {b : Block} {edits : List (String × String)}
    (hrun : (ofBlock b).setAll edits = .ok next)
    (henabled : (ofBlock b).editsEnabled edits = true) (base : Block) :
    (next.apply base).sets = b.sets.editAll edits := by
  have hshows := (shows_ofBlock b).setAll hrun henabled
  funext owner kind
  exact (sets_apply next base owner kind).trans (hshows.attributeSet_eq owner kind)

set_option maxRecDepth 20000 in
/-- A run with bits past the last slot, a negative number, a mask that is none, a version in
hexadecimal, and a mask that drops one slot and brings in another. -/
theorem attributes_setAll_masks :
    let b : Block := { trigger := { standard := .ofValues 6 [0, 8, 8] } }
    let edits := [("trigger.std_mask", "0xffff8006"), ("trigger.std.15", "0xAb"),
      ("trigger.std.1", "-5"), ("nsamples", "7"), ("channel.ext_mask", "none"),
      ("trigger.std_mask", " +8005 "), ("trigger.std.2", "+300")]
    ∃ next, (ofBlock b).setAll edits = .ok next ∧ (ofBlock b).editsEnabled edits = true ∧
      (next.apply b).sets = b.sets.editAll edits ∧
      (next.apply b).sets .trigger .standard =
        .ofValues 0x8005 ([0, 0, 300] ++ List.replicate 12 0 ++ [0xab]) := by
  intro b edits
  have hok : ((ofBlock b).setAll edits).toOption.isSome = true := by decide +kernel
  have henabled : (ofBlock b).editsEnabled edits = true := by decide +kernel
  cases hrun : (ofBlock b).setAll edits with
  | error e => simp [hrun, Except.toOption] at hok
  | ok next =>
    have hsets := attributes_setAll hrun henabled b
    refine ⟨next, rfl, henabled, hsets, ?_⟩
    rw [hsets]
    decide +kernel

end Form

end ZioControl
