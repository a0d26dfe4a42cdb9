import Mathlib.Data.List.DropRight
import ZioControl.Proofs.Acceptance
import ZioControl.Proofs.Simulation

/-!
# The number of samples under edits of the trigger

The number of samples is to be the sum of the trigger's samples before and after it fires. A form
sums them up anew when one of these two operands is typed, but not when an edit of the mask disables
one. Here a run of edits of the trigger's standard attributes is taken apart at its last count
(`untilCount`, `sinceCount`). What the count took in, and what a mask in force since then lacks, is
the `surplus`: the number of samples agrees with the trigger's exactly if that is zero
(`samples_eq_triggerSamples_iff`). A single edit of the mask can make it differ from zero
(`samples_ne_triggerSamples`).
-/

namespace ZioControl

/-- A block is refused for its number of samples only if that is not the trigger's. -/
theorem Block.samples_ne_of_rejection? {b current : Block} {own trigger : UInt32}
    (h : b.rejection? current = some (.samples own trigger)) : b.samples ≠ b.triggerSamples := by
  intro heq
  have hagree : ¬ b.samples ≠ b.triggerSamples := not_not.mpr heq
  unfold rejection? at h
  simp only [hagree, if_false] at h
  split_ifs at h <;> cases h

/-- A block that is taken has the number of samples of its trigger. -/
theorem Block.samples_eq_of_checkAgainst {b current : Block}
    (h : b.checkAgainst current = .ok ()) : b.samples = b.triggerSamples :=
  (Block.checkAgainst_eq_ok_iff.mp h).2.samples

namespace Form

/-- An edit of the trigger's standard attributes as it is meant: of the mask with a hexadecimal
word, or of a slot with decimal digits. -/
def isTriggerEdit (edit : String × String) : Bool :=
  match Field.ofName? edit.1 with
  | some (.mask .trigger .standard) => (Text.hexWord? edit.2.toList).isSome
  | some (.slot .trigger .standard _) => Text.isDigits edit.2.toList
  | _ => false

/-- An edit of an operand, after which the samples are counted. -/
def isCount (edit : String × String) : Bool :=
  Field.ofName? edit.1 = some preSamples ∨ Field.ofName? edit.1 = some postSamples

/-- A run up to its last count. -/
def untilCount (edits : List (String × String)) : List (String × String) :=
  edits.rdropWhile fun edit => !isCount edit

/-- The rest of a run after its last count. -/
def sinceCount (edits : List (String × String)) : List (String × String) :=
  edits.rtakeWhile fun edit => !isCount edit

/-- The masks that a run types for the trigger's standard attributes. -/
def typedMasks (edits : List (String × String)) : List Mask :=
  edits.filterMap fun (name, text) =>
    if Field.ofName? name = some (.mask .trigger .standard) then some (Text.lenientHex text.toList)
    else none

/-- The masks in force since a form was at hand: those that were typed since, or the form's own if
there are none. -/
def masksSince (form : Form) (edits : List (String × String)) : List Mask :=
  if typedMasks edits = [] then [form.hexWord (.mask .trigger .standard)] else typedMasks edits

/-- The slot of the samples before the trigger fires. -/
def preSlot : Fin Kind.standard.capacity := ⟨Slot.preSamples, show 1 < 16 by decide⟩

/-- The slot of the samples after the trigger fires. -/
def postSlot : Fin Kind.standard.capacity := ⟨Slot.postSamples, show 2 < 16 by decide⟩

/-- The value of the text of one of the trigger's standard slots, enabled or not. -/
def typedSlot (form : Form) (index : Fin Kind.standard.capacity) : UInt32 :=
  slotValue .standard index.val (form.text (.slot .trigger .standard index))

/-- What a slot counted for and does no more because a mask since then lacks it. -/
def lost (form : Form) (edits : List (String × String)) (index : Fin Kind.standard.capacity) :
    UInt32 :=
  if (masksSince form edits).all fun mask => mask.has index.val then 0 else form.typedSlot index

/-- What both operands counted for and do no more. -/
def surplus (form : Form) (edits : List (String × String)) : UInt32 :=
  form.lost edits preSlot + form.lost edits postSlot

variable {form next : Form} {b : Block} {name text : String} {edits : List (String × String)}

/-! ## Single edits -/

/-- An edit of the trigger's standard attributes is one of the mask or one of a slot. -/
theorem exists_of_isTriggerEdit (h : isTriggerEdit (name, text) = true) :
    Field.ofName? name = some (.mask .trigger .standard) ∨
      ∃ index, Field.ofName? name = some (.slot .trigger .standard index) ∧
        Text.isDigits text.toList = true := by
  unfold isTriggerEdit at h
  split at h
  · next hname => exact .inl hname
  · next index hname => exact .inr ⟨index, hname, h⟩
  · cases h

/-- What such an edit does: it edits the mask, or it types digits into a slot. -/
theorem set_cases_of_isTriggerEdit (h : isTriggerEdit (name, text) = true)
    (hset : form.set name text = .ok next) :
    (Field.ofName? name = some (.mask .trigger .standard) ∧
      form.edit (.mask .trigger .standard) text = next) ∨
    ∃ index, Field.ofName? name = some (.slot .trigger .standard index) ∧
      Text.isDigits text.toList = true ∧
      form.edit (.slot .trigger .standard index) text = next := by
  obtain ⟨field, hfield, -, hnext⟩ := set_eq_ok_iff.mp hset
  rcases exists_of_isTriggerEdit h with hname | ⟨index, hname, hdigits⟩
  · obtain rfl := Option.some.inj (hfield.symm.trans hname)
    exact .inl ⟨hname, hnext⟩
  · obtain rfl := Option.some.inj (hfield.symm.trans hname)
    exact .inr ⟨index, hname, hdigits, hnext⟩

/-- A run of such edits succeeds, for none is of the host's identity. -/
theorem exists_setAll_of_isTriggerEdit (form : Form)
    (h : ∀ edit ∈ edits, isTriggerEdit edit = true) : ∃ next, form.setAll edits = .ok next := by
  refine exists_setAll_of_ofName? form fun edit hedit => ?_
  rcases exists_of_isTriggerEdit (h edit hedit) with hname | ⟨index, hname, -⟩
  · exact ⟨_, hname, by simp⟩
  · exact ⟨_, hname, by simp⟩

/-! ## After the last count -/

/-- The value of a slot of the set that the form stands for. -/
theorem getD_get?_attributeSet (form : Form) (index : Fin Kind.standard.capacity) :
    ((form.attributeSet .trigger .standard).get? index.val).getD 0 =
      if Mask.has (form.hexWord (.mask .trigger .standard)) index.val = true then
        form.typedSlot index
      else 0 := by
  rw [get?_attributeSet, typedSlot]
  split <;> rfl

/-- An edit of the mask keeps the text of a slot that the mask has, and blanks the others. -/
theorem typedSlot_edit_mask (index : Fin Kind.standard.capacity) :
    (form.edit (.mask .trigger .standard) text).typedSlot index =
      if Mask.has (Text.lenientHex text.toList) index.val = true then form.typedSlot index
      else 0 := by
  rw [typedSlot, text_edit_mask_slot]
  by_cases h : Mask.has (Text.lenientHex text.toList) index.val = true
  · simp [h, typedSlot]
  · rw [if_pos ⟨rfl, rfl, Bool.eq_false_iff.mpr h⟩, if_neg h]
    exact slotValue_slotText .standard index.val none

/-- An edit of a slot types no mask. -/
theorem typedMasks_cons_slot {index : Fin Kind.standard.capacity}
    (hname : Field.ofName? name = some (.slot .trigger .standard index)) :
    typedMasks ((name, text) :: edits) = typedMasks edits := by
  simp [typedMasks, hname]

/-- The masks in force since an edit of the mask are that mask and those in force after it. -/
theorem all_masksSince_cons (p : Mask → Bool)
    (hname : Field.ofName? name = some (.mask .trigger .standard)) :
    (masksSince form ((name, text) :: edits)).all p =
      (p (Text.lenientHex text.toList) &&
        (masksSince (form.edit (.mask .trigger .standard) text) edits).all p) := by
  have hmask : (form.edit (.mask .trigger .standard) text).hexWord (.mask .trigger .standard) =
      Text.lenientHex text.toList := by
    rw [hexWord_edit_mask, if_pos ⟨rfl, rfl⟩]
  have htyped : typedMasks ((name, text) :: edits) =
      Text.lenientHex text.toList :: typedMasks edits := by
    simp [typedMasks, hname]
  rw [masksSince, htyped, if_neg (List.cons_ne_nil _ _), List.all_cons, masksSince, hmask]
  split
  · next hnil => simp [hnil]
  · rfl

/-- A slot that a run does not edit counts for what its text did before, unless a mask in force
since then lacks it. -/
theorem getD_get?_setAll {index : Fin Kind.standard.capacity} (hrun : form.setAll edits = .ok next)
    (hedits : ∀ edit ∈ edits, isTriggerEdit edit = true)
    (hindex : ∀ edit ∈ edits, Field.ofName? edit.1 ≠ some (.slot .trigger .standard index)) :
    ((next.attributeSet .trigger .standard).get? index.val).getD 0 =
      if (masksSince form edits).all fun mask => mask.has index.val then form.typedSlot index
      else 0 := by
  -- from the front, for the text that counts is the one before all masks
  induction edits generalizing form with
  | nil =>
    obtain rfl := Except.ok.inj hrun
    rw [getD_get?_attributeSet]
    simp [masksSince, typedMasks]
  | cons e rest ih =>
    obtain ⟨name, text⟩ := e
    obtain ⟨hfirst, hedits⟩ := List.forall_mem_cons.mp hedits
    obtain ⟨hother, hindex⟩ := List.forall_mem_cons.mp hindex
    obtain ⟨mid, hset, hrest⟩ := setAll_cons_eq_ok_iff.mp hrun
    rw [ih hrest hedits hindex]
    rcases set_cases_of_isTriggerEdit hfirst hset with ⟨hname, rfl⟩ | ⟨other, hname, -, rfl⟩
    · rw [all_masksSince_cons _ hname, typedSlot_edit_mask]
      by_cases hm : Mask.has (Text.lenientHex text.toList) index.val = true
      · simp [hm]
      -- the slot is blank from here on, whatever the later masks are
      · simp [hm]
    · have hne : Field.slot .trigger .standard other ≠ .slot .trigger .standard index := by
        rintro ⟨⟩
        exact hother hname
      have hmasks : masksSince form ((name, text) :: rest) =
          masksSince (form.edit (.slot .trigger .standard other) text) rest := by
        rw [masksSince, masksSince, typedMasks_cons_slot hname, hexWord_edit_slot]
      rw [hmasks, typedSlot, text_edit_slot_of_ne hne nofun, typedSlot]

/-- A run without a count keeps the number of samples. -/
theorem text_samples_setAll (hrun : form.setAll edits = .ok next)
    (hedits : ∀ edit ∈ edits, isTriggerEdit edit = true)
    (hcount : ∀ edit ∈ edits, isCount edit = false) : next.text .samples = form.text .samples := by
  obtain rfl := setEach_of_setAll hrun
  refine text_setEach_of_not_reaches fun edit hedit field hfield hreaches => ?_
  cases hreaches with
  -- the number of samples is none of the trigger's attributes
  | self => simpa [isTriggerEdit, hfield] using hedits edit hedit
  | pre | post => simpa [isCount, hfield] using hcount edit hedit

/-! ## Up to the last count -/

/-- The count reads the trigger's slots, the version apart, as the set does: the reader of the one
knows no sign, so this is not so for every text. -/
def Unsigned (form : Form) : Prop :=
  ∀ index : Fin Kind.standard.capacity, index.val ≠ Slot.version →
    form.typedSlot index =
      UInt32.ofNat (form.number UInt32.size (.slot .trigger .standard index))

/-- The number of samples is the sum of the texts of both operands, enabled or not. -/
def IsCounted (form : Form) : Prop :=
  UInt32.ofNat (form.number UInt32.size .samples) = form.typedSlot preSlot + form.typedSlot postSlot

/-- Apart from the version, a slot is read as a decimal number. -/
theorem slotValue_eq_lenientWord {index : Nat} (h : index ≠ Slot.version) (text : String) :
    slotValue .standard index text = Text.lenientWord text.toList := by
  rw [slotValue, isHexSlot, if_neg (by simpa using h)]

/-- The text of a slot other than the version has no sign, so it reads the same whether or not one
counts. -/
theorem lenientWord_slotText {index : Nat} (h : index ≠ Slot.version) (value? : Option UInt32) :
    Text.lenientWord (slotText .standard index value?).toList =
      UInt32.ofNat (Text.lenientDecimal UInt32.size (slotText .standard index value?).toList) := by
  cases value? with
  | none => rfl
  | some v =>
    rw [slotText, isHexSlot, if_neg (by simpa using h)]
    exact Text.lenientWord_of_natural? (Text.natural?_decimal v.toNat)

/-- The form of a block has no signs. -/
theorem unsigned_ofBlock (b : Block) : (ofBlock b).Unsigned := by
  intro index hindex
  rw [typedSlot, slotValue_eq_lenientWord hindex, number]
  exact lenientWord_slotText hindex (b.trigger.standard.get? index.val)

/-- An edit of the trigger's standard attributes types no signs. -/
theorem Unsigned.set (h : form.Unsigned) (htrigger : isTriggerEdit (name, text) = true)
    (hset : form.set name text = .ok next) : next.Unsigned := by
  intro index hindex
  rcases set_cases_of_isTriggerEdit htrigger hset with ⟨-, rfl⟩ | ⟨other, -, hdigits, rfl⟩
  · rw [typedSlot, number, text_edit_mask_slot]
    split
    · rw [slotValue_eq_lenientWord hindex]
      rfl
    · exact h index hindex
  · by_cases hother : Field.slot .trigger .standard other = .slot .trigger .standard index
    · cases hother
      rw [typedSlot, number, text_edit_self, slotValue_eq_lenientWord hindex]
      exact Text.lenientWord_of_isDigits hdigits
    · rw [typedSlot, number, text_edit_slot_of_ne hother (by simp)]
      exact h index hindex

/-- A run of edits of the trigger's standard attributes types no signs. -/
theorem Unsigned.setAll (h : form.Unsigned) (hedits : ∀ edit ∈ edits, isTriggerEdit edit = true)
    (hrun : form.setAll edits = .ok next) : next.Unsigned :=
  setAll_invariant hrun h fun edit hedit _ _ hmid hset => hmid.set (hedits edit hedit) hset

/-- The text of a slot of a block stands for the slot's value, or for zero if it is disabled. -/
theorem typedSlot_ofBlock (b : Block) (index : Fin Kind.standard.capacity) :
    (ofBlock b).typedSlot index = (b.trigger.standard.get? index.val).getD 0 :=
  slotValue_slotText .standard index.val _

/-- A block that passes the check against itself is shown as counted: its number of samples is that
of its trigger, and a disabled operand, which the trigger's number leaves out, is blank. -/
theorem isCounted_ofBlock (h : b.samples = b.triggerSamples) : (ofBlock b).IsCounted := by
  have hnumber : (ofBlock b).number UInt32.size .samples = b.samples.toNat :=
    Text.lenientDecimal_decimal b.samples.toNat_lt
  -- a disabled operand is blank, so its text counts for zero like the slot
  rw [IsCounted, typedSlot_ofBlock, typedSlot_ofBlock, hnumber, UInt32.ofNat_toNat, h]
  rfl

/-- An edit of an operand makes the number of samples the sum of both, if the count reads them as
the set does. -/
theorem isCounted_edit {field : Field} (hoperand : field = preSamples ∨ field = postSamples)
    (hpre : (form.edit field text).typedSlot preSlot =
      UInt32.ofNat ((form.edit field text).number UInt32.size preSamples))
    (hpost : (form.edit field text).typedSlot postSlot =
      UInt32.ofNat ((form.edit field text).number UInt32.size postSamples)) :
    (form.edit field text).IsCounted := by
  rw [IsCounted, hpre, hpost, number, text_samples_edit hoperand,
    Text.lenientDecimal_decimal (UInt32.toNat_lt _), UInt32.ofNat_toNat, operandSum]

/-- A count makes the number of samples the sum of the operands. -/
theorem isCounted_of_isCount (hset : form.set name text = .ok next)
    (hcount : isCount (name, text) = true) (hnext : next.Unsigned) : next.IsCounted := by
  obtain ⟨field, hfield, -, rfl⟩ := set_eq_ok_iff.mp hset
  have hoperand : field = preSamples ∨ field = postSamples := by
    simpa [isCount, hfield] using hcount
  exact isCounted_edit hoperand (hnext _ (by decide)) (hnext _ (by decide))

/-- What is taken of a run up to its last count ends with a count. -/
theorem isCount_of_untilCount_eq {first : List (String × String)} {edit : String × String}
    (h : untilCount edits = first ++ [edit]) : isCount edit = true := by
  have hne : untilCount edits ≠ [] := by simp [h]
  have hlast : ¬ (!isCount ((untilCount edits).getLast hne)) = true :=
    List.rdropWhile_last_not _ edits hne
  have hedit : (untilCount edits).getLast hne = edit := by simp [h]
  rw [hedit] at hlast
  simpa using hlast

/-- Up to its last count, a run keeps the number of samples the sum of the operands. -/
theorem isCounted_untilCount (hsamples : b.samples = b.triggerSamples)
    (hedits : ∀ edit ∈ edits, isTriggerEdit edit = true)
    (hrun : (ofBlock b).setAll (untilCount edits) = .ok next) : next.IsCounted := by
  rcases List.eq_nil_or_concat' (untilCount edits) with hnil | ⟨first, ⟨name, text⟩, hconcat⟩
  · rw [hnil] at hrun
    obtain rfl := Except.ok.inj hrun
    exact isCounted_ofBlock hsamples
  · have hmem : ∀ edit ∈ untilCount edits, isTriggerEdit edit = true := fun edit hedit =>
      hedits edit ((List.rdropWhile_prefix _ _).subset hedit)
    have hunsigned := (unsigned_ofBlock b).setAll hmem hrun
    rw [hconcat] at hrun
    obtain ⟨mid, -, hlast⟩ := setAll_append_eq_ok_iff.mp hrun
    obtain ⟨last, hset, hdone⟩ := setAll_cons_eq_ok_iff.mp hlast
    obtain rfl := Except.ok.inj hdone
    exact isCounted_of_isCount hset (isCount_of_untilCount_eq hconcat) hunsigned

/-! ## The whole run -/

/-- A slot counts for what its text did before a run that does not edit it, less what is lost. -/
theorem typedSlot_eq_add_lost {index : Fin Kind.standard.capacity}
    (hrun : form.setAll edits = .ok next) (hedits : ∀ edit ∈ edits, isTriggerEdit edit = true)
    (hindex : ∀ edit ∈ edits, Field.ofName? edit.1 ≠ some (.slot .trigger .standard index)) :
    form.typedSlot index =
      ((next.attributeSet .trigger .standard).get? index.val).getD 0 + form.lost edits index := by
  rw [getD_get?_setAll hrun hedits hindex, lost]
  split
  · rw [UInt32.add_zero]
  · rw [UInt32.zero_add]

/-- The number of samples exceeds the trigger's by what was counted and is lost since. -/
theorem samples_eq_add_surplus (h : form.IsCounted) (hrun : form.setAll edits = .ok next)
    (hedits : ∀ edit ∈ edits, isTriggerEdit edit = true)
    (hcount : ∀ edit ∈ edits, isCount edit = false) (base : Block) :
    (next.apply base).samples = (next.apply base).triggerSamples + form.surplus edits := by
  have hpre : ∀ edit ∈ edits, Field.ofName? edit.1 ≠ some preSamples := fun edit hedit hname => by
    simpa [isCount, hname] using hcount edit hedit
  have hpost : ∀ edit ∈ edits, Field.ofName? edit.1 ≠ some postSamples := fun edit hedit hname => by
    simpa [isCount, hname] using hcount edit hedit
  have hpreSlot : form.typedSlot preSlot = _ := typedSlot_eq_add_lost hrun hedits hpre
  have hpostSlot : form.typedSlot postSlot = _ := typedSlot_eq_add_lost hrun hedits hpost
  have hsamples : (next.apply base).samples = UInt32.ofNat (form.number UInt32.size .samples) := by
    rw [number, ← text_samples_setAll hrun hedits hcount]
    rfl
  have hsum : (next.apply base).triggerSamples =
      ((next.attributeSet .trigger .standard).get? preSlot.val).getD 0 +
        ((next.attributeSet .trigger .standard).get? postSlot.val).getD 0 := rfl
  rw [hsamples, h, hpreSlot, hpostSlot, hsum, surplus]
  ac_rfl

/-- Every run of edits of the trigger's standard attributes, on the form of a block that agrees with
itself, succeeds. It leaves the number of samples the trigger's exactly if nothing that was counted
is lost since the last count, and then no block refuses the result for its number of samples. -/
theorem samples_eq_triggerSamples_iff (hcheck : b.checkAgainst b = .ok ())
    (hedits : ∀ edit ∈ edits, isTriggerEdit edit = true) :
    ∃ counted next, (ofBlock b).setAll (untilCount edits) = .ok counted ∧
      (ofBlock b).setAll edits = .ok next ∧
      ((next.apply b).samples = (next.apply b).triggerSamples ↔
        counted.surplus (sinceCount edits) = 0) ∧
      (counted.surplus (sinceCount edits) = 0 → ∀ current own trigger,
        (next.apply b).rejection? current ≠ some (.samples own trigger)) := by
  obtain ⟨next, hrun⟩ := (ofBlock b).exists_setAll_of_isTriggerEdit hedits
  -- the run in two parts: the invariant of the first is `IsCounted`, the second counts no more
  have hsplit : edits = untilCount edits ++ sinceCount edits :=
    (List.rdropWhile_append_rtakeWhile).symm
  obtain ⟨counted, huntil, hsince⟩ := setAll_append_eq_ok_iff.mp (hsplit ▸ hrun)
  have hcounted := isCounted_untilCount (Block.samples_eq_of_checkAgainst hcheck) hedits huntil
  have hlater : ∀ edit ∈ sinceCount edits, isTriggerEdit edit = true := fun edit hedit =>
    hedits edit ((List.rtakeWhile_suffix _ _).subset hedit)
  have hcount : ∀ edit ∈ sinceCount edits, isCount edit = false := fun edit hedit => by
    simpa using List.mem_rtakeWhile_imp hedit
  have hsurplus := samples_eq_add_surplus hcounted hsince hlater hcount b
  have hiff : (next.apply b).samples = (next.apply b).triggerSamples ↔
      counted.surplus (sinceCount edits) = 0 := by
    rw [hsurplus, UInt32.add_eq_left]
  exact ⟨counted, next, huntil, hrun, hiff, fun hzero current own trigger hrejected =>
    Block.samples_ne_of_rejection? hrejected (hiff.mpr hzero)⟩

set_option maxRecDepth 20000 in
/-- A run that types both operands and then drops one of them, which counts for nothing. -/
theorem samples_eq_triggerSamples_of_zero :
    let b : Block := { samples := 16, trigger := { standard := .ofValues 6 [0, 8, 8] } }
    let edits := [("trigger.std_mask", "0x8007"), ("trigger.std.1", "100"), ("trigger.std.2", "0"),
      ("trigger.std_mask", "0x8002"), ("trigger.std.15", "7")]
    b.checkAgainst b = .ok () ∧ (∀ edit ∈ edits, isTriggerEdit edit = true) ∧
      ∃ next, (ofBlock b).setAll edits = .ok next ∧
        (next.apply b).samples = (next.apply b).triggerSamples ∧
        ∀ current own trigger, (next.apply b).rejection? current ≠ some (.samples own trigger) := by
  intro b edits
  have hcheck : b.checkAgainst b = .ok () := by decide +kernel
  have hedits : ∀ edit ∈ edits, isTriggerEdit edit = true := by decide +kernel
  obtain ⟨counted, next, huntil, hrun, hiff, haccepted⟩ :=
    samples_eq_triggerSamples_iff hcheck hedits
  have hzero : ((ofBlock b).setAll (untilCount edits)).toOption.map
      (fun counted => counted.surplus (sinceCount edits)) = some 0 := by decide +kernel
  rw [huntil] at hzero
  have hsurplus : counted.surplus (sinceCount edits) = 0 := Option.some.inj hzero
  exact ⟨hcheck, hedits, next, hrun, hiff.mpr hsurplus, haccepted hsurplus⟩

set_option maxRecDepth 20000 in
/-- One edit of the mask that disables both operands leaves the number of samples behind, and the
block that the form was made of refuses the result for it. -/
theorem samples_ne_triggerSamples :
    let b : Block := { samples := 16, trigger := { standard := .ofValues 6 [0, 8, 8] } }
    let edits := [("trigger.std_mask", "0x0")]
    b.checkAgainst b = .ok () ∧ (∀ edit ∈ edits, isTriggerEdit edit = true) ∧
      ∃ next, (ofBlock b).setAll edits = .ok next ∧
        (next.apply b).samples = 16 ∧ (next.apply b).triggerSamples = 0 ∧
        (next.apply b).checkAgainst b = .error (.rejected (.samples 16 0)) := by
  intro b edits
  refine ⟨by decide +kernel, by decide +kernel, ?_⟩
  have hresult : ((ofBlock b).setAll edits).toOption.map (fun next =>
      ((next.apply b).samples, (next.apply b).triggerSamples, (next.apply b).rejection? b)) =
      some (16, 0, some (.samples 16 0)) := by decide +kernel
  cases hrun : (ofBlock b).setAll edits with
  | error e => simp [hrun, Except.toOption] at hresult
  | ok next =>
    rw [hrun] at hresult
    simp only [Except.toOption, Option.map_some, Option.some.injEq, Prod.mk.injEq] at hresult
    obtain ⟨hsamples, htrigger, hrejected⟩ := hresult
    exact ⟨next, rfl, hsamples, htrigger, by rw [Block.checkAgainst, hrejected]⟩

end Form

end ZioControl
