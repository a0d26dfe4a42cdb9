import ZioControl.Proofs.Resolution

/-!
# Entering again what is shown

Entering the text that a form shows already is an edit like any other: a mask blanks slots, and the
numbers of samples and of bits follow what is entered. It does no harm in a block that its own
device takes (`Form.apply_setAll_of_reenters`), for there a slot that the mask lacks is blank
already, and both numbers are what they follow (`Block.Settled`). Only the text of the number of
bits can change, from zero to a blank, which is read as zero (`Form.ShowsAgain`). In a block that is
not settled, some entry does change what the form stands for (`Form.settled_iff`).
-/

namespace ZioControl

/-- The numbers of samples and of bits are those that the trigger and the channel give. -/
structure Block.Settled (b : Block) : Prop where
  /-- The samples are those before and after the trigger fires. -/
  samples : b.samples = b.triggerSamples
  /-- The bits are those that the channel's resolution gives. -/
  bits : b.sampleBits = bitsOf b.channel.standard.values[Slot.resolution]

/-- A block that agrees with itself is settled. -/
theorem Block.Agrees.settled {b : Block} (h : b.Agrees) : b.Settled where
  samples := h.samples
  bits := by
    have hlt : b.sampleBits.toUInt32.toNat < UInt16.size := by
      rw [UInt16.toNat_toUInt32]
      exact b.sampleBits.toNat_lt
    rw [← h.bits, ← UInt16.toNat_inj, toNat_bitsOf, if_pos hlt, UInt16.toNat_toUInt32]

namespace Form

/-- An edit that enters what the form of a block shows, but not for the host's identity. -/
def Reenters (b : Block) (edit : String × String) : Prop :=
  edit.1 ≠ "addr.hostid" ∧ (ofBlock b).get? edit.1 = some edit.2

instance (b : Block) : DecidablePred (Reenters b) := fun _ => inferInstanceAs (Decidable (_ ∧ _))

/-- What entering the texts of a block's form again keeps. -/
structure ShowsAgain (b : Block) (form : Form) : Prop where
  /-- Every text but that of the number of bits is the one of the block. -/
  texts : ∀ field, field ≠ .sampleBits → form.text field = (ofBlock b).text field
  /-- The number of bits is read as the one of the block. -/
  bits : UInt16.ofNat (form.number UInt16.size .sampleBits) = b.sampleBits

variable {b : Block} {form next : Form} {field : Field} {edits : List (String × String)}

/-- An edit that enters what is shown is one of a field, with the field's text. -/
theorem Reenters.exists_field {edit : String × String} (h : Reenters b edit) :
    ∃ field, Field.ofName? edit.1 = some field ∧ field ≠ .hostId ∧
      edit.2 = (ofBlock b).text field := by
  obtain ⟨hhost, hshown⟩ := h
  obtain ⟨field, hname, htext⟩ := Option.map_eq_some_iff.mp hshown
  refine ⟨field, hname, ?_, htext.symm⟩
  rintro rfl
  exact hhost (Field.name_of_ofName? hname).symm

/-- The form of a block stands for no other texts than those that it shows. -/
theorem showsAgain_ofBlock (b : Block) : ShowsAgain b (ofBlock b) where
  texts _ _ := rfl
  bits := Text.lenientDecimal_uint16 b.sampleBits

/-! ## Numbers that follow -/

/-- The operands that a block shows sum up to the samples of its trigger. -/
theorem operandSum_ofBlock (b : Block) : (ofBlock b).operandSum = b.triggerSamples := by
  have hpre := unsigned_ofBlock b preSlot (by decide)
  have hpost := unsigned_ofBlock b postSlot (by decide)
  rw [typedSlot_ofBlock] at hpre hpost
  rw [operandSum]
  exact (congrArg₂ (· + ·) hpre hpost).symm

/-- The bits that the text of a block's resolution gives are those of the resolution. -/
theorem ofNat_lenientDecimal_resolution (b : Block) :
    UInt16.ofNat (Text.lenientDecimal UInt16.size ((ofBlock b).text resolution).toList) =
      bitsOf b.channel.standard.values[Slot.resolution] := by
  have hindex : Slot.resolution ≠ Slot.version := by decide
  -- the text has no sign, so the number of bits and the slot read the same number
  have hplain := lenientWord_slotText hindex (b.channel.standard.get? Slot.resolution)
  have hword : Text.lenientWord ((ofBlock b).text resolution).toList =
      b.channel.standard.values[Slot.resolution] := by
    rw [AttributeSet.getElem_values, ← slotValue_eq_lenientWord hindex]
    exact slotValue_slotText .standard Slot.resolution _
  calc UInt16.ofNat (Text.lenientDecimal UInt16.size ((ofBlock b).text resolution).toList)
      = bitsOf (UInt32.ofNat
          (Text.lenientDecimal UInt32.size ((ofBlock b).text resolution).toList)) :=
        (bitsOf_ofNat_filter _).symm
    _ = bitsOf (Text.lenientWord ((ofBlock b).text resolution).toList) :=
        congrArg bitsOf hplain.symm
    _ = bitsOf b.channel.standard.values[Slot.resolution] := by rw [hword]

/-- A slot that a mask of the block lacks is blank. -/
theorem text_ofBlock_of_lacks {owner : Owner} {kind : Kind} {index : Fin kind.capacity}
    (hlacks : Mask.has ((b.attributes owner).ofKind kind).mask index.val = false) :
    (ofBlock b).text (.slot owner kind index) = "" := by
  have hnone : ((b.attributes owner).ofKind kind).get? index.val = none := by
    rw [AttributeSet.get?_of_lt _ index.isLt, hlacks]
    rfl
  have htext : (ofBlock b).text (.slot owner kind index) =
      slotText kind index.val (((b.attributes owner).ofKind kind).get? index.val) := rfl
  rw [htext, hnone, slotText]

/-! ## One entry -/

/-- After an entry of an operand the number of samples is the trigger's. -/
theorem text_samples_reenter (h : ShowsAgain b form)
    (hoperand : field = preSamples ∨ field = postSamples) :
    (form.edit field ((ofBlock b).text field)).text .samples =
      Text.decimal b.triggerSamples.toNat := by
  have htext : ∀ other, other = preSamples ∨ other = postSamples →
      (form.edit field ((ofBlock b).text field)).text other = (ofBlock b).text other := by
    intro other hother
    rw [text_operand_edit hoperand hother]
    split
    · next heq => rw [heq]
    · next hne =>
      refine h.texts other ?_
      rintro rfl
      simp [preSamples, postSamples] at hother
  have hsum : (form.edit field ((ofBlock b).text field)).operandSum = b.triggerSamples := by
    rw [operandSum_congr (htext _ (.inl rfl)) (htext _ (.inr rfl)), operandSum_ofBlock]
  rw [text_samples_edit hoperand, hsum]

/-- An entry keeps a form showing the block, if that is settled. -/
theorem ShowsAgain.edit (h : ShowsAgain b form) (hsettled : b.Settled) (field : Field) :
    ShowsAgain b (form.edit field ((ofBlock b).text field)) where
  texts place hplace := by
    have hsamples : (ofBlock b).text .samples = Text.decimal b.triggerSamples.toNat :=
      congrArg (fun n : UInt32 => Text.decimal n.toNat) hsettled.samples
    by_cases hreaches : Reaches field place
    · cases hreaches with
      | self => rw [text_edit_self]
      | pre => rw [text_samples_reenter h (.inl rfl), hsamples]
      | post => rw [text_samples_reenter h (.inr rfl), hsamples]
      | bits => exact absurd rfl hplace
      | slot owner kind index =>
        have hmask : Text.lenientHex ((ofBlock b).text (.mask owner kind)).toList =
            ((b.attributes owner).ofKind kind).mask := Text.lenientHex_hex _
        rw [text_edit_mask_slot, hmask]
        split
        · next hlacks => rw [text_ofBlock_of_lacks hlacks.2.2]
        · exact h.texts _ hplace
    · rw [text_edit_of_not_reaches hreaches, h.texts place hplace]
  bits := by
    by_cases hreaches : Reaches field .sampleBits
    · cases hreaches with
      | self =>
        rw [number, text_edit_self]
        exact Text.lenientDecimal_uint16 b.sampleBits
      | bits => rw [number_sampleBits_edit, ofNat_lenientDecimal_resolution, ← hsettled.bits]
    · rw [number, text_edit_of_not_reaches hreaches]
      exact h.bits

/-! ## Runs -/

/-- A form that shows a block again stands for what the form of the block does. -/
theorem ShowsAgain.apply_eq (h : ShowsAgain b form) (base : Block) :
    form.apply base = (ofBlock b).apply base := by
  have hbits : UInt16.ofNat (form.number UInt16.size .sampleBits) =
      UInt16.ofNat ((ofBlock b).number UInt16.size .sampleBits) :=
    h.bits.trans (showsAgain_ofBlock b).bits.symm
  have hattributes (owner : Owner) : form.attributes owner = (ofBlock b).attributes owner := by
    simp only [attributes, attributeSet, hexWord, h.texts, ne_eq, reduceCtorEq, not_false_eq_true]
  have hzio : form.alarms .zioAlarms = (ofBlock b).alarms .zioAlarms :=
    alarms_congr (h.texts _ (by simp))
  have hdevice : form.alarms .deviceAlarms = (ofBlock b).alarms .deviceAlarms :=
    alarms_congr (h.texts _ (by simp))
  rw [apply, apply, hbits, hattributes, hattributes, hzio, hdevice]
  simp only [number, hexWord, nameText, h.texts, ne_eq, reduceCtorEq, not_false_eq_true]

/-- A run of entries succeeds, and leaves a form that shows the block, if that is settled. -/
theorem exists_showsAgain (hsettled : b.Settled) (hedits : ∀ edit ∈ edits, Reenters b edit) :
    ∃ next, (ofBlock b).setAll edits = .ok next ∧ ShowsAgain b next := by
  obtain ⟨next, hrun⟩ := exists_setAll_of_ofName? (ofBlock b) fun edit hedit => by
    obtain ⟨field, hname, hhost, -⟩ := (hedits edit hedit).exists_field
    exact ⟨field, hname, hhost⟩
  refine ⟨next, hrun, setAll_invariant hrun (showsAgain_ofBlock b) ?_⟩
  intro edit hedit mid last hmid hset
  obtain ⟨field, hname, -, htext⟩ := (hedits edit hedit).exists_field
  obtain ⟨field', hname', -, rfl⟩ := set_eq_ok_iff.mp hset
  obtain rfl := Option.some.inj (hname.symm.trans hname')
  rw [htext]
  exact hmid.edit hsettled field

/-- A block is settled exactly if no entry of what is shown for one field changes what the form
stands for. -/
theorem settled_iff : b.Settled ↔ ∀ field base,
    ((ofBlock b).edit field ((ofBlock b).text field)).apply base = (ofBlock b).apply base := by
  constructor
  · intro hsettled field base
    exact ((showsAgain_ofBlock b).edit hsettled field).apply_eq base
  · intro hsame
    have hself := apply_ofBlock b b
    constructor
    · have hsamples := congrArg Block.samples ((hsame preSamples b).trans hself)
      have hcount : ((ofBlock b).edit preSamples ((ofBlock b).text preSamples)).number UInt32.size
          .samples = b.triggerSamples.toNat := by
        rw [number, text_samples_reenter (showsAgain_ofBlock b) (.inl rfl)]
        exact Text.lenientDecimal_decimal b.triggerSamples.toNat_lt
      have hread := congrArg UInt32.ofNat hcount
      rw [UInt32.ofNat_toNat] at hread
      exact hsamples.symm.trans hread
    · have hbits := congrArg Block.sampleBits ((hsame resolution b).trans hself)
      have hread : UInt16.ofNat (((ofBlock b).edit resolution ((ofBlock b).text resolution)).number
          UInt16.size .sampleBits) = bitsOf b.channel.standard.values[Slot.resolution] := by
        rw [number_sampleBits_edit, ofNat_lenientDecimal_resolution]
      exact hbits.symm.trans hread

/-- Entering what the form of a block shows, field by field, in any order and as often as one likes,
succeeds and changes nothing in what the form stands for, if a device that holds the block takes
it. -/
theorem apply_setAll_of_reenters (hcheck : b.checkAgainst b = .ok ())
    (hedits : ∀ edit ∈ edits, Reenters b edit) :
    ∃ next, (ofBlock b).setAll edits = .ok next ∧
      ∀ base, next.apply base = (ofBlock b).apply base := by
  have hsettled := (Block.checkAgainst_eq_ok_iff.mp hcheck).2.settled
  obtain ⟨next, hrun, hshows⟩ := exists_showsAgain hsettled hedits
  exact ⟨next, hrun, hshows.apply_eq⟩

set_option maxRecDepth 20000 in
/-- Masks, operands, a version, a name with a space at its end, and a resolution that is disabled,
so that the number of bits goes blank. -/
theorem apply_setAll_of_reenters_blank :
    let b : Block := {
      samples := 15
      address := { device := "adc " }
      trigger := { standard := .ofValues 0x8006 ([0, 8, 7] ++ .replicate 13 0xab) } }
    let edits := [("channel.std.0", ""), ("trigger.std_mask", "0x8006"), ("trigger.std.2", "7"),
      ("trigger.std.15", "0xab"), ("trigger.std.15", "0xab"), ("addr.devname", "adc "),
      ("channel.ext_mask", "0x0"), ("trigger.std.1", "8")]
    b.checkAgainst b = .ok () ∧ (∀ edit ∈ edits, Reenters b edit) ∧
      ∃ next, (ofBlock b).setAll edits = .ok next ∧ next.text .sampleBits = "" ∧
        ∀ base, next.apply base = (ofBlock b).apply base := by
  intro b edits
  have hcheck : b.checkAgainst b = .ok () := by decide +kernel
  have hedits : ∀ edit ∈ edits, Reenters b edit := by decide +kernel
  obtain ⟨next, hrun, hsame⟩ := apply_setAll_of_reenters hcheck hedits
  have hblank : ((ofBlock b).setAll edits).toOption.map (fun next => next.text .sampleBits) =
      some "" := by decide +kernel
  rw [hrun] at hblank
  exact ⟨hcheck, hedits, next, hrun, Option.some.inj hblank, hsame⟩

end Form

end ZioControl
