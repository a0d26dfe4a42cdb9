import ZioControl.Proofs.FormRoundTrip
import ZioControl.Proofs.Samples

/-!
# Ordinary edits

A block that a device takes stays one that it takes under every run of ordinary edits, whatever is
typed into the other fields (`Form.checkAgainst_setEach`). An edit is ordinary if it is not of a
field that a check compares, and does not type into one of the three linked slots what the form and
a slot read differently: a number with a sign, or for the resolution one that only fits a slot.
`Form.Keeps` is what such edits keep: the texts of the fields that the device fixes, and the two
numbers that follow the linked slots.
-/

namespace ZioControl

namespace Form

/-- The names of the fields that are not edited in ordinary edits, those of the address apart. -/
def reservedNames : List String :=
  ["major_version", "ssize", "nsamples", "nbits", "channel.std_mask", "trigger.std_mask"]

/-- An edit of any name other than those, with any text, but not with a sign in one of the slots
that a number follows, nor with a number that fits the resolution's slot and not the number of
bits. -/
structure IsOrdinary (edit : String × String) : Prop where
  /-- The field is none that the check compares. -/
  name : edit.1 ∉ reservedNames
  /-- The field is none of the address. -/
  address : ¬"addr.".toList <+: edit.1.toList
  /-- There is no sign in a slot that a number follows. -/
  sign : edit.1 ∈ ["trigger.std.1", "trigger.std.2", "channel.std.0"] →
    (Text.trim edit.2.toList).head? ≠ some '+' ∧ (Text.trim edit.2.toList).head? ≠ some '-'
  /-- The resolution is no number that fits 32 bits but not 16. -/
  fits : edit.1 = "channel.std.0" → ∀ v, Text.natural? 10 (Text.trim edit.2.toList) = some v →
    ¬(65536 ≤ v ∧ v ≤ 4294967295)

instance : DecidablePred IsOrdinary := fun edit =>
  decidable_of_iff
    (edit.1 ∉ reservedNames ∧ ¬"addr.".toList <+: edit.1.toList ∧
      (edit.1 ∈ ["trigger.std.1", "trigger.std.2", "channel.std.0"] →
        (Text.trim edit.2.toList).head? ≠ some '+' ∧ (Text.trim edit.2.toList).head? ≠ some '-') ∧
      (edit.1 = "channel.std.0" → ∀ v ∈ Text.natural? 10 (Text.trim edit.2.toList),
        ¬(65536 ≤ v ∧ v ≤ 4294967295)))
    ⟨fun ⟨hname, haddress, hsign, hfits⟩ => ⟨hname, haddress, hsign, hfits⟩,
      fun h => ⟨h.name, h.address, h.sign, h.fits⟩⟩

/-- The fields that a check compares with what the device holds, and the masks of the slots that
the two numbers follow. -/
def fixedFields : List Field :=
  [.majorVersion, .sampleSize, .hostType, .deviceId, .channelSet, .channel, .device,
    .mask .channel .standard, .mask .trigger .standard]

/-- The slot of the channel's resolution. -/
def resolutionSlot : Fin Kind.standard.capacity := ⟨Slot.resolution, show 0 < 16 by decide⟩

variable {form next : Form} {b : Block} {field : Field} {name text : String}
  {edits : List (String × String)}

/-- An ordinary edit is of none of the fields that are fixed or follow others. -/
theorem IsOrdinary.field_ne (h : IsOrdinary (name, text))
    (hfield : Field.ofName? name = some field) : field ∉ fixedFields ∧
      field ≠ .samples ∧ field ≠ .sampleBits := by
  have hnames : ∀ fixed ∈ .samples :: .sampleBits :: fixedFields,
      fixed.name ∈ reservedNames ∨ "addr.".toList <+: fixed.name.toList := by decide
  have hother : field ∉ .samples :: .sampleBits :: fixedFields := by
    intro hfixed
    rw [← Field.name_of_ofName? hfield] at h
    exact (hnames field hfixed).elim h.name h.address
  simp only [List.mem_cons, not_or] at hother
  exact ⟨hother.2.2, hother.1, hother.2.1⟩

/-- A text that reads the same whether or not a sign counts. -/
def IsPlain (text : String) : Prop :=
  Text.lenientWord text.toList = UInt32.ofNat (Text.lenientDecimal UInt32.size text.toList)

/-- The count reads a slot of the trigger as the set does. -/
def CountsSlot (form : Form) (index : Fin Kind.standard.capacity) : Prop :=
  form.typedSlot index = UInt32.ofNat (form.number UInt32.size (.slot .trigger .standard index))

/-- The number of bits is what the slot of the channel's resolution is read as. -/
def FollowsResolution (form : Form) : Prop :=
  UInt32.ofNat (form.number UInt16.size .sampleBits) =
    Text.lenientWord (form.text resolution).toList

/-- What ordinary edits keep of the form of a block. -/
structure Keeps (b : Block) (form : Form) : Prop where
  /-- The texts of the fixed fields. -/
  fixed : ∀ field ∈ fixedFields, form.text field = (ofBlock b).text field
  /-- The samples before the trigger fires are read alike. -/
  pre : form.CountsSlot preSlot
  /-- So are those after it fires. -/
  post : form.CountsSlot postSlot
  /-- The number of samples is the sum of both. -/
  counted : form.IsCounted
  /-- The number of bits is the resolution. -/
  bits : form.FollowsResolution

/-- The form of a block that a device takes has all that ordinary edits keep. -/
theorem keeps_ofBlock (h : b.Agrees) : Keeps b (ofBlock b) where
  fixed _ _ := rfl
  pre := unsigned_ofBlock b preSlot (by decide)
  post := unsigned_ofBlock b postSlot (by decide)
  counted := isCounted_ofBlock h.samples
  bits := by
    have hnumber : (ofBlock b).number UInt16.size .sampleBits = b.sampleBits.toNat :=
      Text.lenientDecimal_decimal b.sampleBits.toNat_lt
    have hread : slotValue .standard Slot.resolution ((ofBlock b).text resolution) =
        Text.lenientWord ((ofBlock b).text resolution).toList :=
      slotValue_eq_lenientWord (by decide) _
    have hslot : slotValue .standard Slot.resolution ((ofBlock b).text resolution) =
        (b.channel.standard.get? Slot.resolution).getD 0 :=
      slotValue_slotText .standard Slot.resolution _
    rw [FollowsResolution, hnumber, ← hread, hslot,
      ← AttributeSet.getElem_values _ _ (by decide), ← h.bits, UInt32.ofNat_uInt16ToNat]

/-- The number of bits after an edit of the resolution. -/
theorem number_sampleBits_edit : (form.edit resolution text).number UInt16.size .sampleBits =
    Text.lenientDecimal UInt16.size text.toList := by
  have hread : Text.lenientDecimal UInt16.size text.toList =
      ((Text.natural? 10 (Text.trim text.toList)).filter (· < UInt16.size)).getD 0 := rfl
  rw [number, text_sampleBits_edit, hread]
  cases hv : (Text.natural? 10 (Text.trim text.toList)).filter (· < UInt16.size) with
  | none => rfl
  | some v =>
    have hlt : v < UInt16.size := by simpa using (Option.filter_eq_some_iff.mp hv).2
    exact Text.lenientDecimal_decimal hlt

/-- An edit of a slot with a plain text, or of any other field than its mask, has it read alike
still. -/
theorem CountsSlot.edit {index : Fin Kind.standard.capacity} (h : form.CountsSlot index)
    (hindex : index.val ≠ Slot.version) (hmask : field ≠ .mask .trigger .standard)
    (hplain : field = .slot .trigger .standard index → IsPlain text) :
    (form.edit field text).CountsSlot index := by
  by_cases hfield : field = .slot .trigger .standard index
  · have htext : (form.edit field text).text (.slot .trigger .standard index) = text := by
      rw [hfield, text_edit_self]
    rw [CountsSlot, typedSlot, number, htext, slotValue_eq_lenientWord hindex]
    exact hplain hfield
  · have htext : (form.edit field text).text (.slot .trigger .standard index) =
        form.text (.slot .trigger .standard index) := text_edit_slot_of_ne hfield hmask
    rw [CountsSlot, typedSlot, number, htext]
    exact h

/-- An edit of a field that is not fixed leaves those that are. -/
theorem text_fixed_edit {fixed : Field} (hfixed : fixed ∈ fixedFields)
    (hfield : field ∉ fixedFields) : (form.edit field text).text fixed = form.text fixed := by
  refine text_edit_of_not_reaches fun hreaches => ?_
  cases hreaches with
  | self => exact hfield hfixed
  -- no fixed field follows another one
  | pre | post | bits | slot => simp [fixedFields] at hfixed

/-- An edit of another field than the number of samples keeps it the sum of the operands, if the
count reads these as the set does. -/
theorem IsCounted.edit (h : form.IsCounted) (hfield : field ≠ .samples)
    (hmask : field ≠ .mask .trigger .standard) (hpre : (form.edit field text).CountsSlot preSlot)
    (hpost : (form.edit field text).CountsSlot postSlot) : (form.edit field text).IsCounted := by
  by_cases hoperand : field = preSamples ∨ field = postSamples
  · exact isCounted_edit hoperand hpre hpost
  · obtain ⟨hnotPre, hnotPost⟩ := not_or.mp hoperand
    have hnumber : (form.edit field text).text .samples = form.text .samples := by
      refine text_edit_of_not_reaches fun hreaches => ?_
      cases hreaches with
      | self => exact hfield rfl
      | pre => exact hnotPre rfl
      | post => exact hnotPost rfl
    have hpreSlot : (form.edit field text).typedSlot preSlot = form.typedSlot preSlot :=
      congrArg (slotValue .standard _) (text_edit_slot_of_ne hnotPre hmask)
    have hpostSlot : (form.edit field text).typedSlot postSlot = form.typedSlot postSlot :=
      congrArg (slotValue .standard _) (text_edit_slot_of_ne hnotPost hmask)
    rw [IsCounted, number, hnumber, hpreSlot, hpostSlot]
    exact h

/-- An edit of the resolution with a plain text that reads the same in 16 bits as in 32, or of
another field than its mask and the number of bits, has that number follow it still. -/
theorem FollowsResolution.edit (h : form.FollowsResolution) (hfield : field ≠ .sampleBits)
    (hmask : field ≠ .mask .channel .standard) (hplain : field = resolution → IsPlain text)
    (hfits : field = resolution → Text.lenientDecimal UInt32.size text.toList =
      Text.lenientDecimal UInt16.size text.toList) :
    (form.edit field text).FollowsResolution := by
  by_cases hresolution : field = resolution
  · subst hresolution
    rw [FollowsResolution, text_edit_self, hplain rfl, hfits rfl, number_sampleBits_edit]
  · have hnumber : (form.edit field text).text .sampleBits = form.text .sampleBits := by
      refine text_edit_of_not_reaches fun hreaches => ?_
      cases hreaches with
      | self => exact hfield rfl
      | bits => exact hresolution rfl
    have hslot : (form.edit field text).text resolution = form.text resolution :=
      text_edit_slot_of_ne hresolution hmask
    rw [FollowsResolution, number, hnumber, hslot]
    exact h

/-- An edit of none of the fixed fields keeps what is to be kept, if its text is plain in a linked
slot, and reads the same in 16 bits as in 32 in the resolution's. -/
theorem Keeps.edit (h : Keeps b form) (hfixed : field ∉ fixedFields) (hsamples : field ≠ .samples)
    (hbits : field ≠ .sampleBits)
    (hplain : field ∈ [preSamples, postSamples, resolution] → IsPlain text)
    (hfits : field = resolution → Text.lenientDecimal UInt32.size text.toList =
      Text.lenientDecimal UInt16.size text.toList) :
    Keeps b (form.edit field text) := by
  have hmask (owner : Owner) : field ≠ .mask owner .standard := by
    rintro rfl
    exact hfixed (by cases owner <;> decide)
  have hpre := h.pre.edit (by decide) (hmask .trigger) fun hfield => hplain (hfield ▸ by decide)
  have hpost := h.post.edit (by decide) (hmask .trigger) fun hfield => hplain (hfield ▸ by decide)
  exact {
    fixed := fun fixed hmem => (text_fixed_edit hmem hfixed).trans (h.fixed fixed hmem)
    pre := hpre
    post := hpost
    counted := h.counted.edit hsamples (hmask .trigger) hpre hpost
    bits := h.bits.edit hbits (hmask .channel) (fun hfield => hplain (by simp [hfield])) hfits }

/-- An ordinary edit keeps what is to be kept. -/
theorem Keeps.set (h : Keeps b form) (hedit : IsOrdinary (name, text))
    (hset : form.set name text = .ok next) : Keeps b next := by
  obtain ⟨field, hfield, -, rfl⟩ := set_eq_ok_iff.mp hset
  obtain ⟨hfixed, hsamples, hbits⟩ := hedit.field_ne hfield
  have hname := Field.name_of_ofName? hfield
  refine h.edit hfixed hsamples hbits (fun hlinked => ?_) fun hresolution => ?_
  · have hnames : ∀ linked ∈ [preSamples, postSamples, resolution],
        linked.name ∈ ["trigger.std.1", "trigger.std.2", "channel.std.0"] := by decide
    obtain ⟨hplus, hminus⟩ := hedit.sign (hname ▸ hnames field hlinked)
    exact Text.lenientWord_eq hplus hminus
  · have hslot : resolution.name = "channel.std.0" := by decide
    refine Text.lenientDecimal_eq_of_fits (by decide) fun v hv hrange => ?_
    have hrange' : 65536 ≤ v ∧ v < 4294967296 := hrange
    exact hedit.fits (hname ▸ hresolution ▸ hslot) v hv (by omega)

/-! ## What is taken -/

/-- The masks of the linked slots are those of the block. -/
theorem Keeps.hexWord_mask (h : Keeps b form) (owner : Owner) :
    form.hexWord (.mask owner .standard) = (b.attributes owner).standard.mask := by
  have htext : form.text (.mask owner .standard) = (ofBlock b).text (.mask owner .standard) :=
    h.fixed _ (by cases owner <;> decide)
  rw [hexWord, htext]
  exact Text.lenientHex_hex _

/-- The form stands for a block for the same device, if the name of the device has no blanks to
lose. -/
theorem Keeps.sameDevice (h : Keeps b form)
    (hname : ∀ c, b.address.device.toList.getLast? = some c → Text.isBlank c = false) :
    (form.apply b).SameDevice b := by
  -- the unedited form stands for such a block, and there is no difference in what is compared
  have hself : ((ofBlock b).apply b).SameDevice b := by
    rw [apply_ofBlock, Block.onto, Name.stripped_eq_self hname]
    exact ⟨rfl, rfl, rfl⟩
  have hversion : (form.apply b).majorVersion = ((ofBlock b).apply b).majorVersion := by
    simp only [apply, number, h.fixed .majorVersion (by decide)]
  have hsampleSize : (form.apply b).sampleSize = ((ofBlock b).apply b).sampleSize := by
    simp only [apply, number, h.fixed .sampleSize (by decide)]
  have haddress : (form.apply b).address = ((ofBlock b).apply b).address := by
    have hfixed : ∀ field ∈ addressFields, field ∈ fixedFields := by decide
    exact address_apply_congr b fun field hfield => h.fixed field (hfixed field hfield)
  exact {
    version := hversion.trans hself.version
    sampleSize := hsampleSize.trans hself.sampleSize
    address := haddress.trans hself.address }

/-- The form stands for a block that agrees with itself, if the linked slots are enabled. -/
theorem Keeps.agrees (h : Keeps b form)
    (hpre : b.trigger.standard.isEnabled Slot.preSamples = true)
    (hpost : b.trigger.standard.isEnabled Slot.postSamples = true)
    (hresolution : b.channel.standard.isEnabled Slot.resolution = true) :
    (form.apply b).Agrees where
  samples := by
    have hsum : (form.apply b).triggerSamples =
        ((form.attributeSet .trigger .standard).get? preSlot.val).getD 0 +
          ((form.attributeSet .trigger .standard).get? postSlot.val).getD 0 := rfl
    have hpreSlot : (b.attributes .trigger).standard.mask.has preSlot.val = true := hpre
    have hpostSlot : (b.attributes .trigger).standard.mask.has postSlot.val = true := hpost
    rw [hsum, getD_get?_attributeSet, getD_get?_attributeSet, h.hexWord_mask, if_pos hpreSlot,
      if_pos hpostSlot]
    exact h.counted
  bits := by
    have hlt : form.number UInt16.size .sampleBits < UInt16.size :=
      form.number_lt (by decide) _
    have hvalue : (form.apply b).channel.standard.values[Slot.resolution] =
        ((form.attributeSet .channel .standard).get? resolutionSlot.val).getD 0 :=
      AttributeSet.getElem_values _ _ _
    have henabled : (b.attributes .channel).standard.mask.has resolutionSlot.val = true :=
      hresolution
    rw [hvalue, get?_attributeSet, h.hexWord_mask, if_pos henabled, Option.getD_some,
      slotValue_eq_lenientWord (by decide)]
    exact (UInt16.toUInt32_ofNat' hlt).trans h.bits

/-- Every run of ordinary edits of the form of a block that a device takes leaves one that the
device takes, if the name of the device does not end with a blank and the linked slots are
enabled. -/
theorem checkAgainst_setEach (hcheck : b.checkAgainst b = .ok ())
    (hname : ∀ c, b.address.device.toList.getLast? = some c → Text.isBlank c = false)
    (hpre : b.trigger.standard.isEnabled Slot.preSamples = true)
    (hpost : b.trigger.standard.isEnabled Slot.postSamples = true)
    (hresolution : b.channel.standard.isEnabled Slot.resolution = true)
    (hedits : ∀ edit ∈ edits, IsOrdinary edit) :
    (((ofBlock b).setEach edits).apply b).checkAgainst b = .ok () := by
  have hagrees := (Block.checkAgainst_eq_ok_iff.mp hcheck).2
  have hkeeps : Keeps b ((ofBlock b).setEach edits) :=
    setEach_invariant (keeps_ofBlock hagrees) fun edit hedit _ _ hform hset =>
      hform.set (hedits edit hedit) hset
  exact Block.checkAgainst_eq_ok_iff.mpr
    ⟨hkeeps.sameDevice hname, hkeeps.agrees hpre hpost hresolution⟩

/-- Edits of which some fail and some type no number at all, with a sum that exceeds 32 bits. -/
theorem checkAgainst_setEach_garbage :
    let b : Block := {
      samples := 16
      sampleBits := 12
      address := { device := "adc 1" }
      trigger := { standard := .ofValues 6 [0, 8, 8] }
      channel := { standard := .ofValues 1 [12] } }
    let edits := [("trigger.std.1", "eight"), ("channel.std.0", "\t0014 "), ("no field", "-1"),
      ("trigger.std.2", "4294967295"), ("trigger.std.1", "18"), ("channel.std.15", "-5"),
      ("channel.ext_mask", "0xffff"), ("seq_num", "99999999999")]
    (∀ edit ∈ edits, IsOrdinary edit) ∧
      (((ofBlock b).setEach edits).apply b).samples = 17 ∧
      (((ofBlock b).setEach edits).apply b).sampleBits = 14 ∧
      (((ofBlock b).setEach edits).apply b).checkAgainst b = .ok () := by
  intro b edits
  have hcheck : b.checkAgainst b = .ok () := by decide +kernel
  have hname : ∀ c, b.address.device.toList.getLast? = some c → Text.isBlank c = false := by
    have hlast : b.address.device.toList.getLast? = some '1' := by decide
    intro c hc
    obtain rfl := Option.some.inj (hlast.symm.trans hc)
    decide
  have hedits : ∀ edit ∈ edits, IsOrdinary edit := by decide +kernel
  exact ⟨hedits, by decide +kernel, by decide +kernel,
    checkAgainst_setEach hcheck hname (by decide +kernel) (by decide +kernel) (by decide +kernel)
      hedits⟩

end Form

end ZioControl
