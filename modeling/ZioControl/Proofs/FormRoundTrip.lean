import ZioControl.Proofs.Simulation

/-!
# Forms read back

What a form shows of a block, it stands for: every number, alarm, flag, mask and value of the block
is read back as it was (`Form.apply_ofBlock`). The texts do not carry everything. What a form does
not show comes from the base that it is applied to, and a name loses the blanks at its end
(`Block.onto`). Nothing more is lost the second time: the block that a form stands for is shown by
the same form respelled (`Form.ofBlock_apply`), which stands for the same block.
-/

namespace ZioControl

/-- A name without the blanks at its end. -/
def Name.stripped (name : String) : String := String.ofList (name.toList.rdropWhile Text.isBlank)

/-- A stripped name has no more blanks to lose. -/
theorem Name.stripped_stripped (name : String) : stripped (stripped name) = stripped name := by
  rw [stripped, stripped, String.toList_ofList, List.rdropWhile_idempotent]

/-- A name that does not end with a blank stays as it is. -/
theorem Name.stripped_eq_self {name : String}
    (h : ∀ c, name.toList.getLast? = some c → Text.isBlank c = false) : stripped name = name := by
  have hlist : name.toList.rdropWhile Text.isBlank = name.toList := Text.trimEnd_eq_self h
  rw [stripped, hlist, String.ofList_toList]

/-- A block on top of a base, as far as a form shows it: the rest is that of the base, and the names
are stripped. -/
def Block.onto (b base : Block) : Block :=
  { b with
    address := { b.address with
      family := base.address.family
      hostId := base.address.hostId
      device := Name.stripped b.address.device }
    memoryOffset := base.memoryOffset
    reserved := base.reserved
    triggerName := Name.stripped b.triggerName
    extension := base.extension }

namespace Form

variable (b base : Block)

/-- The name that a field stands for is its text, stripped. -/
theorem nameText_eq_stripped (form : Form) (field : Field) :
    form.nameText field = Name.stripped (form.text field) := rfl

/-- Alarms are read back from their text. -/
theorem alarms_of_text {form : Form} {field : Field} {n : UInt8}
    (h : form.text field = Text.hex n.toNat) : form.alarms field = n := by
  have hword : form.hexWord field = n.toUInt32 := by
    rw [hexWord, h, ← UInt8.toNat_toUInt32]
    exact Text.lenientHex_hex n.toUInt32
  have hlt : n.toUInt32 < 0x100 := UInt32.lt_iff_toNat_lt.mpr n.toNat_lt
  rw [alarms, hword, if_pos hlt, UInt8.toUInt8_toUInt32]

/-- Alarms are read from the text of their field. -/
theorem alarms_congr {form other : Form} {field : Field} (h : form.text field = other.text field) :
    form.alarms field = other.alarms field := by
  rw [alarms, alarms, hexWord, hexWord, h]

/-- The attributes of a block are read back. -/
theorem attributes_ofBlock (owner : Owner) : (ofBlock b).attributes owner = b.attributes owner := by
  apply Attributes.ext
  · exact (shows_ofBlock b).attributeSet_eq owner .standard
  · exact (shows_ofBlock b).attributeSet_eq owner .extended

/-- A block is read back from its form, on top of the base. -/
theorem apply_ofBlock : (ofBlock b).apply base = b.onto base := by
  have hzio : (ofBlock b).alarms .zioAlarms = b.zioAlarms := alarms_of_text rfl
  have hdevice : (ofBlock b).alarms .deviceAlarms = b.deviceAlarms := alarms_of_text rfl
  have hflags : (ofBlock b).hexWord .flags = b.flags := Text.lenientHex_hex b.flags
  have hchannel := attributes_ofBlock b .channel
  have htrigger := attributes_ofBlock b .trigger
  simp only [apply, hzio, hdevice, hflags, hchannel, htrigger, nameText_eq_stripped]
  simp only [number, ofBlock, Text.lenientDecimal_uint8, Text.lenientDecimal_uint16,
    Text.lenientDecimal_uint32, Text.lenientDecimal_uint64]
  rfl

/-- The fields of the address that can be edited. -/
def addressFields : List Field := [.hostType, .deviceId, .channelSet, .channel, .device]

/-- The address that a form stands for depends on those fields only. -/
theorem address_apply_congr {form other : Form}
    (h : ∀ field ∈ addressFields, form.text field = other.text field) :
    (form.apply base).address = (other.apply base).address := by
  simp only [addressFields, List.forall_mem_cons] at h
  obtain ⟨hhostType, hdeviceId, hchannelSet, hchannel, hdevice, -⟩ := h
  simp only [apply, number, nameText, hhostType, hdeviceId, hchannelSet, hchannel, hdevice]

/-- What a form stands for on one base is on top of another one what it stands for there. -/
theorem onto_apply (form : Form) (other : Block) :
    (form.apply base).onto other = form.apply other := by
  simp only [Block.onto, apply, nameText_eq_stripped, Name.stripped_stripped]

/-- A form with each text in the spelling in which a block is shown: the numbers and alarms, flags
and masks that its texts stand for, the values of the slots that the masks have, and the names as
they are stripped. The host's identity is that of the base. -/
def respelled (form : Form) (base : Block) : Form where
  text field :=
    match field with
    | .majorVersion | .minorVersion | .hostType => Text.decimal (form.number UInt8.size field)
    | .sampleSize | .sampleBits | .channelSet | .channel =>
      Text.decimal (form.number UInt16.size field)
    | .sequence | .samples | .deviceId => Text.decimal (form.number UInt32.size field)
    | .seconds | .ticks | .bins => Text.decimal (form.number UInt64.size field)
    | .zioAlarms | .deviceAlarms => Text.hex (form.alarms field).toNat
    | .flags => Text.hex (form.hexWord field).toNat
    | .hostId => (ofBlock base).text .hostId
    | .device | .triggerName => Name.stripped (form.text field)
    | .mask _ kind => Text.hex (form.hexWord field &&& Mask.first kind.capacity).toNat
    | .slot owner kind index =>
      if Mask.has (form.hexWord (.mask owner kind)) index.val = true then
        slotText kind index.val (some (slotValue kind index.val (form.text field)))
      else ""

/-- The block that a form stands for is shown as the form is respelled. -/
theorem ofBlock_apply (form : Form) : ofBlock (form.apply base) = form.respelled base := by
  have h8 (field : Field) : (UInt8.ofNat (form.number UInt8.size field)).toNat =
      form.number UInt8.size field := UInt8.toNat_ofNat_of_lt (form.number_lt (by decide) field)
  have h16 (field : Field) : (UInt16.ofNat (form.number UInt16.size field)).toNat =
      form.number UInt16.size field := UInt16.toNat_ofNat_of_lt (form.number_lt (by decide) field)
  have h32 (field : Field) : (UInt32.ofNat (form.number UInt32.size field)).toNat =
      form.number UInt32.size field := UInt32.toNat_ofNat_of_lt (form.number_lt (by decide) field)
  have h64 (field : Field) : (UInt64.ofNat (form.number UInt64.size field)).toNat =
      form.number UInt64.size field := UInt64.toNat_ofNat_of_lt (form.number_lt (by decide) field)
  have hset (owner : Owner) (kind : Kind) :
      ((form.apply base).attributes owner).ofKind kind = form.attributeSet owner kind :=
    sets_apply form base owner kind
  refine Form.ext (funext fun field => ?_)
  cases field with
  | majorVersion | minorVersion | hostType => exact congrArg Text.decimal (h8 _)
  | sampleSize | sampleBits | channelSet | channel => exact congrArg Text.decimal (h16 _)
  | sequence | samples | deviceId => exact congrArg Text.decimal (h32 _)
  | seconds | ticks | bins => exact congrArg Text.decimal (h64 _)
  | zioAlarms | deviceAlarms | flags | hostId | device | triggerName => rfl
  | mask owner kind =>
    simp only [ofBlock, respelled, hset, mask_attributeSet]
  | slot owner kind index =>
    simp only [ofBlock, respelled, hset, get?_attributeSet]
    split <;> rfl

/-- A block is read back from its form field for field, apart from what the base has to give and the
blanks at the ends of the names. The block that any form stands for, whatever was typed into it, is
read back as it is. -/
theorem ofBlock_reads_back :
    (ofBlock b).apply base =
      { b with
        address := { b.address with
          family := base.address.family
          hostId := base.address.hostId
          device := String.ofList (b.address.device.toList.rdropWhile Text.isBlank) }
        memoryOffset := base.memoryOffset
        reserved := base.reserved
        triggerName := String.ofList (b.triggerName.toList.rdropWhile Text.isBlank)
        extension := base.extension } ∧
    ∀ (form : Form) (other : Block),
      (ofBlock (form.apply base)).apply other = form.apply other := by
  refine ⟨apply_ofBlock b base, fun form other => ?_⟩
  rw [apply_ofBlock, onto_apply]

end Form

end ZioControl
