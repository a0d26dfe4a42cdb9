import ZioControl.Block
import ZioControl.Error
import ZioControl.Form.Field

/-!
# Forms

A form is a control as texts, one for each field, for whoever edits it by hand (`ControlForm` in
§10.5 of `SPEC_FULL.md`). `Form.ofBlock` fills the form in, `Form.set` edits one field, and
`Form.apply` reads the texts back into a block. An edit stores its text as it is. Three rules tie
fields together: the number of samples follows the trigger's samples before and after it fires, the
number of bits follows the channel's resolution, and an edit of a mask blanks the slots that the
mask lacks.
-/

namespace ZioControl

/-- A text for every field. -/
@[ext]
structure Form where
  /-- The text of a field. -/
  text : Field → String

namespace Form

/-- Whether a slot is written in hexadecimal, which only the version is. -/
def isHexSlot (kind : Kind) (index : Nat) : Bool := kind = .standard && index = Slot.version

/-- The text for a slot, blank if it is disabled. -/
def slotText (kind : Kind) (index : Nat) : Option UInt32 → String
  | some v => if isHexSlot kind index then Text.hex v.toNat else Text.decimal v.toNat
  | none => ""

/-- The value that the text of a slot stands for. -/
def slotValue (kind : Kind) (index : Nat) (text : String) : UInt32 :=
  if isHexSlot kind index then Text.lenientHex text.toList else Text.lenientWord text.toList

/-- The form that shows a block, with the numerals of §10.5. -/
def ofBlock (b : Block) : Form where
  text
    | .majorVersion => Text.decimal b.majorVersion.toNat
    | .minorVersion => Text.decimal b.minorVersion.toNat
    | .sequence => Text.decimal b.sequence.toNat
    | .sampleSize => Text.decimal b.sampleSize.toNat
    | .sampleBits => Text.decimal b.sampleBits.toNat
    | .samples => Text.decimal b.samples.toNat
    | .zioAlarms => Text.hex b.zioAlarms.toNat
    | .deviceAlarms => Text.hex b.deviceAlarms.toNat
    | .flags => Text.hex b.flags.toNat
    | .hostType => Text.decimal b.address.hostType.toNat
    | .hostId => String.join (b.address.hostId.toList.map fun byte => Text.hexPadded 2 byte.toNat)
    | .deviceId => Text.decimal b.address.deviceId.toNat
    | .channelSet => Text.decimal b.address.channelSet.toNat
    | .channel => Text.decimal b.address.channel.toNat
    | .device => b.address.device
    | .seconds => Text.decimal b.stamp.seconds.toNat
    | .ticks => Text.decimal b.stamp.ticks.toNat
    | .bins => Text.decimal b.stamp.bins.toNat
    | .triggerName => b.triggerName
    | .mask owner kind => Text.hex ((b.attributes owner).ofKind kind).mask.toNat
    | .slot owner kind index =>
      slotText kind index.val (((b.attributes owner).ofKind kind).get? index.val)

/-- The form with the text of one field replaced. -/
def write (form : Form) (field : Field) (text : String) : Form where
  text other := if other = field then text else form.text other

/-- The form with all slots of one kind blank that a mask lacks. -/
def blankOutside (form : Form) (owner : Owner) (kind : Kind) (mask : Mask) : Form where
  text
    | .slot o k index =>
      if o = owner ∧ k = kind ∧ mask.has index.val = false then ""
      else form.text (.slot o k index)
    | other => form.text other

/-- The number that a decimal field stands for, zero if it does not stay below the limit. -/
def number (form : Form) (limit : Nat) (field : Field) : Nat :=
  Text.lenientDecimal limit (form.text field).toList

/-- The word that a hexadecimal field stands for. -/
def hexWord (form : Form) (field : Field) : UInt32 := Text.lenientHex (form.text field).toList

/-- The field for the trigger's samples before it fires. -/
def preSamples : Field := .slot .trigger .standard ⟨Slot.preSamples, by decide⟩

/-- The field for the trigger's samples after it fires. -/
def postSamples : Field := .slot .trigger .standard ⟨Slot.postSamples, by decide⟩

/-- The field for the channel's resolution. -/
def resolution : Field := .slot .channel .standard ⟨Slot.resolution, by decide⟩

/-- The form whose number of samples is the sum, modulo `2^32`, of those before and after the
trigger fires (§4.2). -/
def updateSamples (form : Form) : Form :=
  let sum := UInt32.ofNat (form.number UInt32.size preSamples) +
    UInt32.ofNat (form.number UInt32.size postSamples)
  form.write .samples (Text.decimal sum.toNat)

/-- The form whose number of bits is the channel's resolution, or blank if that is no decimal number
that fits (§4.2). -/
def updateBits (form : Form) : Form :=
  let bits := (Text.natural? 10 (Text.trim (form.text resolution).toList)).filter (· < UInt16.size)
  form.write .sampleBits ((bits.map Text.decimal).getD "")

/-- The form after an edit of one field, with the fields that follow it. -/
def edit (form : Form) (field : Field) (text : String) : Form :=
  let form := form.write field text
  -- the fields that follow read the new text
  match field with
  | .mask owner kind => form.blankOutside owner kind (Text.lenientHex text.toList)
  | field =>
    if field = preSamples ∨ field = postSamples then form.updateSamples
    else if field = resolution then form.updateBits
    else form

/-- Edits the field of a name (§10.5). The host's identity cannot be edited. -/
def set (form : Form) (name text : String) : Except Error Form :=
  match Field.ofName? name with
  | none => .error (.unknownField name)
  | some .hostId => .error (.readOnly name)
  | some field => .ok (form.edit field text)

/-- Edits several fields one after the other, up to the first that cannot be edited. -/
def setAll (form : Form) : List (String × String) → Except Error Form
  | [] => .ok form
  | (name, text) :: rest => form.set name text >>= fun form => form.setAll rest

/-- The text of the field of a name. -/
def get? (form : Form) (name : String) : Option String := (Field.ofName? name).map form.text

/-- Names and texts of all fields in the order of the names. -/
def entries (form : Form) : List (String × String) :=
  Field.sorted.map fun field => (field.name, form.text field)

/-- The name that a field stands for: its text without the blanks at its end. -/
def nameText (form : Form) (field : Field) : String :=
  String.ofList (Text.trimEnd (form.text field).toList)

/-- The alarms that a field stands for, none if they do not fit a byte. -/
def alarms (form : Form) (field : Field) : UInt8 :=
  if form.hexWord field < 0x100 then (form.hexWord field).toUInt8 else 0

/-- The attribute set that a mask and its slots stand for. -/
def attributeSet (form : Form) (owner : Owner) (kind : Kind) : AttributeSet kind.capacity :=
  .ofValues (form.hexWord (.mask owner kind)) ((List.finRange kind.capacity).map fun index =>
    slotValue kind index.val (form.text (.slot owner kind index)))

/-- The attributes that the fields of an owner stand for. -/
def attributes (form : Form) (owner : Owner) : Attributes where
  standard := form.attributeSet owner .standard
  extended := form.attributeSet owner .extended

/-- The block that the form stands for, each text read leniently (§10.5). What the form does not
show, and the host's identity, is that of `base`. -/
def apply (form : Form) (base : Block) : Block where
  majorVersion := .ofNat (form.number UInt8.size .majorVersion)
  minorVersion := .ofNat (form.number UInt8.size .minorVersion)
  zioAlarms := form.alarms .zioAlarms
  deviceAlarms := form.alarms .deviceAlarms
  sequence := .ofNat (form.number UInt32.size .sequence)
  samples := .ofNat (form.number UInt32.size .samples)
  sampleSize := .ofNat (form.number UInt16.size .sampleSize)
  sampleBits := .ofNat (form.number UInt16.size .sampleBits)
  address := {
    family := base.address.family
    hostType := .ofNat (form.number UInt8.size .hostType)
    hostId := base.address.hostId
    deviceId := .ofNat (form.number UInt32.size .deviceId)
    channelSet := .ofNat (form.number UInt16.size .channelSet)
    channel := .ofNat (form.number UInt16.size .channel)
    device := form.nameText .device }
  stamp := {
    seconds := .ofNat (form.number UInt64.size .seconds)
    ticks := .ofNat (form.number UInt64.size .ticks)
    bins := .ofNat (form.number UInt64.size .bins) }
  memoryOffset := base.memoryOffset
  reserved := base.reserved
  flags := form.hexWord .flags
  triggerName := form.nameText .triggerName
  channel := form.attributes .channel
  trigger := form.attributes .trigger
  extension := base.extension

end Form

end ZioControl
