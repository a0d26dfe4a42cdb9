import ZioControl.Attribute
import ZioControl.Text.Numeral

/-!
# The fields of a form

A form shows a control as 119 named fields. `Field` says what each shows, and `Field.name` is its
dotted spelling (§10.5 of `SPEC_FULL.md`); `Field.ofName?` reads that spelling back.
-/

namespace ZioControl

/-- The word for an owner in the name of a field. -/
def Owner.word : Owner → String
  | .channel => "channel"
  | .trigger => "trigger"

/-- The word for a kind in the name of a field. -/
def Kind.word : Kind → String
  | .standard => "std"
  | .extended => "ext"

/-- What a field shows. -/
inductive Field where
  | majorVersion
  | minorVersion
  | sequence
  | sampleSize
  | sampleBits
  | samples
  | zioAlarms
  | deviceAlarms
  | flags
  | hostType
  | hostId
  | deviceId
  | channelSet
  | channel
  | device
  | seconds
  | ticks
  | bins
  | triggerName
  /-- The enabled slots of one kind. -/
  | mask (owner : Owner) (kind : Kind)
  /-- The value of one slot. -/
  | slot (owner : Owner) (kind : Kind) (index : Fin kind.capacity)
  deriving DecidableEq

/-- The name of the field for a slot, whether or not there is such a slot. -/
def slotName (owner : Owner) (kind : Kind) (index : Nat) : String :=
  owner.word ++ "." ++ kind.word ++ "." ++ Text.decimal index

namespace Field

/-- The name of a field. -/
def name : Field → String
  | .majorVersion => "major_version"
  | .minorVersion => "minor_version"
  | .sequence => "seq_num"
  | .sampleSize => "ssize"
  | .sampleBits => "nbits"
  | .samples => "nsamples"
  | .zioAlarms => "alarms_zio"
  | .deviceAlarms => "alarms_dev"
  | .flags => "flags"
  | .hostType => "addr.host_type"
  | .hostId => "addr.hostid"
  | .deviceId => "addr.dev_id"
  | .channelSet => "addr.cset_i"
  | .channel => "addr.chan_i"
  | .device => "addr.devname"
  | .seconds => "tstamp.secs"
  | .ticks => "tstamp.ticks"
  | .bins => "tstamp.bins"
  | .triggerName => "triggername"
  | .mask owner kind => owner.word ++ "." ++ kind.word ++ "_mask"
  | .slot owner kind index => slotName owner kind index.val

/-- The fields for the slots of one kind of one owner. -/
def slots (owner : Owner) (kind : Kind) : List Field :=
  (List.finRange kind.capacity).map (.slot owner kind)

/-- All fields. -/
def all : List Field :=
  [.majorVersion, .minorVersion, .sequence, .sampleSize, .sampleBits, .samples, .zioAlarms,
    .deviceAlarms, .flags, .hostType, .hostId, .deviceId, .channelSet, .channel, .device,
    .seconds, .ticks, .bins, .triggerName] ++
  [.mask .channel .standard, .mask .channel .extended, .mask .trigger .standard,
    .mask .trigger .extended] ++
  slots .channel .standard ++ slots .channel .extended ++
  slots .trigger .standard ++ slots .trigger .extended

/-- All fields in the order of their names. -/
def sorted : List Field := all.mergeSort fun a b => decide (a.name ≤ b.name)

/-- The field of a name. -/
def ofName? (name : String) : Option Field := all.find? fun field => field.name = name

/-- The list of fields lacks none. -/
theorem mem_all (field : Field) : field ∈ all := by
  cases field with
  | mask owner kind => cases owner <;> cases kind <;> simp [all]
  | slot owner kind index => cases owner <;> cases kind <;> simp [all, slots]
  | _ => simp [all]

/-- A field that is found has the name that was looked for. -/
theorem name_of_ofName? {name : String} {field : Field} (h : ofName? name = some field) :
    field.name = name := by
  simpa using List.find?_some h

end Field

end ZioControl
