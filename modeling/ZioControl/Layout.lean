import ZioControl.Attribute
import ZioControl.Word

/-!
# The layout of a control block

The 512 bytes of a block as a table of cells, which is the table of §10.1 of `SPEC_FULL.md`. A cell
has a place (`offset`), a size, and the width of the words that it is made of: one byte for numbers
of one byte, names and uninterpreted bytes. The cells stand one after the other without gap or
overlap, so a block is its cells concatenated.
-/

namespace ZioControl

/-- The parts of an attribute record. -/
inductive AttributePart where
  | standardMask
  | padding
  | extendedMask
  | standardValues
  | extendedValues
  deriving DecidableEq, Repr

/-- The cells of a block. -/
inductive Cell where
  | majorVersion
  | minorVersion
  | zioAlarms
  | deviceAlarms
  | sequence
  | samples
  | sampleSize
  | sampleBits
  | family
  | hostType
  | hostPadding
  | hostId
  | deviceId
  | channelSet
  | channel
  | device
  | seconds
  | ticks
  | bins
  | memoryOffset
  | reserved
  | flags
  | triggerName
  | attributes (owner : Owner) (part : AttributePart)
  | extension
  deriving DecidableEq, Repr

namespace AttributePart

/-- Where a part begins within its record. -/
def offset : AttributePart → Nat
  | .standardMask => 0
  | .padding => 2
  | .extendedMask => 4
  | .standardValues => 8
  | .extendedValues => 72

/-- The bytes of a part. -/
def size : AttributePart → Nat
  | .standardMask => 2
  | .padding => 2
  | .extendedMask => 4
  | .standardValues => 64
  | .extendedValues => 128

/-- The bytes of a word of a part. -/
def wordSize : AttributePart → Nat
  | .standardMask => 2
  | .padding => 1
  | .extendedMask => 4
  | .standardValues => 4
  | .extendedValues => 4

/-- The parts in the order of their places. -/
def all : List AttributePart :=
  [.standardMask, .padding, .extendedMask, .standardValues, .extendedValues]

end AttributePart

/-- Where an owner's attribute record begins. -/
def Owner.offset : Owner → Nat
  | .channel => 96
  | .trigger => 296

namespace Cell

/-- Where a cell begins. -/
def offset : Cell → Nat
  | .majorVersion => 0
  | .minorVersion => 1
  | .zioAlarms => 2
  | .deviceAlarms => 3
  | .sequence => 4
  | .samples => 8
  | .sampleSize => 12
  | .sampleBits => 14
  | .family => 16
  | .hostType => 18
  | .hostPadding => 19
  | .hostId => 20
  | .deviceId => 28
  | .channelSet => 32
  | .channel => 34
  | .device => 36
  | .seconds => 48
  | .ticks => 56
  | .bins => 64
  | .memoryOffset => 72
  | .reserved => 76
  | .flags => 80
  | .triggerName => 84
  | .attributes owner part => owner.offset + part.offset
  | .extension => 496

/-- The bytes of a cell. -/
def size : Cell → Nat
  | .majorVersion | .minorVersion | .zioAlarms | .deviceAlarms | .hostType | .hostPadding => 1
  | .sampleSize | .sampleBits | .family | .channelSet | .channel => 2
  | .sequence | .samples | .deviceId | .memoryOffset | .reserved | .flags => 4
  | .hostId | .seconds | .ticks | .bins => 8
  | .device | .triggerName => 12
  | .attributes _ part => part.size
  | .extension => 16

/-- The bytes of a word of a cell. -/
def wordSize : Cell → Nat
  | .majorVersion | .minorVersion | .zioAlarms | .deviceAlarms | .hostType | .hostPadding => 1
  | .hostId | .device | .triggerName | .extension => 1
  | .sampleSize | .sampleBits | .family | .channelSet | .channel => 2
  | .sequence | .samples | .deviceId | .memoryOffset | .reserved | .flags => 4
  | .seconds | .ticks | .bins => 8
  | .attributes _ part => part.wordSize

/-- The cells in the order of their places. -/
def all : List Cell :=
  [.majorVersion, .minorVersion, .zioAlarms, .deviceAlarms, .sequence, .samples, .sampleSize,
    .sampleBits, .family, .hostType, .hostPadding, .hostId, .deviceId, .channelSet, .channel,
    .device, .seconds, .ticks, .bins, .memoryOffset, .reserved, .flags, .triggerName] ++
  AttributePart.all.map (.attributes .channel) ++ AttributePart.all.map (.attributes .trigger) ++
  [.extension]

/-- The bytes of a cell within a block. -/
def slice (cell : Cell) (bytes : List UInt8) : List UInt8 :=
  (bytes.drop cell.offset).take cell.size

/-- The list of cells lacks none. -/
theorem mem_all (cell : Cell) : cell ∈ all := by
  cases cell with
  | attributes owner part => cases owner <;> cases part <;> decide
  | _ => decide

end Cell

end ZioControl
