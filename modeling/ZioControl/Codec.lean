import ZioControl.Block
import ZioControl.Error
import ZioControl.Layout
import ZioControl.Text.Utf8

/-!
# Control blocks as bytes

The codec of §4.1 and §10.1 of `SPEC_FULL.md`. Between a block and its 512 bytes stands the block's
*image*, which gives for each cell of the layout its bytes in the little-endian order. `decode` cuts
the bytes into cells and turns their words to that order; `encode` turns them back and concatenates.
Both take the byte order as a parameter: the kernel writes its own, and §10.1 also asks for dumps of
another host.
-/

namespace ZioControl

/-- The bytes of each cell, the low byte of a word first. -/
abbrev Image := Cell → List UInt8

namespace Name

/-- The name in a field: the bytes before the first zero, as a text without the spaces at its end
(§10.1). -/
def ofBytes (bytes : List UInt8) : String :=
  let text := Utf8.decodeRepaired (bytes.takeWhile (· ≠ 0))
  String.ofList (text.reverse.dropWhile (· = ' ')).reverse

/-- The bytes of a field that holds a name, filled up with zeros. -/
def toBytes (name : String) : List UInt8 :=
  let bytes := Utf8.encode name.toList
  bytes ++ List.replicate (nameSize - bytes.length) 0

/-- The first reason for which a field cannot hold a name. -/
def fault? (name : String) : Option NameFault :=
  let bytes := Utf8.encode name.toList
  if nameSize < bytes.length then some (.tooLong bytes.length)
  else if 0 ∈ bytes then some .embeddedNul
  else if bytes.getLast? = some 0x20 then some .trailingSpace
  else none

end Name

namespace AttributeSet

variable {capacity : Nat}

/-- The values of a set as words. -/
def valueBytes (s : AttributeSet capacity) : List UInt8 :=
  s.values.toList.flatMap fun v => Word.toBytes 4 v.toNat

/-- The set with the enabled slots that one byte string spells and the values that another one
spells. A value in a disabled slot is dropped. -/
def ofBytes (mask values : List UInt8) : AttributeSet capacity :=
  .ofValues (UInt32.ofNat (Word.ofBytes mask))
    ((List.range capacity).map fun i => UInt32.ofNat (Word.ofBytes ((values.drop (4 * i)).take 4)))

end AttributeSet

/-- The bytes of each part of an attribute record, the low byte of a word first. -/
def Attributes.image (a : Attributes) : AttributePart → List UInt8
  | .standardMask => Word.toBytes 2 a.standard.mask.toNat
  | .padding => [0, 0]
  | .extendedMask => Word.toBytes 4 a.extended.mask.toNat
  | .standardValues => a.standard.valueBytes
  | .extendedValues => a.extended.valueBytes

namespace Image

/-- The number in a cell. -/
def number (image : Image) (cell : Cell) : Nat := Word.ofBytes (image cell)

/-- The uninterpreted bytes in a cell. -/
def raw (image : Image) (cell : Cell) (count : Nat) : Vector UInt8 count :=
  Vector.ofFn fun i => (image cell)[i.val]?.getD 0

/-- The attributes of one owner in an image. -/
def attributes (image : Image) (owner : Owner) : Attributes where
  standard := .ofBytes (image (.attributes owner .standardMask))
    (image (.attributes owner .standardValues))
  extended := .ofBytes (image (.attributes owner .extendedMask))
    (image (.attributes owner .extendedValues))

/-- The image of a byte string that holds a block in the given byte order. -/
def ofBytes (order : ByteOrder) (bytes : List UInt8) : Image := fun cell =>
  Word.orient order cell.wordSize (cell.slice bytes)

/-- The cells of an image one after the other in the given byte order. -/
def toBytes (order : ByteOrder) (image : Image) : List UInt8 :=
  Cell.all.flatMap fun cell => Word.orient order cell.wordSize (image cell)

end Image

namespace Block

/-- The image of a block. -/
def image (b : Block) : Image
  | .majorVersion => [b.majorVersion]
  | .minorVersion => [b.minorVersion]
  | .zioAlarms => [b.zioAlarms]
  | .deviceAlarms => [b.deviceAlarms]
  | .sequence => Word.toBytes 4 b.sequence.toNat
  | .samples => Word.toBytes 4 b.samples.toNat
  | .sampleSize => Word.toBytes 2 b.sampleSize.toNat
  | .sampleBits => Word.toBytes 2 b.sampleBits.toNat
  | .family => Word.toBytes 2 b.address.family.toNat
  | .hostType => [b.address.hostType]
  | .hostPadding => [0]
  | .hostId => b.address.hostId.toList
  | .deviceId => Word.toBytes 4 b.address.deviceId.toNat
  | .channelSet => Word.toBytes 2 b.address.channelSet.toNat
  | .channel => Word.toBytes 2 b.address.channel.toNat
  | .device => Name.toBytes b.address.device
  | .seconds => Word.toBytes 8 b.stamp.seconds.toNat
  | .ticks => Word.toBytes 8 b.stamp.ticks.toNat
  | .bins => Word.toBytes 8 b.stamp.bins.toNat
  | .memoryOffset => Word.toBytes 4 b.memoryOffset.toNat
  | .reserved => Word.toBytes 4 b.reserved.toNat
  | .flags => Word.toBytes 4 b.flags.toNat
  | .triggerName => Name.toBytes b.triggerName
  | .attributes owner part => (b.attributes owner).image part
  | .extension => b.extension.toList

/-- The block that has an image. -/
def ofImage (image : Image) : Block where
  majorVersion := .ofNat (image.number .majorVersion)
  minorVersion := .ofNat (image.number .minorVersion)
  zioAlarms := .ofNat (image.number .zioAlarms)
  deviceAlarms := .ofNat (image.number .deviceAlarms)
  sequence := .ofNat (image.number .sequence)
  samples := .ofNat (image.number .samples)
  sampleSize := .ofNat (image.number .sampleSize)
  sampleBits := .ofNat (image.number .sampleBits)
  address := {
    family := .ofNat (image.number .family)
    hostType := .ofNat (image.number .hostType)
    hostId := image.raw .hostId 8
    deviceId := .ofNat (image.number .deviceId)
    channelSet := .ofNat (image.number .channelSet)
    channel := .ofNat (image.number .channel)
    device := Name.ofBytes (image .device) }
  stamp := {
    seconds := .ofNat (image.number .seconds)
    ticks := .ofNat (image.number .ticks)
    bins := .ofNat (image.number .bins) }
  memoryOffset := .ofNat (image.number .memoryOffset)
  reserved := .ofNat (image.number .reserved)
  flags := .ofNat (image.number .flags)
  triggerName := Name.ofBytes (image .triggerName)
  channel := image.attributes .channel
  trigger := image.attributes .trigger
  extension := image.raw .extension 16

/-- The block that a byte string begins with: `decode` of §4.1. There has to be a whole block; what
follows it does not count. -/
def decode (order : ByteOrder) (bytes : List UInt8) : Except Error Block :=
  if bytes.length < blockSize then .error (.shortBlock bytes.length)
  else .ok (ofImage (Image.ofBytes order bytes))

/-- The first reason for which a block has no bytes: a name that its field cannot hold. -/
def badName? (b : Block) : Option Error :=
  match Name.fault? b.address.device, Name.fault? b.triggerName with
  | some fault, _ => some (.badName "devname" fault)
  | none, some fault => some (.badName "triggername" fault)
  | none, none => none

/-- The 512 bytes of a block: `encode` of §4.1. -/
def encode (order : ByteOrder) (b : Block) : Except Error (List UInt8) :=
  match b.badName? with
  | some e => .error e
  | none => .ok (Image.toBytes order b.image)

end Block

end ZioControl
