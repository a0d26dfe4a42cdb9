import ZioControl.Attribute
import ZioControl.Notice

/-!
# Control blocks

The control block that a device hands out with its samples, as a value: the `struct zio_control` of
the kernel, with the fields of §3 and §10.1 of `SPEC_FULL.md`. Two of its numbers repeat what
attributes say: the number of samples is the sum of the trigger's samples before and after it fires,
and the number of bits is the channel's resolution. `syncSamples` and `syncBits` bring them in line,
by the two rules of §4.2.
-/

namespace ZioControl

/-- Where a block comes from: `Address` of §3. -/
structure Address where
  /-- The address family. -/
  family : UInt16 := 0
  /-- The kind of host. -/
  hostType : UInt8 := 0
  /-- The identity of a remote host. -/
  hostId : Vector UInt8 8 := .replicate 8 0
  /-- The number of the device. -/
  deviceId : UInt32 := 0
  /-- The number of the channel set. -/
  channelSet : UInt16 := 0
  /-- The number of the channel. -/
  channel : UInt16 := 0
  /-- The name of the device. -/
  device : String := ""
  deriving DecidableEq, Inhabited

/-- A reading of the hardware's clock: `Timestamp` of §3. -/
structure Stamp where
  /-- Seconds. -/
  seconds : UInt64 := 0
  /-- Clock ticks within the second. -/
  ticks : UInt64 := 0
  /-- Fractions of a tick. -/
  bins : UInt64 := 0
  deriving DecidableEq, Inhabited

/-- A control block: `ControlBlock` of §3. -/
structure Block where
  /-- The version whose change breaks compatibility. -/
  majorVersion : UInt8 := 0
  /-- The version whose change keeps compatibility. -/
  minorVersion : UInt8 := 0
  /-- Alarms of the framework. -/
  zioAlarms : UInt8 := 0
  /-- Alarms of the device. -/
  deviceAlarms : UInt8 := 0
  /-- The sequence number. -/
  sequence : UInt32 := 0
  /-- The number of samples. -/
  samples : UInt32 := 0
  /-- The bytes of a sample. -/
  sampleSize : UInt16 := 0
  /-- The significant bits of a sample. -/
  sampleBits : UInt16 := 0
  /-- Where the block comes from. -/
  address : Address := {}
  /-- When the block was taken. -/
  stamp : Stamp := {}
  /-- Where the samples lie in a mapped buffer. -/
  memoryOffset : UInt32 := 0
  /-- A word that has no meaning yet. -/
  reserved : UInt32 := 0
  /-- Properties of the block, each a bit or a few. -/
  flags : UInt32 := 0
  /-- The name of the trigger. -/
  triggerName : String := ""
  /-- The channel's attributes. -/
  channel : Attributes := {}
  /-- The trigger's attributes. -/
  trigger : Attributes := {}
  /-- Room for extensions. -/
  extension : Vector UInt8 16 := .replicate 16 0
  deriving DecidableEq, Inhabited

/-- The byte order of a block's samples. -/
inductive Endianness where
  | little
  | big
  | unknown
  deriving DecidableEq, Repr, Inhabited

/-- The words for a byte order. -/
def Endianness.text : Endianness → String
  | .little => "little-endian"
  | .big => "big-endian"
  | .unknown => "unknown-endian"

namespace Block

/-- The flags that together mark little-endian samples. -/
def littleEndianFlags : UInt32 := 0x01000001

/-- The flags that together mark big-endian samples. -/
def bigEndianFlags : UInt32 := 0x02000002

/-- The byte order that the flags mark (§10.3), little-endian if they mark both. -/
def endianness (b : Block) : Endianness :=
  if b.flags &&& littleEndianFlags = littleEndianFlags then .little
  else if b.flags &&& bigEndianFlags = bigEndianFlags then .big
  else .unknown

/-- The attributes of one owner. -/
def attributes (b : Block) : Owner → Attributes
  | .channel => b.channel
  | .trigger => b.trigger

/-- The block with the attributes of one owner replaced. -/
def withAttributes (b : Block) : Owner → Attributes → Block
  | .channel, a => { b with channel := a }
  | .trigger, a => { b with trigger := a }

/-- The samples that the trigger takes before and after it fires, modulo `2^32`. A disabled slot
counts as zero. -/
def triggerSamples (b : Block) : UInt32 :=
  (b.trigger.standard.get? Slot.preSamples).getD 0 +
    (b.trigger.standard.get? Slot.postSamples).getD 0

/-- The block with the number of samples that its trigger takes. -/
def syncSamples (b : Block) : Block := { b with samples := b.triggerSamples }

/-- The block with the bits of a sample that the channel's resolution gives, if that is enabled.
A resolution too wide for the field gives zero. -/
def syncBits (b : Block) : Block :=
  match b.channel.standard.get? Slot.resolution with
  | some bits => { b with sampleBits := if bits < 0x10000 then bits.toUInt16 else 0 }
  | none => b

/-- What there is to say about `syncBits`: that the resolution is too wide. -/
def bitsNotice? (b : Block) : Option Notice :=
  match b.channel.standard.get? Slot.resolution with
  | some bits => if bits < 0x10000 then none else some (.wideResolution bits)
  | none => none

end Block

end ZioControl
