import ZioControl.AttributeSet

/-!
# The attributes of a channel and of a trigger

Every block carries the attributes of one channel and of one trigger, each a standard set of 16
slots and an extended set of 32. Some standard slots have a meaning of their own, and so a name
(§10.2 of `SPEC_FULL.md`).
-/

namespace ZioControl

/-- What an attribute belongs to. -/
inductive Owner where
  | channel
  | trigger
  deriving DecidableEq, Repr, Inhabited

/-- Whether an attribute is one of the standard ones or one of a device's own. -/
inductive Kind where
  | standard
  | extended
  deriving DecidableEq, Repr, Inhabited

/-- How many slots there are of each kind. -/
def Kind.capacity : Kind → Nat
  | .standard => 16
  | .extended => 32

namespace Slot

/-- The channel's slot for the significant bits of a sample. -/
def resolution : Nat := 0

/-- The trigger's slot for the samples before it fires. -/
def preSamples : Nat := 1

/-- The trigger's slot for the samples after it fires. -/
def postSamples : Nat := 2

/-- The slot for the version, which is the last of the standard ones for both owners. -/
def version : Nat := 15

end Slot

/-- The name of a standard slot, if it has a meaning for this owner. -/
def Owner.standardName? (owner : Owner) (slot : Nat) : Option String :=
  match owner, slot with
  | .channel, 0 => some "resolution-bits"
  | .channel, 1 => some "gain_factor"
  | .channel, 2 => some "offset"
  | .channel, 3 => some "max-sample-rate"
  | .channel, 4 => some "vref-src"
  | .trigger, 0 => some "nshots"
  | .trigger, 1 => some "pre-samples"
  | .trigger, 2 => some "post-samples"
  | _, 15 => some "version"
  | _, _ => none

/-- The two attribute sets of a channel or a trigger, the `struct zio_ctrl_attr` of the kernel. -/
@[ext]
structure Attributes where
  /-- The attributes whose meaning is the same for every device. -/
  standard : AttributeSet 16 := .empty
  /-- The attributes that the device defines. -/
  extended : AttributeSet 32 := .empty
  deriving DecidableEq, Inhabited

/-- The set of one kind. -/
def Attributes.ofKind (a : Attributes) : (kind : Kind) → AttributeSet kind.capacity
  | .standard => a.standard
  | .extended => a.extended

/-- The attributes with the set of one kind replaced. -/
def Attributes.replace (a : Attributes) : (kind : Kind) → AttributeSet kind.capacity → Attributes
  | .standard, s => { a with standard := s }
  | .extended, s => { a with extended := s }

end ZioControl
