import ZioControl.Block
import ZioControl.Error

/-!
# Acceptance

Whether a device that holds one control takes another one, by the rules of §10.4 of `SPEC_FULL.md`.
The version, the size of a sample and the address are fixed by the device, and the two numbers that
repeat attributes have to agree with them.
-/

namespace ZioControl.Block

/-- The first reason for which a device that holds `current` does not take `b`. -/
def rejection? (b current : Block) : Option Rejection :=
  if b.majorVersion ≠ current.majorVersion then
    some (.version b.majorVersion current.majorVersion)
  else if b.sampleSize ≠ current.sampleSize then
    some (.sampleSize b.sampleSize current.sampleSize)
  else if b.address ≠ current.address then
    some .address
  else if b.samples ≠ b.triggerSamples then
    some (.samples b.samples b.triggerSamples)
  else if b.sampleBits.toUInt32 ≠ b.channel.standard.values[Slot.resolution] then
    some (.bits b.sampleBits b.channel.standard.values[Slot.resolution])
  else
    none

/-- What there is to say about the check of `b`: that a compatible version differs. -/
def versionNotice? (b current : Block) : Option Notice :=
  if b.majorVersion = current.majorVersion ∧ b.minorVersion ≠ current.minorVersion then
    some (.minorVersion b.minorVersion current.minorVersion)
  else
    none

/-- A control that the device takes, or the error that it does not: the check of §10.4. -/
def checkAgainst (b current : Block) : Except Error Unit :=
  match b.rejection? current with
  | some cause => .error (.rejected cause)
  | none => .ok ()

end ZioControl.Block
