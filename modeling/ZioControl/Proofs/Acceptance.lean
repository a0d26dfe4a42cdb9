import ZioControl.Block.Acceptance
import ZioControl.Proofs.NormalForm

/-!
# What a device takes

A device that holds a block takes another one exactly if both agree in what the device fixes, and
the other one agrees with itself (`Block.checkAgainst_eq_ok_iff`). A block that is refused says why.
A block that a device takes can fail to be written only for the name of its trigger, since the
device's own name was read from a field that it fits (`Block.exists_fault_of_encode_eq_error`).
-/

namespace ZioControl.Block

variable {b current : Block}

/-- The block has the number of samples of its trigger, and the number of bits of its channel. -/
structure Agrees (b : Block) : Prop where
  /-- The samples are those before and after the trigger fires. -/
  samples : b.samples = b.triggerSamples
  /-- The bits are the channel's resolution. -/
  bits : b.sampleBits.toUInt32 = b.channel.standard.values[Slot.resolution]

/-- Two blocks agree in what a device fixes. -/
structure SameDevice (b current : Block) : Prop where
  /-- The version whose change breaks compatibility. -/
  version : b.majorVersion = current.majorVersion
  /-- The bytes of a sample. -/
  sampleSize : b.sampleSize = current.sampleSize
  /-- Where the blocks come from. -/
  address : b.address = current.address

/-- A device takes a block exactly if the block is for the device and agrees with itself. -/
theorem checkAgainst_eq_ok_iff :
    b.checkAgainst current = .ok () ↔ b.SameDevice current ∧ b.Agrees := by
  constructor
  · intro h
    unfold checkAgainst rejection? at h
    split_ifs at h with hversion hsize haddress hsamples hbits
    exact ⟨⟨not_not.mp hversion, not_not.mp hsize, not_not.mp haddress⟩,
      ⟨not_not.mp hsamples, not_not.mp hbits⟩⟩
  · rintro ⟨⟨hversion, hsize, haddress⟩, ⟨hsamples, hbits⟩⟩
    simp [checkAgainst, rejection?, hversion, hsize, haddress, hsamples, hbits]

/-- A block that a device does not take is refused with a reason. -/
theorem exists_cause_of_checkAgainst_eq_error {error : Error}
    (h : b.checkAgainst current = .error error) : ∃ cause, error = .rejected cause := by
  unfold checkAgainst at h
  split at h
  · next cause _ =>
    cases h
    exact ⟨cause, rfl⟩
  · cases h

/-- A block agrees with itself in what a device fixes. -/
theorem SameDevice.refl (b : Block) : b.SameDevice b := ⟨rfl, rfl, rfl⟩

/-- Agreement in what a device fixes goes both ways. -/
theorem SameDevice.symm (h : b.SameDevice current) : current.SameDevice b :=
  ⟨h.version.symm, h.sampleSize.symm, h.address.symm⟩

/-- What a device fixes passes on from block to block. -/
theorem SameDevice.trans {other : Block} (h : b.SameDevice current)
    (hcurrent : current.SameDevice other) : b.SameDevice other :=
  ⟨h.version.trans hcurrent.version, h.sampleSize.trans hcurrent.sampleSize,
    h.address.trans hcurrent.address⟩

/-- The names of a block that was read fit their fields. -/
theorem namesFit_of_decode {order : ByteOrder} {bytes : List UInt8}
    (h : decode order bytes = .ok current) : current.NamesFit := by
  rw [decode] at h
  split at h
  · cases h
  · next hlen =>
    cases h
    exact namesFit_ofImage (Image.sized_ofBytes order (Nat.le_of_not_lt hlen))

/-- A block for the device that another one was read from can only fail to be written for the name
of its trigger. -/
theorem exists_fault_of_encode_eq_error {order : ByteOrder} {bytes : List UInt8} {error : Error}
    (hcurrent : decode order bytes = .ok current) (hdevice : b.SameDevice current)
    (h : b.encode order = .error error) : ∃ fault, error = .badName "triggername" fault := by
  have hfits : Name.fault? b.address.device = none := by
    rw [Name.fault?_eq_none_iff, hdevice.address]
    exact (namesFit_of_decode hcurrent).1
  cases hfault : Name.fault? b.triggerName with
  | none =>
    have hnone : b.badName? = none := by rw [badName?, hfits, hfault]
    rw [encode, hnone] at h
    cases h
  | some fault =>
    have hsome : b.badName? = some (.badName "triggername" fault) := by
      rw [badName?, hfits, hfault]
    rw [encode, hsome] at h
    cases h
    exact ⟨fault, rfl⟩

end ZioControl.Block
