import ZioControl.Proofs.Acceptance
import ZioControl.Proofs.Resolution

/-!
# Bringing a block in line

`Block.syncSamples` and `Block.syncBits` repair the two numbers of a block that repeat attributes.
They touch different fields and read none that the other one writes, so their order does not matter
and a second repair changes nothing (`Block.syncBits_syncSamples`, `Block.syncBits_synced`). What is
left to refuse in a repaired block is what no repair can mend: that it is for another device, and
that its number of bits cannot repeat the resolution (`Block.BitsFit`). A resolution that is too
wide is repaired to zero, which is not the resolution, and where the resolution is disabled the
number of bits stays what it was. The main theorem is `Block.checkAgainst_synced_iff`.
-/

namespace ZioControl.Block

variable {b other current : Block}

/-- The block with both numbers brought in line. -/
def synced (b : Block) : Block := b.syncSamples.syncBits

/-- The number of bits that follows the resolution, or stays where that is disabled. -/
def followedBits (b : Block) : UInt16 :=
  ((b.channel.standard.get? Slot.resolution).map bitsOf).getD b.sampleBits

/-- The number of bits can repeat the resolution: it is enabled and 16 bits hold it, or it is
disabled and the number is zero as the slot is. -/
def BitsFit (b : Block) : Prop :=
  (∃ word, b.channel.standard.get? Slot.resolution = some word ∧ word.toNat ≤ 65535) ∨
    b.channel.standard.get? Slot.resolution = none ∧ b.sampleBits = 0

/-- The repair of the bits writes their number and nothing else. -/
theorem syncBits_eq (b : Block) : b.syncBits = { b with sampleBits := b.followedBits } := by
  unfold syncBits followedBits
  cases b.channel.standard.get? Slot.resolution with
  | none => rfl
  | some word => rfl

/-- The two repairs can be made in either order. -/
theorem syncBits_syncSamples (b : Block) : b.syncSamples.syncBits = b.syncBits.syncSamples := by
  rw [syncBits_eq, syncBits_eq]
  rfl

/-- The samples of a repaired block need no other repair. -/
theorem syncSamples_synced (b : Block) : b.synced.syncSamples = b.synced := by
  rw [synced, syncBits_eq]
  rfl

/-- Nor do its bits. -/
theorem syncBits_synced (b : Block) : b.synced.syncBits = b.synced := by
  have hagain : b.synced.followedBits = b.followedBits := by
    rw [synced, syncBits_eq]
    unfold followedBits
    cases hword : b.channel.standard.get? Slot.resolution with
    | none => simp [syncSamples, hword]
    | some word => simp [syncSamples, hword]
  rw [syncBits_eq, hagain, synced, syncBits_eq]
  rfl

/-- A word is repeated by the bits that it gives exactly if 16 bits hold it. -/
theorem toUInt32_bitsOf_iff (word : UInt32) :
    (bitsOf word).toUInt32 = word ↔ word.toNat ≤ 65535 := by
  have hsize : UInt16.size = 65536 := rfl
  rw [← UInt32.toNat_inj, UInt16.toNat_toUInt32, toNat_bitsOf]
  split
  · next hlt => exact iff_of_true rfl (by omega)
  · next hge => omega

/-- The number of bits can repeat the resolution exactly if the number that follows it does. -/
theorem followedBits_eq_iff :
    b.followedBits.toUInt32 = b.channel.standard.values[Slot.resolution] ↔ b.BitsFit := by
  have hvalue : b.channel.standard.values[Slot.resolution] =
      (b.channel.standard.get? Slot.resolution).getD 0 :=
    b.channel.standard.getElem_values Slot.resolution (by decide)
  rw [BitsFit, hvalue, followedBits]
  cases b.channel.standard.get? Slot.resolution with
  | none =>
    have hzero : b.sampleBits.toUInt32 = 0 ↔ b.sampleBits = 0 := by
      rw [← UInt32.toNat_inj, ← UInt16.toNat_inj, UInt16.toNat_toUInt32]
      rfl
    simpa using hzero
  | some word => simpa using toUInt32_bitsOf_iff word

/-- A repaired block agrees with itself exactly if its number of bits can repeat the resolution. -/
theorem agrees_synced_iff : b.synced.Agrees ↔ b.BitsFit := by
  rw [← followedBits_eq_iff, synced, syncBits_eq]
  exact ⟨fun h => h.bits, fun h => ⟨rfl, h⟩⟩

/-- A repair does not change which device a block is for. -/
theorem sameDevice_synced_iff : b.synced.SameDevice current ↔ b.SameDevice current := by
  rw [synced, syncBits_eq]
  exact ⟨fun ⟨hversion, hsize, haddress⟩ => ⟨hversion, hsize, haddress⟩,
    fun ⟨hversion, hsize, haddress⟩ => ⟨hversion, hsize, haddress⟩⟩

/-- Whether the number of bits can repeat the resolution is told by the slot, and by the number
where the slot is disabled. -/
theorem bitsFit_congr
    (hslot : other.channel.standard.get? Slot.resolution = b.channel.standard.get? Slot.resolution)
    (hbits : b.channel.standard.get? Slot.resolution = none → other.sampleBits = b.sampleBits) :
    other.BitsFit ↔ b.BitsFit := by
  have hfollowed : other.followedBits = b.followedBits := by
    unfold followedBits
    rw [hslot]
    cases hword : b.channel.standard.get? Slot.resolution with
    | none => simpa using hbits hword
    | some word => rfl
  have hvalue : other.channel.standard.values[Slot.resolution] =
      b.channel.standard.values[Slot.resolution] := by
    rw [AttributeSet.getElem_values, AttributeSet.getElem_values, hslot]
  rw [← followedBits_eq_iff, ← followedBits_eq_iff, hfollowed, hvalue]

/-- A device takes a repaired block exactly if the block is for the device and its number of bits
can repeat the resolution, in whatever order the repairs are made and however often. Nothing else
about the block or about the one that the device holds has a part in it. -/
theorem checkAgainst_synced_iff (b current : Block) :
    b.syncBits.syncSamples = b.synced ∧ b.synced.syncSamples = b.synced ∧
      b.synced.syncBits = b.synced ∧
      (b.synced.checkAgainst current = .ok () ↔ b.synced.SameDevice current ∧ b.BitsFit) ∧
      ∀ other otherCurrent : Block, other.SameDevice b → otherCurrent.SameDevice current →
        other.channel.standard.get? Slot.resolution =
          b.channel.standard.get? Slot.resolution →
        (b.channel.standard.get? Slot.resolution = none → other.sampleBits = b.sampleBits) →
        (other.synced.checkAgainst otherCurrent = .ok () ↔
          b.synced.checkAgainst current = .ok ()) := by
  have haccepted (b current : Block) :
      b.synced.checkAgainst current = .ok () ↔ b.synced.SameDevice current ∧ b.BitsFit := by
    rw [checkAgainst_eq_ok_iff, agrees_synced_iff]
  refine ⟨(syncBits_syncSamples b).symm, syncSamples_synced b, syncBits_synced b,
    haccepted b current, ?_⟩
  intro other otherCurrent hdevice hcurrent hslot hbits
  have hsame : other.SameDevice otherCurrent ↔ b.SameDevice current :=
    ⟨fun h => (hdevice.symm.trans h).trans hcurrent,
      fun h => (hdevice.trans h).trans hcurrent.symm⟩
  rw [haccepted, haccepted, sameDevice_synced_iff, sameDevice_synced_iff, hsame,
    bitsFit_congr hslot hbits]

/-- The widest resolution that the field holds is taken, also in a block that is different in all
that has no part in it. -/
theorem checkAgainst_synced_iff_widest :
    let b : Block := { sampleBits := 12, channel := { standard := .ofValues 1 [65535] } }
    let other : Block := {
      minorVersion := 3, samples := 7, sampleBits := 1, triggerName := "user"
      channel := { standard := .ofValues 3 [65535, 9] }
      trigger := { standard := .ofValues 6 [0, 8, 8] } }
    other.SameDevice b ∧
      other.channel.standard.get? Slot.resolution = b.channel.standard.get? Slot.resolution ∧
      b.synced.checkAgainst {} = .ok () ∧ other.synced.checkAgainst { flags := 1 } = .ok () := by
  intro b other
  obtain ⟨-, -, -, hiff, hothers⟩ := checkAgainst_synced_iff b {}
  have hslot :
      other.channel.standard.get? Slot.resolution = b.channel.standard.get? Slot.resolution := by
    decide
  have hnone : b.channel.standard.get? Slot.resolution ≠ none := by decide
  have hb : b.synced.checkAgainst {} = .ok () :=
    hiff.mpr ⟨sameDevice_synced_iff.mpr ⟨rfl, rfl, rfl⟩, .inl ⟨65535, by decide, by decide⟩⟩
  refine ⟨⟨rfl, rfl, rfl⟩, hslot, hb, ?_⟩
  exact (hothers other { flags := 1 } ⟨rfl, rfl, rfl⟩ ⟨rfl, rfl, rfl⟩ hslot
    fun h => absurd h hnone).mpr hb

end ZioControl.Block
