import ZioControl.Proofs.Acceptance
import ZioControl.Proofs.FormRoundTrip

/-!
# What counts as padding

A name fills its field up with zeros or with spaces, and reading takes both away. A form takes away
more: whatever stands at the end of a name is dropped if it is blank, and so are a tab or a line
feed, which the field keeps. A name that ends like that (`Name.endsBlank`) is all that a form loses
of a block that was read from a device (`Form.apply_eq_self_iff_of_decode`). If it is the name of
the device, no edit that leaves the address alone is accepted any more; if it is that of the
trigger, every edit shortens it (`Form.apply_ne_self_of_tab`).
-/

namespace ZioControl

/-- Whether a name ends with a blank other than a space. A field can hold such a name. -/
def Name.endsBlank (name : String) : Bool :=
  name.toList.getLast?.any fun c => Text.isBlank c && c != ' '

/-- A name without a space at its end stays as it is exactly if it does not end with another
blank. -/
theorem Name.stripped_eq_self_iff {name : String} (h : name.toList.getLast? ≠ some ' ') :
    stripped name = name ↔ endsBlank name = false := by
  have hself : stripped name = name ↔ name.toList.rdropWhile Text.isBlank = name.toList := by
    rw [← String.toList_inj, stripped, String.toList_ofList]
  rw [hself, List.rdropWhile_eq_self_iff, endsBlank]
  rcases List.eq_nil_or_concat' name.toList with hnil | ⟨front, c, hconcat⟩
  · simp [hnil]
  · have hspace : c ≠ ' ' := by simpa [hconcat] using h
    simp [hconcat, hspace]

namespace Block

variable {b current : Block}

/-- A block that was read is the same on top of itself exactly if both names keep their ends. -/
theorem onto_self_iff (h : b.NamesFit) : b.onto b = b ↔
    Name.endsBlank b.address.device = false ∧ Name.endsBlank b.triggerName = false := by
  rw [← Name.stripped_eq_self_iff h.1.noSpace, ← Name.stripped_eq_self_iff h.2.noSpace]
  constructor
  · intro heq
    exact ⟨congrArg (fun b => b.address.device) heq, congrArg Block.triggerName heq⟩
  · rintro ⟨hdevice, htrigger⟩
    rw [onto, hdevice, htrigger]

/-- A block is refused for its address exactly if that differs, and neither the version nor the size
of a sample does. -/
theorem rejection?_eq_address_iff : b.rejection? current = some .address ↔
    b.majorVersion = current.majorVersion ∧ b.sampleSize = current.sampleSize ∧
      b.address ≠ current.address := by
  constructor
  · intro h
    unfold rejection? at h
    split_ifs at h with hversion hsize haddress
    -- every other refusal has another reason
    all_goals cases h
    exact ⟨not_not.mp hversion, not_not.mp hsize, haddress⟩
  · rintro ⟨hversion, hsize, haddress⟩
    rw [rejection?, if_neg (not_not.mpr hversion), if_neg (not_not.mpr hsize), if_pos haddress]

end Block

namespace Form

variable {b : Block} {edits : List (String × String)}

/-- Edits that leave the address alone lead to the address that the unedited form stands for. -/
theorem address_setEach (hedits : ∀ edit ∈ edits, ¬"addr.".toList <+: edit.1.toList) :
    (((ofBlock b).setEach edits).apply b).address = (b.onto b).address := by
  rw [← apply_ofBlock]
  refine address_apply_congr b fun field hfield => text_setEach_of_not_reaches ?_
  rintro edit hedit source hsource hreaches
  -- only an edit of the field itself reaches it, and its name says that it is of the address
  have hself : source = field := by
    cases hreaches with
    | self => rfl
    | pre | post | bits | slot => simp [addressFields] at hfield
  have hname : ∀ field ∈ addressFields, "addr.".toList <+: field.name.toList := by decide
  rw [hself] at hsource
  exact hedits edit hedit (Field.name_of_ofName? hsource ▸ hname field hfield)

/-- Edits that leave the name of the trigger alone only strip it. -/
theorem triggerName_setEach (hedits : ∀ edit ∈ edits, edit.1 ≠ "triggername") :
    (((ofBlock b).setEach edits).apply b).triggerName = Name.stripped b.triggerName := by
  have htext : ((ofBlock b).setEach edits).text .triggerName = (ofBlock b).text .triggerName := by
    refine text_setEach_of_not_reaches ?_
    rintro edit hedit source hsource ⟨⟩
    exact hedits edit hedit (Field.name_of_ofName? hsource).symm
  exact congrArg Name.stripped htext

/-- An unedited form stands for the block that was read, whatever the bytes, exactly if neither of
its names ends with a blank other than a space. Edits that leave the address alone are refused for
the address exactly if the name of the device does, unless they are refused before it is looked at.
Edits that leave the name of the trigger alone keep it exactly if that does not. -/
theorem apply_eq_self_iff_of_decode {order : ByteOrder} {bytes : List UInt8}
    (hread : Block.decode order bytes = .ok b) :
    ((ofBlock b).apply b = b ↔
      Name.endsBlank b.address.device = false ∧ Name.endsBlank b.triggerName = false) ∧
    (∀ edits, (∀ edit ∈ edits, ¬"addr.".toList <+: edit.1.toList) →
      ((((ofBlock b).setEach edits).apply b).rejection? b = some .address ↔
        (((ofBlock b).setEach edits).apply b).majorVersion = b.majorVersion ∧
        (((ofBlock b).setEach edits).apply b).sampleSize = b.sampleSize ∧
        Name.endsBlank b.address.device = true)) ∧
    ∀ edits, (∀ edit ∈ edits, edit.1 ≠ "triggername") →
      ((((ofBlock b).setEach edits).apply b).triggerName = b.triggerName ↔
        Name.endsBlank b.triggerName = false) := by
  have hfits := Block.namesFit_of_decode hread
  have hdevice := Name.stripped_eq_self_iff hfits.1.noSpace
  have htrigger := Name.stripped_eq_self_iff hfits.2.noSpace
  refine ⟨?_, fun edits hedits => ?_, fun edits hedits => ?_⟩
  · rw [apply_ofBlock, Block.onto_self_iff hfits]
  · have haddress : (b.onto b).address = b.address ↔ Name.stripped b.address.device =
        b.address.device := by
      constructor
      · exact fun heq => congrArg Address.device heq
      · intro heq
        rw [Block.onto, heq]
    rw [Block.rejection?_eq_address_iff, address_setEach hedits, ne_eq, haddress, hdevice,
      Bool.not_eq_false]
  · rw [triggerName_setEach hedits, htrigger]

set_option maxRecDepth 20000 in
/-- A tab within the name of the device does no harm, and a no-break space at the end of the
trigger's name gets lost. -/
theorem apply_eq_self_iff_of_decode_inner :
    let b : Block := { address := { device := "a\tc" }, triggerName := "timer\u00a0" }
    let edits := [("seq_num", "5"), ("no field", "1")]
    ∃ bytes, Block.decode .big bytes = .ok b ∧ (ofBlock b).apply b ≠ b ∧
      (((ofBlock b).setEach edits).apply b).rejection? b ≠ some .address ∧
      (((ofBlock b).setEach edits).apply b).triggerName ≠ b.triggerName := by
  intro b edits
  obtain ⟨bytes, -, hread⟩ := b.exists_encode_of_badName? .big (by decide +kernel)
  obtain ⟨hself, haddress, htrigger⟩ := apply_eq_self_iff_of_decode hread
  have hdevice : Name.endsBlank b.address.device = false := by decide +kernel
  have hname : Name.endsBlank b.triggerName = true := by decide +kernel
  refine ⟨_, hread, fun heq => ?_, fun hrejected => ?_, fun heq => ?_⟩
  · simpa [hname] using (hself.mp heq).2
  · simpa [hdevice] using (haddress edits (by decide +kernel)).mp hrejected
  · simpa [hname] using (htrigger edits (by decide +kernel)).mp heq

set_option maxRecDepth 20000 in
/-- A device whose name ends with a tab refuses every edit for the address, and the name of a
trigger that does is changed. -/
theorem apply_ne_self_of_tab :
    let b : Block := { address := { device := "adc\t" }, triggerName := "user\t" }
    ∃ bytes, 512 ≤ bytes.length ∧ Block.decode .little bytes = .ok b ∧
      b.checkAgainst b = .ok () ∧ (ofBlock b).apply b ≠ b ∧
      ∃ next, (ofBlock b).setAll [("seq_num", "5")] = .ok next ∧
        (next.apply b).checkAgainst b = .error (.rejected .address) ∧
        (next.apply b).triggerName = "user" := by
  intro b
  obtain ⟨bytes, hbytes, hread⟩ := b.exists_encode_of_badName? .little (by decide +kernel)
  exact ⟨bytes, (Block.length_of_encode hbytes).ge, hread, by decide +kernel, by decide +kernel,
    _, rfl, by decide +kernel, by decide +kernel⟩

end Form

end ZioControl
