import ZioControl.Proofs.Simulation

/-!
# Blanked slots

A mask blanks the slots that it lacks, and no later edit brings back what was in them: a slot that
another mask enables again starts with zero, unless something is typed into the slot itself
(`Form.get?_setEach_of_lacks`). The invariant is the blank text. A run that does not type into the
slot keeps it (`Form.text_setEach_of_blank`), whatever its masks are, and it stands for zero in both
of the ways in which slots are read (`Form.get?_sets_of_blank`).
-/

namespace ZioControl.Form

variable {form : Form} {field : Field} {owner : Owner} {kind : Kind} {index : Fin kind.capacity}
  {text : String} {edits : List (String × String)}

/-- A blank slot stays blank under every edit but one of the slot itself. -/
theorem text_edit_of_blank (hblank : form.text (.slot owner kind index) = "")
    (hfield : field ≠ .slot owner kind index) :
    (form.edit field text).text (.slot owner kind index) = "" := by
  by_cases hmask : field = .mask owner kind
  · rw [hmask, text_edit_mask_slot, hblank, ite_self]
  · rw [text_edit_slot_of_ne hfield hmask, hblank]

/-- A blank slot stays blank in a run that does not edit the slot itself. -/
theorem text_setEach_of_blank (hblank : form.text (.slot owner kind index) = "")
    (hedits : ∀ edit ∈ edits, edit.1 ≠ (Field.slot owner kind index).name) :
    (form.setEach edits).text (.slot owner kind index) = "" := by
  refine setEach_invariant (motive := fun next => next.text (.slot owner kind index) = "") hblank ?_
  intro edit hedit mid next hmid hset
  obtain ⟨field, hname, -, rfl⟩ := set_eq_ok_iff.mp hset
  refine text_edit_of_blank hmid ?_
  rintro rfl
  exact hedits edit hedit (Field.name_of_ofName? hname).symm

/-- A blank slot is disabled, or it holds zero. -/
theorem get?_sets_of_blank (hblank : form.text (.slot owner kind index) = "") (base : Block) :
    ((form.apply base).sets owner kind).get? index.val =
      if Mask.has (form.hexWord (.mask owner kind)) index.val = true then some 0 else none := by
  have hzero : slotValue kind index.val "" = 0 := slotValue_slotText kind index.val none
  rw [sets_apply, get?_attributeSet, hblank, hzero]

/-- A slot that a mask in a run lacks, and into which nothing is typed after that, is disabled in
the end or holds zero, whatever else was typed before and after. -/
theorem get?_setEach_of_lacks {rest : List (String × String)}
    (hlacks : Mask.has (Text.lenientHex text.toList) index.val = false)
    (hrest : ∀ edit ∈ rest, edit.1 ≠ (Field.slot owner kind index).name) (b : Block)
    (first : List (String × String)) (base : Block) :
    let form := (ofBlock b).setEach (first ++ ((Field.mask owner kind).name, text) :: rest)
    ((form.apply base).sets owner kind).get? index.val = none ∨
      ((form.apply base).sets owner kind).get? index.val = some 0 := by
  intro form
  -- the run up to the mask, the mask, and the rest
  have hform : form = (((ofBlock b).setEach first).edit (.mask owner kind) text).setEach rest := by
    have hmask : Field.ofName? (Field.mask owner kind).name = some (.mask owner kind) :=
      Field.ofName?_name _
    rw [← attempt_of_ofName? hmask (by simp), ← setEach_cons, ← setEach_append]
  have hblanked : (((ofBlock b).setEach first).edit (.mask owner kind) text).text
      (.slot owner kind index) = "" := by
    rw [text_edit_mask_slot, if_pos ⟨rfl, rfl, hlacks⟩]
  have hblank : form.text (.slot owner kind index) = "" := by
    rw [hform]
    exact text_setEach_of_blank hblanked hrest
  rw [get?_sets_of_blank hblank]
  split
  · exact .inr rfl
  · exact .inl rfl

set_option maxRecDepth 20000 in
/-- A version that was shown, typed anew, and blanked by a text that is no mask, is zero after a
mask that enables it again. -/
theorem get?_setEach_of_lacks_version :
    let b : Block := { trigger := { standard := .ofValues 0x8002 ([0, 8] ++ .replicate 14 0xab) } }
    let first := [("trigger.std.15", "0x77"), ("trigger.std.3", "9")]
    let rest := [("trigger.std_mask", "0xffff"), ("trigger.std.1", "5"), ("no field", "1"),
      ("channel.std.15", "0x9")]
    let form := (ofBlock b).setEach (first ++ ("trigger.std_mask", "none") :: rest)
    Mask.has (Text.lenientHex "none".toList) 15 = false ∧
      (∀ edit ∈ rest, edit.1 ≠ "trigger.std.15") ∧
      ((ofBlock b).apply b).trigger.standard.get? 15 = some 0xab ∧
      (form.apply b).trigger.standard.get? 15 = some 0 := by
  intro b first rest form
  have hlacks : Mask.has (Text.lenientHex "none".toList) 15 = false := by decide
  have hrest : ∀ edit ∈ rest, edit.1 ≠
      (Field.slot .trigger .standard ⟨15, show 15 < 16 by decide⟩).name := by decide
  refine ⟨hlacks, hrest, by decide +kernel, ?_⟩
  have hsome : ((form.apply b).trigger.standard.get? 15).isSome = true := by decide +kernel
  rcases get?_setEach_of_lacks hlacks hrest b first b with hnone | hzero
  · have hnone : (form.apply b).trigger.standard.get? 15 = none := hnone
    rw [hnone] at hsome
    cases hsome
  · exact hzero

end ZioControl.Form
