import ZioControl.Proofs.FormRoundTrip
import ZioControl.Proofs.RoundTrip

/-!
# Typed names

Anything can be typed for a name, and the only thing that can keep the block which a form stands
for from being written is a name that its field cannot hold. The blanks at the end of the text go
first, so a space at the end is never the reason: what is left is too long, in bytes, or contains
the character that ends a name (`Form.nameError?`). Every other block is written, and read back as
it is, and then its texts are those of the form, respelled (`Form.encode_apply`).
-/

namespace ZioControl

namespace Name

/-- The last character of a stripped name is not blank. -/
theorem isBlank_of_getLast?_stripped {name : String} {c : Char}
    (h : (stripped name).toList.getLast? = some c) : Text.isBlank c = false := by
  rw [stripped, String.toList_ofList] at h
  have hne := List.ne_nil_of_mem (List.mem_of_getLast? h)
  rw [List.getLast?_eq_some_getLast hne, Option.some_inj] at h
  rw [← h]
  exact Bool.eq_false_iff.mpr (List.rdropWhile_last_not _ _ hne)

/-- The first reason for which a field cannot hold a text that was typed, the blanks at its end
apart. -/
def typedFault? (text : String) : Option NameFault :=
  if 12 < (stripped text).utf8ByteSize then some (.tooLong (stripped text).utf8ByteSize)
  else if '\x00' ∈ (stripped text).toList then some .embeddedNul
  else none

/-- A field can hold a text that is neither too long nor contains the character that ends a name. -/
theorem typedFault?_eq_none_iff {text : String} : typedFault? text = none ↔
    (stripped text).utf8ByteSize ≤ 12 ∧ '\x00' ∉ (stripped text).toList := by
  rw [typedFault?, ← Nat.not_lt]
  split_ifs with hlong hnul <;> simp [*]

/-- There is no other reason for which a field cannot hold a stripped name. -/
theorem fault?_stripped (text : String) : fault? (stripped text) = typedFault? text := by
  have hnul := Utf8.mem_encode_iff (stripped text).toList (d := '\x00') (by decide)
  have hspace := Utf8.getLast?_encode_iff (stripped text).toList (d := ' ') (by decide)
  have hlast : (Utf8.encode (stripped text).toList).getLast? ≠ some 0x20 := fun h =>
    absurd (isBlank_of_getLast?_stripped (hspace.mp h)) (by decide)
  have hmem : 0 ∈ Utf8.encode (stripped text).toList ↔ '\x00' ∈ (stripped text).toList := hnul
  simp only [fault?, typedFault?, Utf8.length_encode, hmem, if_neg hlast, nameSize]

end Name

namespace Form

/-- The first thing that keeps the block which a form stands for from being written: the name of the
device comes before that of the trigger. -/
def nameError? (form : Form) : Option Error :=
  ((Name.typedFault? (form.text .device)).map (.badName "devname")).or
    ((Name.typedFault? (form.text .triggerName)).map (.badName "triggername"))

variable (form : Form) (base : Block)

/-- What is wrong with the block that a form stands for is wrong with the texts of its names. -/
theorem badName?_apply : (form.apply base).badName? = form.nameError? := by
  have hdevice : Name.fault? (form.apply base).address.device =
      Name.typedFault? (form.text .device) := Name.fault?_stripped _
  have htrigger : Name.fault? (form.apply base).triggerName =
      Name.typedFault? (form.text .triggerName) := Name.fault?_stripped _
  rw [Block.badName?, hdevice, htrigger, nameError?]
  cases Name.typedFault? (form.text .device) with
  | some fault => rfl
  | none => cases Name.typedFault? (form.text .triggerName) <;> rfl

/-- A space at the end of a name is not what is wrong with it. -/
theorem nameError?_ne_trailingSpace (field : String) :
    form.nameError? ≠ some (.badName field .trailingSpace) := by
  have htyped (text : String) : Name.typedFault? text ≠ some .trailingSpace := by
    unfold Name.typedFault?
    split_ifs <;> simp
  unfold nameError?
  cases hdevice : Name.typedFault? (form.text .device) with
  | some fault =>
    rintro ⟨⟩
    exact htyped _ hdevice
  | none =>
    cases htrigger : Name.typedFault? (form.text .triggerName) with
    | some fault =>
      rintro ⟨⟩
      exact htyped _ htrigger
    | none => nofun

/-- The block that a form stands for is written, in either byte order and whatever the base, exactly
if the texts of both names, the blanks at their ends apart, have at most 12 bytes and do not contain
the character that ends a name. If it is not, the error says what is wrong with the name of the
device, or else with that of the trigger, and never that there is a space at the end. What is
written is read back as it was, and shown as it was: each text as the form has it, respelled. -/
theorem encode_apply (order : ByteOrder) :
    ((∃ bytes, (form.apply base).encode order = .ok bytes) ↔
      ∀ field ∈ [Field.device, Field.triggerName],
        (Name.stripped (form.text field)).utf8ByteSize ≤ 12 ∧
          '\x00' ∉ (Name.stripped (form.text field)).toList) ∧
    (∀ error, (form.apply base).encode order = .error error ↔ form.nameError? = some error) ∧
    (∀ field, (form.apply base).encode order ≠ .error (.badName field .trailingSpace)) ∧
    ∀ bytes, (form.apply base).encode order = .ok bytes →
      Block.decode order bytes = .ok (form.apply base) ∧
      (Block.decode order bytes).map ofBlock = .ok (ofBlock (form.apply base)) ∧
      ofBlock (form.apply base) = form.respelled base := by
  have herror : ∀ error, (form.apply base).encode order = .error error ↔
      form.nameError? = some error := fun error => by
    rw [Block.encode_eq_error_iff, badName?_apply]
  refine ⟨?_, herror, fun field h => nameError?_ne_trailingSpace form field ((herror _).mp h),
    fun bytes hbytes => ?_⟩
  · have hnone : form.nameError? = none ↔ Name.typedFault? (form.text .device) = none ∧
        Name.typedFault? (form.text .triggerName) = none := by
      rw [nameError?, Option.or_eq_none_iff, Option.map_eq_none_iff, Option.map_eq_none_iff]
    have hok : (∃ bytes, (form.apply base).encode order = .ok bytes) ↔ form.nameError? = none := by
      rw [← badName?_apply form base, Block.badName?_eq_none_iff]
      exact ⟨fun ⟨_, h⟩ => Block.namesFit_of_encode h,
        fun h => ⟨_, Block.encode_of_namesFit order h⟩⟩
    rw [hok, hnone, Name.typedFault?_eq_none_iff, Name.typedFault?_eq_none_iff]
    simp
  · have hread := Block.decode_of_encode hbytes
    exact ⟨hread, by rw [hread, Except.map], ofBlock_apply base form⟩

end Form

end ZioControl
