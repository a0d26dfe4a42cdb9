import ZioControl.Proofs.FormRoundTrip
import ZioControl.Proofs.Table

/-!
# Edits are local

An edit of a field changes the bytes of that field and of those that follow it, and no other byte of
the block (`Form.exists_edit_of_getElem?_ne`). `Field.offset` and `Field.size` say where the bytes
of a field are, and `Form.Reaches` says which fields follow an edited one.

The argument goes through the table of a block's bytes. What stands in a row comes from the base,
which edits do not change, or from the texts of one field at the same place (`Row.Origin`). So bytes
that differ belong to a field with a text that differs, which some edit has reached. The value of a
slot is read from two texts, its own and that of the mask (`Field.sources`), but an edit of the mask
reaches its slots as well.
-/

namespace ZioControl

namespace Field

/-- Where the bytes of a field begin in a block. -/
def offset : Field → Nat
  | .majorVersion => 0
  | .minorVersion => 1
  | .zioAlarms => 2
  | .deviceAlarms => 3
  | .sequence => 4
  | .samples => 8
  | .sampleSize => 12
  | .sampleBits => 14
  | .hostType => 18
  | .hostId => 20
  | .deviceId => 28
  | .channelSet => 32
  | .channel => 34
  | .device => 36
  | .seconds => 48
  | .ticks => 56
  | .bins => 64
  | .flags => 80
  | .triggerName => 84
  | .mask .channel .standard => 96
  | .mask .channel .extended => 100
  | .slot .channel .standard index => 104 + 4 * index.val
  | .slot .channel .extended index => 168 + 4 * index.val
  | .mask .trigger .standard => 296
  | .mask .trigger .extended => 300
  | .slot .trigger .standard index => 304 + 4 * index.val
  | .slot .trigger .extended index => 368 + 4 * index.val

/-- The bytes of a field. -/
def size : Field → Nat
  | .majorVersion | .minorVersion | .zioAlarms | .deviceAlarms | .hostType => 1
  | .sampleSize | .sampleBits | .channelSet | .channel | .mask _ .standard => 2
  | .sequence | .samples | .deviceId | .flags | .mask _ .extended | .slot _ _ _ => 4
  | .hostId | .seconds | .ticks | .bins => 8
  | .device | .triggerName => 12

/-- Whether byte `i` of a block belongs to a field. -/
def Covers (field : Field) (i : Nat) : Prop := field.offset ≤ i ∧ i < field.offset + field.size

/-- The fields whose texts decide what is written for a field. -/
def sources : Field → List Field
  | .slot owner kind index => [.mask owner kind, .slot owner kind index]
  | field => [field]

end Field

namespace Form

variable {form other : Form}

/-- What reaches a text from which a field is read, reaches the field. -/
theorem Reaches.of_source {field source place : Field} (h : Reaches field source)
    (hsource : source ∈ place.sources) : Reaches field place := by
  cases place with
  | slot owner kind index =>
    simp only [Field.sources, List.mem_cons, List.not_mem_nil, or_false] at hsource
    rcases hsource with rfl | rfl
    -- only an edit of the mask itself reaches the mask
    · cases h
      exact .slot owner kind index
    · exact h
  | _ =>
    obtain rfl := List.mem_singleton.mp hsource
    exact h

/-- A slot is read from the text of its mask and its own. -/
theorem getElem?_values_congr {owner : Owner} {kind : Kind} {index : Fin kind.capacity}
    (h : ∀ source ∈ (Field.slot owner kind index).sources, form.text source = other.text source) :
    (form.attributeSet owner kind).values[index.val]? =
      (other.attributeSet owner kind).values[index.val]? := by
  have hmask : form.hexWord (.mask owner kind) = other.hexWord (.mask owner kind) := by
    rw [hexWord, hexWord, h _ List.mem_cons_self]
  have hslot : form.text (.slot owner kind index) = other.text (.slot owner kind index) :=
    h _ (List.mem_cons_of_mem _ (List.mem_singleton.mpr rfl))
  rw [Vector.getElem?_eq_getElem index.isLt, Vector.getElem?_eq_getElem index.isLt,
    AttributeSet.getElem_values, AttributeSet.getElem_values, get?_attributeSet, get?_attributeSet,
    hmask, hslot]

end Form

namespace Row

/-- Where what stands in a row comes from when a form is applied to a base. -/
inductive Origin (row : Row) : Prop
  /-- It is read from the texts of the field at the same place. -/
  | field (field : Field) (hedited : field ≠ .hostId) (hoffset : row.offset = field.offset)
    (hsize : row.size = field.size)
    (hvalue : ∀ (form other : Form) (base : Block),
      (∀ source ∈ field.sources, form.text source = other.text source) →
        row.value (form.apply base) = row.value (other.apply base))
  /-- It is that of the base. -/
  | base (hvalue : ∀ (form : Form) (base : Block), row.value (form.apply base) = row.value base)

end Row

/-- The field that a cell holds, if it holds a single one. -/
def Cell.field? : Cell → Option Field
  | .majorVersion => some .majorVersion
  | .minorVersion => some .minorVersion
  | .zioAlarms => some .zioAlarms
  | .deviceAlarms => some .deviceAlarms
  | .sequence => some .sequence
  | .samples => some .samples
  | .sampleSize => some .sampleSize
  | .sampleBits => some .sampleBits
  | .hostType => some .hostType
  | .deviceId => some .deviceId
  | .channelSet => some .channelSet
  | .channel => some .channel
  | .device => some .device
  | .seconds => some .seconds
  | .ticks => some .ticks
  | .bins => some .bins
  | .flags => some .flags
  | .triggerName => some .triggerName
  | .attributes owner .standardMask => some (.mask owner .standard)
  | .attributes owner .extendedMask => some (.mask owner .extended)
  | _ => none

/-- A field that has a cell of its own lies there, and is read from its own text. -/
theorem Cell.place_of_field? {cell : Cell} {field : Field} (h : cell.field? = some field) :
    field ≠ .hostId ∧ field.offset = cell.offset ∧ field.size = cell.size ∧
      field.sources = [field] := by
  cases cell with
  | attributes owner part =>
    cases part <;> cases h <;> cases owner <;> exact ⟨by decide, rfl, rfl, rfl⟩
  | _ => cases h <;> exact ⟨by decide, rfl, rfl, rfl⟩

namespace Row

variable {cell : Cell}

/-- The row of a cell that holds a single field. -/
theorem origin_of_field? {field : Field} {row : Row} (hfield : cell.field? = some field)
    (hrow : ofCell cell = [row]) (hoffset : row.offset = cell.offset) (hsize : row.size = cell.size)
    (hvalue : ∀ (form other : Form) (base : Block), form.text field = other.text field →
      row.value (form.apply base) = row.value (other.apply base)) :
    ∀ row ∈ ofCell cell, row.Origin := by
  obtain ⟨hedited, hfieldOffset, hfieldSize, hsources⟩ := Cell.place_of_field? hfield
  rw [hrow, List.forall_mem_singleton]
  refine .field field hedited (hoffset.trans hfieldOffset.symm) (hsize.trans hfieldSize.symm)
    fun form other base h => hvalue form other base (h field ?_)
  rw [hsources, List.mem_singleton]

/-- The rows of the slots of one kind. -/
theorem origin_of_slots {start : Nat} (owner : Owner) (kind : Kind)
    (hoffset : ∀ index, (Field.slot owner kind index).offset = start + 4 * index.val) :
    ∀ row ∈ numbers start 4 kind.capacity fun i b =>
      (((b.attributes owner).ofKind kind).values[i]?.getD 0).toNat, row.Origin := by
  intro row hrow
  obtain ⟨i, hi, rfl⟩ := List.mem_map.mp hrow
  have hset (form : Form) (base : Block) :
      ((form.apply base).attributes owner).ofKind kind = form.attributeSet owner kind :=
    form.sets_apply base owner kind
  refine .field (.slot owner kind ⟨i, List.mem_range.mp hi⟩) (by simp)
    (hoffset ⟨i, List.mem_range.mp hi⟩).symm rfl fun form other base h => ?_
  have hslot := Form.getElem?_values_congr h
  simp only [hset, hslot]

/-- Every row of the table comes from one field or from the base. -/
theorem origin_of_mem_ofCell (cell : Cell) : ∀ row ∈ ofCell cell, row.Origin := by
  cases cell with
  | family | hostPadding | hostId | memoryOffset | reserved | extension =>
    exact List.forall_mem_singleton.mpr (.base fun _ _ => rfl)
  | device | triggerName =>
    exact origin_of_field? rfl rfl rfl rfl fun _ _ _ h => by
      simp only [Form.apply, Form.nameText, h]
  | zioAlarms | deviceAlarms =>
    exact origin_of_field? rfl rfl rfl rfl fun _ _ _ h => by
      simp only [Form.apply, Form.alarms_congr h]
  | flags =>
    exact origin_of_field? rfl rfl rfl rfl fun _ _ _ h => by
      simp only [Form.apply, Form.hexWord, h]
  | attributes owner part =>
    cases part with
    | standardMask | extendedMask =>
      cases owner <;>
        exact origin_of_field? rfl rfl rfl rfl fun _ _ _ h => by
          simp only [Form.apply, Block.attributes, Form.attributes, Form.mask_attributeSet,
            Form.hexWord, h]
    | padding =>
      cases owner <;> exact List.forall_mem_singleton.mpr (.base fun _ _ => rfl)
    | standardValues =>
      cases owner with
      | channel => exact origin_of_slots .channel .standard fun _ => rfl
      | trigger => exact origin_of_slots .trigger .standard fun _ => rfl
    | extendedValues =>
      cases owner with
      | channel => exact origin_of_slots .channel .extended fun _ => rfl
      | trigger => exact origin_of_slots .trigger .extended fun _ => rfl
  | _ =>
    exact origin_of_field? rfl rfl rfl rfl fun _ _ _ h => by
      simp only [Form.apply, Form.number, h]

end Row

/-- The bytes of a block that no field but that of the host's identity shows. -/
theorem Field.not_covers_of_ne_hostId {field : Field} (h : field ≠ .hostId) {i : Nat}
    (hi : 16 ≤ i ∧ i < 18 ∨ 20 ≤ i ∧ i < 28 ∨ 72 ≤ i ∧ i < 80 ∨ 496 ≤ i ∧ i < 512) :
    ¬field.Covers i := by
  rintro ⟨hle, hlt⟩
  cases field with
  | hostId => exact h rfl
  | mask owner kind =>
    cases owner <;> cases kind <;> simp only [offset, size] at hle hlt <;> omega
  | slot owner kind index =>
    have hindex := index.isLt
    cases owner <;> cases kind <;> simp only [offset, size, Kind.capacity] at hle hlt hindex <;>
      omega
  | _ =>
    simp only [offset, size] at hle hlt
    omega

namespace Form

variable {form other next : Form} {order : ByteOrder} {b base : Block} {bytes after : List UInt8}
  {edits : List (String × String)}

/-- A byte in which the blocks differ that two forms stand for belongs to a field, and the forms
differ in a text that this field is read from. -/
theorem exists_source_of_getElem?_ne (h : (form.apply base).encode order = .ok bytes)
    (hother : (other.apply base).encode order = .ok after) {i : Nat}
    (hdiffer : bytes[i]? ≠ after[i]?) :
    ∃ field : Field, field ≠ .hostId ∧ field.Covers i ∧
      ∃ source ∈ field.sources, form.text source ≠ other.text source := by
  have hi : i < 512 := by
    refine Nat.lt_of_not_le fun hle => hdiffer ?_
    rw [List.getElem?_eq_none ((Block.length_of_encode h).trans_le hle),
      List.getElem?_eq_none ((Block.length_of_encode hother).trans_le hle)]
  obtain ⟨row, hrow, hcovers⟩ := Row.adjacent_table.exists_covers (Nat.zero_le i) hi
  -- the row has two values, or its bytes would be the same
  have hvalue : row.value (form.apply base) ≠ row.value (other.apply base) := by
    intro hsame
    refine hdiffer ?_
    rw [← Row.getElem?_slice hcovers, ← Row.getElem?_slice hcovers, Block.slice_encode h hrow,
      Block.slice_encode hother hrow, Row.write, Row.write, hsame]
  obtain ⟨cell, -, hmem⟩ := List.mem_flatMap.mp hrow
  cases Row.origin_of_mem_ofCell cell row hmem with
  | base hbase => exact absurd ((hbase form base).trans (hbase other base).symm) hvalue
  | field field hedited hoffset hsize hcongr =>
    refine ⟨field, hedited, ?_, ?_⟩
    · rwa [Field.Covers, ← hoffset, ← hsize]
    · by_contra hnone
      refine hvalue (hcongr form other base fun source hsource => ?_)
      by_contra htext
      exact hnone ⟨source, hsource, htext⟩

/-- A text that a run changes is that of a field which an edit of the run reaches. -/
theorem exists_reaches_of_text_ne {source : Field}
    (h : (form.setEach edits).text source ≠ form.text source) :
    ∃ edit ∈ edits, ∃ field, Field.ofName? edit.1 = some field ∧ Reaches field source := by
  by_contra hnone
  refine h (text_setEach_of_not_reaches fun edit hedit field hfield hreaches => hnone ?_)
  exact ⟨edit, hedit, field, hfield, hreaches⟩

/-- Let bytes be those of the block that they hold, whose names do not end with blanks. A run of
edits that succeeds, with any texts, changes a byte of the block only if it belongs to an edited
field or to one that follows it: the number of samples for the trigger's samples before and after
it fires, the number of bits for the channel's resolution, and the slots for their mask. The family
of the address, the host's identity, the place in memory, the reserved word and the room for
extensions never change. -/
theorem exists_edit_of_getElem?_ne (hread : Block.decode order bytes = .ok b)
    (hkept : (Block.decode order bytes >>= Block.encode order) = .ok bytes)
    (hdevice : ∀ c, b.address.device.toList.getLast? = some c → Text.isBlank c = false)
    (htrigger : ∀ c, b.triggerName.toList.getLast? = some c → Text.isBlank c = false)
    (hrun : (ofBlock b).setAll edits = .ok next)
    (hwritten : (next.apply b).encode order = .ok after) :
    (∀ i : Nat, after[i]? ≠ bytes[i]? → ∃ edit ∈ edits, ∃ field place,
      Field.ofName? edit.1 = some field ∧ Reaches field place ∧ place.Covers i) ∧
    ∀ i : Nat, 16 ≤ i ∧ i < 18 ∨ 20 ≤ i ∧ i < 28 ∨ 72 ≤ i ∧ i < 80 ∨ 496 ≤ i ∧ i < 512 →
      after[i]? = bytes[i]? := by
  -- the bytes before the edits are those that the unedited form stands for
  have hself : (ofBlock b).apply b = b := by
    rw [apply_ofBlock, Block.onto, Name.stripped_eq_self hdevice, Name.stripped_eq_self htrigger]
  have hbefore : ((ofBlock b).apply b).encode order = .ok bytes := by
    rw [hself]
    simpa only [hread, bind, Except.bind] using hkept
  obtain rfl := setEach_of_setAll hrun
  constructor
  · intro i hdiffer
    obtain ⟨place, -, hcovers, source, hsource, htext⟩ :=
      exists_source_of_getElem?_ne hwritten hbefore hdiffer
    obtain ⟨edit, hedit, field, hfield, hreaches⟩ := exists_reaches_of_text_ne htext
    exact ⟨edit, hedit, field, place, hfield, hreaches.of_source hsource, hcovers⟩
  · intro i hi
    by_contra hdiffer
    obtain ⟨place, hedited, hcovers, -⟩ := exists_source_of_getElem?_ne hwritten hbefore hdiffer
    exact Field.not_covers_of_ne_hostId hedited hi hcovers

set_option maxRecDepth 20000 in
/-- A run that counts the samples anew, copies the resolution, types into a slot that is disabled,
and then disables the slots of the trigger: the name of the device and the identity of the host stay
where they are. -/
theorem exists_edit_of_getElem?_ne_cascade :
    let b : Block := {
      address := { hostId := .replicate 8 7, device := "adc" }
      samples := 4
      channel := { standard := .ofValues 1 [16] }
      trigger := { standard := .ofValues 6 [1, 3] }
      extension := .replicate 16 255 }
    let edits := [("trigger.std.1", "8"), ("channel.std.0", "0xe"), ("channel.ext.31", "word"),
      ("trigger.std_mask", "0x8000")]
    ∃ bytes after next, Block.decode .big bytes = .ok b ∧ (ofBlock b).setAll edits = .ok next ∧
      (next.apply b).encode .big = .ok after ∧ after ≠ bytes ∧
      (∀ i : Nat, after[i]? ≠ bytes[i]? → ∃ edit ∈ edits, ∃ field place,
        Field.ofName? edit.1 = some field ∧ Reaches field place ∧ place.Covers i) ∧
      ∀ i : Nat, 16 ≤ i ∧ i < 18 ∨ 20 ≤ i ∧ i < 28 ∨ 72 ≤ i ∧ i < 80 ∨ 496 ≤ i ∧ i < 512 →
        after[i]? = bytes[i]? := by
  intro b edits
  obtain ⟨bytes, hbytes, hread⟩ := b.exists_encode_of_badName? .big (by decide +kernel)
  have hkept : (Block.decode .big bytes >>= Block.encode .big) = .ok bytes := by
    simpa only [hread, bind, Except.bind] using hbytes
  obtain ⟨next, hrun⟩ : ∃ next, (ofBlock b).setAll edits = .ok next := ⟨_, rfl⟩
  have hfits : (next.apply b).badName? = none ∧ (next.apply b) ≠ b := by
    obtain rfl := setEach_of_setAll hrun
    exact ⟨by decide +kernel, by decide +kernel⟩
  obtain ⟨after, hwritten, hagain⟩ := (next.apply b).exists_encode_of_badName? .big hfits.1
  have hchanged : after ≠ bytes := by
    rintro rfl
    exact hfits.2 (Except.ok.inj (hagain.symm.trans hread))
  have hdevice : ∀ c, b.address.device.toList.getLast? = some c → Text.isBlank c = false := by
    have hlast : b.address.device.toList.getLast? = some 'c' := by decide
    intro c hc
    obtain rfl := Option.some.inj (hlast.symm.trans hc)
    decide
  have htrigger : ∀ c, b.triggerName.toList.getLast? = some c → Text.isBlank c = false := by
    have hlast : b.triggerName.toList.getLast? = none := by decide
    intro c hc
    cases hlast.symm.trans hc
  have hlocal := exists_edit_of_getElem?_ne hread hkept hdevice htrigger hrun hwritten
  exact ⟨bytes, after, next, hread, hrun, hwritten, hchanged, hlocal⟩

end Form

end ZioControl
