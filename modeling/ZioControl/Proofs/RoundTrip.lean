import ZioControl.Proofs.Records

/-!
# Blocks come back from their bytes

A block has bytes exactly when its two names fit their fields, and whatever follows these bytes,
they are read as the block itself, field for field (`Block.encode_decode`). The proof goes through
the image: a block's image has the sizes of the layout (`Block.sized_image`) and is the image of no
other block (`Block.ofImage_image`), and the bytes of an image determine it. The bytes of a block
are those that come of writing each part of it at its offset into zeros
(`Block.encode_eq_writeAll`).
-/

namespace ZioControl

/-- Whether a cell only fills up the place up to the next one. -/
def Cell.isPadding : Cell → Bool
  | .hostPadding | .attributes _ .padding => true
  | _ => false

namespace Attributes

/-- Every part of a record has its size. -/
theorem length_image (a : Attributes) (part : AttributePart) :
    (a.image part).length = part.size := by
  cases part with
  | standardMask => exact Word.length_toBytes 2 _
  | padding => rfl
  | extendedMask => exact Word.length_toBytes 4 _
  | standardValues => exact a.standard.length_valueBytes
  | extendedValues => exact a.extended.length_valueBytes

end Attributes

namespace Block

variable {b : Block}

/-- The two names of a block fit their fields. -/
def NamesFit (b : Block) : Prop := Name.Fits b.address.device ∧ Name.Fits b.triggerName

/-- Nothing else can be wrong with a block. -/
theorem badName?_eq_none_iff : b.badName? = none ↔ b.NamesFit := by
  rw [NamesFit, ← Name.fault?_eq_none_iff, ← Name.fault?_eq_none_iff, badName?]
  cases Name.fault? b.address.device with
  | some fault => simp
  | none => cases Name.fault? b.triggerName <;> simp

/-- The bytes of a block whose names fit are those of its image. -/
theorem encode_of_namesFit (order : ByteOrder) (h : b.NamesFit) :
    b.encode order = .ok (Image.toBytes order b.image) := by
  rw [encode, badName?_eq_none_iff.2 h]

/-- A block that has bytes has names that fit. -/
theorem namesFit_of_encode {order : ByteOrder} {bytes : List UInt8}
    (h : b.encode order = .ok bytes) : b.NamesFit := by
  rw [encode] at h
  split at h
  · cases h
  · next hnone => exact badName?_eq_none_iff.1 hnone

/-- A block cannot be written exactly for what is wrong with a name. -/
theorem encode_eq_error_iff {order : ByteOrder} {error : Error} :
    b.encode order = .error error ↔ b.badName? = some error := by
  rw [encode]
  cases b.badName? with
  | some e => simp
  | none => simp

/-- The image of a block whose names fit has the sizes of the layout. -/
theorem sized_image (h : b.NamesFit) : b.image.Sized := by
  intro cell
  cases cell with
  | device => exact Name.length_toBytes h.1
  | triggerName => exact Name.length_toBytes h.2
  | attributes owner part => exact (b.attributes owner).length_image part
  -- all other cells have as many bytes as they are written with
  | hostId | extension => exact Vector.length_toList
  | majorVersion | minorVersion | zioAlarms | deviceAlarms | hostType | hostPadding => rfl
  | _ => exact Word.length_toBytes _ _

/-- The bytes of a block are those of its image, which has the sizes of the layout. -/
theorem image_of_encode {order : ByteOrder} {bytes : List UInt8} (h : b.encode order = .ok bytes) :
    b.image.Sized ∧ bytes = Image.toBytes order b.image := by
  have hfit := namesFit_of_encode h
  rw [encode_of_namesFit order hfit] at h
  exact ⟨sized_image hfit, (Except.ok.inj h).symm⟩

/-- The bytes of a block are as many as a block has. -/
theorem length_of_encode {order : ByteOrder} {bytes : List UInt8}
    (h : b.encode order = .ok bytes) : bytes.length = blockSize := by
  obtain ⟨hsized, rfl⟩ := image_of_encode h
  exact Image.length_toBytes order hsized

/-- The bytes of a block are those of 512 zeros to which all its cells but the padding are written
in place, in any order. -/
theorem encode_eq_writeAll (order : ByteOrder) (h : b.NamesFit) {cells : List Cell}
    (hcells : ∀ cell : Cell, cell.isPadding = false → cell ∈ cells) :
    b.encode order = .ok (Cell.writeAll
      (fun cell => Word.orient order cell.wordSize (b.image cell)) cells
      (List.replicate blockSize 0)) := by
  have hsized := sized_image h
  rw [encode_of_namesFit order h, Image.toBytes]
  refine congrArg Except.ok (Cell.flatMap_eq_writeAll
    (fun cell => Image.length_orient_cell order (hsized cell)) List.length_replicate
    fun cell hmem => ?_)
  have hpadding : cell.isPadding = true := eq_true_of_ne_false (mt (hcells cell) hmem)
  cases cell with
  | hostPadding => exact (Word.orient_one order).symm
  | attributes owner part =>
    cases part with
    | padding => cases owner <;> exact (Word.orient_one order).symm
    | _ => cases hpadding
  | _ => cases hpadding

/-- The attributes of an owner are found again in the image. -/
theorem attributes_image (owner : Owner) : b.image.attributes owner = b.attributes owner := by
  apply Attributes.ext
  · exact AttributeSet.ofBytes_toBytes _ (show 16 ≤ 8 * 2 by decide)
  · exact AttributeSet.ofBytes_toBytes _ (show 32 ≤ 8 * 4 by decide)

/-- A block whose names fit is found again in its image. -/
theorem ofImage_image (h : b.NamesFit) : ofImage b.image = b := by
  have hchannel := b.attributes_image .channel
  have htrigger := b.attributes_image .trigger
  obtain ⟨hdevice, hname⟩ := h
  simp only [ofImage, Image.number, Image.raw, hchannel, htrigger, image, attributes,
    Word.ofBytes_uint8, Word.ofBytes_uint16, Word.ofBytes_uint32, Word.ofBytes_uint64,
    Name.ofBytes_toBytes hdevice, Name.ofBytes_toBytes hname, Word.ofFn_getElem?_toList]

/-- A byte string that is long enough holds the block of its image. -/
theorem decode_eq_ok (order : ByteOrder) {bytes : List UInt8} (h : blockSize ≤ bytes.length) :
    decode order bytes = .ok (ofImage (Image.ofBytes order bytes)) := by
  rw [decode, if_neg (by omega)]

/-- What follows a block does not count. -/
theorem decode_take (order : ByteOrder) (bytes : List UInt8) :
    decode order (bytes.take blockSize) = decode order bytes := by
  by_cases h : bytes.length < blockSize
  · rw [List.take_of_length_le (Nat.le_of_lt h)]
  · have himage : Image.ofBytes order (bytes.take blockSize) = Image.ofBytes order bytes := by
      funext cell
      have hslice : cell.slice (bytes.take blockSize) = cell.slice bytes := by
        have hend := cell.offset_add_size_le
        rw [Cell.slice, Cell.slice, List.drop_take, List.take_take, Nat.min_eq_left (by omega)]
      rw [Image.ofBytes, Image.ofBytes, hslice]
    rw [decode, decode, himage, if_neg h, if_neg (by rw [List.length_take]; omega)]

/-- The bytes of a block, with anything behind them, are read as the block. -/
theorem decode_encode_append {order : ByteOrder} {bytes : List UInt8}
    (h : b.encode order = .ok bytes) (rest : List UInt8) :
    decode order (bytes ++ rest) = .ok b := by
  have hfit := namesFit_of_encode h
  obtain ⟨hsized, rfl⟩ := image_of_encode h
  have hlen := Image.length_toBytes order hsized
  rw [decode_eq_ok order (by rw [List.length_append]; omega), Image.ofBytes_toBytes order hsized,
    ofImage_image hfit]

/-- The bytes of a block are read as the block. -/
theorem decode_of_encode {order : ByteOrder} {bytes : List UInt8}
    (h : b.encode order = .ok bytes) : decode order bytes = .ok b := by
  rw [← List.append_nil bytes]
  exact decode_encode_append h []

/-- A block with which nothing is wrong has bytes, which are read as the block. -/
theorem exists_encode_of_badName? (order : ByteOrder) (h : b.badName? = none) :
    ∃ bytes, b.encode order = .ok bytes ∧ decode order bytes = .ok b := by
  have hbytes := encode_of_namesFit order (badName?_eq_none_iff.mp h)
  exact ⟨_, hbytes, decode_of_encode hbytes⟩

/-- A block has bytes exactly when both names fit their fields. Its bytes, with anything behind
them, are read as the block. -/
theorem encode_decode (order : ByteOrder) (b : Block) :
    ((∃ bytes, b.encode order = .ok bytes) ↔
      Name.Fits b.address.device ∧ Name.Fits b.triggerName) ∧
    ∀ bytes, b.encode order = .ok bytes → ∀ rest, decode order (bytes ++ rest) = .ok b := by
  refine ⟨⟨?_, ?_⟩, fun bytes h rest => decode_encode_append h rest⟩
  · rintro ⟨bytes, h⟩
    exact namesFit_of_encode h
  · intro h
    exact ⟨_, encode_of_namesFit order h⟩

end Block

end ZioControl
