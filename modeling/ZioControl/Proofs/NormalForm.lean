import ZioControl.Proofs.RoundTrip

/-!
# What a block keeps of its bytes

Reading a block and writing it again gives the *normal form* of the bytes (`Block.normalForm`),
which differs from them in four things only: filler bytes are zero, a name is cut, repaired and
filled up with zeros, values of disabled slots are zero, and what follows the block is gone. So two
byte strings hold the same block exactly when they have the same normal form
(`Block.decode_normalForm`).
-/

namespace ZioControl

/-- The mask that bytes spell in an order. -/
def maskOf (order : ByteOrder) (bytes : List UInt8) : Mask :=
  UInt32.ofNat (Word.ofBytes (Word.turn order bytes))

/-- The words of values, those at slots that the mask lacks replaced by zero. -/
def normalValues (mask : Mask) (capacity : Nat) (values : List UInt8) : List UInt8 :=
  (List.range capacity).flatMap fun i =>
    if mask.has i then Word.word 4 i values else List.replicate 4 0

/-- The normal form of the record of one owner's attributes: both masks are kept, and so are the
values of their slots. -/
def normalRecord (order : ByteOrder) (record : List UInt8) : List UInt8 :=
  record.extract 0 2 ++ [0, 0] ++ record.extract 4 8 ++
    normalValues (maskOf order (record.extract 0 2)) 16 (record.extract 8 72) ++
    normalValues (maskOf order (record.extract 4 8)) 32 (record.extract 72 200)

/-- The normal form of the block that a byte string begins with. -/
def Block.normalForm (order : ByteOrder) (bytes : List UInt8) : List UInt8 :=
  bytes.extract 0 19 ++ [0] ++ bytes.extract 20 36 ++ Name.normalForm (bytes.extract 36 48) ++
    bytes.extract 48 84 ++ Name.normalForm (bytes.extract 84 96) ++
    normalRecord order (bytes.extract 96 296) ++ normalRecord order (bytes.extract 296 496) ++
    bytes.extract 496 512

/-- What a block keeps of its cells, whose words stand in the given order. -/
def Cell.kept (order : ByteOrder) (cells : Cell → List UInt8) : Cell → List UInt8
  | .hostPadding => [0]
  | .device => Name.normalForm (cells .device)
  | .triggerName => Name.normalForm (cells .triggerName)
  | .attributes _ .padding => [0, 0]
  | .attributes owner .standardValues =>
    normalValues (maskOf order (cells (.attributes owner .standardMask))) 16
      (cells (.attributes owner .standardValues))
  | .attributes owner .extendedValues =>
    normalValues (maskOf order (cells (.attributes owner .extendedMask))) 32
      (cells (.attributes owner .extendedValues))
  | cell => cells cell

section Image

variable {image : Image} (h : image.Sized)

include h

/-- The record that the attributes of an image are written to. -/
theorem Attributes.image_attributes (owner : Owner) (part : AttributePart) :
    (image.attributes owner).image part = Cell.kept .little image (.attributes owner part) := by
  cases part with
  | standardMask =>
    exact AttributeSet.toBytes_mask_ofBytes (h (.attributes owner .standardMask)) rfl (by decide)
  | padding => rfl
  | extendedMask =>
    exact AttributeSet.toBytes_mask_ofBytes (h (.attributes owner .extendedMask)) rfl (by decide)
  | standardValues => exact AttributeSet.valueBytes_ofBytes (h (.attributes owner .standardValues))
  | extendedValues => exact AttributeSet.valueBytes_ofBytes (h (.attributes owner .extendedValues))

/-- The image of the block that has an image. -/
theorem Block.image_ofImage : (ofImage image).image = Cell.kept .little image := by
  funext cell
  cases cell with
  | device => exact Name.toBytes_ofBytes (h .device)
  | triggerName => exact Name.toBytes_ofBytes (h .triggerName)
  | attributes owner part =>
    rw [← Attributes.image_attributes h]
    cases owner <;> rfl
  | hostPadding => rfl
  | hostId => exact Word.toList_ofFn_getElem? (h .hostId)
  | extension => exact Word.toList_ofFn_getElem? (h .extension)
  | majorVersion | minorVersion | zioAlarms | deviceAlarms | hostType =>
    exact Word.singleton_uint8 (h _)
  | sampleSize | sampleBits | family | channelSet | channel => exact Word.toBytes_uint16 (h _)
  | sequence | samples | deviceId | memoryOffset | reserved | flags =>
    exact Word.toBytes_uint32 (h _)
  | seconds | ticks | bins => exact Word.toBytes_uint64 (h _)

/-- The names of a block that was read fit their fields. -/
theorem Block.namesFit_ofImage : (ofImage image).NamesFit :=
  ⟨Name.fits_ofBytes (h .device).le, Name.fits_ofBytes (h .triggerName).le⟩

end Image

section Order

variable (order : ByteOrder)

/-- Values that were turned to another order and back keep the words at the slots of the mask. -/
theorem orient_normalValues (mask : Mask) {capacity : Nat} {values : List UInt8}
    (h : values.length = 4 * capacity) :
    Word.orient order 4 (normalValues mask capacity (Word.orient order 4 values)) =
      normalValues mask capacity values := by
  have hturned := (Word.length_orient order (by decide) h).trans h
  rw [normalValues, Word.orient_flatMap order (by decide)]
  · refine List.flatMap_congr fun i hi => ?_
    -- a word that stays is turned twice, and zeros read the same in both orders
    split
    · rw [Word.word_orient order (by decide) h (List.mem_range.1 hi), Word.turn_turn]
    · exact Word.turn_replicate order 4 0
  · intro i hi
    split
    · exact Word.length_word hturned (List.mem_range.1 hi)
    · exact List.length_replicate

/-- The mask of a record is the one that its bytes spell in their order. -/
theorem maskOf_orient {width : Nat} {mask : List UInt8} (h : mask.length = width)
    (hw : 0 < width) : maskOf .little (Word.orient order width mask) = maskOf order mask := by
  subst h
  rw [Word.orient_eq_turn order hw]
  rfl

/-- The same with the mask that stands in the record, which is turned too. -/
theorem orient_normalValues_maskOf {width capacity : Nat} {mask values : List UInt8}
    (hw : 0 < width) (hmask : mask.length = width) (hvalues : values.length = 4 * capacity) :
    Word.orient order 4 (normalValues (maskOf .little (Word.orient order width mask)) capacity
        (Word.orient order 4 values)) =
      normalValues (maskOf order mask) capacity values := by
  rw [maskOf_orient order hmask hw, orient_normalValues order _ hvalues]

/-- What is kept of cells does not depend on the order that they are turned to for reading. -/
theorem Cell.orient_kept {cells : Cell → List UInt8} (h : ∀ cell, (cells cell).length = cell.size)
    (cell : Cell) :
    Word.orient order cell.wordSize
        (kept .little (fun cell => Word.orient order cell.wordSize (cells cell)) cell) =
      kept order cells cell := by
  -- a cell that is kept as it is was turned there and back
  have hverbatim := Image.orient_orient_cell order (h cell)
  cases cell with
  | device | triggerName =>
    simp only [kept, wordSize, Word.orient_one]
  | hostPadding => exact Word.orient_one order
  | attributes owner part =>
    cases part with
    | standardMask | extendedMask => exact hverbatim
    | padding => exact Word.orient_one order
    | standardValues =>
      have hmask : (cells (.attributes owner .standardMask)).length = 2 := h _
      have hvalues : (cells (.attributes owner .standardValues)).length = 4 * 16 := h _
      exact orient_normalValues_maskOf order (exists_size_eq _).1 hmask hvalues
    | extendedValues =>
      have hmask : (cells (.attributes owner .extendedMask)).length = 4 := h _
      have hvalues : (cells (.attributes owner .extendedValues)).length = 4 * 32 := h _
      exact orient_normalValues_maskOf order (exists_size_eq _).1 hmask hvalues
  | _ => exact hverbatim

/-- Cells that are kept as they are and stand side by side are one stretch of the bytes. -/
theorem Cell.flatMap_kept (bytes : List UInt8) (start count : Nat)
    (h : ∀ cell ∈ (all.drop start).take count,
      kept order (slice · bytes) cell = cell.slice bytes) :
    ((all.drop start).take count).flatMap (kept order (slice · bytes)) =
      (bytes.drop ((all.take start).map size).sum).take
        (((all.drop start).take count).map size).sum := by
  have hall : all =
      all.take start ++ (all.drop start).take count ++ (all.drop start).drop count := by
    rw [List.append_assoc, List.take_append_drop, List.take_append_drop]
  rw [List.flatMap_congr h]
  exact flatMap_slice bytes _ _ hall

/-- A part of a record, counted from where the record begins. -/
theorem Cell.slice_attributes (bytes : List UInt8) (owner : Owner) (part : AttributePart) :
    (Cell.attributes owner part).slice bytes =
      (bytes.extract owner.offset (owner.offset + 200)).extract part.offset
        (part.offset + part.size) := by
  have hle : part.offset + part.size ≤ 200 := by cases part <;> decide
  rw [slice, offset, size, List.extract_eq_take_drop, List.extract_eq_take_drop,
    Nat.add_sub_cancel_left, Nat.add_sub_cancel_left, List.drop_take, List.drop_drop,
    List.take_take, Nat.min_eq_left (by omega)]

/-- What is kept of a record. -/
theorem Cell.flatMap_kept_attributes (bytes : List UInt8) (owner : Owner) :
    (AttributePart.all.map (attributes owner)).flatMap (kept order (slice · bytes)) =
      normalRecord order (bytes.extract owner.offset (owner.offset + 200)) := by
  simp only [AttributePart.all, List.map_cons, List.map_nil, List.flatMap_cons, List.flatMap_nil,
    List.append_nil, kept, slice_attributes, normalRecord, List.append_assoc]
  rfl

/-- What is kept of the cells of a byte string is its normal form. -/
theorem Block.flatMap_kept (bytes : List UInt8) :
    Cell.all.flatMap (Cell.kept order (Cell.slice · bytes)) = normalForm order bytes := by
  -- the cells that are not kept as they are, and the stretches between them
  have hall : Cell.all = (Cell.all.drop 0).take 10 ++ [.hostPadding] ++
      (Cell.all.drop 11).take 4 ++ [.device] ++ (Cell.all.drop 16).take 6 ++ [.triggerName] ++
      AttributePart.all.map (.attributes .channel) ++
      AttributePart.all.map (.attributes .trigger) ++ [.extension] := rfl
  have hversions : ((Cell.all.drop 0).take 10).flatMap (Cell.kept order (Cell.slice · bytes)) =
      bytes.extract 0 19 := Cell.flatMap_kept order bytes 0 10 (by simp [Cell.all, Cell.kept])
  have haddress : ((Cell.all.drop 11).take 4).flatMap (Cell.kept order (Cell.slice · bytes)) =
      bytes.extract 20 36 := Cell.flatMap_kept order bytes 11 4 (by simp [Cell.all, Cell.kept])
  have hnumbers : ((Cell.all.drop 16).take 6).flatMap (Cell.kept order (Cell.slice · bytes)) =
      bytes.extract 48 84 := Cell.flatMap_kept order bytes 16 6 (by simp [Cell.all, Cell.kept])
  rw [hall]
  simp only [List.flatMap_append, List.flatMap_singleton, hversions, haddress, hnumbers,
    Cell.flatMap_kept_attributes]
  rfl

/-- A block that was read from bytes is written as their normal form. -/
theorem Block.encode_ofImage {bytes : List UInt8} (h : blockSize ≤ bytes.length) :
    (ofImage (Image.ofBytes order bytes)).encode order = .ok (normalForm order bytes) := by
  have hsized := Image.sized_ofBytes order h
  have hcells (cell : Cell) := cell.length_slice h
  rw [encode_of_namesFit order (namesFit_ofImage hsized), image_ofImage hsized, Image.toBytes,
    ← flatMap_kept order]
  exact congrArg Except.ok (List.flatMap_congr fun cell _ => Cell.orient_kept order hcells cell)

/-- The normal form is the length of a block. -/
theorem Block.length_normalForm {bytes : List UInt8} (h : blockSize ≤ bytes.length) :
    (normalForm order bytes).length = blockSize :=
  length_of_encode (encode_ofImage order h)

/-- The normal form is the bytes of the block that was read, so it holds the same block. -/
theorem Block.ofImage_normalForm {bytes : List UInt8} (h : blockSize ≤ bytes.length) :
    ofImage (Image.ofBytes order (normalForm order bytes)) =
      ofImage (Image.ofBytes order bytes) := by
  have hdecode := decode_of_encode (encode_ofImage order h)
  rw [decode_eq_ok order (length_normalForm order h).ge] at hdecode
  exact Except.ok.inj hdecode

/-- Byte strings that hold the same block have the same normal form, and conversely. -/
theorem Block.ofImage_eq_iff {bytes other : List UInt8} (h : blockSize ≤ bytes.length)
    (hother : blockSize ≤ other.length) :
    ofImage (Image.ofBytes order bytes) = ofImage (Image.ofBytes order other) ↔
      normalForm order bytes = normalForm order other := by
  constructor
  · intro heq
    have hbytes := encode_ofImage order h
    rw [heq, encode_ofImage order hother] at hbytes
    exact (Except.ok.inj hbytes).symm
  · intro heq
    rw [← ofImage_normalForm order h, ← ofImage_normalForm order hother, heq]

end Order

/-- A byte string that is too short holds no block. Any other one does, and the block is written as
the normal form of the bytes. So the normal form tells the blocks apart and is its own normal
form. -/
theorem Block.decode_normalForm (order : ByteOrder) (bytes : List UInt8) :
    (bytes.length < 512 → decode order bytes = .error (.shortBlock bytes.length)) ∧
    (512 ≤ bytes.length →
      (∃ b, decode order bytes = .ok b ∧ b.encode order = .ok (normalForm order bytes)) ∧
      (∀ other, 512 ≤ other.length → (decode order bytes = decode order other ↔
        normalForm order bytes = normalForm order other)) ∧
      normalForm order (normalForm order bytes) = normalForm order bytes) := by
  constructor
  · intro hshort
    rw [decode, if_pos (by rw [blockSize]; omega)]
  · intro h
    refine ⟨⟨_, decode_eq_ok order h, encode_ofImage order h⟩, ?_, ?_⟩
    · intro other hother
      rw [decode_eq_ok order h, decode_eq_ok order hother, Except.ok.injEq]
      exact ofImage_eq_iff order h hother
    · have hlen := length_normalForm order h
      exact (ofImage_eq_iff order hlen.ge h).mp (ofImage_normalForm order h)

end ZioControl
