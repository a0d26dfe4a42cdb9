import ZioControl.Proofs.NormalForm
import ZioControl.Proofs.Table

/-!
# The two byte orders

The bytes of a block in one byte order are the mirror image of those in the other one: each number
of the table has its bytes reversed, and all else stays (`Block.mirror`). So a mirrored byte string
holds the same block in the other order, attribute masks and all, and a byte string is carried from
one order to another by reading and writing it (`Block.mirror_orders`).

A byte string is mirrored cell by cell, since the rows of a cell are its words
(`Cell.mirror_slice`). So it is the image of the bytes that is kept, and everything about blocks
follows from the image.
-/

namespace ZioControl

/-- The bytes of a row in the other byte order. -/
def Row.mirror (row : Row) (bytes : List UInt8) : List UInt8 :=
  row.spelling.reverse (row.slice bytes)

/-- The bytes of a block with the bytes of each number reversed. -/
def Block.mirror (bytes : List UInt8) : List UInt8 := Row.table.flatMap (Row.mirror · bytes)

variable {bytes : List UInt8}

/-- The rows of a cell mirror its words. -/
theorem Cell.mirror_slice (cell : Cell) (h : blockSize ≤ bytes.length) :
    (Row.ofCell cell).flatMap (Row.mirror · bytes) =
      Word.orient .big cell.wordSize (cell.slice bytes) := by
  cases cell.filled with
  | words count value hrows hsize _ =>
    have hlen := (cell.length_slice h).trans hsize
    rw [Word.orient_eq_flatMap .big cell.exists_size_eq.1 hlen, hrows, Row.numbers,
      List.flatMap_map]
    refine List.flatMap_congr fun i hi => ?_
    rw [word_slice hsize (List.mem_range.mp hi)]
    rfl
  | whole row hrows hoffset hsize hword hreverse _ =>
    rw [hrows, List.flatMap_singleton, Row.mirror, hreverse, Row.slice, hoffset, hsize, hword,
      Word.orient_one, slice]

namespace Block

/-- Mirroring is writing the image of little-endian bytes in the big-endian order. -/
theorem mirror_eq (h : blockSize ≤ bytes.length) :
    mirror bytes = Image.toBytes .big (Image.ofBytes .little bytes) := by
  rw [mirror, Row.table, List.flatMap_assoc, Image.toBytes]
  exact List.flatMap_congr fun cell _ => cell.mirror_slice h

/-- A mirrored byte string has the same image in the big-endian order. -/
theorem ofBytes_mirror (h : blockSize ≤ bytes.length) :
    Image.ofBytes .big (mirror bytes) = Image.ofBytes .little bytes := by
  have himage := Image.ofBytes_toBytes .big (Image.sized_ofBytes .little h) []
  rwa [List.append_nil, ← mirror_eq h] at himage

/-- A mirrored byte string is that of a whole block. -/
theorem length_mirror (h : blockSize ≤ bytes.length) : (mirror bytes).length = blockSize := by
  rw [mirror_eq h]
  exact Image.length_toBytes .big (Image.sized_ofBytes .little h)

/-- Mirroring twice does nothing. -/
theorem mirror_mirror (h : bytes.length = blockSize) : mirror (mirror bytes) = bytes := by
  have hmirror := length_mirror h.ge
  -- it makes no difference which of reading and writing changes the order
  calc mirror (mirror bytes)
      = Image.toBytes .big (Image.ofBytes .little (mirror bytes)) := mirror_eq hmirror.ge
    _ = Image.toBytes .little (Image.ofBytes .big (mirror bytes)) := rfl
    _ = Image.toBytes .little (Image.ofBytes .little bytes) := by rw [ofBytes_mirror h.ge]
    _ = bytes.take blockSize := Image.toBytes_ofBytes .little h.ge
    _ = bytes := List.take_of_length_le h.le

/-- A mirrored byte string holds the same block in the big-endian order. -/
theorem decode_mirror (h : blockSize ≤ bytes.length) :
    decode .big (mirror bytes) = decode .little bytes := by
  rw [decode_eq_ok .big (length_mirror h).ge, decode_eq_ok .little h, ofBytes_mirror h]

/-- A block is written in the big-endian order as the mirror image of what it is written as in the
little-endian one, or fails alike. -/
theorem encode_big (b : Block) : b.encode .big = (b.encode .little).map mirror := by
  unfold encode
  cases hbad : b.badName? with
  | some e => rfl
  | none =>
    have hsized := sized_image (badName?_eq_none_iff.mp hbad)
    have himage := Image.ofBytes_toBytes .little hsized []
    rw [List.append_nil] at himage
    have hmirror := mirror_eq (Image.length_toBytes .little hsized).ge
    rw [himage] at hmirror
    exact congrArg Except.ok hmirror.symm

/-- A block that was read in one order can be written in any other, where it is found again. -/
theorem exists_decode_encode (source target : ByteOrder) (h : blockSize ≤ bytes.length) :
    ∃ b new, decode source bytes = .ok b ∧ b.encode target = .ok new ∧
      decode target new = .ok b := by
  have hfit := namesFit_ofImage (Image.sized_ofBytes source h)
  have hencode := encode_of_namesFit target hfit
  exact ⟨_, _, decode_eq_ok source h, hencode, decode_of_encode hencode⟩

/-- The two byte orders are mirror images of each other. Mirroring is its own inverse on the bytes
of a block; a mirrored byte string holds in the big-endian order what it held in the little-endian
one; a block is written as mirrored bytes, or fails alike; and so a byte string can be converted
from any order to any other without a change of its block. -/
theorem mirror_orders :
    (∀ bytes : List UInt8, bytes.length = 512 → (mirror bytes).length = 512 ∧
      mirror (mirror bytes) = bytes ∧ decode .big (mirror bytes) = decode .little bytes) ∧
    (∀ b : Block, b.encode .big = (b.encode .little).map mirror) ∧
    ∀ (source target : ByteOrder) (bytes : List UInt8), 512 ≤ bytes.length →
      ∃ b new, decode source bytes = .ok b ∧ b.encode target = .ok new ∧
        decode target new = .ok b := by
  refine ⟨fun bytes h => ?_, encode_big, fun source target bytes h => ?_⟩
  · exact ⟨length_mirror h.ge, mirror_mirror h, decode_mirror h.ge⟩
  · exact exists_decode_encode source target h

/-- Bytes that count up have the first four in place and the sequence number behind them reversed
when they are mirrored. -/
theorem mirror_orders_counting :
    let bytes := (List.range 512).map UInt8.ofNat
    bytes.length = 512 ∧ (mirror bytes).take 8 = [0, 1, 2, 3, 7, 6, 5, 4] ∧
      mirror (mirror bytes) = bytes ∧ decode .big (mirror bytes) = decode .little bytes ∧
      ∃ b new, decode .big bytes = .ok b ∧ b.encode .little = .ok new ∧
        decode .little new = .ok b ∧ b.sequence = 0x04050607 := by
  intro bytes
  have hlength : bytes.length = 512 := by rw [List.length_map, List.length_range]
  obtain ⟨hmirror, -, hconvert⟩ := mirror_orders
  obtain ⟨-, htwice, hdecode⟩ := hmirror bytes hlength
  obtain ⟨b, new, hb, hnew, hback⟩ := hconvert .big .little bytes hlength.ge
  have hsequence : (decode .big bytes).map Block.sequence = .ok 0x04050607 := by decide +kernel
  rw [hb] at hsequence
  exact ⟨hlength, by decide +kernel, htwice, hdecode, b, new, hb, hnew, hback,
    Except.ok.inj hsequence⟩

end Block

end ZioControl
