import ZioControl.Codec
import ZioControl.Layout.Lemmas
import ZioControl.Proofs.Words

/-!
# A block as its cells

The bytes of a block and its image determine each other: an image whose cells have their sizes is
found again in the bytes that it is written to (`Image.ofBytes_toBytes`), and the cells of a byte
string, written again, are its first 512 bytes (`Image.toBytes_ofBytes`). Both hold in either byte
order, since every cell is made of whole words. Joining the cells is the same as writing each of
them at its offset into a block that is already there (`Cell.flatMap_eq_writeAll`): no cell touches
another one (`Cell.slice_write_of_ne`), so the order does not count.
-/

namespace ZioControl

namespace Cell

/-- A cell begins where the cells in front of it end. -/
theorem offset_of_all_eq {front back : List Cell} {cell : Cell} (h : all = front ++ cell :: back) :
    cell.offset = (front.map size).sum := by
  have hlt : front.length < all.length := by
    rw [h, List.length_append, List.length_cons]
    omega
  have hget : all[front.length] = cell := by
    rw [List.getElem_of_eq h, List.getElem_append_right (Nat.le_refl _)]
    simp
  have hoff : all[front.length].offset = ((all.take front.length).map size).sum :=
    offset_eq_sum ⟨front.length, hlt⟩
  rw [hget] at hoff
  rw [hoff, h, List.take_left]

/-- Every cell is made of whole words. -/
theorem exists_size_eq (cell : Cell) :
    0 < cell.wordSize ∧ ∃ count, cell.size = cell.wordSize * count := by
  have hdvd : 0 < cell.wordSize ∧ cell.wordSize ∣ cell.size := by
    cases cell with
    | attributes owner part => cases owner <;> cases part <;> decide
    | _ => decide
  exact ⟨hdvd.1, hdvd.2⟩

/-- Every cell ends within the block. -/
theorem offset_add_size_le (cell : Cell) : cell.offset + cell.size ≤ blockSize := by
  cases cell with
  | attributes owner part => cases owner <;> cases part <;> decide
  | _ => decide

/-- In a whole block a cell has all its bytes. -/
theorem length_slice (cell : Cell) {bytes : List UInt8} (h : blockSize ≤ bytes.length) :
    (cell.slice bytes).length = cell.size := by
  have := cell.offset_add_size_le
  rw [slice, List.length_take, List.length_drop]
  omega

/-- What is written cell after cell takes the sum of their sizes. -/
theorem length_flatMap {f : Cell → List UInt8} (hf : ∀ cell, (f cell).length = cell.size)
    (cells : List Cell) : (cells.flatMap f).length = (cells.map size).sum := by
  rw [List.length_flatMap]
  exact congrArg List.sum (List.map_congr_left fun cell _ => hf cell)

/-- A cell is found again among all that were written one after the other. -/
theorem slice_flatMap {f : Cell → List UInt8} (hf : ∀ cell, (f cell).length = cell.size)
    (cell : Cell) (rest : List UInt8) : cell.slice (all.flatMap f ++ rest) = f cell := by
  -- what is written in front of the cell ends where its offset says
  obtain ⟨front, back, hall⟩ := List.append_of_mem (mem_all cell)
  have hoff := offset_of_all_eq hall
  rw [← length_flatMap hf front] at hoff
  rw [slice, hall, List.flatMap_append, List.flatMap_cons, List.append_assoc, List.append_assoc,
    List.drop_left' hoff.symm, List.take_left' (hf cell)]

/-- Cells that stand side by side are one stretch of the bytes. -/
theorem flatMap_slice (bytes : List UInt8) (front cells : List Cell) {back : List Cell}
    (h : all = front ++ cells ++ back) :
    cells.flatMap (slice · bytes) =
      (bytes.drop (front.map size).sum).take (cells.map size).sum := by
  -- from the left, with the cells that are done counted to those in front
  induction cells generalizing front with
  | nil => simp
  | cons cell cells ih =>
    have hall : all = front ++ cell :: (cells ++ back) := by rw [h]; simp
    have hoff := offset_of_all_eq hall
    have hrest := ih (front ++ [cell]) (by rw [h]; simp)
    rw [List.map_append, List.sum_append, List.map_singleton, List.sum_singleton] at hrest
    rw [List.flatMap_cons, hrest, slice, hoff, List.map_cons, List.sum_cons, List.take_add,
      List.drop_drop]

/-- The cells of a byte string are its first 512 bytes. -/
theorem flatMap_slice_all (bytes : List UInt8) :
    all.flatMap (slice · bytes) = bytes.take blockSize := by
  have hall : all = [] ++ all ++ [] := (List.append_nil _).symm
  have hslice := flatMap_slice bytes [] all hall
  rwa [sum_size, List.map_nil, List.sum_nil, List.drop_zero] at hslice

/-! ## Cells written in place -/

/-- Bytes with those of a cell replaced. -/
def write (cell : Cell) (new bytes : List UInt8) : List UInt8 :=
  bytes.take cell.offset ++ new ++ bytes.drop (cell.offset + cell.size)

/-- Bytes with those of several cells replaced, one cell after the other. -/
def writeAll (f : Cell → List UInt8) (cells : List Cell) (bytes : List UInt8) : List UInt8 :=
  cells.foldl (fun bytes cell => cell.write (f cell) bytes) bytes

section Write

variable {cell other : Cell} {new bytes : List UInt8}

/-- In front of a cell there are as many bytes as its offset says. -/
theorem length_take_offset (cell : Cell) (hbytes : bytes.length = blockSize) :
    (bytes.take cell.offset).length = cell.offset := by
  have hend := cell.offset_add_size_le
  rw [List.length_take]
  omega

/-- A block stays as long as it is when a cell of it is written. -/
theorem length_write (hnew : new.length = cell.size) (hbytes : bytes.length = blockSize) :
    (cell.write new bytes).length = blockSize := by
  have hend := cell.offset_add_size_le
  rw [write, List.length_append, List.length_append, cell.length_take_offset hbytes,
    List.length_drop, hnew, hbytes]
  omega

/-- A cell holds what was written to it. -/
theorem slice_write_self (hnew : new.length = cell.size) (hbytes : bytes.length = blockSize) :
    cell.slice (cell.write new bytes) = new := by
  have hfront := cell.length_take_offset hbytes
  rw [slice, write, List.append_assoc, List.drop_left' hfront, List.take_left' hnew]

/-- All other cells hold what they held. -/
theorem slice_write_of_ne (hne : cell ≠ other) (hnew : new.length = cell.size)
    (hbytes : bytes.length = blockSize) :
    other.slice (cell.write new bytes) = other.slice bytes := by
  have hfront := cell.length_take_offset hbytes
  rw [slice, slice, write]
  rcases disjoint_of_ne hne with hbehind | hbefore
  · have hmiddle : (bytes.take cell.offset ++ new).length = cell.offset + cell.size := by
      rw [List.length_append, hfront, hnew]
    obtain ⟨gap, hgap⟩ := Nat.exists_eq_add_of_le hbehind
    rw [hgap, ← hmiddle, List.drop_length_add_append, hmiddle, List.drop_drop]
  · have hend := cell.offset_add_size_le
    rw [List.append_assoc, List.drop_append_of_le_length (by omega),
      List.take_append_of_le_length (by rw [List.length_drop]; omega), List.drop_take,
      List.take_take, Nat.min_eq_left (by omega)]

variable {f : Cell → List UInt8}

/-- Cells that are written one after the other hold what was written to them, and all others what
they held. -/
theorem slice_writeAll (hf : ∀ cell, (f cell).length = cell.size) (cells : List Cell)
    (hbytes : bytes.length = blockSize) : (writeAll f cells bytes).length = blockSize ∧
      ∀ cell : Cell, cell.slice (writeAll f cells bytes) =
        if cell ∈ cells then f cell else cell.slice bytes := by
  induction cells generalizing bytes with
  | nil => exact ⟨hbytes, fun cell => (if_neg List.not_mem_nil).symm⟩
  | cons first cells ih =>
    obtain ⟨hlength, hslice⟩ := ih (length_write (hf first) hbytes)
    refine ⟨hlength, fun cell => (hslice cell).trans ?_⟩
    by_cases hmem : cell ∈ cells
    · rw [if_pos hmem, if_pos (List.mem_cons_of_mem first hmem)]
    · rw [if_neg hmem]
      by_cases heq : first = cell
      · rw [heq, slice_write_self (hf cell) hbytes, if_pos List.mem_cons_self]
      · rw [slice_write_of_ne heq (hf first) hbytes, if_neg]
        simpa [eq_comm, heq] using hmem

/-- The cells of a block one after the other are what comes of writing them in place, in any order
and also more than once, as long as those that are not written hold what they should. -/
theorem flatMap_eq_writeAll (hf : ∀ cell, (f cell).length = cell.size) {cells : List Cell}
    (hbytes : bytes.length = blockSize) (hcells : ∀ cell ∉ cells, cell.slice bytes = f cell) :
    all.flatMap f = writeAll f cells bytes := by
  obtain ⟨hlength, hslice⟩ := slice_writeAll hf cells hbytes
  calc
    all.flatMap f = all.flatMap (slice · (writeAll f cells bytes)) := by
      refine List.flatMap_congr fun cell _ => ?_
      rw [hslice]
      split
      · rfl
      · next hmem => exact (hcells cell hmem).symm
    _ = (writeAll f cells bytes).take blockSize := flatMap_slice_all _
    _ = writeAll f cells bytes := List.take_of_length_le (Nat.le_of_eq hlength)

end Write

end Cell

/-! ## Images -/

namespace Image

/-- Whether every cell has its size. -/
def Sized (image : Image) : Prop := ∀ cell, (image cell).length = cell.size

/-- Changing the byte order of a cell keeps its size. -/
theorem length_orient_cell (order : ByteOrder) {cell : Cell} {bytes : List UInt8}
    (h : bytes.length = cell.size) :
    (Word.orient order cell.wordSize bytes).length = cell.size := by
  obtain ⟨hpos, count, hsize⟩ := cell.exists_size_eq
  rw [Word.length_orient order hpos (h.trans hsize), h]

/-- Changing the byte order of a cell twice does nothing. -/
theorem orient_orient_cell (order : ByteOrder) {cell : Cell} {bytes : List UInt8}
    (h : bytes.length = cell.size) :
    Word.orient order cell.wordSize (Word.orient order cell.wordSize bytes) = bytes := by
  obtain ⟨hpos, count, hsize⟩ := cell.exists_size_eq
  exact Word.orient_orient order hpos (h.trans hsize)

/-- The cells of a whole block have their sizes. -/
theorem sized_ofBytes (order : ByteOrder) {bytes : List UInt8} (h : blockSize ≤ bytes.length) :
    (ofBytes order bytes).Sized := fun cell => length_orient_cell order (cell.length_slice h)

/-- An image is found again in its bytes, whatever follows them. -/
theorem ofBytes_toBytes (order : ByteOrder) {image : Image} (h : image.Sized)
    (rest : List UInt8) : ofBytes order (toBytes order image ++ rest) = image := by
  funext cell
  rw [ofBytes, toBytes, Cell.slice_flatMap (fun cell => length_orient_cell order (h cell)),
    orient_orient_cell order (h cell)]

/-- The cells of a byte string make up the block that it begins with. -/
theorem toBytes_ofBytes (order : ByteOrder) {bytes : List UInt8} (h : blockSize ≤ bytes.length) :
    toBytes order (ofBytes order bytes) = bytes.take blockSize := by
  rw [toBytes, ← Cell.flatMap_slice_all]
  exact List.flatMap_congr fun cell _ => orient_orient_cell order (cell.length_slice h)

/-- An image whose cells have their sizes is written to a whole block. -/
theorem length_toBytes (order : ByteOrder) {image : Image} (h : image.Sized) :
    (toBytes order image).length = blockSize := by
  rw [toBytes, Cell.length_flatMap (fun cell => length_orient_cell order (h cell)), Cell.sum_size,
    blockSize]

end Image

end ZioControl
