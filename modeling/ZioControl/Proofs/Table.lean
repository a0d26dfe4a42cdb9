import ZioControl.Proofs.RoundTrip

/-!
# The table of a block's bytes

A control block is laid out by a table. Each row gives the place of a number, of a name, of bytes
that stay as they are or of filler bytes, and says which part of the block stands there
(`Row.table`). The bytes of a block are those of the table, row for row, and every byte belongs to
a row (`Block.encode_table`). So what two blocks share in a row, their bytes share there.

The table speaks of numbers and of the power of 256 that each of their bytes counts
(`Spelling.write`), and not of words and cells, so it fixes the places, the widths and the byte
order that reading and writing only have to agree on. The rows of a cell are either its words, one
after the other, or the cell as a whole (`Cell.Filled`), and the proof has these two cases.
-/

namespace ZioControl

/-- How a row of the table is spelled. -/
inductive Spelling where
  /-- A number of so many bytes. -/
  | number (width : Nat)
  /-- A text of at most 12 bytes, filled up with zeros. -/
  | name
  /-- So many bytes as they are. -/
  | raw (count : Nat)
  /-- So many zeros. -/
  | filler (count : Nat)
  deriving DecidableEq, Repr

namespace Spelling

/-- The bytes that a row takes. -/
def size : Spelling → Nat
  | number width => width
  | name => 12
  | raw count | filler count => count

/-- What a row can hold. -/
abbrev Value : Spelling → Type
  | number _ => Nat
  | name => String
  | raw count => Vector UInt8 count
  | filler _ => Unit

/-- The power of 256 that a byte of a number counts. -/
def power (order : ByteOrder) (width place : Nat) : Nat :=
  match order with
  | .little => place
  | .big => width - 1 - place

/-- The bytes that spell a value. -/
def write (order : ByteOrder) : (spelling : Spelling) → spelling.Value → List UInt8
  | number width, n =>
    (List.range width).map fun place => UInt8.ofNat (n / 256 ^ power order width place)
  | name, text =>
    let bytes := Utf8.encode text.toList
    bytes ++ List.replicate (12 - bytes.length) 0
  | raw _, bytes => bytes.toList
  | filler count, _ => List.replicate count 0

/-- The bytes of a row in the other byte order. Only numbers have one. -/
def reverse : Spelling → List UInt8 → List UInt8
  | number _, bytes => bytes.reverse
  | name, bytes | raw _, bytes | filler _, bytes => bytes

end Spelling

/-- A row of the table. -/
structure Row where
  /-- Where it begins. -/
  offset : Nat
  /-- How it is spelled. -/
  spelling : Spelling
  /-- What stands there. -/
  value : Block → spelling.Value

namespace Row

/-- The bytes that a row takes. -/
def size (row : Row) : Nat := row.spelling.size

/-- Whether byte `i` belongs to a row. -/
def Covers (row : Row) (i : Nat) : Prop := row.offset ≤ i ∧ i < row.offset + row.size

/-- The bytes of a row within a block. -/
def slice (row : Row) (bytes : List UInt8) : List UInt8 := (bytes.drop row.offset).take row.size

/-- What the bytes of a row have to be. -/
def write (row : Row) (order : ByteOrder) (b : Block) : List UInt8 :=
  row.spelling.write order (row.value b)

/-- The rows of numbers that stand one after the other. -/
def numbers (start width count : Nat) (value : Nat → Block → Nat) : List Row :=
  (List.range count).map fun i => ⟨start + width * i, .number width, value i⟩

/-- The rows of one owner's attributes, of which each value has its own. -/
def attributes (owner : Owner) (start : Nat) : AttributePart → List Row
  | .standardMask =>
    [⟨start, .number 2, fun b => (b.attributes owner).standard.mask.toNat⟩]
  | .padding => [⟨start + 2, .filler 2, fun _ => ()⟩]
  | .extendedMask =>
    [⟨start + 4, .number 4, fun b => (b.attributes owner).extended.mask.toNat⟩]
  | .standardValues =>
    numbers (start + 8) 4 16 fun i b => ((b.attributes owner).standard.values[i]?.getD 0).toNat
  | .extendedValues =>
    numbers (start + 72) 4 32 fun i b => ((b.attributes owner).extended.values[i]?.getD 0).toNat

/-- The rows of a cell. -/
def ofCell : Cell → List Row
  | .majorVersion => [⟨0, .number 1, fun b => b.majorVersion.toNat⟩]
  | .minorVersion => [⟨1, .number 1, fun b => b.minorVersion.toNat⟩]
  | .zioAlarms => [⟨2, .number 1, fun b => b.zioAlarms.toNat⟩]
  | .deviceAlarms => [⟨3, .number 1, fun b => b.deviceAlarms.toNat⟩]
  | .sequence => [⟨4, .number 4, fun b => b.sequence.toNat⟩]
  | .samples => [⟨8, .number 4, fun b => b.samples.toNat⟩]
  | .sampleSize => [⟨12, .number 2, fun b => b.sampleSize.toNat⟩]
  | .sampleBits => [⟨14, .number 2, fun b => b.sampleBits.toNat⟩]
  | .family => [⟨16, .number 2, fun b => b.address.family.toNat⟩]
  | .hostType => [⟨18, .number 1, fun b => b.address.hostType.toNat⟩]
  | .hostPadding => [⟨19, .filler 1, fun _ => ()⟩]
  | .hostId => [⟨20, .raw 8, fun b => b.address.hostId⟩]
  | .deviceId => [⟨28, .number 4, fun b => b.address.deviceId.toNat⟩]
  | .channelSet => [⟨32, .number 2, fun b => b.address.channelSet.toNat⟩]
  | .channel => [⟨34, .number 2, fun b => b.address.channel.toNat⟩]
  | .device => [⟨36, .name, fun b => b.address.device⟩]
  | .seconds => [⟨48, .number 8, fun b => b.stamp.seconds.toNat⟩]
  | .ticks => [⟨56, .number 8, fun b => b.stamp.ticks.toNat⟩]
  | .bins => [⟨64, .number 8, fun b => b.stamp.bins.toNat⟩]
  | .memoryOffset => [⟨72, .number 4, fun b => b.memoryOffset.toNat⟩]
  | .reserved => [⟨76, .number 4, fun b => b.reserved.toNat⟩]
  | .flags => [⟨80, .number 4, fun b => b.flags.toNat⟩]
  | .triggerName => [⟨84, .name, fun b => b.triggerName⟩]
  | .attributes .channel part => attributes .channel 96 part
  | .attributes .trigger part => attributes .trigger 296 part
  | .extension => [⟨496, .raw 16, fun b => b.extension⟩]

/-- The table. -/
def table : List Row := Cell.all.flatMap ofCell

/-- Whether rows stand one after the other from a place to another one. -/
def Adjacent (start stop : Nat) : List Row → Prop
  | [] => start = stop
  | row :: rows => row.offset = start ∧ Adjacent (start + row.size) stop rows

instance decidableAdjacent (stop : Nat) :
    (rows : List Row) → (start : Nat) → Decidable (Adjacent start stop rows)
  | [], start => inferInstanceAs (Decidable (start = stop))
  | row :: rows, start =>
    have := decidableAdjacent stop rows (start + row.size)
    inferInstanceAs (Decidable (row.offset = start ∧ Adjacent (start + row.size) stop rows))

/-- The table has neither gaps nor overlaps. -/
theorem adjacent_table : Adjacent 0 512 table := by decide +kernel

/-- Every byte from the first row on belongs to a row. -/
theorem Adjacent.exists_covers {start stop i : Nat} {rows : List Row}
    (h : Adjacent start stop rows) (hstart : start ≤ i) (hstop : i < stop) :
    ∃ row ∈ rows, row.Covers i := by
  induction rows generalizing start with
  | nil =>
    have hend : start = stop := h
    omega
  | cons row rows ih =>
    obtain ⟨hoffset, hrest⟩ := h
    by_cases hi : i < start + row.size
    · exact ⟨row, List.mem_cons_self, hoffset.trans_le hstart, hoffset ▸ hi⟩
    · obtain ⟨other, hmem, hcovers⟩ := ih hrest (Nat.le_of_not_lt hi)
      exact ⟨other, List.mem_cons_of_mem _ hmem, hcovers⟩

/-- A byte of a block is found in the slice of its row. -/
theorem getElem?_slice {row : Row} {i : Nat} (h : row.Covers i) (bytes : List UInt8) :
    (row.slice bytes)[i - row.offset]? = bytes[i]? := by
  obtain ⟨hle, hlt⟩ := h
  rw [slice, List.getElem?_take_of_lt (by omega), List.getElem?_drop, Nat.add_sub_cancel' hle]

end Row

namespace Word

/-- The bytes of a number count the powers of 256. -/
theorem toBytes_eq_map (width n : Nat) :
    toBytes width n = (List.range width).map fun place => UInt8.ofNat (n / 256 ^ place) := by
  induction width generalizing n with
  | zero => rfl
  | succ width ih =>
    rw [toBytes, ih, List.range_succ_eq_map, List.map_cons, List.map_map, Nat.pow_zero, Nat.div_one]
    congr 1
    refine List.map_congr_left fun place _ => ?_
    rw [Nat.div_div_eq_div_mul, Function.comp_apply, Nat.pow_succ']

/-- A number in another byte order counts the powers from the other end. -/
theorem turn_toBytes (order : ByteOrder) (width n : Nat) :
    turn order (toBytes width n) = Spelling.write order (.number width) n := by
  cases order with
  | little => exact toBytes_eq_map width n
  | big =>
    apply List.ext_getElem
    · simp [turn, Spelling.write]
    · intro i _ _
      simp [turn, toBytes_eq_map, Spelling.write, Spelling.power]

end Word

namespace Cell

/-- How rows fill a cell. -/
inductive Filled (cell : Cell) (rows : List Row) : Prop where
  /-- They are the words of the cell. -/
  | words (count : Nat) (value : Nat → Block → Nat)
    (hrows : rows = Row.numbers cell.offset cell.wordSize count value)
    (hsize : cell.size = cell.wordSize * count)
    (himage : ∀ b, b.image cell =
      (List.range count).flatMap fun i => Word.toBytes cell.wordSize (value i b))
  /-- There is one row for bytes that have no order. -/
  | whole (row : Row) (hrows : rows = [row]) (hoffset : row.offset = cell.offset)
    (hsize : row.size = cell.size) (hword : cell.wordSize = 1)
    (hreverse : ∀ bytes, row.spelling.reverse bytes = bytes)
    (himage : ∀ order b, b.image cell = row.write order b)

/-- The row of a single number. -/
theorem Filled.number {cell : Cell} (value : Block → Nat) (hsize : cell.size = cell.wordSize)
    (himage : ∀ b, b.image cell = Word.toBytes cell.wordSize (value b)) :
    cell.Filled [⟨cell.offset, .number cell.wordSize, value⟩] := by
  refine .words 1 (fun _ => value) rfl (hsize.trans (Nat.mul_one _).symm) fun b => ?_
  rw [himage, List.range_one, List.flatMap_singleton]

/-- The rows of the values of an attribute set. -/
theorem Filled.values {cell : Cell} {capacity : Nat} (set : Block → AttributeSet capacity)
    (hword : cell.wordSize = 4) (hsize : cell.size = 4 * capacity)
    (himage : ∀ b, b.image cell = (set b).valueBytes) :
    cell.Filled (Row.numbers cell.offset 4 capacity fun i b =>
      ((set b).values[i]?.getD 0).toNat) := by
  refine .words capacity _ (by rw [hword]) (by rw [hsize, hword]) fun b => ?_
  have hlist : (set b).values.toList =
      (List.range capacity).map fun i => (set b).values[i]?.getD 0 :=
    AttributeSet.toList_eq_map_range fun i hi => by simp [hi]
  rw [himage, AttributeSet.valueBytes, hlist, List.flatMap_map, hword]

/-- The table fills every cell. -/
theorem filled (cell : Cell) : cell.Filled (Row.ofCell cell) := by
  have hbyte (n : UInt8) : [n] = Word.toBytes 1 n.toNat := by simp [Word.toBytes]
  cases cell with
  | majorVersion | minorVersion | zioAlarms | deviceAlarms | hostType =>
    exact Filled.number _ rfl fun b => hbyte _
  | sequence | samples | sampleSize | sampleBits | family | deviceId | channelSet | channel
  | seconds | ticks | bins | memoryOffset | reserved | flags =>
    exact Filled.number _ rfl fun _ => rfl
  | hostPadding | hostId | device | triggerName | extension =>
    exact .whole _ rfl rfl rfl rfl (fun _ => rfl) fun _ _ => rfl
  | attributes owner part =>
    cases part with
    | standardMask | extendedMask => cases owner <;> exact Filled.number _ rfl fun _ => rfl
    | padding =>
      cases owner <;> exact .whole _ rfl rfl rfl rfl (fun _ => rfl) fun _ _ => rfl
    | standardValues =>
      cases owner <;> exact Filled.values (fun b => (b.attributes _).standard) rfl rfl fun _ => rfl
    | extendedValues =>
      cases owner <;> exact Filled.values (fun b => (b.attributes _).extended) rfl rfl fun _ => rfl

variable {cell : Cell}

/-- A word of a cell lies where its row says. -/
theorem word_slice {count i : Nat} (hsize : cell.size = cell.wordSize * count) (hi : i < count)
    (bytes : List UInt8) : Word.word cell.wordSize i (cell.slice bytes) =
      (bytes.drop (cell.offset + cell.wordSize * i)).take cell.wordSize := by
  have hle : cell.wordSize * (i + 1) ≤ cell.wordSize * count := Nat.mul_le_mul_left _ hi
  rw [Nat.mul_succ] at hle
  rw [Word.word, slice, List.drop_take, List.drop_drop, List.take_take,
    Nat.min_eq_left (by omega)]

/-- The rows of a cell have their bytes if the cell has those of the block. -/
theorem slice_row {order : ByteOrder} {b : Block} {bytes : List UInt8}
    (hsized : (b.image cell).length = cell.size)
    (hcell : cell.slice bytes = Word.orient order cell.wordSize (b.image cell))
    {row : Row} (hrow : row ∈ Row.ofCell cell) : row.slice bytes = row.write order b := by
  cases cell.filled with
  | words count value hrows hsize himage =>
    rw [hrows] at hrow
    obtain ⟨i, hmem, rfl⟩ := List.mem_map.mp hrow
    have hi := List.mem_range.mp hmem
    have hpos := cell.exists_size_eq.1
    calc (bytes.drop (cell.offset + cell.wordSize * i)).take cell.wordSize
        = Word.word cell.wordSize i (cell.slice bytes) := (word_slice hsize hi bytes).symm
      _ = Word.turn order (Word.word cell.wordSize i (b.image cell)) := by
        rw [hcell, Word.word_orient order hpos (hsized.trans hsize) hi]
      _ = Word.turn order (Word.toBytes cell.wordSize (value i b)) := by
        rw [himage, Word.word_flatMap (fun _ _ => Word.length_toBytes _ _) hi]
      _ = Spelling.write order (.number cell.wordSize) (value i b) :=
        Word.turn_toBytes order cell.wordSize (value i b)
  | whole only hrows hoffset hsize hword _ himage =>
    rw [hrows, List.mem_singleton] at hrow
    subst hrow
    have hslice : row.slice bytes = cell.slice bytes := by
      rw [Row.slice, hoffset, hsize, slice]
    rw [hslice, hcell, hword, Word.orient_one, himage order]

end Cell

namespace Block

variable {order : ByteOrder} {b : Block} {bytes : List UInt8}

/-- The bytes of a block are those of the table, row for row. -/
theorem slice_encode (h : b.encode order = .ok bytes) {row : Row} (hrow : row ∈ Row.table) :
    row.slice bytes = row.write order b := by
  obtain ⟨hsized, rfl⟩ := image_of_encode h
  obtain ⟨cell, -, hmem⟩ := List.mem_flatMap.mp hrow
  refine Cell.slice_row (hsized cell) ?_ hmem
  have hslice :=
    Cell.slice_flatMap (fun cell => Image.length_orient_cell order (hsized cell)) cell []
  rwa [List.append_nil] at hslice

/-- Every block that has bytes has the 512 bytes that the table gives, in either byte order: the
rows fill a block one after the other, and at each of them stands what the table says. So two blocks
can only differ in the bytes of the rows in which they themselves do. -/
theorem encode_table (h : b.encode order = .ok bytes) :
    bytes.length = 512 ∧ Row.Adjacent 0 512 Row.table ∧
      (∀ row ∈ Row.table, row.slice bytes = row.write order b) ∧
      ∀ other otherBytes, other.encode order = .ok otherBytes → ∀ i : Nat,
        bytes[i]? ≠ otherBytes[i]? →
          ∃ row ∈ Row.table, row.Covers i ∧ row.value b ≠ row.value other := by
  have hlength := length_of_encode h
  refine ⟨hlength, Row.adjacent_table, fun row hrow => slice_encode h hrow, ?_⟩
  intro other otherBytes hother i hdiffer
  have hi : i < 512 := by
    refine Nat.lt_of_not_le fun hle => hdiffer ?_
    rw [List.getElem?_eq_none (hlength.trans_le hle),
      List.getElem?_eq_none ((length_of_encode hother).trans_le hle)]
  obtain ⟨row, hrow, hcovers⟩ := Row.adjacent_table.exists_covers (Nat.zero_le i) hi
  refine ⟨row, hrow, hcovers, fun hsame => hdiffer ?_⟩
  rw [← Row.getElem?_slice hcovers, ← Row.getElem?_slice hcovers, slice_encode h hrow,
    slice_encode hother hrow, Row.write, Row.write, hsame]

/-- In the big-endian order the high byte of the sequence number stands at its offset. -/
theorem encode_table_sequence : ∃ bytes,
    ({ sequence := 0x01020304 } : Block).encode .big = .ok bytes ∧ bytes.length = 512 ∧
      (bytes.drop 4).take 4 = [1, 2, 3, 4] := by
  obtain ⟨bytes, h⟩ : ∃ bytes, ({ sequence := 0x01020304 } : Block).encode .big = .ok bytes :=
    ⟨_, rfl⟩
  obtain ⟨hlength, -, hrows, -⟩ := encode_table h
  have hmem : ⟨4, .number 4, fun b => b.sequence.toNat⟩ ∈ Row.table :=
    List.mem_flatMap.mpr ⟨.sequence, Cell.mem_all _, List.mem_singleton.mpr rfl⟩
  exact ⟨bytes, h, hlength, hrows _ hmem⟩

end Block

end ZioControl
