import Mathlib.Algebra.Ring.Nat
import Mathlib.Data.List.Basic
import ZioControl.Word.Lemmas

/-!
# Byte strings word by word

A byte string of whole words is the words that stand in it one after the other
(`flatMap_word`, `word_flatMap`), and `Word.orient` turns each of them alone (`orient_eq_flatMap`).
So a change of the byte order keeps the length and is undone by a second one (`orient_orient`).
A word of one, two, four or eight bytes and the number that the bytes spell determine each other.
-/

namespace ZioControl.Word

/-- The bytes of word `i` among words of `width` bytes. -/
def word (width i : Nat) (bytes : List UInt8) : List UInt8 := (bytes.drop (width * i)).take width

section Words

variable {width count i : Nat} {f : Nat → List UInt8}

/-- Words that were written one after the other are found at their places. -/
theorem word_flatMap (hf : ∀ i < count, (f i).length = width) (hi : i < count) :
    word width i ((List.range count).flatMap f) = f i := by
  induction count generalizing f i with
  | zero => omega
  | succ count ih =>
    have h0 := hf 0 (by omega)
    rw [List.range_succ_eq_map, List.flatMap_cons, List.flatMap_map, word]
    cases i with
    | zero => rw [Nat.mul_zero, List.drop_zero, List.take_left' h0]
    | succ i =>
      rw [Nat.mul_succ, Nat.add_comm, ← List.drop_drop, List.drop_left' h0]
      exact ih (f := fun i => f (i + 1)) (fun i hi => hf (i + 1) (by omega)) (by omega)

/-- A byte string of whole words is its words. -/
theorem flatMap_word {bytes : List UInt8} (h : bytes.length = width * count) :
    ((List.range count).flatMap fun i => word width i bytes) = bytes := by
  -- the first word is split off, and the others are those of the rest
  induction count generalizing bytes with
  | zero => exact (List.eq_nil_of_length_eq_zero h).symm
  | succ count ih =>
    rw [Nat.mul_succ] at h
    have hlen : (bytes.drop width).length = width * count := by
      rw [List.length_drop]
      omega
    have hrest := ih hlen
    rw [List.range_succ_eq_map, List.flatMap_cons, List.flatMap_map]
    simp only [word, Nat.mul_zero, List.drop_zero, List.drop_drop] at hrest ⊢
    simp only [Nat.mul_succ, Nat.add_comm (width * _) width, hrest, List.take_append_drop]

/-- A word of a byte string of whole words is whole. -/
theorem length_word {bytes : List UInt8} (h : bytes.length = width * count) (hi : i < count) :
    (word width i bytes).length = width := by
  have hle : width * (i + 1) ≤ width * count := Nat.mul_le_mul_left width hi
  rw [Nat.mul_succ] at hle
  rw [word, List.length_take, List.length_drop]
  omega

end Words

/-- No bytes have one order. -/
@[simp]
theorem swap_nil (width : Nat) : swap width [] = [] := by
  simp [swap, split]

/-- The bytes of a word are reversed when it stands in front. -/
theorem swap_append {width : Nat} {front rest : List UInt8} (hw : 0 < width)
    (h : front.length = width) : swap width (front ++ rest) = front.reverse ++ swap width rest := by
  by_cases hrest : rest = []
  · subst hrest
    rw [swap_nil, swap, split, dif_pos (by simp [h])]
    simp
  · have hpos := List.length_pos_iff.2 hrest
    rw [swap, split, dif_neg (by rw [List.length_append]; omega), List.take_left' h,
      List.drop_left' h, List.flatMap_cons]
    rfl

/-- The bytes of a single word in another order. -/
def turn (order : ByteOrder) (bytes : List UInt8) : List UInt8 :=
  match order with
  | .little => bytes
  | .big => bytes.reverse

/-- Turning a word keeps its length. -/
@[simp]
theorem length_turn (order : ByteOrder) (bytes : List UInt8) :
    (turn order bytes).length = bytes.length := by
  cases order with
  | little => rfl
  | big => exact List.length_reverse

/-- Turning a word twice does nothing. -/
@[simp]
theorem turn_turn (order : ByteOrder) (bytes : List UInt8) :
    turn order (turn order bytes) = bytes := by
  cases order with
  | little => rfl
  | big => exact List.reverse_reverse bytes

/-- A word of zeros reads the same in both orders. -/
@[simp]
theorem turn_replicate (order : ByteOrder) (n : Nat) (b : UInt8) :
    turn order (List.replicate n b) = List.replicate n b := by
  cases order with
  | little => rfl
  | big => exact List.reverse_replicate

/-- A change of the byte order turns each of the words. -/
theorem orient_flatMap (order : ByteOrder) {width : Nat} (hw : 0 < width) {α : Type} (l : List α)
    {f : α → List UInt8} (hf : ∀ a ∈ l, (f a).length = width) :
    orient order width (l.flatMap f) = l.flatMap fun a => turn order (f a) := by
  cases order with
  | little => rfl
  | big =>
    induction l with
    | nil => exact swap_nil width
    | cons a l ih =>
      rw [List.flatMap_cons, orient, swap_append hw (hf a (by simp)), List.flatMap_cons]
      exact congrArg _ (ih fun b hb => hf b (by simp [hb]))

section Orient

variable {width count : Nat} {bytes : List UInt8} (order : ByteOrder)

/-- A change of the byte order, word by word. -/
theorem orient_eq_flatMap (hw : 0 < width) (h : bytes.length = width * count) :
    orient order width bytes =
      (List.range count).flatMap fun i => turn order (word width i bytes) := by
  conv_lhs => rw [← flatMap_word h]
  exact orient_flatMap order hw _ fun i hi => length_word h (List.mem_range.1 hi)

/-- A change of the byte order turns a single word. -/
theorem orient_eq_turn (hw : 0 < bytes.length) :
    orient order bytes.length bytes = turn order bytes := by
  rw [orient_eq_flatMap order hw (Nat.mul_one _).symm]
  simp [word]

/-- A change of the byte order of single bytes does nothing. -/
@[simp]
theorem orient_one : orient order 1 bytes = bytes := by
  have hturn : ∀ i < bytes.length, turn order (word 1 i bytes) = word 1 i bytes := by
    intro i hi
    have hlen := length_word (Nat.one_mul bytes.length).symm hi
    obtain ⟨b, hb⟩ := List.length_eq_one_iff.1 hlen
    rw [hb]
    exact turn_replicate order 1 b
  rw [orient_eq_flatMap order Nat.one_pos (Nat.one_mul _).symm]
  conv_rhs => rw [← flatMap_word (Nat.one_mul bytes.length).symm]
  exact List.flatMap_congr fun i hi => hturn i (List.mem_range.1 hi)

/-- The words of a byte string in another order. -/
theorem word_orient (hw : 0 < width) (h : bytes.length = width * count) {i : Nat} (hi : i < count) :
    word width i (orient order width bytes) = turn order (word width i bytes) := by
  rw [orient_eq_flatMap order hw h, word_flatMap _ hi]
  intro j hj
  rw [length_turn, length_word h hj]

/-- A change of the byte order keeps the length. -/
theorem length_orient (hw : 0 < width) (h : bytes.length = width * count) :
    (orient order width bytes).length = bytes.length := by
  conv_rhs => rw [← flatMap_word h]
  rw [orient_eq_flatMap order hw h, List.length_flatMap, List.length_flatMap]
  simp only [length_turn]

/-- A second change of the byte order undoes the first one. -/
theorem orient_orient (hw : 0 < width) (h : bytes.length = width * count) :
    orient order width (orient order width bytes) = bytes := by
  rw [orient_eq_flatMap order hw ((length_orient order hw h).trans h)]
  conv_rhs => rw [← flatMap_word h]
  refine List.flatMap_congr fun i hi => ?_
  rw [word_orient order hw h (List.mem_range.1 hi), turn_turn]

end Orient

/-! ## Words as numbers -/

/-- The number that bytes of a word spell, taken modulo what fits the word, has these bytes. -/
theorem toBytes_ofBytes_mod {width : Nat} {bytes : List UInt8} (h : bytes.length = width) :
    toBytes width (ofBytes bytes % 256 ^ width) = bytes := by
  have hlt := ofBytes_lt bytes
  rw [h] at hlt
  rw [Nat.mod_eq_of_lt hlt, ← h, toBytes_ofBytes]

/-- A number that fits a word is spelled by its bytes. -/
theorem ofBytes_toBytes_of_lt {width n : Nat} (h : n < 256 ^ width) :
    ofBytes (toBytes width n) = n := by
  rw [ofBytes_toBytes, Nat.mod_eq_of_lt h]

/-- A byte is the one that it spells. -/
theorem ofBytes_uint8 (n : UInt8) : UInt8.ofNat (ofBytes [n]) = n := by
  rw [ofBytes, ofBytes, Nat.mul_zero, Nat.add_zero, UInt8.ofNat_toNat]

/-- The bytes of a short word spell it. -/
theorem ofBytes_uint16 (n : UInt16) : UInt16.ofNat (ofBytes (toBytes 2 n.toNat)) = n := by
  rw [ofBytes_toBytes_of_lt n.toNat_lt, UInt16.ofNat_toNat]

/-- The bytes of a word spell it. -/
theorem ofBytes_uint32 (n : UInt32) : UInt32.ofNat (ofBytes (toBytes 4 n.toNat)) = n := by
  rw [ofBytes_toBytes_of_lt n.toNat_lt, UInt32.ofNat_toNat]

/-- The bytes of a long word spell it. -/
theorem ofBytes_uint64 (n : UInt64) : UInt64.ofNat (ofBytes (toBytes 8 n.toNat)) = n := by
  rw [ofBytes_toBytes_of_lt n.toNat_lt, UInt64.ofNat_toNat]

/-- One byte is the byte that it spells. -/
theorem singleton_uint8 {bytes : List UInt8} (h : bytes.length = 1) :
    [UInt8.ofNat (ofBytes bytes)] = bytes := by
  obtain ⟨b, rfl⟩ := List.length_eq_one_iff.1 h
  rw [ofBytes_uint8]

/-- Two bytes are those of the short word that they spell. -/
theorem toBytes_uint16 {bytes : List UInt8} (h : bytes.length = 2) :
    toBytes 2 (UInt16.ofNat (ofBytes bytes)).toNat = bytes := by
  rw [UInt16.toNat_ofNat']
  exact toBytes_ofBytes_mod h

/-- Four bytes are those of the word that they spell. -/
theorem toBytes_uint32 {bytes : List UInt8} (h : bytes.length = 4) :
    toBytes 4 (UInt32.ofNat (ofBytes bytes)).toNat = bytes := by
  rw [UInt32.toNat_ofNat']
  exact toBytes_ofBytes_mod h

/-- Eight bytes are those of the long word that they spell. -/
theorem toBytes_uint64 {bytes : List UInt8} (h : bytes.length = 8) :
    toBytes 8 (UInt64.ofNat (ofBytes bytes)).toNat = bytes := by
  rw [UInt64.toNat_ofNat']
  exact toBytes_ofBytes_mod h

/-! ## Bytes of a vector -/

/-- The bytes of a vector are the vector. -/
theorem ofFn_getElem?_toList {count : Nat} (v : Vector UInt8 count) :
    (Vector.ofFn fun i : Fin count => v.toList[i.val]?.getD 0) = v := by
  apply Vector.ext
  intro i hi
  simp

/-- A vector of as many bytes as there are has them all. -/
theorem toList_ofFn_getElem? {count : Nat} {bytes : List UInt8} (h : bytes.length = count) :
    (Vector.ofFn fun i : Fin count => bytes[i.val]?.getD 0).toList = bytes := by
  subst h
  apply List.ext_getElem
  · exact Vector.length_toList
  · intro i _ _
    simp

end ZioControl.Word
