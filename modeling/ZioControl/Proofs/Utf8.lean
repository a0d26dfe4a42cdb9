import Mathlib.Data.List.DropRight
import ZioControl.Text.Utf8

/-!
# UTF-8 read back

What `Utf8.decode?` and `Utf8.decodeRepaired` make of bytes. The one reads the encodings of texts
and nothing else (`decode?_eq_some_iff`). The other gives encoded texts back as they were
(`decodeRepaired_encode`), and encoding what it reads from any bytes gives these bytes again, with a
question mark for each one that belongs to no character (`encode_decodeRepaired`).

All rest on the shape of one character's encoding (`Encodes`): its first byte tells how long it is,
and no byte behind the first one can begin an encoding. So the encodings in a byte string are
disjoint, and whether a byte belongs to one (`Belongs`) does not depend on where the reading starts.
-/

namespace ZioControl.Utf8

/-- The bytes that only stand behind the first byte of an encoding. -/
def IsTail (b : UInt8) : Prop := 0x80 ≤ b.toNat ∧ b.toNat < 0xc0

/-- What the encoding of a character is made of: a first byte and tail bytes. -/
structure Encodes (c : Char) (lead : UInt8) (tail : List UInt8) : Prop where
  /-- They are the encoding. -/
  eq : String.utf8EncodeChar c = lead :: tail
  /-- The first byte tells the length. -/
  width : widthOf lead = c.utf8Size
  /-- The payload bits spell the character. -/
  number : payload (lead :: tail) = c.toNat
  /-- The first byte is no tail byte. -/
  lead_not : ¬ IsTail lead
  /-- All others are. -/
  isTail : ∀ b ∈ tail, IsTail b
  /-- A byte below 128 is a whole character. -/
  ascii : lead.toNat < 0x80 → tail = [] ∧ lead.toNat = c.toNat

/-- Code points end at `0x10ffff`. -/
theorem toNat_lt (c : Char) : c.toNat < 0x110000 := by
  have h : c.val.toNat.isValidChar := c.valid
  have hc : c.val.toNat = c.toNat := rfl
  rw [Nat.isValidChar] at h
  omega

/-- The width by the value of the first byte. -/
theorem widthOf_eq (lead : UInt8) : widthOf lead =
    if lead.toNat < 0x80 then 1 else if lead.toNat < 0xe0 then 2
    else if lead.toNat < 0xf0 then 3 else 4 := by
  simp only [widthOf, UInt8.lt_iff_toNat_lt, UInt8.reduceToNat]

/-- Six bits make a tail byte. -/
theorem isTail_ofNat (n : Nat) : IsTail (UInt8.ofNat (n % 64 + 128)) := by
  rw [IsTail, UInt8.toNat_ofNat']
  omega

/-- An encoding of more than one byte has the shape if its first byte is large enough. -/
theorem encodes_of_le {c : Char} {lead : UInt8} {tail : List UInt8}
    (heq : String.utf8EncodeChar c = lead :: tail) (hlead : 0xc0 ≤ lead.toNat)
    (hwidth : widthOf lead = tail.length + 1) (hnumber : payload (lead :: tail) = c.toNat)
    (htail : ∀ b ∈ tail, IsTail b) : Encodes c lead tail where
  eq := heq
  width := by rw [hwidth, ← String.length_utf8EncodeChar, heq, List.length_cons]
  number := hnumber
  lead_not := fun h => absurd h.2 (by omega)
  isTail := htail
  ascii := fun h => absurd h (by omega)

/-- A character below 128 is its own encoding. -/
theorem encodes_one {c : Char} (h : c.toNat ≤ 0x7f) : Encodes c (.ofNat c.toNat) [] := by
  have heq : String.utf8EncodeChar c = [.ofNat c.toNat] := if_pos h
  have hlead : (UInt8.ofNat c.toNat).toNat = c.toNat := by
    rw [UInt8.toNat_ofNat']
    omega
  constructor
  · exact heq
  · rw [widthOf_eq, hlead, if_pos (by omega), ← String.length_utf8EncodeChar, heq]
    rfl
  · exact hlead
  · rw [IsTail, hlead]
    omega
  · simp
  · exact fun _ => ⟨rfl, hlead⟩

/-- An encoding of two bytes. -/
theorem encodes_two {c : Char} (h1 : ¬ c.toNat ≤ 0x7f) (h2 : c.toNat ≤ 0x7ff) :
    Encodes c (.ofNat (c.toNat / 64 % 32 + 0xc0)) [.ofNat (c.toNat % 64 + 0x80)] := by
  have heq : String.utf8EncodeChar c =
      [.ofNat (c.toNat / 64 % 32 + 0xc0), .ofNat (c.toNat % 64 + 0x80)] :=
    (if_neg h1).trans (if_pos h2)
  have hlead : (UInt8.ofNat (c.toNat / 64 % 32 + 0xc0)).toNat = c.toNat / 64 % 32 + 0xc0 := by
    rw [UInt8.toNat_ofNat']
    omega
  apply encodes_of_le heq
  · omega
  · rw [widthOf_eq, hlead, if_neg (by omega), if_pos (by omega)]
    rfl
  · rw [payload, hlead, UInt8.toNat_ofNat']
    omega
  · simp only [List.forall_mem_cons, isTail_ofNat, List.not_mem_nil, false_implies, implies_true,
      and_self]

/-- An encoding of three bytes. -/
theorem encodes_three {c : Char} (h1 : ¬ c.toNat ≤ 0x7f) (h2 : ¬ c.toNat ≤ 0x7ff)
    (h3 : c.toNat ≤ 0xffff) : Encodes c (.ofNat (c.toNat / 4096 % 16 + 0xe0))
      [.ofNat (c.toNat / 64 % 64 + 0x80), .ofNat (c.toNat % 64 + 0x80)] := by
  have heq : String.utf8EncodeChar c = [.ofNat (c.toNat / 4096 % 16 + 0xe0),
      .ofNat (c.toNat / 64 % 64 + 0x80), .ofNat (c.toNat % 64 + 0x80)] :=
    (if_neg h1).trans ((if_neg h2).trans (if_pos h3))
  have hlead : (UInt8.ofNat (c.toNat / 4096 % 16 + 0xe0)).toNat = c.toNat / 4096 % 16 + 0xe0 := by
    rw [UInt8.toNat_ofNat']
    omega
  apply encodes_of_le heq
  · omega
  · rw [widthOf_eq, hlead, if_neg (by omega), if_neg (by omega), if_pos (by omega)]
    rfl
  · rw [payload, hlead, UInt8.toNat_ofNat', UInt8.toNat_ofNat']
    omega
  · simp only [List.forall_mem_cons, isTail_ofNat, List.not_mem_nil, false_implies, implies_true,
      and_self]

/-- An encoding of four bytes. -/
theorem encodes_four {c : Char} (h3 : ¬ c.toNat ≤ 0xffff) :
    Encodes c (.ofNat (c.toNat / 262144 % 8 + 0xf0))
      [.ofNat (c.toNat / 4096 % 64 + 0x80), .ofNat (c.toNat / 64 % 64 + 0x80),
        .ofNat (c.toNat % 64 + 0x80)] := by
  have hmax := toNat_lt c
  have heq : String.utf8EncodeChar c = [.ofNat (c.toNat / 262144 % 8 + 0xf0),
      .ofNat (c.toNat / 4096 % 64 + 0x80), .ofNat (c.toNat / 64 % 64 + 0x80),
      .ofNat (c.toNat % 64 + 0x80)] :=
    (if_neg (show ¬ c.toNat ≤ 0x7f by omega)).trans
      ((if_neg (show ¬ c.toNat ≤ 0x7ff by omega)).trans (if_neg h3))
  have hlead : (UInt8.ofNat (c.toNat / 262144 % 8 + 0xf0)).toNat =
      c.toNat / 262144 % 8 + 0xf0 := by
    rw [UInt8.toNat_ofNat']
    omega
  apply encodes_of_le heq
  · omega
  · rw [widthOf_eq, hlead, if_neg (by omega), if_neg (by omega), if_neg (by omega)]
    rfl
  · rw [payload, hlead, UInt8.toNat_ofNat', UInt8.toNat_ofNat', UInt8.toNat_ofNat']
    omega
  · simp only [List.forall_mem_cons, isTail_ofNat, List.not_mem_nil, false_implies, implies_true,
      and_self]

/-- Every character has an encoding of this shape. -/
theorem exists_encodes (c : Char) : ∃ lead tail, Encodes c lead tail := by
  by_cases h1 : c.toNat ≤ 0x7f
  · exact ⟨_, _, encodes_one h1⟩
  by_cases h2 : c.toNat ≤ 0x7ff
  · exact ⟨_, _, encodes_two h1 h2⟩
  by_cases h3 : c.toNat ≤ 0xffff
  · exact ⟨_, _, encodes_three h1 h2 h3⟩
  · exact ⟨_, _, encodes_four h3⟩

/-- A byte below 128 in an encoding is all of it. -/
theorem toNat_eq_of_mem {c : Char} {b : UInt8} (h : b ∈ String.utf8EncodeChar c)
    (hb : b.toNat < 0x80) : String.utf8EncodeChar c = [b] ∧ c.toNat = b.toNat := by
  obtain ⟨lead, tail, he⟩ := exists_encodes c
  rw [he.eq] at h ⊢
  obtain rfl | h := List.mem_cons.1 h
  · obtain ⟨rfl, hlead⟩ := he.ascii hb
    exact ⟨rfl, hlead.symm⟩
  · have := (he.isTail b h).1
    omega

/-- An ASCII byte stands in an encoding exactly when the character is that byte. -/
theorem mem_utf8EncodeChar_iff {c d : Char} (hd : d.toNat < 0x80) :
    UInt8.ofNat d.toNat ∈ String.utf8EncodeChar c ↔ c = d := by
  have hb : (UInt8.ofNat d.toNat).toNat = d.toNat := by
    rw [UInt8.toNat_ofNat']
    omega
  constructor
  · intro h
    obtain ⟨-, hc⟩ := toNat_eq_of_mem h (by omega)
    rw [← Char.ofNat_toNat c, hc, hb, Char.ofNat_toNat]
  · rintro rfl
    have hval : c.val.toNat = c.toNat := rfl
    rw [String.utf8EncodeChar]
    simp only [hval]
    rw [if_pos (by omega)]
    exact List.mem_singleton_self _

/-- A character is read where its encoding stands, whatever follows it. -/
theorem decodeFirst?_append (c : Char) (rest : List UInt8) :
    decodeFirst? (String.utf8EncodeChar c ++ rest) = some c := by
  obtain ⟨lead, tail, he⟩ := exists_encodes c
  have hlen : c.utf8Size = tail.length + 1 := by
    rw [← String.length_utf8EncodeChar, he.eq, List.length_cons]
  have hunit : (lead :: (tail ++ rest)).take (widthOf lead) = lead :: tail := by
    rw [he.width, hlen, List.take_succ_cons, List.take_left]
  rw [he.eq, List.cons_append, decodeFirst?]
  simp only [hunit, he.number, Char.ofNat_toNat]
  rw [if_pos he.eq]

/-- What is read is the character whose encoding the bytes begin with. -/
theorem decodeFirst?_eq_some_iff {bytes : List UInt8} {c : Char} :
    decodeFirst? bytes = some c ↔ String.utf8EncodeChar c <+: bytes := by
  constructor
  · intro h
    rw [← take_of_decodeFirst? h]
    exact List.take_prefix _ _
  · rintro ⟨rest, rfl⟩
    exact decodeFirst?_append c rest

/-- The bytes of a character that was read, and those that are left. -/
theorem cons_eq_append_of_decodeFirst? {lead : UInt8} {rest : List UInt8} {c : Char}
    (h : decodeFirst? (lead :: rest) = some c) :
    lead :: rest = String.utf8EncodeChar c ++ rest.drop (c.utf8Size - 1) := by
  have hpos := c.utf8Size_pos
  have hdrop : (lead :: rest).drop c.utf8Size = rest.drop (c.utf8Size - 1) := by
    obtain ⟨n, hn⟩ := Nat.exists_eq_add_of_lt hpos
    rw [hn, Nat.zero_add, List.drop_succ_cons, Nat.add_sub_cancel]
  rw [← take_of_decodeFirst? h, ← hdrop, List.take_append_drop]

/-- Where the encoding of a character stands, it is read, and what follows it is left. -/
theorem exists_cons_of_append (c : Char) (rest : List UInt8) :
    ∃ lead more, String.utf8EncodeChar c ++ rest = lead :: more ∧
      decodeFirst? (lead :: more) = some c ∧ more.drop (c.utf8Size - 1) = rest := by
  obtain ⟨lead, tail, he⟩ := exists_encodes c
  have hlen : c.utf8Size = tail.length + 1 := by
    rw [← String.length_utf8EncodeChar, he.eq, List.length_cons]
  have hfirst := decodeFirst?_append c rest
  rw [he.eq, List.cons_append] at hfirst
  refine ⟨lead, tail ++ rest, by rw [he.eq, List.cons_append], hfirst, ?_⟩
  rw [hlen, Nat.add_sub_cancel, List.drop_left]

/-- Reading goes on behind a character. -/
theorem decodeRepaired_append (c : Char) (rest : List UInt8) :
    decodeRepaired (String.utf8EncodeChar c ++ rest) = c :: decodeRepaired rest := by
  obtain ⟨lead, more, happend, hfirst, hdrop⟩ := exists_cons_of_append c rest
  rw [happend, decodeRepaired, hfirst]
  simp only [hdrop]

/-- Reading all of the bytes goes on behind a character, too. -/
theorem decode?_append (c : Char) (rest : List UInt8) :
    decode? (String.utf8EncodeChar c ++ rest) = (decode? rest).map (c :: ·) := by
  obtain ⟨lead, more, happend, hfirst, hdrop⟩ := exists_cons_of_append c rest
  rw [happend, decode?, hfirst]
  simp only [hdrop]

/-- Bytes are read as a text exactly if they are its encoding. -/
theorem decode?_eq_some_iff {bytes : List UInt8} {text : List Char} :
    decode? bytes = some text ↔ bytes = encode text := by
  constructor
  · -- on the reading, which takes the encoding of one character at a time
    intro h
    induction bytes using decode?.induct generalizing text with
    | case1 =>
      rw [decode?] at h
      obtain rfl := Option.some.inj h
      rfl
    | case2 lead rest c hfirst ih =>
      rw [decode?, hfirst] at h
      obtain ⟨others, hothers, rfl⟩ := Option.map_eq_some_iff.mp h
      rw [cons_eq_append_of_decodeFirst? hfirst, ih hothers]
      rfl
    | case3 lead rest hfirst =>
      rw [decode?, hfirst] at h
      cases h
  · rintro rfl
    induction text with
    | nil => rw [encode, List.flatMap_nil, decode?]
    | cons c text ih =>
      rw [encode, List.flatMap_cons, decode?_append]
      exact congrArg (Option.map (c :: ·)) ih

/-- An encoded text comes back. -/
theorem decodeRepaired_encode (text : List Char) : decodeRepaired (encode text) = text := by
  induction text with
  | nil => simp [encode, decodeRepaired]
  | cons c text ih =>
    rw [encode, List.flatMap_cons, decodeRepaired_append]
    exact congrArg (c :: ·) ih

/-- Whether the byte at a place belongs to a character: at a place not behind it there begins the
encoding of some character that reaches beyond it. -/
def Belongs (bytes : List UInt8) (place : Nat) : Prop :=
  ∃ start c, start ≤ place ∧ place < start + c.utf8Size ∧
    String.utf8EncodeChar c <+: bytes.drop start

instance (bytes : List UInt8) (place : Nat) : Decidable (Belongs bytes place) :=
  decidable_of_iff (∃ start < place + 1,
      (decodeFirst? (bytes.drop start)).any fun c : Char => place < start + c.utf8Size) <| by
    simp only [Nat.lt_succ_iff, Option.any_eq_true, decide_eq_true_eq,
      decodeFirst?_eq_some_iff, Belongs]
    exact exists_congr fun start => ⟨fun ⟨h, c, hc, hlt⟩ => ⟨c, h, hlt, hc⟩,
      fun ⟨c, h, hlt, hc⟩ => ⟨h, c, hc, hlt⟩⟩

/-- The bytes with a question mark for each one that belongs to no character. -/
def repair (bytes : List UInt8) : List UInt8 :=
  bytes.mapIdx fun place b => if Belongs bytes place then b else 0x3f

/-- The bytes of a character belong to it. -/
theorem belongs_append_of_lt {c : Char} {rest : List UInt8} {place : Nat}
    (h : place < c.utf8Size) : Belongs (String.utf8EncodeChar c ++ rest) place :=
  ⟨0, c, Nat.zero_le _, by omega, List.prefix_append _ _⟩

/-- No other character begins within the encoding of one, so what stands behind it decides alone
which of its bytes belong to characters. -/
theorem belongs_append_iff {c : Char} {rest : List UInt8} {place : Nat} :
    Belongs (String.utf8EncodeChar c ++ rest) (c.utf8Size + place) ↔ Belongs rest place := by
  have hlen := String.length_utf8EncodeChar c
  constructor
  · rintro ⟨start, d, hle, hlt, hd⟩
    rcases Nat.lt_or_ge start c.utf8Size with hstart | hstart
    · exfalso
      obtain ⟨lead, tail, he⟩ := exists_encodes c
      obtain ⟨lead', tail', he'⟩ := exists_encodes d
      cases start with
      | zero =>
        -- at the first byte only `c` itself is read, which ends before the place
        have hdc := decodeFirst?_eq_some_iff.2 hd
        rw [List.drop_zero, decodeFirst?_append] at hdc
        obtain rfl := Option.some.inj hdc
        omega
      | succ start =>
        -- behind it there are only tail bytes
        rw [he.eq, List.length_cons] at hlen
        have hs : start < tail.length := by omega
        rw [he.eq, List.cons_append, List.drop_succ_cons, List.drop_append_of_le_length hs.le,
          List.drop_eq_getElem_cons hs, he'.eq, List.cons_append, List.cons_prefix_cons] at hd
        rw [hd.1] at he'
        exact he'.lead_not (he.isTail _ (List.getElem_mem hs))
    · obtain ⟨n, rfl⟩ := Nat.exists_eq_add_of_le hstart
      rw [← hlen, List.drop_append, hlen] at hd
      simp only [Nat.add_sub_cancel_left] at hd
      rw [List.drop_of_length_le (by omega), List.nil_append] at hd
      exact ⟨n, d, by omega, by omega, hd⟩
  · rintro ⟨start, d, hle, hlt, hd⟩
    refine ⟨c.utf8Size + start, d, by omega, by omega, ?_⟩
    rw [List.drop_append, hlen, List.drop_of_length_le (by omega), List.nil_append,
      Nat.add_sub_cancel_left]
    exact hd

/-- A byte with which no encoding begins belongs to no character when it is the first one. -/
theorem not_belongs_zero {lead : UInt8} {rest : List UInt8}
    (h : decodeFirst? (lead :: rest) = none) : ¬ Belongs (lead :: rest) 0 := by
  rintro ⟨start, c, hle, -, hc⟩
  obtain rfl := Nat.le_zero.1 hle
  rw [List.drop_zero, ← decodeFirst?_eq_some_iff, h] at hc
  cases hc

/-- Nor does it take part in a character further on. -/
theorem belongs_cons_iff {lead : UInt8} {rest : List UInt8} {place : Nat}
    (h : decodeFirst? (lead :: rest) = none) :
    Belongs (lead :: rest) (place + 1) ↔ Belongs rest place := by
  constructor
  · rintro ⟨start, c, hle, hlt, hc⟩
    cases start with
    | zero =>
      rw [List.drop_zero, ← decodeFirst?_eq_some_iff, h] at hc
      cases hc
    | succ start => exact ⟨start, c, by omega, by omega, hc⟩
  · rintro ⟨start, c, hle, hlt, hc⟩
    exact ⟨start + 1, c, by omega, by omega, hc⟩

/-- Repairing keeps a character as it is. -/
theorem repair_append (c : Char) (rest : List UInt8) :
    repair (String.utf8EncodeChar c ++ rest) = String.utf8EncodeChar c ++ repair rest := by
  have hlen := String.length_utf8EncodeChar c
  rw [repair, repair, List.mapIdx_append]
  congr 1
  · apply List.ext_getElem
    · exact List.length_mapIdx
    · intro i hi _
      rw [List.length_mapIdx] at hi
      rw [List.getElem_mapIdx, if_pos (belongs_append_of_lt (by omega))]
  · congr 1
    funext i b
    rw [hlen, Nat.add_comm]
    simp only [belongs_append_iff]

/-- Repairing replaces a byte with which no encoding begins. -/
theorem repair_cons {lead : UInt8} {rest : List UInt8} (h : decodeFirst? (lead :: rest) = none) :
    repair (lead :: rest) = 0x3f :: repair rest := by
  rw [repair, repair, List.mapIdx_cons, if_neg (not_belongs_zero h)]
  simp only [belongs_cons_iff h]

/-- The text that is read from any bytes is the one that the repaired bytes encode. -/
theorem encode_decodeRepaired (bytes : List UInt8) :
    encode (decodeRepaired bytes) = repair bytes := by
  fun_induction decodeRepaired bytes with
  | case1 => rfl
  | case2 lead rest c h ih =>
    rw [cons_eq_append_of_decodeFirst? h, repair_append, ← ih]
    rfl
  | case3 lead rest h ih =>
    rw [repair_cons h, ← ih]
    rfl

/-- A stray first byte and a stray tail byte are repaired, an encoding of two bytes is kept. -/
example : repair [0xc3, 0x41, 0xc3, 0xa9, 0xa9] = [0x3f, 0x41, 0xc3, 0xa9, 0x3f] := by
  decide +kernel

/-- Repairing replaces one byte by one. -/
@[simp]
theorem length_repair (bytes : List UInt8) : (repair bytes).length = bytes.length :=
  List.length_mapIdx

/-- Repairing brings in nothing but question marks. -/
theorem mem_of_mem_repair {bytes : List UInt8} {b : UInt8} (h : b ∈ repair bytes)
    (hb : b ≠ 0x3f) : b ∈ bytes := by
  obtain ⟨i, hi, hib⟩ := List.mem_mapIdx.1 h
  split at hib
  · rw [← hib]
    exact List.getElem_mem hi
  · exact absurd hib.symm hb

end ZioControl.Utf8
