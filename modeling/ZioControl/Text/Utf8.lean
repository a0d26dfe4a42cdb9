/-!
# UTF-8

Characters from bytes. `decodeFirst?` reads the one character whose encoding a byte string begins
with, and is exact by construction: it accepts a character only if encoding it gives back the bytes
that it was read from, which rules out overlong forms, surrogates and numbers past the last code
point. `decode?` reads a whole byte string or nothing; `decodeRepaired` reads any byte string and
puts a question mark for each byte that belongs to no character.
-/

namespace ZioControl.Utf8

/-- The bytes of a text. -/
def encode (text : List Char) : List UInt8 := text.flatMap String.utf8EncodeChar

/-- How many bytes a character takes whose encoding begins with this byte. -/
def widthOf (lead : UInt8) : Nat :=
  if lead < 0x80 then 1 else if lead < 0xe0 then 2 else if lead < 0xf0 then 3 else 4

/-- The number that the payload bits of one to four bytes spell, the first byte giving the width. -/
def payload : List UInt8 → Nat
  | [a] => a.toNat
  | [a, b] => a.toNat % 32 * 64 + b.toNat % 64
  | [a, b, c] => (a.toNat % 16 * 64 + b.toNat % 64) * 64 + c.toNat % 64
  | [a, b, c, d] => ((a.toNat % 8 * 64 + b.toNat % 64) * 64 + c.toNat % 64) * 64 + d.toNat % 64
  | _ => 0

/-- The character whose encoding the bytes begin with, if they begin with one. -/
def decodeFirst? : List UInt8 → Option Char
  | [] => none
  | lead :: rest =>
    -- whatever the bytes are, the character they would be has to encode to them
    let unit := (lead :: rest).take (widthOf lead)
    let c := Char.ofNat (payload unit)
    if String.utf8EncodeChar c = unit then some c else none

/-- What `decodeFirst?` accepts stands at the beginning of the bytes. -/
theorem take_of_decodeFirst? {bytes : List UInt8} {c : Char} (h : decodeFirst? bytes = some c) :
    bytes.take c.utf8Size = String.utf8EncodeChar c := by
  cases bytes with
  | nil => simp [decodeFirst?] at h
  | cons lead rest =>
    simp only [decodeFirst?] at h
    split at h
    · next he =>
      obtain rfl := Option.some.inj h
      have hl := congrArg List.length he
      rw [String.length_utf8EncodeChar, List.length_take] at hl
      rw [he, hl]
      simp [List.take_eq_take_iff]
    · simp at h

/-- The text of a byte string in which every byte belongs to a character. -/
def decode? : List UInt8 → Option (List Char)
  | [] => some []
  | lead :: rest =>
    match decodeFirst? (lead :: rest) with
    | some c => (decode? (rest.drop (c.utf8Size - 1))).map (c :: ·)
    | none => none
termination_by bytes => bytes.length
decreasing_by simp only [List.length_drop, List.length_cons]; omega

/-- The text of any byte string: a question mark stands for each byte that belongs to no
character. -/
def decodeRepaired : List UInt8 → List Char
  | [] => []
  | lead :: rest =>
    match decodeFirst? (lead :: rest) with
    | some c => c :: decodeRepaired (rest.drop (c.utf8Size - 1))
    | none => '?' :: decodeRepaired rest
termination_by bytes => bytes.length
decreasing_by all_goals simp only [List.length_drop, List.length_cons]; omega

end ZioControl.Utf8
