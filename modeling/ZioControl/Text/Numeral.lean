import ZioControl.Text.Blank

/-!
# Numerals

Numbers as texts. The strict readers accept a numeral whose value stays below a limit and nothing
else; the lenient readers, for what a person types, trim the text first and take zero for all that
is no numeral. The writers give the shortest decimal and hexadecimal numerals.
-/

namespace ZioControl.Text

/-- The value of a digit. The letters `a` to `f` of either case stand for ten to fifteen. -/
def digit? (base : Nat) (c : Char) : Option Nat :=
  let value :=
    if '0' ≤ c ∧ c ≤ '9' then some (c.toNat - '0'.toNat)
    else if 'a' ≤ c ∧ c ≤ 'f' then some (c.toNat - 'a'.toNat + 10)
    else if 'A' ≤ c ∧ c ≤ 'F' then some (c.toNat - 'A'.toNat + 10)
    else none
  value.filter (· < base)

/-- The value of the digits that follow those with the value `acc`. -/
def readDigits? (base acc : Nat) : List Char → Option Nat
  | [] => some acc
  | c :: rest => (digit? base c).bind fun d => readDigits? base (acc * base + d) rest

/-- The value of one or more digits. -/
def natural? (base : Nat) (text : List Char) : Option Nat :=
  if text.isEmpty then none else readDigits? base 0 text

/-- A text without the one plus sign that may stand in front of a numeral. -/
def dropPlus : List Char → List Char
  | '+' :: rest => rest
  | text => text

/-- The value of an optional plus sign and one or more digits, if it is below the limit. -/
def unsigned? (base limit : Nat) (text : List Char) : Option Nat :=
  (natural? base (dropPlus text)).filter (· < limit)

/-- A text that is one or more decimal digits. -/
def isDigits (text : List Char) : Bool := !text.isEmpty && text.all Char.isDigit

/-- The number that a typed text stands for where only decimal digits count: its value if it is
below the limit, and zero for anything else. -/
def lenientDecimal (limit : Nat) (text : List Char) : Nat :=
  ((natural? 10 (trim text)).filter (· < limit)).getD 0

/-- The word that a typed text stands for where a sign counts: a numeral with an optional plus sign,
or the two's complement of a numeral with a minus sign down to `-2^31`; zero for anything else. -/
def lenientWord (text : List Char) : UInt32 :=
  match unsigned? 10 UInt32.size (trim text), trim text with
  | some value, _ => UInt32.ofNat value
  | none, '-' :: digits =>
    match natural? 10 digits with
    | some value => if value ≤ UInt32.size / 2 then UInt32.ofNat (UInt32.size - value) else 0
    | none => 0
  | none, _ => 0

/-- A text without the `0x` or `0X` that may stand in front of hexadecimal digits. -/
def dropHexMark : List Char → List Char
  | '0' :: 'x' :: rest => rest
  | '0' :: 'X' :: rest => rest
  | text => text

/-- Whether a text begins with `0x` or `0X`. -/
def hasHexMark : List Char → Bool
  | '0' :: 'x' :: _ => true
  | '0' :: 'X' :: _ => true
  | _ => false

/-- The word that a text writes in hexadecimal, with or without the mark in front. -/
def hexWord? (text : List Char) : Option UInt32 :=
  (unsigned? 16 UInt32.size (dropHexMark (trim text))).map UInt32.ofNat

/-- The word that a typed hexadecimal text stands for, zero if it is none. -/
def lenientHex (text : List Char) : UInt32 := (hexWord? text).getD 0

/-- The word that a text writes in the base that its beginning announces. -/
def word? (text : List Char) : Option UInt32 :=
  if hasHexMark (trim text) then hexWord? text
  else (unsigned? 10 UInt32.size (trim text)).map UInt32.ofNat

/-- The shortest decimal numeral of a number. -/
def decimal (n : Nat) : String := String.ofList (Nat.toDigits 10 n)

/-- A text filled up with a character on its left to a least length. -/
def padLeft (width : Nat) (fill : Char) (text : List Char) : List Char :=
  List.replicate (width - text.length) fill ++ text

/-- A text filled up with spaces on its right to a least length. -/
def padRight (width : Nat) (text : List Char) : List Char :=
  text ++ List.replicate (width - text.length) ' '

/-- The decimal numeral with zeros in front up to a least length. -/
def decimalPadded (width n : Nat) : String :=
  String.ofList (padLeft width '0' (Nat.toDigits 10 n))

/-- The hexadecimal digits of a number, in lower case, with zeros in front up to a least length. -/
def hexPadded (width n : Nat) : String :=
  String.ofList (padLeft width '0' (Nat.toDigits 16 n))

/-- The shortest hexadecimal numeral of a number, marked by `0x`. -/
def hex (n : Nat) : String := String.ofList ('0' :: 'x' :: Nat.toDigits 16 n)

end ZioControl.Text
