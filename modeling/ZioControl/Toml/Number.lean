import ZioControl.Text.Numeral
import ZioControl.Toml.Value

/-!
# Numbers in TOML

A number by its whole spelling. A spelling decides which sort of number it is; whether anything can
hold the number is a question of its own, and `Value.isReadable` answers it for a value with all
that lies in it.
-/

namespace ZioControl.Toml

/-! ## Spellings -/

/-- Whether every underscore of a number stands between two digits. -/
def spacedWell (isDigit : Char → Bool) (text : List Char) : Bool := spaced false text
where
  /-- The same for what follows a character that is a digit or is none. -/
  spaced : (digit : Bool) → List Char → Bool
    | _, [] => true
    | _, ['_'] => false
    | digit, c :: d :: rest =>
      if c = '_' then digit && isDigit d && spaced true rest else spaced (isDigit c) (d :: rest)
    | _, [_] => true

/-- A spelling without its underscores. -/
def dropUnderscores (text : List Char) : List Char := text.filter (· ≠ '_')

/-- Whether a character is a digit of a base. -/
def isDigitOf (base : Nat) (c : Char) : Bool := (Text.digit? base c).isSome

/-- The sign in front of a number, and whether it is a minus. -/
def sign : List Char → Bool × List Char
  | '+' :: rest => (false, rest)
  | '-' :: rest => (true, rest)
  | text => (false, text)

/-- The digits at the beginning of a text, of which there has to be one. -/
def digitRun (text : List Char) : Option (List Char × List Char) :=
  let run := text.takeWhile Char.isDigit
  if run.isEmpty then none else some (run, text.dropWhile Char.isDigit)

/-- The digits behind a point, if there is a point. -/
def fraction : Reader (List Char)
  | '.' :: rest => digitRun rest
  | text => some ([], text)

/-- The value of the digits of a power of ten. Once it has reached `0x10000`, no further digit
counts. -/
def powerValue (digits : List Char) : Nat :=
  digits.foldl (fun n d => if n < 0x10000 then 10 * n + (d.toNat - '0'.toNat) else n) 0

/-- The power of ten behind an `e`, zero if there is no `e`. -/
def exponent : Reader Int
  | c :: rest =>
    if c = 'e' ∨ c = 'E' then do
      let (minus, rest) := sign rest
      let (run, rest) ← digitRun rest
      let n : Int := powerValue run
      return (if minus then -n else n, rest)
    else some (0, c :: rest)
  | [] => some (0, [])

/-- A number with a point or a power of ten or both. A zero in front of it stands alone. -/
def decimalNumber? (text : List Char) : Option Value := do
  let unsigned := (sign text).2
  let (whole, rest) ← digitRun (dropUnderscores unsigned)
  let (places, rest) ← fraction rest
  let (power, rest) ← exponent rest
  if rest = [] ∧ (unsigned.head? = some '0' → whole.length = 1)
      ∧ spacedWell Char.isDigit text then
    return .decimal (whole ++ places) (power - places.length)
  else none

/-- A whole number. A zero in front of it stands alone. With an underscore in it only the characters
beside the underscores have to be digits; nothing can hold a number in which another is none. -/
def wholeNumber? (text : List Char) : Option Value :=
  let (minus, digits) := sign text
  if digits ≠ [] ∧ (digits.head? = some '0' → digits = ['0']) ∧ spacedWell (isDigitOf 16) text then
    some (.integer minus 10 (dropUnderscores digits))
  else none

/-- A whole number in a base behind the mark of the base. It may lack its digits, and then nothing
can hold it. -/
def markedNumber? (base : Nat) (digits : List Char) : Option Value :=
  if digits.all (fun c => isDigitOf base c || c = '_') ∧ spacedWell (isDigitOf base) digits then
    some (.integer false base (dropUnderscores digits))
  else none

/-- The number of a spelling. What follows its first digits tells the sort. -/
def number? (text : List Char) : Option Value :=
  let unsigned := (sign text).2
  match text with
  | '0' :: 'x' :: digits => markedNumber? 16 digits
  | '0' :: 'o' :: digits => markedNumber? 8 digits
  | '0' :: 'b' :: digits => markedNumber? 2 digits
  | text =>
    if unsigned = ['i', 'n', 'f'] ∨ unsigned = ['n', 'a', 'n'] then some .special
    else
      let rest := unsigned.dropWhile Char.isDigit
      if ' ' ∈ rest then none
      else if rest.any (fun c => c = '.' || c = 'e' || c = 'E') then decimalNumber? text
      else if rest = [] ∨ rest.head? = some '_' then wholeNumber? text
      else none

/-! ## Sizes -/

/-- The value of decimal digits. -/
def digitsValue (digits : List Char) : Nat := (Text.natural? 10 digits).getD 0

/-- The least number that is too large for a double: half a unit above the largest one. -/
def doubleLimit : Nat := Nat.pow 2 1024 - Nat.pow 2 970

/-- The decimal digits of `doubleLimit`. -/
def doubleLimitDigits : Nat := 309

/-- Whether digits times a power of ten are too large for a double. -/
def overflows (digits : List Char) (power : Int) : Bool :=
  let significant := digits.dropWhile (· = '0')
  -- the digits in front of the point
  let size : Int := significant.length + power
  if significant.isEmpty ∨ size < doubleLimitDigits then false
  else if doubleLimitDigits < size then true
  else
    let front := significant.take doubleLimitDigits
    let zeros := List.replicate (doubleLimitDigits - front.length) '0'
    decide (doubleLimit ≤ digitsValue (front ++ zeros))

/-- The bits that a whole number may have, one less below zero. -/
def integerBits : Nat := 128

/-- Whether something can hold a whole number: a word of 128 bits, or one with a sign below zero. -/
def fits (minus : Bool) (base : Nat) (digits : List Char) : Bool :=
  (digits.dropWhile (· = '0')).length ≤ integerBits &&
    match Text.natural? base digits with
    | some n =>
      if minus then n ≤ Nat.pow 2 (integerBits - 1) else n < Nat.pow 2 integerBits
    | none => false

mutual

/-- Whether something can hold every number in a value. -/
def Value.isReadable : Value → Bool
  | .string _ | .boolean _ | .special | .date _ => true
  | .integer minus base digits => fits minus base digits
  | .decimal digits power => !overflows digits power
  | .array items => allReadable items
  | .table _ entries => entriesReadable entries
  | .tables items => tablesReadable items

/-- Whether something can hold every number in values. -/
def allReadable : List Value → Bool
  | [] => true
  | value :: rest => value.isReadable && allReadable rest

/-- Whether something can hold every number in the values of a table. -/
def entriesReadable : List (String × Value) → Bool
  | [] => true
  | (_, value) :: rest => value.isReadable && entriesReadable rest

/-- Whether something can hold every number in the values of tables. -/
def tablesReadable : List (List (String × Value)) → Bool
  | [] => true
  | entries :: rest => entriesReadable entries && tablesReadable rest

end

end ZioControl.Toml
