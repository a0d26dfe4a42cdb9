import ZioControl.Text.Numeral
import ZioControl.Toml.Value

/-!
# Dates in TOML

A day, a time of day, or both with a space or a `T` between and with or without the distance from
universal time. A time of day may leave out its seconds.
-/

namespace ZioControl.Toml

/-- A count of digits that stand for a number from `low` to `high`. -/
def digitsIn (count low high : Nat) (text : List Char) : Option (Nat × List Char) :=
  let digits := text.take count
  if digits.length = count ∧ digits.all Char.isDigit then
    (Text.natural? 10 digits).bind fun n =>
      if low ≤ n ∧ n ≤ high then some (n, text.drop count) else none
  else none

/-- The days of a month. -/
def daysOf (year month : Nat) : Nat :=
  if month = 2 then
    if year % 4 = 0 ∧ (year % 100 ≠ 0 ∨ year % 400 = 0) then 29 else 28
  else if month = 4 ∨ month = 6 ∨ month = 9 ∨ month = 11 then 30
  else 31

/-- What follows a day: year, month and day with dashes between. -/
def afterDay (text : List Char) : Option (List Char) := do
  let (year, rest) ← digitsIn 4 0 9999 text
  let rest ← expect '-' rest
  let (month, rest) ← digitsIn 2 1 12 rest
  let rest ← expect '-' rest
  let (_, rest) ← digitsIn 2 1 (daysOf year month) rest
  return rest

/-- What follows the seconds of a time of day, behind their colon: two digits, and a fraction if
there is a point. -/
def afterSeconds (text : List Char) : Option (List Char) := do
  let (_, rest) ← digitsIn 2 0 60 text
  match rest with
  | '.' :: places =>
    if places.head?.any Char.isDigit then return places.dropWhile Char.isDigit else none
  | rest => return rest

/-- What follows a time of day: hour and minute with a colon between, and the seconds if there is a
second colon. -/
def afterTime (text : List Char) : Option (List Char) := do
  let (_, rest) ← digitsIn 2 0 23 text
  let rest ← expect ':' rest
  let (_, rest) ← digitsIn 2 0 59 rest
  match rest with
  | ':' :: seconds => afterSeconds seconds
  | rest => return rest

/-- What follows the distance from universal time, which may be left out. -/
def afterOffset (text : List Char) : Option (List Char) :=
  match text with
  | 'Z' :: rest | 'z' :: rest => some rest
  | '+' :: rest | '-' :: rest => do
    let (_, rest) ← digitsIn 2 0 23 rest
    let rest ← expect ':' rest
    let (_, rest) ← digitsIn 2 0 59 rest
    return rest
  | rest => some rest

/-- Whether a text is a date. Only a time of day that follows a day may have a distance from
universal time. -/
def isDate (text : List Char) : Bool :=
  match afterDay text with
  | none => afterTime text = some []
  | some [] => true
  | some (c :: time) =>
    (c = 'T' || c = 't' || c = ' ') && (afterTime time).bind afterOffset = some []

end ZioControl.Toml
