/-!
# TOML values

The values of a TOML document. A table remembers how it came about, because that decides what later
lines of the document may add to it.
-/

namespace ZioControl.Toml

/-- How a table came about. -/
inductive Origin where
  /-- By a header of its own. -/
  | header
  /-- By a header of a table within it. -/
  | implied
  /-- By a dotted key of an entry within it. -/
  | dotted
  /-- By a value in braces, to which nothing can be added. -/
  | inline
  deriving DecidableEq, Repr, Inhabited

/-- A value. A number is kept by its digits, whether or not anything can hold it, and a date by its
spelling. -/
inductive Value where
  | string (text : String)
  | boolean (b : Bool)
  /-- A whole number in a base, which may be below zero. -/
  | integer (minus : Bool) (base : Nat) (digits : List Char)
  /-- Digits times a power of ten, with either sign. -/
  | decimal (digits : List Char) (power : Int)
  /-- Infinity, or what is no number. -/
  | special
  | date (spelling : String)
  /-- An array written as a value. -/
  | array (items : List Value)
  | table (origin : Origin) (entries : List (String × Value))
  /-- An array of tables, each with a header in double brackets. -/
  | tables (items : List (List (String × Value)))
  deriving Repr, Inhabited

/-- The entries of a table, each key once. -/
abbrev Table := List (String × Value)

/-- The value of a key. -/
def Table.get? (t : Table) (key : String) : Option Value := List.lookup key t

/-- The table with the value of a key replaced, or with a new entry at its end. -/
def Table.put (t : Table) (key : String) (value : Value) : Table :=
  if t.any (·.1 == key) then t.map fun (k, v) => if k == key then (k, value) else (k, v)
  else t ++ [(key, value)]

/-- A reader takes something from the beginning of a text and says what is left, or finds that it is
not there. -/
abbrev Reader (α : Type) := List Char → Option (α × List Char)

/-- A text behind one character. -/
def expect (c : Char) : List Char → Option (List Char)
  | d :: rest => if c = d then some rest else none
  | [] => none

end ZioControl.Toml
