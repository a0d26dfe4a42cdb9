import ZioControl.Toml.Bare

/-!
# TOML statements

A TOML document as a list of statements: headers of tables and entries. What the statements say
together is not looked at here.
-/

namespace ZioControl.Toml

/-- A key, as the names that lead from table to table. There is one at least. -/
abbrev Key := List String

/-- A statement of a document. -/
inductive Statement where
  /-- The header of a table. -/
  | table (key : Key)
  /-- The header of one more table of an array. -/
  | element (key : Key)
  /-- A value for a key of the table whose header came last. -/
  | entry (key : Key) (value : Value)
  deriving Repr

/-- How many names a key may have, and how many arrays and tables in braces may lie in one
another. -/
def depthLimit : Nat := 80

/-- A text without the spaces and tabs that it begins with. -/
def skipSpace (text : List Char) : List Char := text.dropWhile isSpace

/-- What a character of a name without quotes is. -/
def isBare (c : Char) : Bool := c.isAlphanum || c = '-' || c = '_'

/-- One name of a key: in quotes on one line, or of letters, digits, dashes and underscores. -/
def name? : Reader String
  | '"' :: rest => (basic rest).map fun (text, rest) => (String.ofList text, rest)
  | '\'' :: rest => (literal rest).map fun (text, rest) => (String.ofList text, rest)
  | text =>
    let bare := text.takeWhile isBare
    if bare.isEmpty then none else some (String.ofList bare, text.dropWhile isBare)

/-- Names with points between, at most `count` of them, with spaces around each. -/
def names? : (count : Nat) → Reader Key
  | 0, _ => none
  | count + 1, text =>
    match name? (skipSpace text) with
    | none => none
    | some (name, rest) =>
      match skipSpace rest with
      | '.' :: rest => (names? count rest).map fun (names, rest) => (name :: names, rest)
      | rest => some ([name], rest)

/-- A key. -/
def key? (text : List Char) : Option (Key × List Char) := names? depthLimit text

/-- A text behind a comment, of which the mark was read. -/
def skipComment (text : List Char) : List Char := text.dropWhile isPlain

/-- A text behind the end of a line: spaces, a comment, and a line break or the end of the text. -/
def endOfLine (text : List Char) : Option (List Char) :=
  let rest := match skipSpace text with
    | '#' :: rest => skipComment rest
    | rest => rest
  match rest with
  | [] => some []
  | '\n' :: rest => some rest
  | '\r' :: '\n' :: rest => some rest
  | _ => none

/-- A text behind spaces, line breaks and comments. A comment that does not end as it should is left
standing, behind its mark. -/
def skipFiller (inComment : Bool) : List Char → List Char
  | '\n' :: rest => skipFiller false rest
  | '\r' :: '\n' :: rest => skipFiller false rest
  | c :: rest =>
    if inComment then if isPlain c then skipFiller true rest else c :: rest
    else if isSpace c then skipFiller false rest
    else if c = '#' then skipFiller true rest
    else c :: rest
  | [] => []

/-- What stands between a bracket or a brace, of which the opening one was read, and the closing
one: things with commas between, and one comma behind the last if it is there. There are at most
`count`. -/
def listed {α : Type} (close : Char) (one : Reader α) : (count : Nat) → Reader (List α)
  | 0, _ => none
  | count + 1, text =>
    match skipFiller false text with
    | [] => none
    | c :: rest =>
      if c = close then some ([], rest)
      else do
        let (first, rest) ← one (c :: rest)
        match skipFiller false rest with
        | ',' :: rest => do
          let (more, rest) ← listed close one count rest
          return (first :: more, rest)
        | d :: rest => if d = close then return ([first], rest) else none
        | [] => none

/-- A key and a value with an equality sign between. What may stand around the sign is skipped by
`skip`. -/
def pair (skip : List Char → List Char) (value : Reader Value) (text : List Char) :
    Option ((Key × Value) × List Char) := do
  let (key, rest) ← key? text
  let rest ← expect '=' (skip rest)
  let (v, rest) ← value (skip rest)
  return ((key, v), rest)

/-- Adds a value to a table under a key. The first name of a longer key has to be new or that of a
table that came about by dotted keys, or on the way to such a one by the header of a table within.
In an array of tables the last one is meant. -/
def assign (key : Key) (value : Value) (t : Table) : Option Table :=
  match key with
  | [] => none
  | [name] => if (t.get? name).isSome then none else some (t.put name value)
  | name :: rest =>
    let last := rest.length = 1
    match t.get? name with
    | none => (assign rest value []).map fun t' => t.put name (.table .dotted t')
    | some (.table .dotted t') =>
      (assign rest value t').map fun t' => t.put name (.table .dotted t')
    | some (.table .implied t') =>
      if last then none
      else (assign rest value t').map fun t' => t.put name (.table .implied t')
    | some (.tables ts) =>
      if last then none
      else
        match ts.getLast? with
        | some t' => (assign rest value t').map fun t' => t.put name (.tables (ts.dropLast ++ [t']))
        | none => none
    | some _ => none

/-- The table of pairs in braces. -/
def inlineTable (found : List (Key × Value)) : Option Value :=
  (found.foldlM (fun t (key, value) => assign key value t) []).map (.table .inline)

/-- A value with at most `size` values beside one another, in which arrays and tables in braces lie
at most `depth` deep. -/
def value? (size : Nat) : (depth : Nat) → Reader Value
  | 0, text => scalar text
  | depth + 1, text =>
    match text with
    | '[' :: rest =>
      (listed ']' (value? size depth) size rest).map fun (vs, rest) => (.array vs, rest)
    | '{' :: rest => do
      let (found, rest) ← listed '}' (pair (skipFiller false) (value? size depth)) size rest
      return (← inlineTable found, rest)
    | text => scalar text
where
  /-- A value in which no other lies. -/
  scalar (text : List Char) : Option (Value × List Char) :=
    match text with
    | '"' :: _ | '\'' :: _ =>
      (quoted? text).map fun (content, rest) => (.string (String.ofList content), rest)
    | text => bare? text

/-- One statement and the end of its line, in a text of at most `size` characters. -/
def statement? (size : Nat) (text : List Char) : Option (Statement × List Char) :=
  match text with
  | '[' :: '[' :: rest => do
    let (key, rest) ← key? rest
    let rest ← expect ']' rest
    let rest ← expect ']' rest
    return (.element key, ← endOfLine rest)
  | '[' :: rest => do
    let (key, rest) ← key? rest
    let rest ← expect ']' rest
    return (.table key, ← endOfLine rest)
  | text => do
    let ((key, value), rest) ← pair skipSpace (value? size depthLimit) text
    return (.entry key value, ← endOfLine rest)

/-- The statements of a text of at most `count` lines and at most `size` characters. -/
def statementsOf (size : Nat) : (count : Nat) → List Char → Option (List Statement)
  | 0, _ => none
  | count + 1, text =>
    match skipSpace text with
    | [] => some []
    | c :: rest =>
      if c = '#' ∨ c = '\n' ∨ c = '\r' then
        (endOfLine (c :: rest)).bind (statementsOf size count)
      else do
        let (s, rest) ← statement? size (c :: rest)
        return s :: (← statementsOf size count rest)

/-- The statements of a document. A byte order mark in front does not count. -/
def statements? (text : List Char) : Option (List Statement) :=
  let text := if text.head? = some '\ufeff' then text.drop 1 else text
  let size := text.length + 1
  statementsOf size size text

end ZioControl.Toml
