import ZioControl.Text.Numeral
import ZioControl.Toml.Value

/-!
# Quoted texts in TOML

The four ways to quote a text: in double quotes with escapes or in single quotes without, each on
one line or between triple quotes over several. Every reader starts behind the opening quotes.
-/

namespace ZioControl.Toml

/-- The characters that may stand in a comment or in quotes: the tab and all that are no ASCII
control characters. -/
def isPlain (c : Char) : Bool := c = '\t' || (' ' ≤ c && c ≠ '\x7f')

/-- Blanks within a line. -/
def isSpace (c : Char) : Bool := c = ' ' || c = '\t'

/-- The character that one letter stands for behind a backslash. -/
def escaped? : Char → Option Char
  | 'b' => some '\x08'
  | 'e' => some '\x1b'
  | 't' => some '\t'
  | 'n' => some '\n'
  | 'f' => some '\x0c'
  | 'r' => some '\r'
  | '"' => some '"'
  | '\\' => some '\\'
  | _ => none

/-- The character of a code point written in hexadecimal digits. -/
def scalar? (digits : List Char) : Option Char :=
  (Text.natural? 16 digits).bind fun n => if n.isValidChar then some (Char.ofNat n) else none

/-- Puts a character in front of what a reader finds. -/
def cons (c : Char) (r : Option (List Char × List Char)) : Option (List Char × List Char) :=
  r.map fun (text, rest) => (c :: text, rest)

/-- A text in double quotes on one line. -/
def basic : Reader (List Char)
  | '"' :: rest => some ([], rest)
  | '\\' :: 'x' :: a :: b :: rest => (scalar? [a, b]).bind fun x => cons x (basic rest)
  | '\\' :: 'u' :: a :: b :: c :: d :: rest =>
    (scalar? [a, b, c, d]).bind fun x => cons x (basic rest)
  | '\\' :: 'U' :: a :: b :: c :: d :: e :: f :: g :: h :: rest =>
    (scalar? [a, b, c, d, e, f, g, h]).bind fun x => cons x (basic rest)
  | '\\' :: c :: rest => (escaped? c).bind fun x => cons x (basic rest)
  | c :: rest => if isPlain c then cons c (basic rest) else none
  | [] => none

/-- A text in single quotes on one line. -/
def literal : Reader (List Char)
  | '\'' :: rest => some ([], rest)
  | c :: rest => if isPlain c then cons c (literal rest) else none
  | [] => none

/-- A text without the line break that it begins with, if it begins with one. -/
def dropBreak : List Char → List Char
  | '\n' :: rest => rest
  | '\r' :: '\n' :: rest => rest
  | text => text

/-- What follows a backslash at the end of a line: the text behind the blanks and line breaks, of
which there has to be one. -/
def continued (text : List Char) : Option (List Char) :=
  let rest := text.dropWhile isSpace
  let after := dropBreak rest
  if after.length < rest.length then some (skip after) else none
where
  /-- The text behind blanks and line breaks. -/
  skip : List Char → List Char
    | '\n' :: rest => skip rest
    | '\r' :: '\n' :: rest => skip rest
    | c :: rest => if isSpace c then skip rest else c :: rest
    | [] => []

/-- The text behind blanks and line breaks is not longer than the text. -/
theorem length_skip_le (text : List Char) : (continued.skip text).length ≤ text.length := by
  fun_induction continued.skip text <;> simp_all <;> omega

/-- A continued line goes on behind the backslash. -/
theorem length_continued_lt {text rest : List Char} (h : continued text = some rest) :
    rest.length < text.length := by
  simp only [continued] at h
  split at h
  · next hlt =>
    obtain rfl := Option.some.inj h
    have h1 := length_skip_le (dropBreak (text.dropWhile isSpace))
    have h2 := (List.dropWhile_suffix (l := text) isSpace).length_le
    omega
  · simp at h

/-- A text between triple double quotes. One or two quotes that stand alone belong to it, also just
before the closing ones. A line break stays as it is written. -/
def multilineBasic : Reader (List Char)
  | '"' :: '"' :: '"' :: '"' :: '"' :: rest => some (['"', '"'], rest)
  | '"' :: '"' :: '"' :: '"' :: rest => some (['"'], rest)
  | '"' :: '"' :: '"' :: rest => some ([], rest)
  | '\\' :: 'x' :: a :: b :: rest => (scalar? [a, b]).bind fun x => cons x (multilineBasic rest)
  | '\\' :: 'u' :: a :: b :: c :: d :: rest =>
    (scalar? [a, b, c, d]).bind fun x => cons x (multilineBasic rest)
  | '\\' :: 'U' :: a :: b :: c :: d :: e :: f :: g :: h :: rest =>
    (scalar? [a, b, c, d, e, f, g, h]).bind fun x => cons x (multilineBasic rest)
  | '\\' :: c :: rest =>
    match escaped? c with
    | some x => cons x (multilineBasic rest)
    -- no escape, so the line has to go on behind its break
    | none =>
      match _h : continued (c :: rest) with
      | some after => multilineBasic after
      | none => none
  | '\r' :: '\n' :: rest => cons '\r' (cons '\n' (multilineBasic rest))
  | c :: rest => if isPlain c ∨ c = '\n' then cons c (multilineBasic rest) else none
  | [] => none
termination_by text => text.length
decreasing_by
  all_goals first
    | (have hlt := length_continued_lt _h; simp only [List.length_cons] at *; omega)
    | (simp only [List.length_cons]; omega)

/-- A text between triple single quotes. One or two quotes that stand alone belong to it, also just
before the closing ones. A line break stays as it is written. -/
def multilineLiteral : Reader (List Char)
  | '\'' :: '\'' :: '\'' :: '\'' :: '\'' :: rest => some (['\'', '\''], rest)
  | '\'' :: '\'' :: '\'' :: '\'' :: rest => some (['\''], rest)
  | '\'' :: '\'' :: '\'' :: rest => some ([], rest)
  | '\r' :: '\n' :: rest => cons '\r' (cons '\n' (multilineLiteral rest))
  | c :: rest => if isPlain c ∨ c = '\n' then cons c (multilineLiteral rest) else none
  | [] => none

/-- A quoted text of any of the four sorts, if one begins here. -/
def quoted? : Reader (List Char)
  | '"' :: '"' :: '"' :: rest => multilineBasic (dropBreak rest)
  | '"' :: rest => basic rest
  | '\'' :: '\'' :: '\'' :: rest => multilineLiteral (dropBreak rest)
  | '\'' :: rest => literal rest
  | _ => none

end ZioControl.Toml
