import ZioControl.Toml.Date
import ZioControl.Toml.Number
import ZioControl.Toml.Quotes

/-!
# Values without quotes

The words `true` and `false`, dates and numbers. Such a value is the longest run of characters that
do not structure a document. It goes on behind spaces, for a date may have one in it; which sort of
value the run is, if it is any, is decided by its spelling as a whole.
-/

namespace ZioControl.Toml

/-- Whether a character structures a document and so cannot be in a value without quotes. -/
def isStructure (c : Char) : Bool :=
  c = '=' || c = ',' || c = '[' || c = ']' || c = '{' || c = '}' || c = '#' || c = '\n' || c = '\r'
    || isSpace c

/-- Whether the run of a value can go on with a character behind spaces. -/
def continues (c : Char) : Bool := !isStructure c && c ≠ '.' && c ≠ '"' && c ≠ '\''

/-- The run of characters of a value without quotes. -/
def bareRun (text : List Char) : List Char × List Char :=
  let piece := text.takeWhile (!isStructure ·)
  let behind := text.dropWhile (!isStructure ·)
  let spaces := behind.takeWhile isSpace
  let next := behind.dropWhile isSpace
  if _h : spaces ≠ [] ∧ next.head?.any continues then
    let (run, rest) := bareRun next
    (piece ++ spaces ++ run, rest)
  else (piece, behind)
termination_by text.length
decreasing_by
  have hs : 0 < spaces.length := List.length_pos_iff.2 _h.1
  have hb : spaces.length + next.length = behind.length := by
    rw [← List.length_append, List.takeWhile_append_dropWhile]
  have ht := (List.dropWhile_suffix (l := text) (!isStructure ·)).length_le
  simp only [next, behind] at hb ht ⊢
  omega

/-- The value that a run is. Digits with a dash or a colon behind them begin a date. -/
def bareValue? (run : List Char) : Option Value :=
  if run = ['t', 'r', 'u', 'e'] then some (.boolean true)
  else if run = ['f', 'a', 'l', 's', 'e'] then some (.boolean false)
  else if isDate run then some (.date (String.ofList run))
  else number? run

/-- A value without quotes. -/
def bare? (text : List Char) : Option (Value × List Char) :=
  let (run, rest) := bareRun text
  (bareValue? run).map fun value => (value, rest)

end ZioControl.Toml
