import ZioControl.Toml.Statement

/-!
# TOML documents

What the statements of a document say together: one table with everything in it. A table may be
defined once, by its header or by dotted keys, and a value once.
-/

namespace ZioControl.Toml

/-- Changes the table that a key leads to. A table on the way that is not there comes about by
implication, and in an array of tables the last one is meant. A value that was written as such
cannot be entered. -/
def within (key : Key) (change : Table → Option Table) (t : Table) : Option Table :=
  match key with
  | [] => change t
  | name :: rest =>
    match t.get? name with
    | none => (within rest change []).map fun t' => t.put name (.table .implied t')
    | some (.table .inline _) => none
    | some (.table origin t') =>
      (within rest change t').map fun t' => t.put name (.table origin t')
    | some (.tables ts) =>
      match ts.getLast? with
      | some t' => (within rest change t').map fun t' => t.put name (.tables (ts.dropLast ++ [t']))
      | none => none
    | some _ => none

/-- Defines the table of a header. It may be there by implication already. -/
def define (name : String) (t : Table) : Option Table :=
  match t.get? name with
  | none => some (t.put name (.table .header []))
  | some (.table .implied t') => some (t.put name (.table .header t'))
  | some _ => none

/-- Adds a table to an array of tables. -/
def extend (name : String) (t : Table) : Option Table :=
  match t.get? name with
  | none => some (t.put name (.tables [[]]))
  | some (.tables ts) => some (t.put name (.tables (ts ++ [[]])))
  | some _ => none

/-- A document that is being read: what it says so far, and the last header. -/
structure Draft where
  /-- What the document says so far. -/
  root : Table := []
  /-- The table to which entries go. -/
  current : Key := []

/-- The draft after one more statement. -/
def Draft.add (d : Draft) : Statement → Option Draft
  | .table key => do
    let root ← within key.dropLast (define (key.getLastD "")) d.root
    return { root := root, current := key }
  | .element key => do
    let root ← within key.dropLast (extend (key.getLastD "")) d.root
    return { root := root, current := key }
  | .entry key value => do
    let root ← within d.current (assign key value) d.root
    return { d with root := root }

/-- The table that a text spells. -/
def parse? (text : List Char) : Option Table := do
  let statements ← statements? text
  let draft ← statements.foldlM Draft.add {}
  return draft.root

end ZioControl.Toml
