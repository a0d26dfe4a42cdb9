/-!
# Paths

A path is a text with its steps between slashes. Empty steps and single dots lead nowhere, and two
dots lead back.
-/

namespace ZioControl.Path

/-- The pieces of a path between its slashes. -/
def pieces (path : String) : List (List Char) := path.toList.splitOn '/'

/-- The steps of a path that lead somewhere. The first step of a path that begins with a slash is
the slash. -/
def steps (path : String) : List String :=
  let rooted := path.toList.head? = some '/'
  let named := (pieces path).filter fun piece => piece ≠ [] ∧ piece ≠ ['.']
  (if rooted then ["/"] else []) ++ named.map String.ofList

/-- Whether a path ends in a slash. -/
def endsInSlash (path : String) : Bool := path.toList.getLast? = some '/'

/-- Whether the last piece of a path that is not empty is of dots, or there is none. -/
def endsInDots (path : String) : Bool :=
  match ((pieces path).filter (· ≠ [])).getLast? with
  | some piece => piece = ['.'] || piece = ['.', '.']
  | none => true

/-- Whether a path can only be that of a directory, because of how it ends. -/
def endsInDirectory (path : String) : Bool := endsInSlash path || endsInDots path

/-- The bytes that a step of a path may have. -/
def stepLimit : Nat := 255

/-- The bytes that a path may have. -/
def lengthLimit : Nat := 4095

/-- The path of a file in a directory, with one slash between. -/
def join (directory name : String) : String :=
  match directory.toList.getLast? with
  | none => name
  | some '/' => directory ++ name
  | some _ => directory ++ "/" ++ name

/-- The ending of a path's last step, after its last dot, if something stands before that dot. -/
def extension? (path : String) : Option String :=
  match (steps path).getLast? with
  | none => none
  | some last =>
    if last = ".." ∨ last = "/" then none
    else
      let chars := last.toList.reverse
      match chars.dropWhile (· ≠ '.') with
      | _ :: _ :: _ => some (String.ofList (chars.takeWhile (· ≠ '.')).reverse)
      | _ => none

end ZioControl.Path
