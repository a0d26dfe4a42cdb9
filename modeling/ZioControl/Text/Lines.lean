/-!
# Lines

A text as lines. A line ends at a line feed, together with the one carriage return before it if
there is one; a carriage return that stands elsewhere belongs to its line. What follows the last
line feed is a line only if it holds something.
-/

namespace ZioControl.Text

/-- A line that a line feed ended, without the carriage return that belongs to the ending. -/
def dropReturn (line : List Char) : List Char :=
  if line.getLast? = some '\r' then line.dropLast else line

/-- The lines of a text, without their endings. -/
def lines (text : List Char) : List (List Char) :=
  match text.splitOn '\n' |>.reverse with
  | [] => []
  | last :: ended =>
    let whole := ended.reverse.map dropReturn
    if last.isEmpty then whole else whole ++ [last]

end ZioControl.Text
