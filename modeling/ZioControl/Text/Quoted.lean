import ZioControl.Text.Hidden

/-!
# Quoted texts

How a message shows a text that somebody else wrote: in double quotes, so that it is clear where it
ends, and with every character that could not be seen spelled out.
-/

namespace ZioControl.Text

/-- A character as it stands inside quotes. -/
def escape (c : Char) : List Char :=
  match c with
  | '\x00' => ['\\', '0']
  | '\t' => ['\\', 't']
  | '\r' => ['\\', 'r']
  | '\n' => ['\\', 'n']
  | '"' => ['\\', '"']
  | '\\' => ['\\', '\\']
  | c =>
    if isHidden c then ['\\', 'u', '{'] ++ Nat.toDigits 16 c.toNat ++ ['}'] else [c]

/-- A text in double quotes. -/
def quoted (text : String) : String :=
  String.ofList (['"'] ++ text.toList.flatMap escape ++ ['"'])

end ZioControl.Text
