/-!
# Blank characters

Which characters are blank, and the two readings of a text that rest on them: the text without the
blanks at its ends (`trim`), and its words (`words`).
-/

namespace ZioControl.Text

/-- A character is blank when it has the Unicode property White_Space. -/
def isBlank (c : Char) : Bool :=
  let n := c.toNat
  (0x9 ≤ n && n ≤ 0xd) || n == 0x20 || n == 0x85 || n == 0xa0 || n == 0x1680 ||
    (0x2000 ≤ n && n ≤ 0x200a) || n == 0x2028 || n == 0x2029 || n == 0x202f || n == 0x205f ||
    n == 0x3000

/-- The text without the blanks that it begins with. -/
def trimStart (text : List Char) : List Char := text.dropWhile isBlank

/-- The text without the blanks that it ends with. -/
def trimEnd (text : List Char) : List Char := (text.reverse.dropWhile isBlank).reverse

/-- The text without the blanks at its ends. -/
def trim (text : List Char) : List Char := trimEnd (trimStart text)

/-- The words of a text are its longest runs of characters that are not blank, in order. -/
def words (text : List Char) : List (List Char) :=
  (text.splitOnP isBlank).filter fun piece => !piece.isEmpty

/-- A text that has nothing but blanks is trimmed to nothing. -/
theorem trim_eq_nil_of_all {text : List Char} (h : ∀ c ∈ text, isBlank c = true) :
    trim text = [] := by
  have : text.dropWhile isBlank = [] := by
    induction text with
    | nil => rfl
    | cons c rest ih =>
      rw [List.dropWhile_cons, if_pos (h c (by simp))]
      exact ih fun d hd => h d (by simp [hd])
  simp [trim, trimStart, trimEnd, this]

end ZioControl.Text
