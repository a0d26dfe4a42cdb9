import Mathlib.Data.List.DropRight
import Mathlib.Data.List.Forall2
import Mathlib.Data.Nat.Digits.Defs
import Mathlib.Tactic.Ring
import ZioControl.Proofs.Numerals

/-!
# What the readers of numbers accept

The numerals of a base are said without a reader: a text of one or more digits spells the number of
which it is the positional notation (`Spells`), so zeros in front change nothing. On top of it come
an optional plus sign and a limit (`UnsignedNumeral`), the optional mark of hexadecimal numerals
(`HexNumeral`), and for the lenient readers what a text stands for, whether it is a numeral or not
(`DecimalValue`, `SignedValue`). Each reader trims its text and reads these languages and nothing
else, which is the main theorem, `numbers_read`.
-/

namespace ZioControl.Text

/-! ## Trimmed texts -/

/-- A text without the blanks at its ends. -/
structure Trimmed (text inner : List Char) : Prop where
  /-- Only blanks are missing. -/
  ends : ∃ front back, text = front ++ inner ++ back ∧
    (∀ c ∈ front, isBlank c = true) ∧ ∀ c ∈ back, isBlank c = true
  /-- No blank is left in front. -/
  head : ∀ c, inner.head? = some c → isBlank c = false
  /-- No blank is left behind. -/
  last : ∀ c, inner.getLast? = some c → isBlank c = false

variable {text inner digits : List Char} {base limit value : Nat}

/-- The blanks in front of a text that begins with none are dropped. -/
theorem trimStart_append {front : List Char} (hfront : ∀ c ∈ front, isBlank c = true)
    (hhead : ∀ c, text.head? = some c → isBlank c = false) : trimStart (front ++ text) = text := by
  rw [trimStart, List.dropWhile_append_of_pos hfront, List.dropWhile_eq_self_iff]
  intro hl
  rw [hhead _ (by rw [List.head?_eq_getElem?, List.getElem?_eq_getElem hl])]
  exact Bool.false_ne_true

/-- The blanks behind a text that ends with none are dropped. -/
theorem trimEnd_append {back : List Char} (hback : ∀ c ∈ back, isBlank c = true)
    (hlast : ∀ c, text.getLast? = some c → isBlank c = false) : trimEnd (text ++ back) = text := by
  have hrev : ∀ c ∈ back.reverse, isBlank c = true := fun c hc => hback c (List.mem_reverse.mp hc)
  rw [trimEnd, List.reverse_append, List.dropWhile_append_of_pos hrev]
  exact trimEnd_eq_self hlast

/-- What a text is without the blanks at its ends is what trimming leaves. -/
theorem Trimmed.trim_eq (h : Trimmed text inner) : trim text = inner := by
  obtain ⟨front, back, rfl, hfront, hback⟩ := h.ends
  by_cases hinner : inner = []
  -- nothing but blanks, of which no part is the text's own
  · subst hinner
    refine trim_eq_nil_of_all fun c hc => ?_
    rw [List.append_nil] at hc
    exact (List.mem_append.mp hc).elim (hfront c) (hback c)
  · have hhead : ∀ c, (inner ++ back).head? = some c → isBlank c = false := fun c hc =>
      h.head c (by rwa [List.head?_append_of_ne_nil _ hinner] at hc)
    rw [trim, List.append_assoc, trimStart_append hfront hhead, trimEnd_append hback h.last]

/-- Trimming leaves the text without the blanks at its ends. -/
theorem trimmed_trim (text : List Char) : Trimmed text (trim text) where
  ends := by
    refine ⟨text.takeWhile isBlank, (trimStart text).rtakeWhile isBlank, ?_,
      fun c => List.mem_takeWhile_imp, fun c => List.mem_rtakeWhile_imp⟩
    change text = text.takeWhile isBlank ++ (trimStart text).rdropWhile isBlank ++ _
    rw [List.append_assoc, List.rdropWhile_append_rtakeWhile, trimStart,
      List.takeWhile_append_dropWhile]
  head := by
    intro c hc
    -- trimming the end does not change the beginning
    obtain ⟨back, hback⟩ := List.rdropWhile_prefix isBlank (trimStart text)
    have hstart : (trimStart text).head? = some c := by
      rw [← hback, List.head?_append]
      exact Option.or_eq_some_iff.mpr (.inl hc)
    have hne : trimStart text ≠ [] := List.ne_nil_of_mem (List.mem_of_head? hstart)
    rw [List.head?_eq_some_head hne, Option.some_inj] at hstart
    rw [← hstart]
    exact List.head_dropWhile_not isBlank hne
  last := by
    intro c hc
    have hne : trim text ≠ [] := List.ne_nil_of_mem (List.mem_of_getLast? hc)
    rw [List.getLast?_eq_some_getLast hne, Option.some_inj] at hc
    rw [← hc]
    exact Bool.eq_false_iff.mpr (List.rdropWhile_last_not isBlank (trimStart text) hne)

/-- A text without the blanks at its ends is one text, which trimming finds. -/
theorem trimmed_iff : Trimmed text inner ↔ inner = trim text :=
  ⟨fun h => h.trim_eq.symm, fun h => h ▸ trimmed_trim text⟩

/-! ## Digits -/

/-- A character is the digit for a value below the base. A letter may be of either case. -/
def IsDigit (base : Nat) (c : Char) (value : Nat) : Prop :=
  value < base ∧ (c = value.digitChar ∨ c = value.digitChar.toUpper)

/-- A letter of upper case is a digit like that of lower case. -/
theorem digit?_toUpper {d : Nat} (hbase : base ≤ 16) (hd : d < base) :
    digit? base d.digitChar.toUpper = some d := by
  have hvalue : ∀ d < 16, digit? 16 d.digitChar.toUpper = some d := by decide
  have hunfiltered := Option.filter_eq_some_iff.mp (hvalue d (by omega))
  exact Option.filter_eq_some_iff.mpr ⟨hunfiltered.1, by simpa using hd⟩

/-- A character that has a value is the digit for it. -/
theorem isDigit_of_digit? {c : Char} {d : Nat} (hbase : base ≤ 16) (h : digit? base c = some d) :
    IsDigit base c d := by
  obtain ⟨hvalue, hd⟩ := Option.filter_eq_some_iff.mp h
  have hd : d < base := by simpa using hd
  have h16 : digit? 16 c = some d := Option.filter_eq_some_iff.mpr ⟨hvalue, by simp; omega⟩
  -- all digits are among the first characters, which are looked at one after the other
  have hascii : ∀ n < 103, ∀ d ∈ digit? 16 (Char.ofNat n),
      Char.ofNat n = d.digitChar ∨ Char.ofNat n = d.digitChar.toUpper := by decide
  have hc : c.toNat < 103 := by have := toNat_of_digit? h; omega
  have hchar := hascii c.toNat hc
  rw [Char.ofNat_toNat] at hchar
  exact ⟨hd, hchar d h16⟩

/-- The value of a character is the one that it is the digit for. -/
theorem digit?_eq_some_iff {c : Char} {d : Nat} (hbase : base ≤ 16) :
    digit? base c = some d ↔ IsDigit base c d := by
  refine ⟨isDigit_of_digit? hbase, ?_⟩
  rintro ⟨hd, rfl | rfl⟩
  · exact digit?_digitChar hbase hd
  · exact digit?_toUpper hbase hd

/-! ## Numerals -/

/-- A text of one or more digits spells the number that they write, the highest place first. -/
def Spells (base : Nat) (text : List Char) (value : Nat) : Prop :=
  ∃ values, values ≠ [] ∧ List.Forall₂ (IsDigit base) text values ∧
    value = Nat.ofDigits base values.reverse

/-- Digits behind others add their value, by induction from the front: what is read counts once
more by the base for each digit behind it. -/
theorem readDigits?_eq_some_iff {acc : Nat} (hbase : base ≤ 16) :
    readDigits? base acc text = some value ↔ ∃ values, List.Forall₂ (IsDigit base) text values ∧
      value = Nat.ofDigits base values.reverse + base ^ values.length * acc := by
  induction text generalizing acc with
  | nil => simp [readDigits?, eq_comm, List.forall₂_nil_left_iff]
  | cons c rest ih =>
    simp only [readDigits?, Option.bind_eq_some_iff, digit?_eq_some_iff hbase, ih]
    have hplace (values : List Nat) (d : Nat) :
        Nat.ofDigits base values.reverse + base ^ values.length * (acc * base + d) =
          Nat.ofDigits base (d :: values).reverse + base ^ (d :: values).length * acc := by
      rw [Nat.ofDigits_reverse_cons, List.length_cons]
      ring
    constructor
    · rintro ⟨d, hd, values, hvalues, rfl⟩
      exact ⟨d :: values, .cons hd hvalues, hplace values d⟩
    · rintro ⟨all, hall, rfl⟩
      cases hall with
      | cons hd hvalues => exact ⟨_, hd, _, hvalues, (hplace _ _).symm⟩

/-- The value of a numeral is the number that it spells. -/
theorem natural?_eq_some_iff (hbase : base ≤ 16) :
    natural? base text = some value ↔ Spells base text value := by
  rw [natural?, Spells]
  cases text with
  | nil => simp [List.forall₂_nil_left_iff]
  | cons c rest =>
    rw [List.isEmpty_cons, if_neg Bool.false_ne_true, readDigits?_eq_some_iff hbase]
    constructor
    · rintro ⟨values, hvalues, rfl⟩
      have hne : values ≠ [] := by
        rintro rfl
        cases hvalues
      exact ⟨values, hne, hvalues, by simp⟩
    · rintro ⟨values, -, hvalues, rfl⟩
      exact ⟨values, hvalues, by simp⟩

/-- A numeral below a limit, with an optional plus sign in front. -/
inductive UnsignedNumeral (base limit : Nat) : List Char → Nat → Prop
  /-- No sign. -/
  | bare (digits : List Char) (value : Nat) (h : Spells base digits value)
    (hvalue : value < limit) : UnsignedNumeral base limit digits value
  /-- A plus sign. -/
  | plus (digits : List Char) (value : Nat) (h : Spells base digits value)
    (hvalue : value < limit) : UnsignedNumeral base limit ('+' :: digits) value

/-- The strict reader reads numerals below the limit with an optional plus sign. -/
theorem unsigned?_eq_some_iff (hbase : base ≤ 16) :
    unsigned? base limit text = some value ↔ UnsignedNumeral base limit text value := by
  rw [unsigned?, Option.filter_eq_some_iff, natural?_eq_some_iff hbase, decide_eq_true_eq]
  constructor
  · rintro ⟨hspells, hvalue⟩
    unfold dropPlus at hspells
    split at hspells
    · exact .plus _ _ hspells hvalue
    · exact .bare _ _ hspells hvalue
  · rintro (⟨_, _, hspells, hvalue⟩ | ⟨_, _, hspells, hvalue⟩)
    · have hhead := head?_of_natural? ((natural?_eq_some_iff hbase).mpr hspells)
      rw [dropPlus_eq_self hhead.1]
      exact ⟨hspells, hvalue⟩
    · exact ⟨hspells, hvalue⟩

/-- A numeral below a limit is below it. -/
theorem UnsignedNumeral.lt (h : UnsignedNumeral base limit text value) : value < limit := by
  cases h <;> assumption

/-- All characters of a numeral, but for the sign in front, are digits. -/
theorem UnsignedNumeral.exists_digit? (hbase : base ≤ 16)
    (h : UnsignedNumeral base limit text value) :
    ∀ c ∈ dropPlus text, ∃ d, digit? base c = some d := by
  rw [← unsigned?_eq_some_iff hbase, unsigned?, Option.filter_eq_some_iff] at h
  exact exists_digit?_of_natural? h.1

/-- A character of a numeral is the sign in front or a digit. -/
theorem UnsignedNumeral.eq_plus_or_exists_digit? (hbase : base ≤ 16)
    (h : UnsignedNumeral base limit text value) :
    ∀ c ∈ text, c = '+' ∨ ∃ d, digit? base c = some d := by
  intro c hc
  have hdigits := h.exists_digit? hbase
  unfold dropPlus at hdigits
  split at hdigits
  · obtain rfl | hc := List.mem_cons.mp hc
    · exact .inl rfl
    · exact .inr (hdigits c hc)
  · exact .inr (hdigits c hc)

/-- A numeral below the limit of words is that of the word. -/
theorem map_unsigned?_eq_some_iff {word : UInt32} (hbase : base ≤ 16) :
    (unsigned? base UInt32.size text).map UInt32.ofNat = some word ↔
      UnsignedNumeral base UInt32.size text word.toNat := by
  rw [← unsigned?_eq_some_iff hbase, Option.map_eq_some_iff]
  constructor
  · rintro ⟨value, hvalue, rfl⟩
    have hlt : value < UInt32.size := by
      simpa using (Option.filter_eq_some_iff.mp hvalue).2
    rw [UInt32.toNat_ofNat_of_lt' hlt, hvalue]
  · intro h
    exact ⟨word.toNat, h, UInt32.ofNat_toNat⟩

/-! ## Hexadecimal numerals and the mark in front -/

/-- A hexadecimal numeral of a word, with an optional mark and an optional plus sign behind it. -/
inductive HexNumeral : List Char → Nat → Prop
  /-- No mark. -/
  | bare (text : List Char) (value : Nat) (h : UnsignedNumeral 16 UInt32.size text value) :
    HexNumeral text value
  /-- A mark of lower case. -/
  | lower (text : List Char) (value : Nat) (h : UnsignedNumeral 16 UInt32.size text value) :
    HexNumeral ('0' :: 'x' :: text) value
  /-- A mark of upper case. -/
  | upper (text : List Char) (value : Nat) (h : UnsignedNumeral 16 UInt32.size text value) :
    HexNumeral ('0' :: 'X' :: text) value

/-- A numeral without a mark does not begin like one, for the letter of the mark is no digit. -/
theorem dropHexMark_of_unsignedNumeral (h : UnsignedNumeral 16 limit text value) :
    dropHexMark text = text := by
  have hdigit := h.exists_digit? (by decide)
  unfold dropHexMark
  split
  · obtain ⟨d, hd⟩ := hdigit 'x' (by simp [dropPlus])
    cases hd
  · obtain ⟨d, hd⟩ := hdigit 'X' (by simp [dropPlus])
    cases hd
  · rfl

/-- A hexadecimal numeral is a numeral behind the mark, if there is one. -/
theorem hexNumeral_iff :
    HexNumeral text value ↔ UnsignedNumeral 16 UInt32.size (dropHexMark text) value := by
  constructor
  · rintro (⟨_, _, h⟩ | ⟨_, _, h⟩ | ⟨_, _, h⟩)
    · rwa [dropHexMark_of_unsignedNumeral h]
    · exact h
    · exact h
  · intro h
    unfold dropHexMark at h
    split at h
    · exact .lower _ _ h
    · exact .upper _ _ h
    · exact .bare _ _ h

/-- The hexadecimal reader reads hexadecimal numerals of words. -/
theorem hexWord?_eq_some_iff {word : UInt32} :
    hexWord? text = some word ↔ HexNumeral (trim text) word.toNat := by
  rw [hexWord?, map_unsigned?_eq_some_iff (by decide), hexNumeral_iff]

/-- A text begins with the mark of hexadecimal numerals. -/
def Marked (text : List Char) : Prop := ['0', 'x'] <+: text ∨ ['0', 'X'] <+: text

/-- Whether a text begins with the mark is what is looked for. -/
theorem hasHexMark_iff : hasHexMark text = true ↔ Marked text := by
  unfold hasHexMark
  split <;> simp_all [Marked, List.cons_prefix_iff]

/-- The numeral of a word in the base that its beginning announces. -/
inductive WordNumeral (text : List Char) (value : Nat) : Prop
  /-- Hexadecimal behind the mark. -/
  | marked (hmark : Marked text) (h : HexNumeral text value)
  /-- Decimal without it. -/
  | decimal (hmark : ¬Marked text) (h : UnsignedNumeral 10 UInt32.size text value)

/-- The reader of both bases reads what the beginning of its text announces. -/
theorem word?_eq_some_iff {word : UInt32} :
    word? text = some word ↔ WordNumeral (trim text) word.toNat := by
  rw [word?]
  by_cases hmark : Marked (trim text)
  · rw [if_pos (hasHexMark_iff.mpr hmark), hexWord?_eq_some_iff]
    exact ⟨.marked hmark, fun h => by cases h with
      | marked _ h => exact h
      | decimal hnot _ => exact absurd hmark hnot⟩
  · rw [if_neg (mt hasHexMark_iff.mp hmark), map_unsigned?_eq_some_iff (by decide)]
    exact ⟨.decimal hmark, fun h => by cases h with
      | marked hyes _ => exact absurd hyes hmark
      | decimal _ h => exact h⟩

/-! ## What the lenient readers take a text for -/

/-- What a text stands for where only digits count. -/
inductive DecimalValue (limit : Nat) (text : List Char) : Nat → Prop
  /-- A number below the limit. -/
  | number (value : Nat) (h : Spells 10 text value) (hvalue : value < limit) :
    DecimalValue limit text value
  /-- Zero for all else. -/
  | nothing (h : ∀ value, Spells 10 text value → limit ≤ value) : DecimalValue limit text 0

/-- A text that stands for a number is read as it. -/
theorem DecimalValue.lenientDecimal_eq (h : DecimalValue limit (trim text) value) :
    lenientDecimal limit text = value := by
  rw [lenientDecimal]
  cases h with
  | number value h hvalue =>
    rw [(natural?_eq_some_iff (by decide)).mpr h, Option.filter_some,
      if_pos (by simpa using hvalue), Option.getD_some]
  | nothing h =>
    cases hread : natural? 10 (trim text) with
    | none => rfl
    | some value =>
      have hle := h value ((natural?_eq_some_iff (by decide)).mp hread)
      rw [Option.filter_some, if_neg (by simpa using hle), Option.getD_none]

/-- A text stands for the number that it is read as. -/
theorem decimalValue_lenientDecimal (limit : Nat) (text : List Char) :
    DecimalValue limit (trim text) (lenientDecimal limit text) := by
  by_cases hnumber : ∃ value, Spells 10 (trim text) value ∧ value < limit
  · obtain ⟨value, hspells, hvalue⟩ := hnumber
    have hread : DecimalValue limit (trim text) value := .number value hspells hvalue
    rwa [hread.lenientDecimal_eq]
  · have hnothing : DecimalValue limit (trim text) 0 :=
      .nothing fun value hspells => Nat.le_of_not_lt fun hlt => hnumber ⟨value, hspells, hlt⟩
    rwa [hnothing.lenientDecimal_eq]

/-- The lenient decimal reader reads a text as what it stands for. -/
theorem lenientDecimal_eq_iff :
    lenientDecimal limit text = value ↔ DecimalValue limit (trim text) value :=
  ⟨fun h => h ▸ decimalValue_lenientDecimal limit text, fun h => h.lenientDecimal_eq⟩

/-- A minus sign with a number behind it that a signed word can be the negative of. -/
def IsNegative (text : List Char) (value : Nat) : Prop :=
  ∃ digits, text = '-' :: digits ∧ Spells 10 digits value ∧ 1 ≤ value ∧ value ≤ UInt32.size / 2

/-- What a text stands for where a sign counts: the number of a word. -/
inductive SignedValue (text : List Char) : Nat → Prop
  /-- A number that a word holds. -/
  | number (value : Nat) (h : UnsignedNumeral 10 UInt32.size text value) : SignedValue text value
  /-- The two's complement of a negative number. -/
  | negative (value : Nat) (h : IsNegative text value) : SignedValue text (UInt32.size - value)
  /-- Zero for all else. -/
  | nothing (hnumber : ∀ value, ¬UnsignedNumeral 10 UInt32.size text value)
    (hnegative : ∀ value, ¬IsNegative text value) : SignedValue text 0

/-- Where a sign counts, a numeral of a word is read as the word. -/
theorem lenientWord_of_unsignedNumeral (h : UnsignedNumeral 10 UInt32.size (trim text) value) :
    (lenientWord text).toNat = value := by
  have hread : unsigned? 10 UInt32.size (trim text) = some value :=
    (unsigned?_eq_some_iff (by decide)).mpr h
  rw [lenientWord, hread]
  exact UInt32.toNat_ofNat_of_lt' h.lt

/-- A text with a minus sign in front is no unsigned numeral. -/
theorem unsigned?_minus : unsigned? 10 limit ('-' :: digits) = none := by
  have hread : natural? 10 ('-' :: digits) = none :=
    Option.eq_none_iff_forall_ne_some.mpr fun value hvalue => (head?_of_natural? hvalue).2 rfl
  rw [unsigned?, dropPlus_eq_self (by simp), hread, Option.filter_none]

/-- Where a sign counts, a negative number is read as its two's complement. -/
theorem lenientWord_of_isNegative (h : IsNegative (trim text) value) :
    (lenientWord text).toNat = UInt32.size - value := by
  obtain ⟨digits, htext, hspells, hpos, hle⟩ := h
  have hsize : UInt32.size = 4294967296 := rfl
  have hread : natural? 10 digits = some value := (natural?_eq_some_iff (by decide)).mpr hspells
  rw [lenientWord, htext, unsigned?_minus]
  simp only [hread]
  rw [if_pos hle, UInt32.toNat_ofNat_of_lt' (by omega)]

/-- A text that stands for a word is read as it. -/
theorem SignedValue.toNat_lenientWord (h : SignedValue (trim text) value) :
    (lenientWord text).toNat = value := by
  cases h with
  | number value h => exact lenientWord_of_unsignedNumeral h
  | negative value h => exact lenientWord_of_isNegative h
  | nothing hnumber hnegative =>
    have hnone : unsigned? 10 UInt32.size (trim text) = none :=
      Option.eq_none_iff_forall_ne_some.mpr fun value hvalue =>
        hnumber value ((unsigned?_eq_some_iff (by decide)).mp hvalue)
    rw [lenientWord, hnone]
    split
    · next hsome => cases hsome
    · next digits _ htext =>
      split
      · next value hread =>
        have hspells : Spells 10 digits value := (natural?_eq_some_iff (by decide)).mp hread
        -- of the numbers that are not too large, only zero is left, and it has no negative
        have hrange : ¬(1 ≤ value ∧ value ≤ UInt32.size / 2) := fun h =>
          hnegative value ⟨digits, htext, hspells, h.1, h.2⟩
        split
        · next hle =>
          have hsize : UInt32.size = 4294967296 := rfl
          obtain rfl : value = 0 := by omega
          rfl
        · rfl
      · rfl
    · rfl

/-- A text stands for the word that it is read as. -/
theorem signedValue_lenientWord (text : List Char) :
    SignedValue (trim text) (lenientWord text).toNat := by
  by_cases hnumber : ∃ value, UnsignedNumeral 10 UInt32.size (trim text) value
  · obtain ⟨value, h⟩ := hnumber
    rw [lenientWord_of_unsignedNumeral h]
    exact .number value h
  by_cases hnegative : ∃ value, IsNegative (trim text) value
  · obtain ⟨value, h⟩ := hnegative
    rw [lenientWord_of_isNegative h]
    exact .negative value h
  · have hnothing : SignedValue (trim text) 0 :=
      .nothing (fun value h => hnumber ⟨value, h⟩) fun value h => hnegative ⟨value, h⟩
    rwa [hnothing.toNat_lenientWord]

/-- The lenient reader of signed numbers reads a text as what it stands for. -/
theorem toNat_lenientWord_eq_iff :
    (lenientWord text).toNat = value ↔ SignedValue (trim text) value :=
  ⟨fun h => h ▸ signedValue_lenientWord text, fun h => h.toNat_lenientWord⟩

/-- Every text is one text when the blanks at its ends are gone. The strict readers read it if it is
a hexadecimal numeral, or one in the base that its beginning announces, of a word, and the lenient
ones read it as what it stands for, with digits alone below any limit, or with a sign as a word. -/
theorem numbers_read (text : List Char) :
    ∃ inner, (∀ other, Trimmed text other ↔ other = inner) ∧
      (∀ word, hexWord? text = some word ↔ HexNumeral inner word.toNat) ∧
      (∀ word, word? text = some word ↔ WordNumeral inner word.toNat) ∧
      (∀ limit value, lenientDecimal limit text = value ↔ DecimalValue limit inner value) ∧
      ∀ value, (lenientWord text).toNat = value ↔ SignedValue inner value :=
  ⟨trim text, fun _ => trimmed_iff, fun _ => hexWord?_eq_some_iff, fun _ => word?_eq_some_iff,
    fun _ _ => lenientDecimal_eq_iff, fun _ => toNat_lenientWord_eq_iff⟩

/-- Zeros in front, both marks, signs and the two ends of the range of signed words. -/
example :
    hexWord? " 0X+00000000fF\n".toList = some 255 ∧ hexWord? "0x".toList = none ∧
      word? "+0x10".toList = none ∧ word? "0000000004294967295".toList = some 0xffffffff ∧
      lenientWord "-2147483648".toList = 0x80000000 ∧ lenientWord "-2147483649".toList = 0 := by
  decide

end ZioControl.Text
