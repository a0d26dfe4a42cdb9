import Mathlib.Data.List.DropRight
import Mathlib.Data.List.TakeWhile
import ZioControl.Text.Numeral

/-!
# Numerals read back

What the writers of numerals write, the lenient readers read: a decimal numeral below the limit
(`lenientDecimal_decimal`, `lenientWord_decimal`) and a hexadecimal numeral of a word
(`lenientHex_hex`). The two decimal readers differ in signs only: on a text without a sign in front
they agree (`lenientWord_eq`).
-/

namespace ZioControl.Text

/-! ## Blanks -/

/-- A text without blanks does not begin with one. -/
theorem dropWhile_isBlank_eq_self {text : List Char} (h : ∀ c ∈ text, isBlank c = false) :
    text.dropWhile isBlank = text := by
  rw [List.dropWhile_eq_self_iff]
  intro hl
  rw [h _ (List.getElem_mem hl)]
  exact Bool.false_ne_true

/-- A text without blanks stays as it is when it is trimmed. -/
theorem trim_eq_self {text : List Char} (h : ∀ c ∈ text, isBlank c = false) : trim text = text := by
  have hrev : ∀ c ∈ text.reverse, isBlank c = false := fun c hc => h c (List.mem_reverse.mp hc)
  rw [trim, trimStart, dropWhile_isBlank_eq_self h, trimEnd, dropWhile_isBlank_eq_self hrev,
    List.reverse_reverse]

/-- A text that does not end with a blank stays as it is when its end is trimmed. -/
theorem trimEnd_eq_self {text : List Char}
    (h : ∀ c, text.getLast? = some c → isBlank c = false) : trimEnd text = text := by
  change text.rdropWhile isBlank = text
  rw [List.rdropWhile_eq_self_iff]
  intro hne
  rw [h _ (List.getLast?_eq_some_getLast hne)]
  exact Bool.false_ne_true

/-! ## Digits -/

/-- Where the digits of all bases are among the characters. -/
theorem toNat_of_digit? {base d : Nat} {c : Char} (h : digit? base c = some d) :
    48 ≤ c.toNat ∧ c.toNat ≤ 57 ∨ 97 ≤ c.toNat ∧ c.toNat ≤ 102 ∨ 65 ≤ c.toNat ∧ c.toNat ≤ 70 := by
  have hvalue := (Option.filter_eq_some_iff.mp h).1
  split at hvalue
  · next hc => exact .inl hc
  · split at hvalue
    · next hc => exact .inr (.inl hc)
    · split at hvalue
      · next hc => exact .inr (.inr hc)
      · cases hvalue

/-- No digit is blank. -/
theorem isBlank_of_digit? {base d : Nat} {c : Char} (h : digit? base c = some d) :
    isBlank c = false := by
  have hc := toNat_of_digit? h
  simp only [isBlank, Bool.or_eq_false_iff, Bool.and_eq_false_iff, decide_eq_false_iff_not,
    beq_eq_false_iff_ne]
  omega

/-- A decimal digit is a digit. -/
theorem exists_digit?_of_isDigit {c : Char} (h : c.isDigit = true) :
    ∃ d, digit? 10 c = some d := by
  have hc : '0' ≤ c ∧ c ≤ '9' := by
    simpa [Char.isDigit, Char.le_def] using h
  have hle : c.toNat ≤ 57 := hc.2
  refine ⟨c.toNat - 48, Option.filter_eq_some_iff.mpr ⟨if_pos hc, ?_⟩⟩
  simp only [decide_eq_true_eq]
  omega

/-- The digits of a base up to sixteen are read back. -/
theorem digit?_digitChar {base d : Nat} (hbase : base ≤ 16) (hd : d < base) :
    digit? base d.digitChar = some d := by
  have hvalue : ∀ d < 16, digit? 16 d.digitChar = some d := by decide
  have hunfiltered := Option.filter_eq_some_iff.mp (hvalue d (by omega))
  exact Option.filter_eq_some_iff.mpr ⟨hunfiltered.1, by simpa using hd⟩

/-! ## Numerals -/

/-- Digits are read from the left, each part with the value of what stands before it. -/
theorem readDigits?_append (base acc : Nat) (xs ys : List Char) :
    readDigits? base acc (xs ++ ys) =
      (readDigits? base acc xs).bind fun v => readDigits? base v ys := by
  induction xs generalizing acc with
  | nil => rfl
  | cons c rest ih =>
    simp only [List.cons_append, readDigits?]
    cases digit? base c with
    | none => rfl
    | some d => exact ih _

/-- Digits have a value exactly when each of them has one. -/
theorem exists_readDigits?_iff (base acc : Nat) (text : List Char) :
    (∃ v, readDigits? base acc text = some v) ↔ ∀ c ∈ text, ∃ d, digit? base c = some d := by
  induction text generalizing acc with
  | nil => simp [readDigits?]
  | cons c rest ih =>
    rw [readDigits?, List.forall_mem_cons]
    cases digit? base c with
    | none => simp
    | some d => simp [ih]

/-- The numeral of a number is read back. -/
theorem readDigits?_toDigits {base : Nat} (hbase : 1 < base) (h16 : base ≤ 16) (n : Nat) :
    readDigits? base 0 (Nat.toDigits base n) = some n := by
  induction n using Nat.strongRecOn with
  | ind n ih =>
    rw [Nat.toDigits_eq_if hbase]
    split
    · next hn => simp [readDigits?, digit?_digitChar h16 hn]
    · next hn =>
      -- all digits but the last are the numeral of the quotient
      have hquotient := ih (n / base) (Nat.div_lt_self (by omega) hbase)
      have hlast := digit?_digitChar h16 (Nat.mod_lt n (by omega : 0 < base))
      rw [readDigits?_append, hquotient, Option.bind_some, readDigits?, hlast, Option.bind_some,
        readDigits?, Nat.mul_comm, Nat.div_add_mod]

/-- The numeral of a number has a value, which is the number. -/
theorem natural?_toDigits {base : Nat} (hbase : 1 < base) (h16 : base ≤ 16) (n : Nat) :
    natural? base (Nat.toDigits base n) = some n := by
  rw [natural?, if_neg (by simp [Nat.toDigits_ne_nil]), readDigits?_toDigits hbase h16]

/-- All characters of a numeral are digits. -/
theorem exists_digit?_of_natural? {base v : Nat} {text : List Char}
    (h : natural? base text = some v) : ∀ c ∈ text, ∃ d, digit? base c = some d := by
  rw [natural?] at h
  split at h
  · cases h
  · exact (exists_readDigits?_iff base 0 text).mp ⟨v, h⟩

/-- A numeral has no blanks to trim. -/
theorem trim_of_natural? {base v : Nat} {text : List Char} (h : natural? base text = some v) :
    trim text = text := by
  apply trim_eq_self
  intro c hc
  obtain ⟨d, hd⟩ := exists_digit?_of_natural? h c hc
  exact isBlank_of_digit? hd

/-- A text that does not begin with a plus sign keeps its beginning. -/
theorem dropPlus_eq_self {text : List Char} (h : text.head? ≠ some '+') : dropPlus text = text := by
  unfold dropPlus
  split
  · simp at h
  · rfl

/-- A numeral does not begin with a sign. -/
theorem head?_of_natural? {base v : Nat} {text : List Char} (h : natural? base text = some v) :
    text.head? ≠ some '+' ∧ text.head? ≠ some '-' := by
  have hdigit : ∀ c, text.head? = some c → ∃ d, digit? base c = some d := fun c hc =>
    exists_digit?_of_natural? h c (List.mem_of_head? hc)
  constructor
  · intro hc
    obtain ⟨d, hd⟩ := hdigit '+' hc
    have := toNat_of_digit? hd
    simp at this
  · intro hc
    obtain ⟨d, hd⟩ := hdigit '-' hc
    have := toNat_of_digit? hd
    simp at this

/-- A numeral below the limit is read without regard to signs. -/
theorem unsigned?_of_natural? {base limit v : Nat} {text : List Char}
    (h : natural? base text = some v) (hv : v < limit) : unsigned? base limit text = some v := by
  rw [unsigned?, dropPlus_eq_self (head?_of_natural? h).1, h]
  simp [hv]

/-! ## The lenient readers -/

/-- On a text without a sign in front the two decimal readers agree. -/
theorem lenientWord_eq {text : List Char} (hplus : (trim text).head? ≠ some '+')
    (hminus : (trim text).head? ≠ some '-') :
    lenientWord text = UInt32.ofNat (lenientDecimal UInt32.size text) := by
  unfold lenientWord lenientDecimal unsigned?
  rw [dropPlus_eq_self hplus]
  cases hv : (natural? 10 (trim text)).filter (· < UInt32.size) with
  | some v => rfl
  | none =>
    split
    · next h => cases h
    · next hhead => simp [hhead] at hminus
    · rfl

/-- A number that is zero unless it is below the limit is below it. -/
theorem getD_filter_lt {limit : Nat} (h : 0 < limit) (number : Option Nat) :
    (number.filter (· < limit)).getD 0 < limit := by
  cases hv : number.filter (· < limit) with
  | none => exact h
  | some v => simpa using (Option.filter_eq_some_iff.mp hv).2

/-- The lenient decimal reader stays below its limit. -/
theorem lenientDecimal_lt {limit : Nat} (h : 0 < limit) (text : List Char) :
    lenientDecimal limit text < limit :=
  getD_filter_lt h (natural? 10 (trim text))

/-- A number that is not between two limits reads the same below either. -/
theorem lenientDecimal_eq_of_fits {text : List Char} {low high : Nat} (hle : low ≤ high)
    (h : ∀ v, natural? 10 (trim text) = some v → ¬(low ≤ v ∧ v < high)) :
    lenientDecimal high text = lenientDecimal low text := by
  rw [lenientDecimal, lenientDecimal]
  cases hv : natural? 10 (trim text) with
  | none => rfl
  | some v =>
    have hout := h v hv
    have hsame : v < high ↔ v < low := by omega
    simp only [Option.filter_some, hsame]

/-- The decimal reader reads a numeral below the limit as its value. -/
theorem lenientDecimal_of_natural? {limit v : Nat} {text : List Char}
    (h : natural? 10 text = some v) (hv : v < limit) : lenientDecimal limit text = v := by
  rw [lenientDecimal, trim_of_natural? h, h, Option.filter_some, if_pos (by simpa using hv),
    Option.getD_some]

/-- A numeral reads the same whether or not a sign counts. -/
theorem lenientWord_of_natural? {v : Nat} {text : List Char} (h : natural? 10 text = some v) :
    lenientWord text = UInt32.ofNat (lenientDecimal UInt32.size text) := by
  have hhead := head?_of_natural? h
  rw [← trim_of_natural? h] at hhead
  exact lenientWord_eq hhead.1 hhead.2

/-- The decimal numeral of a number has that number as its value. -/
theorem natural?_decimal (n : Nat) : natural? 10 (decimal n).toList = some n := by
  rw [decimal, String.toList_ofList]
  exact natural?_toDigits (by decide) (by decide) n

/-- A decimal numeral below the limit is read back. -/
theorem lenientDecimal_decimal {limit n : Nat} (h : n < limit) :
    lenientDecimal limit (decimal n).toList = n :=
  lenientDecimal_of_natural? (natural?_decimal n) h

/-- The decimal numeral of a byte is read back. -/
theorem lenientDecimal_uint8 (n : UInt8) :
    UInt8.ofNat (lenientDecimal UInt8.size (decimal n.toNat).toList) = n := by
  rw [lenientDecimal_decimal n.toNat_lt, UInt8.ofNat_toNat]

/-- The decimal numeral of a short word is read back. -/
theorem lenientDecimal_uint16 (n : UInt16) :
    UInt16.ofNat (lenientDecimal UInt16.size (decimal n.toNat).toList) = n := by
  rw [lenientDecimal_decimal n.toNat_lt, UInt16.ofNat_toNat]

/-- The decimal numeral of a word is read back. -/
theorem lenientDecimal_uint32 (n : UInt32) :
    UInt32.ofNat (lenientDecimal UInt32.size (decimal n.toNat).toList) = n := by
  rw [lenientDecimal_decimal n.toNat_lt, UInt32.ofNat_toNat]

/-- The decimal numeral of a long word is read back. -/
theorem lenientDecimal_uint64 (n : UInt64) :
    UInt64.ofNat (lenientDecimal UInt64.size (decimal n.toNat).toList) = n := by
  rw [lenientDecimal_decimal n.toNat_lt, UInt64.ofNat_toNat]

/-- The decimal numeral of a word is read back where a sign counts. -/
theorem lenientWord_decimal (v : UInt32) : lenientWord (decimal v.toNat).toList = v := by
  rw [lenientWord_of_natural? (natural?_decimal v.toNat), lenientDecimal_decimal v.toNat_lt,
    UInt32.ofNat_toNat]

/-- The hexadecimal numeral of a word is read back. -/
theorem lenientHex_hex (v : UInt32) : lenientHex (hex v.toNat).toList = v := by
  have hnatural : natural? 16 (Nat.toDigits 16 v.toNat) = some v.toNat :=
    natural?_toDigits (by decide) (by decide) v.toNat
  have hblank : ∀ c ∈ '0' :: 'x' :: Nat.toDigits 16 v.toNat, isBlank c = false := by
    intro c hc
    rcases List.mem_cons.mp hc with rfl | hc
    · decide
    rcases List.mem_cons.mp hc with rfl | hc
    · decide
    obtain ⟨d, hd⟩ := exists_digit?_of_natural? hnatural c hc
    exact isBlank_of_digit? hd
  rw [hex, String.toList_ofList, lenientHex, hexWord?, trim_eq_self hblank, dropHexMark,
    unsigned?_of_natural? hnatural v.toNat_lt]
  simp

/-- A text of decimal digits reads the same whether or not a sign counts. -/
theorem lenientWord_of_isDigits {text : List Char} (h : isDigits text = true) :
    lenientWord text = UInt32.ofNat (lenientDecimal UInt32.size text) := by
  obtain ⟨hne, hall⟩ := Bool.and_eq_true_iff.mp h
  have hdigit : ∀ c ∈ text, ∃ d, digit? 10 c = some d := fun c hc =>
    exists_digit?_of_isDigit (List.all_eq_true.mp hall c hc)
  obtain ⟨v, hv⟩ := (exists_readDigits?_iff 10 0 text).mpr hdigit
  have hnatural : natural? 10 text = some v := by
    rw [natural?, if_neg (by simpa using hne), hv]
  exact lenientWord_of_natural? hnatural

end ZioControl.Text
