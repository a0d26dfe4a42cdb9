import ZioControl.Proofs.Numerals

/-!
# Taking texts apart

Where two texts that are put together in the same way are equal, their parts are. A numeral in front
ends at the first character that is no digit (`Text.numeral_append_inj`), so it is told apart from
anything that does not begin with one (`Text.Stops`), and a numeral at the end begins behind the
last such character (`Text.append_decimal_inj`). A line feed is found again if the texts behind it
have as many line feeds (`Text.append_feed_inj`).
-/

namespace ZioControl

namespace Text

/-! ## Where a numeral ends -/

/-- A text that does not begin with a digit, so that a numeral in front of it ends there. -/
def Stops (text : String) : Prop := ∀ c ∈ text.toList.head?, digit? 16 c = none

/-- A text that begins with a character other than a digit, so that it parts a numeral in front of
it from whatever is behind it. -/
def Parts (text : String) : Prop := ∃ c ∈ text.toList.head?, digit? 16 c = none

/-- A text that ends with a character other than a digit, so that a numeral behind it begins
there. -/
def PartsBehind (text : String) : Prop := ∃ c ∈ text.toList.getLast?, digit? 16 c = none

instance (text : String) : Decidable (Parts text) :=
  decidable_of_iff (text.toList.head?.any (fun c => (digit? 16 c).isNone) = true)
    (by simp [Parts, Option.any_eq_true])

instance (text : String) : Decidable (PartsBehind text) :=
  decidable_of_iff (text.toList.getLast?.any (fun c => (digit? 16 c).isNone) = true)
    (by simp [PartsBehind, Option.any_eq_true])

variable {base n m : Nat} {x y r s sep : String}

/-- A run of characters of a sort, and what follows the run, are told by the whole. -/
theorem run_append_inj {p : Char → Bool} {xs ys rest others : List Char}
    (hxs : ∀ c ∈ xs, p c = true) (hys : ∀ c ∈ ys, p c = true)
    (hrest : ∀ c ∈ rest.head?, p c = false) (hothers : ∀ c ∈ others.head?, p c = false)
    (h : xs ++ rest = ys ++ others) : xs = ys ∧ rest = others := by
  have hend : ∀ rest : List Char, (∀ c ∈ rest.head?, p c = false) → rest.takeWhile p = [] := by
    intro rest hrest
    cases rest with
    | nil => rfl
    | cons c rest => simp [hrest c rfl]
  have hrun : xs = ys := by
    have htake := congrArg (List.takeWhile p) h
    rwa [List.takeWhile_append_of_pos hxs, List.takeWhile_append_of_pos hys, hend rest hrest,
      hend others hothers, List.append_nil, List.append_nil] at htake
  subst hrun
  exact ⟨rfl, List.append_cancel_left h⟩

/-- The digits of a smaller base are digits. -/
theorem isSome_digit?_of_natural? (hbase : base ≤ 16) {text : List Char}
    (h : natural? base text = some n) : ∀ c ∈ text, (digit? 16 c).isSome = true := by
  intro c hc
  obtain ⟨d, hd⟩ := exists_digit?_of_natural? h c hc
  obtain ⟨hvalue, hlt⟩ := Option.filter_eq_some_iff.mp hd
  have h16 : digit? 16 c = some d := by
    refine Option.filter_eq_some_iff.mpr ⟨hvalue, ?_⟩
    simp only [decide_eq_true_eq] at hlt ⊢
    omega
  rw [h16, Option.isSome_some]

/-- A numeral and what follows it are told by the whole. -/
theorem numeral_append_inj (hbase : base ≤ 16) (hx : natural? base x.toList = some n)
    (hy : natural? base y.toList = some m) (hr : Stops r) (hs : Stops s)
    (h : x ++ r = y ++ s) : n = m ∧ r = s := by
  rw [← String.toList_inj, String.toList_append, String.toList_append] at h
  obtain ⟨hnumeral, hrest⟩ := run_append_inj (isSome_digit?_of_natural? hbase hx)
    (isSome_digit?_of_natural? hbase hy) (fun c hc => by rw [hr c hc]; rfl)
    (fun c hc => by rw [hs c hc]; rfl) h
  rw [hnumeral, hy] at hx
  exact ⟨(Option.some.inj hx).symm, String.toList_inj.mp hrest⟩

/-- What parts a numeral from anything ends it. -/
theorem Parts.stops_append (hsep : Parts sep) : Stops (sep ++ r) := by
  obtain ⟨first, hfirst, hdigit⟩ := hsep
  intro c hc
  rw [String.toList_append, List.head?_append, hfirst] at hc
  obtain rfl : first = c := Option.some.inj hc
  exact hdigit

/-- A numeral ends at a text that parts it from what follows. -/
theorem numeral_sep_inj (hbase : base ≤ 16) (hx : natural? base x.toList = some n)
    (hy : natural? base y.toList = some m) (hsep : Parts sep)
    (h : x ++ (sep ++ r) = y ++ (sep ++ s)) : n = m ∧ r = s := by
  obtain ⟨hvalue, hrest⟩ :=
    numeral_append_inj hbase hx hy hsep.stops_append hsep.stops_append h
  exact ⟨hvalue, (String.append_right_inj sep).mp hrest⟩

/-- A decimal numeral ends at a text that parts it from what follows. -/
theorem decimal_sep_inj (hsep : Parts sep)
    (h : decimal n ++ (sep ++ r) = decimal m ++ (sep ++ s)) : n = m ∧ r = s :=
  numeral_sep_inj (by decide) (natural?_decimal n) (natural?_decimal m) hsep h

/-- A decimal numeral at the end begins behind a text that parts it from what is in front. -/
theorem append_decimal_inj (hsep : PartsBehind sep)
    (h : r ++ sep ++ decimal n = s ++ sep ++ decimal m) : r = s ∧ n = m := by
  have hdigits (k : Nat) : ∀ c ∈ (decimal k).toList.reverse, (digit? 16 c).isSome = true :=
    fun c hc =>
      isSome_digit?_of_natural? (by decide) (natural?_decimal k) c (List.mem_reverse.mp hc)
  obtain ⟨last, hlast, hdigit⟩ := hsep
  have hstops (front : String) :
      ∀ c ∈ (sep.toList.reverse ++ front.toList.reverse).head?, (digit? 16 c).isSome = false := by
    intro c hc
    rw [List.head?_append, List.head?_reverse, hlast] at hc
    obtain rfl : last = c := Option.some.inj hc
    rw [hdigit, Option.isSome_none]
  -- the same as in front, read from the other end
  have hrev : (decimal n).toList.reverse ++ (sep.toList.reverse ++ r.toList.reverse) =
      (decimal m).toList.reverse ++ (sep.toList.reverse ++ s.toList.reverse) := by
    have htexts := congrArg (fun text => text.toList.reverse) h
    simpa only [String.toList_append, List.reverse_append, List.append_assoc] using htexts
  obtain ⟨hnumeral, hrest⟩ := run_append_inj (hdigits n) (hdigits m) (hstops r) (hstops s) hrev
  have hfront : r = s :=
    String.toList_inj.mp (List.reverse_injective (List.append_cancel_left hrest))
  have hvalue := natural?_decimal n
  rw [List.reverse_injective hnumeral, natural?_decimal m] at hvalue
  exact ⟨hfront, (Option.some.inj hvalue).symm⟩

/-! ## Padded numerals -/

/-- Zeros in front of digits have no part in their value. -/
theorem natural?_padLeft (width : Nat) {digits : List Char} (hpos : 0 < base) (hbase : base ≤ 16)
    (h : natural? base digits = some n) :
    natural? base (padLeft width '0' digits) = some n := by
  have hzeros : ∀ k, readDigits? base 0 (List.replicate k '0') = some 0 := by
    intro k
    induction k with
    | zero => rfl
    | succ k ih =>
      have hzero : digit? base '0' = some 0 := digit?_digitChar hbase hpos
      rw [List.replicate_succ, readDigits?, hzero, Option.bind_some]
      simpa using ih
  have hne : digits ≠ [] := by
    rintro rfl
    cases h
  rw [natural?, if_neg (by simpa using hne)] at h
  rw [natural?, padLeft, if_neg (by simp [hne]), readDigits?_append, hzeros, Option.bind_some, h]

/-- A padded decimal numeral has the value of the number. -/
theorem natural?_decimalPadded (width n : Nat) :
    natural? 10 (decimalPadded width n).toList = some n := by
  rw [decimalPadded, String.toList_ofList]
  exact natural?_padLeft width (by decide) (by decide) (natural?_toDigits (by decide) (by decide) n)

/-- A padded hexadecimal numeral has the value of the number. -/
theorem natural?_hexPadded (width n : Nat) :
    natural? 16 (hexPadded width n).toList = some n := by
  rw [hexPadded, String.toList_ofList]
  exact natural?_padLeft width (by decide) (by decide) (natural?_toDigits (by decide) (by decide) n)

/-- The digits of a hexadecimal numeral, which stand behind its mark. -/
theorem exists_hex_eq (n : Nat) :
    ∃ digits, hex n = "0x" ++ digits ∧ natural? 16 digits.toList = some n := by
  refine ⟨String.ofList (Nat.toDigits 16 n), ?_, ?_⟩
  · rw [← String.toList_inj, String.toList_append, hex]
    simp
  · rw [String.toList_ofList]
    exact natural?_toDigits (by decide) (by decide) n

/-- A hexadecimal numeral and what follows it are told by the whole. -/
theorem hex_append_inj (hr : Stops r) (hs : Stops s) (h : hex n ++ r = hex m ++ s) :
    n = m ∧ r = s := by
  obtain ⟨x, hx, hvalue⟩ := exists_hex_eq n
  obtain ⟨y, hy, hother⟩ := exists_hex_eq m
  rw [hx, hy, String.append_assoc, String.append_assoc, String.append_right_inj] at h
  exact numeral_append_inj (by decide) hvalue hother hr hs h

/-- A hexadecimal numeral ends at a text that parts it from what follows. -/
theorem hex_sep_inj (hsep : Parts sep) (h : hex n ++ (sep ++ r) = hex m ++ (sep ++ s)) :
    n = m ∧ r = s := by
  obtain ⟨hvalue, hrest⟩ := hex_append_inj hsep.stops_append hsep.stops_append h
  exact ⟨hvalue, (String.append_right_inj sep).mp hrest⟩

/-! ## Line feeds -/

/-- How many line feeds a text has. -/
def feeds (text : String) : Nat := text.toList.count '\n'

/-- A text has the line feeds of its parts. -/
@[simp]
theorem feeds_append (x y : String) : feeds (x ++ y) = feeds x + feeds y := by
  simp [feeds]

/-- A numeral has no line feed. -/
theorem feeds_of_natural? (hbase : base ≤ 16) (h : natural? base x.toList = some n) :
    feeds x = 0 := by
  refine List.count_eq_zero.mpr fun hmem => ?_
  have hdigit := isSome_digit?_of_natural? hbase h _ hmem
  cases hdigit

/-- A decimal numeral has no line feed. -/
@[simp]
theorem feeds_decimal (n : Nat) : feeds (decimal n) = 0 :=
  feeds_of_natural? (by decide) (natural?_decimal n)

/-- A padded decimal numeral has no line feed. -/
@[simp]
theorem feeds_decimalPadded (width n : Nat) : feeds (decimalPadded width n) = 0 :=
  feeds_of_natural? (by decide) (natural?_decimalPadded width n)

/-- A padded hexadecimal numeral has no line feed. -/
@[simp]
theorem feeds_hexPadded (width n : Nat) : feeds (hexPadded width n) = 0 :=
  feeds_of_natural? (by decide) (natural?_hexPadded width n)

/-- A hexadecimal numeral has no line feed. -/
@[simp]
theorem feeds_hex (n : Nat) : feeds (hex n) = 0 := by
  obtain ⟨digits, hdigits, hvalue⟩ := exists_hex_eq n
  rw [hdigits, feeds_append, feeds_of_natural? (by decide) hvalue]
  rfl

/-- A line feed with some more behind it is none of several with as many behind the last. -/
theorem feed_cons_ne {xs ys middle : List Char} {c : Char}
    (hcount : xs.count '\n' = ys.count '\n') : '\n' :: xs ≠ c :: (middle ++ '\n' :: ys) := by
  intro h
  obtain ⟨-, rfl⟩ := List.cons.inj h
  rw [List.count_append, List.count_cons_self] at hcount
  omega

/-- Where the ends of two texts have as many line feeds, the line feeds in front of the ends are the
same. -/
theorem append_feed_inj (hfeeds : feeds x = feeds y) (h : r ++ ("\n" ++ x) = s ++ ("\n" ++ y)) :
    r = s ∧ x = y := by
  have hlists : r.toList ++ '\n' :: x.toList = s.toList ++ '\n' :: y.toList := by
    have htexts := congrArg String.toList h
    simp only [String.toList_append] at htexts
    exact htexts
  suffices hparts : r.toList = s.toList ∧ x.toList = y.toList from
    ⟨String.toList_inj.mp hparts.1, String.toList_inj.mp hparts.2⟩
  -- else one of the ends would lie within the other one, together with a line feed
  rcases List.append_eq_append_iff.mp hlists with ⟨middle, hfront, hback⟩ | ⟨middle, hfront, hback⟩
  · cases middle with
    | nil => exact ⟨by simpa using hfront.symm, (List.cons.inj hback).2⟩
    | cons c middle => exact absurd hback (feed_cons_ne hfeeds)
  · cases middle with
    | nil => exact ⟨by simpa using hfront, (List.cons.inj hback).2.symm⟩
    | cons c middle => exact absurd hback (feed_cons_ne hfeeds.symm)

end Text

end ZioControl
