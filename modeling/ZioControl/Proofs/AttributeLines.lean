import ZioControl.Description
import ZioControl.Proofs.Languages
import ZioControl.Proofs.Spaced

/-!
# Lines that describe an attribute

A line describes an attribute by four words: its path, its kind, its number and its mode
(`Descriptor.Says`). What a line is read as is told by its words alone (`Descriptor.Reads`): there
may be too few of them, the third may be no number or the fourth none, which is looked at in this
order, and words behind the fourth do not count. The main theorem is `Descriptor.parseLine_reads`.
-/

namespace ZioControl

namespace Text

variable {gap word rest : List Char} {base limit value : Nat}

/-- The text of words, each with a gap in front, and of what is behind them. -/
def spread : List (List Char × List Char) → List Char → List Char
  | [], rest => rest
  | (gap, word) :: more, rest => gap ++ word ++ spread more rest

/-- Blanks, and one at least. -/
structure IsGap (gap : List Char) : Prop where
  /-- There is a blank. -/
  ne_nil : gap ≠ []
  /-- There is nothing else. -/
  blank : ∀ c ∈ gap, isBlank c = true

instance (gap : List Char) : Decidable (IsGap gap) :=
  decidable_of_iff (gap.isEmpty = false ∧ gap.all isBlank = true)
    ⟨fun h => ⟨by simpa using h.1, by simpa using h.2⟩,
      fun h => ⟨by simpa using h.ne_nil, by simpa using h.blank⟩⟩

/-- Words behind gaps are words of the text, which go on with those of the rest. -/
theorem spaced_spread {more : List (List Char × List Char)} {others : List (List Char)}
    (hgap : ∀ c ∈ gap, isBlank c = true) (hword : IsWord word)
    (hmore : ∀ next ∈ more, IsGap next.1 ∧ IsWord next.2)
    (hend : ∀ c, rest.head? = some c → isBlank c = true) (hrest : Spaced rest others) :
    Spaced (spread ((gap, word) :: more) rest) (word :: more.map Prod.snd ++ others) := by
  induction more generalizing gap word with
  | nil => exact .word gap word rest others hgap hword hend hrest
  | cons next more ih =>
    obtain ⟨⟨hnextGap, hnextWord⟩, hmore⟩ := List.forall_mem_cons.mp hmore
    have hnext := ih hnextGap.blank hnextWord hmore
    refine .word gap word _ _ hgap hword (fun c hc => ?_) hnext
    -- what follows the word is the next gap, which holds a blank
    rw [spread, List.append_assoc, List.head?_append_of_ne_nil _ hnextGap.ne_nil] at hc
    exact hnextGap.blank c (List.mem_of_head? hc)

/-- A numeral is a word. -/
theorem UnsignedNumeral.isWord (hbase : base ≤ 16) (h : UnsignedNumeral base limit word value) :
    IsWord word := by
  constructor
  · rintro rfl
    cases h with
    | bare _ _ hspells =>
      obtain ⟨values, hne, hvalues, -⟩ := hspells
      exact hne (List.forall₂_nil_left_iff.mp hvalues)
  · intro c hc
    obtain rfl | ⟨d, hd⟩ := h.eq_plus_or_exists_digit? hbase c hc
    · decide
    · exact isBlank_of_digit? hd

end Text

namespace Descriptor

/-- Two sets of permission bits have one in common. -/
def Meets (mode bits : Nat) : Prop := ∃ i, mode.testBit i = true ∧ bits.testBit i = true

/-- What a path, a kind, a number and a mode say of an attribute. -/
structure Says (d : Descriptor) (path kind : List Char) (index mode : Nat) : Prop where
  /-- The path is the first word. -/
  path : d.path.toList = path
  /-- The path is that of the directory and the name behind it. -/
  split : d.directory ++ d.name = d.path
  /-- The name is a single step of the path. -/
  name : '/' ∉ d.name.toList
  /-- The directory is none, or it ends where the name begins. -/
  directory : d.directory = "" ∨ d.directory.toList.getLast? = some '/'
  /-- One word stands for attributes of a device's own, and all others for standard ones. -/
  kind : d.kind = .extended ↔ kind = ['e']
  /-- The number is that of the slot. -/
  index : d.index = index
  /-- The attribute may be written if the mode lets its owner, its group or others write. -/
  writable : d.isWritable = true ↔ Meets mode 0o222
  /-- The attribute may be read if the mode lets its owner, its group or others read. -/
  readable : d.isReadable = true ↔ Meets mode 0o444

/-- What the words of a line are read as. -/
inductive Reads (line : String) : List (List Char) → Except Error Descriptor → Prop
  /-- Four words, and those behind them do not count. -/
  | described (path kind index mode : List Char) (more : List (List Char)) (i m : Nat)
    (d : Descriptor) (hindex : Text.UnsignedNumeral 10 UInt64.size index i)
    (hmode : Text.UnsignedNumeral 10 UInt32.size mode m) (hd : d.Says path kind i m) :
    Reads line (path :: kind :: index :: mode :: more) (.ok d)
  /-- Too few words. -/
  | fields (words : List (List Char)) (h : words.length < 4) :
    Reads line words (.error (.badLine line .fields))
  /-- The third word is no number, whatever the fourth is. -/
  | index (path kind index mode : List Char) (more : List (List Char))
    (hindex : ∀ i, ¬Text.UnsignedNumeral 10 UInt64.size index i) :
    Reads line (path :: kind :: index :: mode :: more) (.error (.badLine line .index))
  /-- The fourth word is no number. -/
  | mode (path kind index mode : List Char) (more : List (List Char)) (i : Nat)
    (hindex : Text.UnsignedNumeral 10 UInt64.size index i)
    (hmode : ∀ m, ¬Text.UnsignedNumeral 10 UInt32.size mode m) :
    Reads line (path :: kind :: index :: mode :: more) (.error (.badLine line .mode))

variable {d other : Descriptor} {path kind : List Char} {index mode : Nat} {line : String}
  {words : List (List Char)} {result : Except Error Descriptor}

/-! ## What a descriptor says -/

/-- A path is its directory and its name. -/
theorem directory_append_name (d : Descriptor) : d.directory ++ d.name = d.path := by
  rw [← String.toList_inj, String.toList_append, directory, name, String.toList_ofList,
    String.toList_ofList, ← List.reverse_append, List.takeWhile_append_dropWhile,
    List.reverse_reverse]

/-- A name is a single step of a path. -/
theorem slash_notMem_name (d : Descriptor) : '/' ∉ d.name.toList := by
  intro hmem
  rw [name, String.toList_ofList, List.mem_reverse] at hmem
  simpa using List.mem_takeWhile_imp hmem

/-- A directory ends with a slash, if there is one. -/
theorem directory_eq_or (d : Descriptor) :
    d.directory = "" ∨ d.directory.toList.getLast? = some '/' := by
  rw [directory, String.toList_ofList, List.getLast?_reverse]
  cases hrest : d.path.toList.reverse.dropWhile (· ≠ '/') with
  | nil => exact .inl rfl
  | cons c rest =>
    have hc := List.head_dropWhile_not (fun c => decide (c ≠ '/')) (l := d.path.toList.reverse)
      (by rw [hrest]; exact List.cons_ne_nil _ _)
    simp only [hrest, List.head_cons, decide_eq_false_iff_not, not_not] at hc
    exact .inr (by rw [List.head?_cons, hc])

/-- Permissions meet a mode exactly if their intersection is not empty. -/
theorem meets_iff (mode bits : Nat) : Meets mode bits ↔ mode &&& bits ≠ 0 := by
  rw [Meets, ← not_iff_not, not_not]
  constructor
  · intro h
    apply Nat.eq_of_testBit_eq
    intro i
    have hi := fun hboth => h ⟨i, hboth⟩
    rw [Nat.testBit_and, Nat.zero_testBit]
    simpa using hi
  · rintro h ⟨i, hmode, hbits⟩
    have hi := Nat.testBit_and mode bits i
    rw [h, hmode, hbits, Nat.zero_testBit] at hi
    cases hi

/-- Words say one thing of an attribute. -/
theorem Says.unique (h : d.Says path kind index mode) (hother : other.Says path kind index mode) :
    d = other := by
  have hpath : d.path = other.path := String.toList_inj.mp (h.path.trans hother.path.symm)
  have hindex : d.index = other.index := h.index.trans hother.index.symm
  have hwritable : d.isWritable = other.isWritable :=
    Bool.eq_iff_iff.mpr (h.writable.trans hother.writable.symm)
  have hreadable : d.isReadable = other.isReadable :=
    Bool.eq_iff_iff.mpr (h.readable.trans hother.readable.symm)
  have hkind : d.kind = other.kind := by
    have hiff := h.kind.trans hother.kind.symm
    cases hd : d.kind <;> cases ho : other.kind <;> simp_all
  cases d
  cases other
  simp_all

/-! ## What a line is read as -/

/-- What four words say is read of them. -/
theorem ofWords_of_numerals (path kind : List Char) {indexWord modeWord : List Char}
    (more : List (List Char))
    (hindex : Text.UnsignedNumeral 10 UInt64.size indexWord index)
    (hmode : Text.UnsignedNumeral 10 UInt32.size modeWord mode) :
    ∃ d, ofWords (path :: kind :: indexWord :: modeWord :: more) = .ok d ∧
      d.Says path kind index mode := by
  rw [← Text.unsigned?_eq_some_iff (by decide)] at hindex hmode
  refine ⟨_, by rw [ofWords, hindex, hmode], ?_⟩
  exact {
    path := String.toList_ofList
    split := directory_append_name _
    name := slash_notMem_name _
    directory := directory_eq_or _
    kind := by by_cases hkind : kind = ['e'] <;> simp [hkind]
    index := rfl
    writable := decide_eq_true_iff.trans (meets_iff mode writeBits).symm
    readable := decide_eq_true_iff.trans (meets_iff mode readBits).symm }

/-- What the words of a line are read as is what the line is. -/
theorem Reads.parseLine_eq (h : Reads line (Text.words line.toList) result) :
    parseLine line = result := by
  generalize hwords : Text.words line.toList = words at h
  rw [parseLine, hwords]
  cases h with
  | described path kind index mode more i m d hindex hmode hd =>
    obtain ⟨found, hfound, hsays⟩ := ofWords_of_numerals path kind more hindex hmode
    rw [hfound, hsays.unique hd]
  | fields words h =>
    match words, h with
    | [], _ | [_], _ | [_, _], _ | [_, _, _], _ => rfl
  | index path kind index mode more hindex =>
    have hnone : Text.unsigned? 10 UInt64.size index = none :=
      Option.eq_none_iff_forall_ne_some.mpr fun i hi =>
        hindex i ((Text.unsigned?_eq_some_iff (by decide)).mp hi)
    rw [ofWords, hnone]
  | mode path kind index mode more i hindex hmode =>
    have hnone : Text.unsigned? 10 UInt32.size mode = none :=
      Option.eq_none_iff_forall_ne_some.mpr fun m hm =>
        hmode m ((Text.unsigned?_eq_some_iff (by decide)).mp hm)
    rw [ofWords, (Text.unsigned?_eq_some_iff (by decide)).mpr hindex, hnone]

/-- Words are read as something. -/
theorem exists_reads (line : String) (words : List (List Char)) :
    ∃ result, Reads line words result := by
  match words with
  | path :: kind :: index :: mode :: more =>
    by_cases hindex : ∃ i, Text.UnsignedNumeral 10 UInt64.size index i
    · obtain ⟨i, hi⟩ := hindex
      by_cases hmode : ∃ m, Text.UnsignedNumeral 10 UInt32.size mode m
      · obtain ⟨m, hm⟩ := hmode
        obtain ⟨d, -, hd⟩ := ofWords_of_numerals path kind more hi hm
        exact ⟨_, .described _ _ _ _ _ i m d hi hm hd⟩
      · exact ⟨_, .mode _ _ _ _ _ i hi (not_exists.mp hmode)⟩
    · exact ⟨_, .index _ _ _ _ _ (not_exists.mp hindex)⟩
  | [] | [_] | [_, _] | [_, _, _] => exact ⟨_, .fields _ (by simp)⟩

/-- A line is read as what its words are. -/
theorem reads_iff : Reads line (Text.words line.toList) result ↔ parseLine line = result := by
  refine ⟨Reads.parseLine_eq, ?_⟩
  rintro rfl
  obtain ⟨result, h⟩ := exists_reads line (Text.words line.toList)
  rwa [h.parseLine_eq]

/-- Every line is made of words in one way. It describes an attribute exactly if it has four words
or more of which the third and the fourth are numbers that fit, and then the attribute is the one
that the first four say; else the error has the line as it is, and the first reason of these: too
few words, the number, the mode. So four words describe the same attribute in every line that begins
with them, whatever the blanks around and between them are and whatever follows. -/
theorem parseLine_reads :
    (∀ line : String, ∃ words, (∀ other, Text.Spaced line.toList other ↔ other = words) ∧
      ∀ result, Reads line words result ↔ parseLine line = result) ∧
    ∀ path kind index mode i m, Text.IsWord path → Text.IsWord kind →
      Text.UnsignedNumeral 10 UInt64.size index i → Text.UnsignedNumeral 10 UInt32.size mode m →
      ∃ d : Descriptor, d.Says path kind i m ∧
        ∀ front gap₁ gap₂ gap₃ rest, (∀ c ∈ front, Text.isBlank c = true) →
          (∀ gap ∈ [gap₁, gap₂, gap₃], Text.IsGap gap) →
          (∀ c, rest.head? = some c → Text.isBlank c = true) →
          parseLine (String.ofList (Text.spread
            [(front, path), (gap₁, kind), (gap₂, index), (gap₃, mode)] rest)) = .ok d := by
  refine ⟨fun line => ⟨_, fun _ => Text.spaced_iff, fun _ => reads_iff⟩, ?_⟩
  intro path kind index mode i m hpath hkind hindex hmode
  obtain ⟨d, -, hd⟩ := ofWords_of_numerals path kind [] hindex hmode
  refine ⟨d, hd, fun front gap₁ gap₂ gap₃ rest hfront hgaps hend => ?_⟩
  obtain ⟨hgap₁, hgap₂, hgap₃⟩ : Text.IsGap gap₁ ∧ Text.IsGap gap₂ ∧ Text.IsGap gap₃ := by
    simpa using hgaps
  have hmore : ∀ next ∈ [(gap₁, kind), (gap₂, index), (gap₃, mode)],
      Text.IsGap next.1 ∧ Text.IsWord next.2 := by
    rw [List.forall_mem_cons, List.forall_mem_cons, List.forall_mem_singleton]
    exact ⟨⟨hgap₁, hkind⟩, ⟨hgap₂, hindex.isWord (by decide)⟩, hgap₃, hmode.isWord (by decide)⟩
  have hspaced := Text.spaced_spread hfront hpath hmore hend (Text.spaced_words rest)
  rw [← reads_iff, String.toList_ofList, hspaced.words_eq]
  exact .described path kind index mode _ i m d hindex hmode hd

/-- Numbers with a plus sign and zeros in front, a path that ends with a slash, several kinds of
blanks, and words that do not count. -/
theorem parseLine_reads_slash :
    ∃ d : Descriptor, d.Says "a//trigger/".toList "E".toList 7 420 ∧ d.name = "" ∧
      parseLine "\u2003a//trigger/\tE \u00a0+007 00420 e 1" = .ok d := by
  obtain ⟨d, hd, hline⟩ := parseLine_reads.2 "a//trigger/".toList "E".toList "+007".toList
    "00420".toList 7 420 (by decide) (by decide)
    ((Text.unsigned?_eq_some_iff (by decide)).mp (by decide))
    ((Text.unsigned?_eq_some_iff (by decide)).mp (by decide))
  have hpath : d.path = "a//trigger/" := String.toList_inj.mp hd.path
  have hname : d.name = "" := by
    rw [name, hpath]
    decide
  have htext : "\u2003a//trigger/\tE \u00a0+007 00420 e 1" = String.ofList (Text.spread
      [("\u2003".toList, "a//trigger/".toList), ("\t".toList, "E".toList),
        (" \u00a0".toList, "+007".toList), (" ".toList, "00420".toList)] " e 1".toList) := by
    decide
  have hgaps : ∀ gap ∈ ["\t".toList, " \u00a0".toList, " ".toList], Text.IsGap gap := by
    rw [List.forall_mem_cons, List.forall_mem_cons, List.forall_mem_singleton]
    decide
  rw [htext]
  exact ⟨d, hd, hname, hline _ _ _ _ _ (List.all_eq_true.mp (by decide)) hgaps
    ((Option.all_eq_true _ _).mp (by decide))⟩

end Descriptor

end ZioControl
