import Mathlib.Data.List.TakeWhile
import ZioControl.Text.Blank

/-!
# What the words of a text are

`Text.Spaced` says how a text is made of words: they stand one after the other with blanks between
them, and there may be blanks in front of the first one and behind the last one. Every text is made
of words in one way, and `Text.words` finds it (`Text.spaced_iff`). All that is used of the search
is that a blank parts the words before it from those behind it (`Text.words_append_blank`).
-/

namespace ZioControl.Text

/-- A run of characters that are not blank. -/
structure IsWord (word : List Char) : Prop where
  /-- There is a character. -/
  ne_nil : word ≠ []
  /-- None of them is blank. -/
  not_blank : ∀ c ∈ word, isBlank c = false

instance (word : List Char) : Decidable (IsWord word) :=
  decidable_of_iff (word.isEmpty = false ∧ word.all (!isBlank ·) = true)
    ⟨fun h => ⟨by simpa using h.1, by simpa using h.2⟩,
      fun h => ⟨by simpa using h.ne_nil, by simpa using h.not_blank⟩⟩

/-- A text is made of words. -/
inductive Spaced : List Char → List (List Char) → Prop
  /-- A text of blanks has no word. -/
  | blank (gap : List Char) (hgap : ∀ c ∈ gap, isBlank c = true) : Spaced gap []
  /-- A word ends at a blank or with the text. -/
  | word (gap word rest : List Char) (words : List (List Char))
    (hgap : ∀ c ∈ gap, isBlank c = true) (hword : IsWord word)
    (hend : ∀ c, rest.head? = some c → isBlank c = true) (hrest : Spaced rest words) :
    Spaced (gap ++ word ++ rest) (word :: words)

variable {text gap word rest : List Char} {found : List (List Char)} {c : Char}

/-- A blank parts the words before it from those behind it. -/
theorem words_append_blank (hc : isBlank c = true) (front rest : List Char) :
    words (front ++ c :: rest) = words front ++ words rest := by
  rw [words, List.splitOnP_append_cons front rest hc, List.filter_append, words, words]

/-- The empty text has no word. -/
theorem words_nil : words [] = [] := by
  simp [words]

/-- Blanks in front of a text belong to no word. -/
theorem words_append_of_blank (hgap : ∀ c ∈ gap, isBlank c = true) :
    words (gap ++ rest) = words rest := by
  induction gap with
  | nil => rfl
  | cons c gap ih =>
    obtain ⟨hc, hgap⟩ := List.forall_mem_cons.mp hgap
    have hpart := words_append_blank hc [] (gap ++ rest)
    rw [words_nil] at hpart
    exact hpart.trans (ih hgap)

/-- A text of blanks has no word. -/
theorem words_of_blank (hgap : ∀ c ∈ gap, isBlank c = true) : words gap = [] := by
  have hwords : words (gap ++ []) = words [] := words_append_of_blank hgap
  rwa [List.append_nil, words_nil] at hwords

/-- A word is its only one. -/
theorem words_of_isWord (hword : IsWord word) : words word = [word] := by
  have hempty : word.isEmpty = false := List.isEmpty_eq_false_iff.mpr hword.ne_nil
  rw [words, List.splitOnP_eq_singleton hword.not_blank]
  simp [hempty]

/-- A word that a blank or the end of the text follows is the first one. -/
theorem words_append_of_isWord (hword : IsWord word)
    (hend : ∀ c, rest.head? = some c → isBlank c = true) :
    words (word ++ rest) = word :: words rest := by
  cases rest with
  | nil => rw [List.append_nil, words_of_isWord hword, words_nil]
  | cons c rest =>
    have hc : isBlank c = true := hend c rfl
    have hrest := words_append_blank hc [] rest
    rw [List.nil_append, words_nil, List.nil_append] at hrest
    rw [words_append_blank hc, words_of_isWord hword, hrest, List.singleton_append]

/-- The words that a text is made of are found. -/
theorem Spaced.words_eq (h : Spaced text found) : words text = found := by
  induction h with
  | blank gap hgap => exact words_of_blank hgap
  | word gap word rest found hgap hword hend _ ih =>
    rw [List.append_assoc, words_append_of_blank hgap, words_append_of_isWord hword hend, ih]

/-- A text that has something other than blanks has a first word. -/
theorem exists_first_word (h : ¬∀ c ∈ text, isBlank c = true) :
    ∃ gap word rest, text = gap ++ word ++ rest ∧ (∀ c ∈ gap, isBlank c = true) ∧ IsWord word ∧
      ∀ c, rest.head? = some c → isBlank c = true := by
  have hstart : trimStart text ≠ [] := mt List.dropWhile_eq_nil_iff.mp h
  refine ⟨text.takeWhile isBlank, (trimStart text).takeWhile (!isBlank ·),
    (trimStart text).dropWhile (!isBlank ·), ?_, fun c => List.mem_takeWhile_imp, ⟨?_, ?_⟩, ?_⟩
  · rw [List.append_assoc, List.takeWhile_append_dropWhile, trimStart,
      List.takeWhile_append_dropWhile]
  · have hfirst : isBlank ((trimStart text).head hstart) = false :=
      List.head_dropWhile_not isBlank hstart
    obtain ⟨c, rest, hcons⟩ := List.exists_cons_of_ne_nil hstart
    simp only [hcons, List.head_cons] at hfirst
    simp [hcons, hfirst]
  · intro c hc
    simpa using List.mem_takeWhile_imp hc
  · intro c hc
    have hne := List.ne_nil_of_mem (List.mem_of_head? hc)
    rw [List.head?_eq_some_head hne, Option.some_inj] at hc
    simpa [hc] using List.head_dropWhile_not (!isBlank ·) hne

/-- A text is made of the words that are found, by induction on its length: what follows the first
word is shorter. -/
theorem spaced_words (text : List Char) : Spaced text (words text) := by
  by_cases hblank : ∀ c ∈ text, isBlank c = true
  · rw [words_of_blank hblank]
    exact .blank text hblank
  · obtain ⟨gap, word, rest, htext, hgap, hword, hend⟩ := exists_first_word hblank
    have hshorter : rest.length < text.length := by
      have hpos := List.length_pos_iff.mpr hword.ne_nil
      rw [htext, List.length_append, List.length_append]
      omega
    have hspaced := Spaced.word gap word rest _ hgap hword hend (spaced_words rest)
    rw [← htext] at hspaced
    rwa [hspaced.words_eq]
termination_by text.length

/-- A text is made of words in one way, which is found. -/
theorem spaced_iff : Spaced text found ↔ found = words text :=
  ⟨fun h => h.words_eq.symm, fun h => h ▸ spaced_words text⟩

end ZioControl.Text
