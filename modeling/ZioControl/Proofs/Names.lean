import ZioControl.Codec
import ZioControl.Proofs.Utf8

/-!
# Names in their fields

A name and the twelve bytes that hold it. A name that fits its field (`Name.Fits`) is read back as
it was (`Name.ofBytes_toBytes`). What is read from any field fits (`Name.fits_ofBytes`), and written
again it is the field's normal form (`Name.toBytes_ofBytes`).
-/

namespace ZioControl

namespace Utf8

/-- The bytes of a text that ends with a character end with those of the character. -/
theorem encode_concat (text : List Char) (c : Char) :
    encode (text ++ [c]) = encode text ++ String.utf8EncodeChar c := by
  rw [encode, List.flatMap_append, List.flatMap_singleton, encode]

/-- The bytes of a text are as many as its size says. -/
theorem length_encode (name : String) : (encode name.toList).length = name.utf8ByteSize := by
  conv_rhs => rw [← String.ofList_toList (s := name)]
  rw [← String.size_toByteArray, String.toByteArray_ofList, List.utf8Encode,
    List.size_toByteArray, encode]

/-- An ASCII byte stands among those of a text where the text has that character. -/
theorem mem_encode_iff (text : List Char) {d : Char} (hd : d.toNat < 0x80) :
    UInt8.ofNat d.toNat ∈ encode text ↔ d ∈ text := by
  simp only [encode, List.mem_flatMap, mem_utf8EncodeChar_iff hd, exists_eq_right]

/-- The bytes of a text end with an ASCII byte exactly when the text ends with that character. -/
theorem getLast?_encode_iff (text : List Char) {d : Char} (hd : d.toNat < 0x80) :
    (encode text).getLast? = some (UInt8.ofNat d.toNat) ↔ text.getLast? = some d := by
  rcases List.eq_nil_or_concat' text with rfl | ⟨front, c, rfl⟩
  · simp [encode]
  · rw [encode_concat, List.getLast?_append_of_ne_nil _ String.utf8EncodeChar_ne_nil,
      List.getLast?_concat, Option.some_inj]
    constructor
    · intro h
      exact (mem_utf8EncodeChar_iff hd).1 (List.mem_of_getLast? h)
    · rintro rfl
      have hb : (UInt8.ofNat c.toNat).toNat < 0x80 := by
        rw [UInt8.toNat_ofNat']
        omega
      rw [(toNat_eq_of_mem ((mem_utf8EncodeChar_iff hd).2 rfl) hb).1]
      rfl

/-- Spaces at the end of a text are those at the end of its bytes. -/
theorem encode_rdropWhile (text : List Char) :
    encode (text.rdropWhile (· = ' ')) = (encode text).rdropWhile (· = 0x20) := by
  -- from the right, where spaces are dropped
  induction text using List.reverseRecOn with
  | nil => rfl
  | append_singleton front c ih =>
    by_cases hc : c = ' '
    -- one space less on both sides
    · subst hc
      have hspace : encode (front ++ [' ']) = encode front ++ [0x20] := encode_concat front ' '
      rw [List.rdropWhile_concat_pos _ _ _ (by simp), hspace,
        List.rdropWhile_concat_pos _ _ _ (by simp), ih]
    -- nothing to drop on either side
    · have hlast := mt (getLast?_encode_iff (front ++ [c]) (d := ' ') (by decide)).1
      rw [List.rdropWhile_concat_neg _ _ _ (by simpa using hc), eq_comm,
        List.rdropWhile_eq_self_iff]
      intro hne hspace
      rw [List.getLast?_concat, List.getLast?_eq_some_getLast hne] at hlast
      refine hlast (by simpa using hc) ?_
      simpa using hspace

end Utf8

namespace Name

/-- Whether a field can hold a name. -/
structure Fits (name : String) : Prop where
  /-- It is not too long. -/
  size : name.utf8ByteSize ≤ nameSize
  /-- There is no character that would end it. -/
  noNul : '\x00' ∉ name.toList
  /-- It does not end like a field that is filled up with spaces. -/
  noSpace : name.toList.getLast? ≠ some ' '

/-- There is nothing wrong with a name exactly when it fits. -/
theorem fault?_eq_none_iff {name : String} : fault? name = none ↔ Fits name := by
  have hnul := Utf8.mem_encode_iff name.toList (d := '\x00') (by decide)
  have hspace := Utf8.getLast?_encode_iff name.toList (d := ' ') (by decide)
  have hfault : fault? name = none ↔ ¬ nameSize < name.utf8ByteSize ∧
      0 ∉ Utf8.encode name.toList ∧ (Utf8.encode name.toList).getLast? ≠ some 0x20 := by
    simp only [fault?, Utf8.length_encode]
    split
    · simp [*]
    · split
      · simp [*]
      · split <;> simp [*]
  rw [hfault, Nat.not_lt]
  constructor
  · rintro ⟨h1, h2, h3⟩
    exact ⟨h1, fun h => h2 (hnul.2 h), fun h => h3 (hspace.2 h)⟩
  · rintro ⟨h1, h2, h3⟩
    exact ⟨h1, fun h => h2 (hnul.1 h), fun h => h3 (hspace.1 h)⟩

/-- A field holds a name that fits, and nothing else. -/
theorem length_toBytes {name : String} (h : Fits name) : (toBytes name).length = nameSize := by
  have := h.size
  rw [toBytes, List.length_append, List.length_replicate, Utf8.length_encode]
  omega

/-- A name that fits is read back. -/
theorem ofBytes_toBytes {name : String} (h : Fits name) : ofBytes (toBytes name) = name := by
  have hnul : ∀ b ∈ Utf8.encode name.toList, decide (b ≠ 0) = true := by
    intro b hb
    rw [decide_eq_true_iff]
    rintro rfl
    exact h.noNul ((Utf8.mem_encode_iff _ (d := '\x00') (by decide)).1 hb)
  have htake : (toBytes name).takeWhile (· ≠ 0) = Utf8.encode name.toList := by
    rw [toBytes, List.takeWhile_append_of_pos hnul]
    cases nameSize - (Utf8.encode name.toList).length with
    | zero => simp
    | succ n => simp [List.replicate_succ]
  have hspace : name.toList.rdropWhile (· = ' ') = name.toList := by
    rw [List.rdropWhile_eq_self_iff]
    intro hne hlast
    apply h.noSpace
    rw [List.getLast?_eq_some_getLast hne]
    simpa using hlast
  rw [ofBytes, htake, Utf8.decodeRepaired_encode]
  change String.ofList (name.toList.rdropWhile (· = ' ')) = name
  rw [hspace, String.ofList_toList]

/-- The normal form of a field with a name: the bytes before the first zero, a question mark for
each that belongs to no character, without the spaces at the end, filled up with zeros. -/
def normalForm (field : List UInt8) : List UInt8 :=
  let text := (Utf8.repair (field.takeWhile (· ≠ 0))).rdropWhile (· = 0x20)
  text ++ List.replicate (field.length - text.length) 0

/-- The bytes of the name that was read from a field. -/
theorem encode_ofBytes (field : List UInt8) : Utf8.encode (ofBytes field).toList =
    (Utf8.repair (field.takeWhile (· ≠ 0))).rdropWhile (· = 0x20) := by
  rw [ofBytes, String.toList_ofList, ← Utf8.encode_decodeRepaired, ← Utf8.encode_rdropWhile]
  rfl

/-- A name that was read is written in the normal form. -/
theorem toBytes_ofBytes {field : List UInt8} (h : field.length = nameSize) :
    toBytes (ofBytes field) = normalForm field := by
  rw [toBytes, encode_ofBytes, normalForm, h]

/-- The name that a field holds fits it. -/
theorem fits_ofBytes {field : List UInt8} (h : field.length ≤ nameSize) : Fits (ofBytes field) := by
  have hbytes := encode_ofBytes field
  have hprefix := List.rdropWhile_prefix (· = 0x20) (Utf8.repair (field.takeWhile (· ≠ 0)))
  rw [← hbytes] at hprefix
  constructor
  · have hlen := hprefix.length_le
    have htake := (List.takeWhile_prefix (· ≠ 0) (l := field)).length_le
    rw [Utf8.length_encode, Utf8.length_repair] at hlen
    omega
  -- what is read stands in front of the first zero, and repairing brings in no zero
  · intro hmem
    have hzero := hprefix.mem ((Utf8.mem_encode_iff _ (d := '\x00') (by decide)).2 hmem)
    have htake := List.mem_takeWhile_imp (Utf8.mem_of_mem_repair hzero (by decide))
    simp at htake
  · intro hlast
    have hlist : (ofBytes field).toList =
        (Utf8.decodeRepaired (field.takeWhile (· ≠ 0))).rdropWhile (· = ' ') := String.toList_ofList
    rw [hlist] at hlast
    have hne := List.ne_nil_of_mem (List.mem_of_getLast? hlast)
    rw [List.getLast?_eq_some_getLast hne, Option.some_inj] at hlast
    exact List.rdropWhile_last_not _ _ hne (by rw [hlast]; rfl)

end Name

end ZioControl
