import ZioControl.Proofs.Reach

/-!
# A form as a dictionary

The type of a form leaves no room for other names than those of its fields. In a `Dictionary` any
name may be inserted: an edit puts the names of slots together from their parts and inserts texts
under them, one by one and in place. An edit that fails has changed nothing
(`Dictionary.run_set_of_error`).

The dictionary of a form determines it (`Form.dictionary_injective`), and the dictionaries of forms
are those that have just the names of the fields (`Form.exists_dictionary_eq_iff`). On them an edit
does what it does on forms (`Dictionary.run_set`), and so does a run of edits
(`Dictionary.run_setAll`). So no run adds a name or loses one (`Dictionary.namesFields_run_setAll`).
-/

namespace ZioControl

/-- Texts by name. -/
@[ext]
structure Dictionary where
  /-- The text under a name, if there is one. -/
  get? : String → Option String

namespace Dictionary

/-- The dictionary without a name. -/
def empty : Dictionary := ⟨fun _ => none⟩

/-- The dictionary with a text under a name, whether or not it has the name already. -/
def insert (d : Dictionary) (name text : String) : Dictionary where
  get? other := if other = name then some text else d.get? other

/-- The dictionary with texts under several names. -/
def insertAll (d : Dictionary) (entries : List (String × String)) : Dictionary :=
  entries.foldl (fun d entry => d.insert entry.1 entry.2) d

/-- The text under a name, blank if the dictionary lacks the name. -/
def text (d : Dictionary) (name : String) : String := (d.get? name).getD ""

/-- The word under a name, zero if the text is none. -/
def word (d : Dictionary) (name : String) : UInt32 :=
  UInt32.ofNat (Text.lenientDecimal UInt32.size (d.text name).toList)

/-- The names are just those of the fields. -/
def NamesFields (d : Dictionary) : Prop :=
  ∀ name, (d.get? name).isSome = true ↔ ∃ field : Field, field.name = name

/-- The name of a mask. -/
def maskName (owner : Owner) (kind : Kind) : String := owner.word ++ "." ++ kind.word ++ "_mask"

/-- The owners and kinds that there is a mask for. -/
def masks : List (Owner × Kind) :=
  [(.channel, .standard), (.channel, .extended), (.trigger, .standard), (.trigger, .extended)]

/-- The dictionary with a blank for every slot that a mask lacks. -/
def blankSlots (d : Dictionary) (owner : Owner) (kind : Kind) : Dictionary :=
  let mask := Text.lenientHex (d.text (maskName owner kind)).toList
  let lacking := (List.range kind.capacity).filter fun index => !Mask.has mask index
  d.insertAll (lacking.map fun index => (slotName owner kind index, ""))

/-- The dictionary with the sum of the samples before and after the trigger fires. -/
def updateSamples (d : Dictionary) : Dictionary :=
  d.insert "nsamples" (Text.decimal (d.word "trigger.std.1" + d.word "trigger.std.2").toNat)

/-- The dictionary with the bits that the channel's resolution gives, or with a blank. -/
def updateBits (d : Dictionary) : Dictionary :=
  let digits := Text.trim (d.text "channel.std.0").toList
  let bits := (Text.natural? 10 digits).filter (· < UInt16.size)
  d.insert "nbits" ((bits.map Text.decimal).getD "")

/-- The dictionary with all that follows the text under a name. -/
def follow (d : Dictionary) (name : String) : Dictionary :=
  let d := masks.foldl
    (fun d (owner, kind) => if name = maskName owner kind then d.blankSlots owner kind else d) d
  let d := if name = "trigger.std.1" ∨ name = "trigger.std.2" then d.updateSamples else d
  if name = "channel.std.0" then d.updateBits else d

/-- Edits the text under a name, in place. -/
def set (name text : String) : ExceptT Error (StateM Dictionary) Unit := do
  if name = "addr.hostid" then throw (.readOnly name)
  match (← get).get? name with
  | none => throw (.unknownField name)
  | some _ => modify fun d => (d.insert name text).follow name

/-- Edits texts one after the other, up to the first edit that fails. -/
def setAll (edits : List (String × String)) : ExceptT Error (StateM Dictionary) Unit :=
  edits.forM fun edit => set edit.1 edit.2

variable {d : Dictionary} {name text : String} {entries : List (String × String)}

/-- The name has the text that is inserted under it. -/
theorem get?_insert_self (d : Dictionary) (name text : String) :
    (d.insert name text).get? name = some text := if_pos rfl

/-- Any other name keeps its text. -/
theorem get?_insert_of_ne {other : String} (h : other ≠ name) :
    (d.insert name text).get? other = d.get? other := if_neg h

/-- A name under which nothing is inserted keeps its text. -/
theorem get?_insertAll_of_not_mem (h : ∀ entry ∈ entries, entry.1 ≠ name) :
    (d.insertAll entries).get? name = d.get? name := by
  induction entries generalizing d with
  | nil => rfl
  | cons entry entries ih =>
    obtain ⟨hentry, hentries⟩ := List.forall_mem_cons.mp h
    exact (ih hentries).trans (get?_insert_of_ne hentry.symm)

/-- A name under which one text is inserted has that text. -/
theorem get?_insertAll_of_mem (hmem : (name, text) ∈ entries)
    (h : ∀ entry ∈ entries, entry.1 = name → entry.2 = text) :
    (d.insertAll entries).get? name = some text := by
  induction entries generalizing d with
  | nil => cases hmem
  | cons entry entries ih =>
    obtain ⟨hentry, hentries⟩ := List.forall_mem_cons.mp h
    by_cases hrest : ∃ other ∈ entries, other.1 = name
    · obtain ⟨⟨_, other⟩, hother, rfl⟩ := hrest
      obtain rfl : other = text := hentries _ hother rfl
      exact ih hother hentries
    -- the entries behind the first one do not have the name
    · have hlast : ∀ other ∈ entries, other.1 ≠ name := fun other hother hname =>
        hrest ⟨other, hother, hname⟩
      obtain rfl : (name, text) = entry :=
        (List.mem_cons.mp hmem).resolve_right fun hother => hlast _ hother rfl
      exact (get?_insertAll_of_not_mem hlast).trans (d.get?_insert_self name text)

/-- After a mask the slots are blanked that it lacks. -/
theorem follow_maskName {owner : Owner} {kind : Kind} :
    d.follow (maskName owner kind) = d.blankSlots owner kind := by
  cases owner <;> cases kind <;> rfl

/-- After anything else the numbers of samples and of bits may follow. -/
theorem follow_of_ne (h : ∀ owner kind, name ≠ maskName owner kind) : d.follow name =
    if name = "trigger.std.1" ∨ name = "trigger.std.2" then d.updateSamples
    else if name = "channel.std.0" then d.updateBits else d := by
  simp only [follow, masks, List.foldl, h, if_false]
  by_cases hoperand : name = "trigger.std.1" ∨ name = "trigger.std.2"
  · have hbits : name ≠ "channel.std.0" := by rcases hoperand with rfl | rfl <;> decide
    rw [if_pos hoperand, if_pos hoperand, if_neg hbits]
  · rw [if_neg hoperand, if_neg hoperand]

/-- The host's identity cannot be edited. -/
theorem run_set_hostId (d : Dictionary) (text : String) :
    (set "addr.hostid" text).run.run d = (.error (.readOnly "addr.hostid"), d) := rfl

/-- For any other name the text is inserted, and what follows it, if there is the name. -/
theorem run_set_of_ne (d : Dictionary) (text : String) (h : name ≠ "addr.hostid") :
    (set name text).run.run d =
      match d.get? name with
      | none => (.error (.unknownField name), d)
      | some _ => (.ok (), (d.insert name text).follow name) := by
  rw [set, if_neg h]
  change (match d.get? name with
    | none => throw (.unknownField name)
    | some _ => modify fun d => (d.insert name text).follow name :
      ExceptT Error (StateM Dictionary) Unit).run.run d = _
  cases d.get? name <;> rfl

/-- An edit that fails has changed nothing. -/
theorem run_set_of_error {error : Error} (h : ((set name text).run.run d).1 = .error error) :
    ((set name text).run.run d).2 = d := by
  by_cases hhost : name = "addr.hostid"
  · rw [hhost, run_set_hostId]
  · rw [run_set_of_ne d text hhost] at h ⊢
    cases hname : d.get? name with
    | none => rfl
    | some old =>
      rw [hname] at h
      cases h

end Dictionary

namespace Form

/-- The texts of a form by the names of the fields. -/
def dictionary (form : Form) : Dictionary := ⟨form.get?⟩

variable {form other : Form} {field : Field} {name text : String}

/-- A name has the same text in both. -/
@[simp]
theorem get?_dictionary (form : Form) (name : String) :
    form.dictionary.get? name = form.get? name := rfl

/-- The text under the name of a field is the field's. -/
theorem text_dictionary (form : Form) (field : Field) :
    form.dictionary.text field.name = form.text field := by
  rw [Dictionary.text, get?_dictionary, get?_name, Option.getD_some]

/-- A form is determined by its dictionary. -/
theorem dictionary_injective : Function.Injective dictionary := by
  intro form other h
  refine Form.ext (funext fun field => ?_)
  rw [← text_dictionary form, ← text_dictionary other, h]

/-- What no field has as its name is no name of a form. -/
theorem get?_dictionary_eq_none (h : ∀ field : Field, field.name ≠ name) :
    form.dictionary.get? name = none := by
  have hnone : Field.ofName? name = none :=
    Option.eq_none_iff_forall_ne_some.mpr fun field hfield => h field (Field.name_of_ofName? hfield)
  rw [get?_dictionary, get?, hnone, Option.map_none]

/-- The dictionary of a form has the texts of the fields under their names, and nothing else. -/
theorem dictionary_eq {d : Dictionary}
    (hfield : ∀ field, d.get? field.name = some (form.text field))
    (hnone : ∀ name, (∀ field : Field, field.name ≠ name) → d.get? name = none) :
    form.dictionary = d := by
  ext1
  funext name
  by_cases hname : ∃ field : Field, field.name = name
  · obtain ⟨field, rfl⟩ := hname
    exact (get?_name form field).trans (hfield field).symm
  · rw [not_exists] at hname
    exact (get?_dictionary_eq_none hname).trans (hnone name hname).symm

/-- A dictionary is that of a form exactly if its names are those of the fields. -/
theorem exists_dictionary_eq_iff {d : Dictionary} :
    (∃ form : Form, form.dictionary = d) ↔ d.NamesFields := by
  constructor
  · rintro ⟨form, rfl⟩ name
    constructor
    · intro hsome
      by_contra hname
      rw [get?_dictionary_eq_none (not_exists.mp hname)] at hsome
      cases hsome
    · rintro ⟨field, rfl⟩
      exact Option.isSome_of_eq_some (get?_name form field)
  · intro h
    refine ⟨⟨fun field => d.text field.name⟩, dictionary_eq (fun field => ?_) fun name hname => ?_⟩
    · obtain ⟨old, hold⟩ := Option.isSome_iff_exists.mp ((h field.name).mpr ⟨field, rfl⟩)
      exact hold.trans (congrArg some (congrArg (Option.getD · "") hold).symm)
    · exact Option.not_isSome_iff_eq_none.mp fun hsome => not_exists.mpr hname ((h name).mp hsome)

/-- The dictionary of a form comes of inserting the text of each field under its name, in any
order. -/
theorem dictionary_eq_insertAll (form : Form) {fields : List Field} (h : ∀ field, field ∈ fields) :
    form.dictionary =
      Dictionary.empty.insertAll (fields.map fun field => (field.name, form.text field)) := by
  refine dictionary_eq (fun field => ?_) fun name hname => ?_
  · refine Dictionary.get?_insertAll_of_mem (List.mem_map.mpr ⟨field, h field, rfl⟩) ?_
    intro entry hentry heq
    obtain ⟨place, -, rfl⟩ := List.mem_map.mp hentry
    rw [Field.name_injective heq]
  · refine Dictionary.get?_insertAll_of_not_mem fun entry hentry => ?_
    obtain ⟨field, -, rfl⟩ := List.mem_map.mp hentry
    exact hname field

/-- A field is written by inserting its text. -/
theorem dictionary_write (form : Form) (field : Field) (text : String) :
    (form.write field text).dictionary = form.dictionary.insert field.name text := by
  refine dictionary_eq (fun place => ?_) fun name hname => ?_
  · rw [text_write]
    split
    · next hplace => rw [hplace, Dictionary.get?_insert_self]
    · next hplace =>
      rw [Dictionary.get?_insert_of_ne (Field.name_injective.ne hplace), get?_dictionary, get?_name]
  · rw [Dictionary.get?_insert_of_ne (hname field).symm, get?_dictionary_eq_none hname]

/-- Slots are blanked by inserting blanks under their names. -/
theorem dictionary_blankOutside (form : Form) (owner : Owner) (kind : Kind) :
    (form.blankOutside owner kind (form.hexWord (.mask owner kind))).dictionary =
      form.dictionary.blankSlots owner kind := by
  have hmask : form.dictionary.text (Dictionary.maskName owner kind) =
      form.text (.mask owner kind) := text_dictionary form (.mask owner kind)
  rw [Dictionary.blankSlots, hmask, ← hexWord]
  generalize form.hexWord (.mask owner kind) = mask
  set entries := ((List.range kind.capacity).filter fun index => !Mask.has mask index).map
    fun index => (slotName owner kind index, "")
  have hentries : ∀ entry, entry ∈ entries ↔ ∃ index : Fin kind.capacity,
      Mask.has mask index.val = false ∧ entry = ((Field.slot owner kind index).name, "") := by
    intro entry
    simp only [entries, List.mem_map, List.mem_filter, List.mem_range]
    constructor
    · rintro ⟨index, ⟨hindex, hlacks⟩, rfl⟩
      exact ⟨⟨index, hindex⟩, by simpa using hlacks, rfl⟩
    · rintro ⟨index, hlacks, rfl⟩
      exact ⟨index.val, ⟨index.isLt, by simpa using hlacks⟩, rfl⟩
  refine dictionary_eq (fun place => ?_) fun name hname => ?_
  · by_cases hplace : ∃ index : Fin kind.capacity, Mask.has mask index.val = false ∧
        place = .slot owner kind index
    · obtain ⟨index, hlacks, rfl⟩ := hplace
      have htext : (form.blankOutside owner kind mask).text (.slot owner kind index) = "" :=
        if_pos ⟨rfl, rfl, hlacks⟩
      rw [htext]
      refine Dictionary.get?_insertAll_of_mem ((hentries _).mpr ⟨index, hlacks, rfl⟩) ?_
      intro entry hentry _
      obtain ⟨_, -, rfl⟩ := (hentries entry).mp hentry
      rfl
    · have htext : (form.blankOutside owner kind mask).text place = form.text place := by
        cases place with
        | slot o k index =>
          refine if_neg ?_
          rintro ⟨rfl, rfl, hlacks⟩
          exact hplace ⟨index, hlacks, rfl⟩
        | _ => rfl
      rw [htext, Dictionary.get?_insertAll_of_not_mem, get?_dictionary, get?_name]
      intro entry hentry heq
      obtain ⟨index, hlacks, rfl⟩ := (hentries entry).mp hentry
      exact hplace ⟨index, hlacks, (Field.name_injective heq).symm⟩
  · rw [Dictionary.get?_insertAll_of_not_mem, get?_dictionary_eq_none hname]
    intro entry hentry
    obtain ⟨index, -, rfl⟩ := (hentries entry).mp hentry
    exact hname (.slot owner kind index)

/-- The number of samples is inserted under its name. -/
theorem dictionary_updateSamples (form : Form) :
    form.updateSamples.dictionary = form.dictionary.updateSamples := by
  have hpre : form.dictionary.text "trigger.std.1" = form.text preSamples :=
    text_dictionary form preSamples
  have hpost : form.dictionary.text "trigger.std.2" = form.text postSamples :=
    text_dictionary form postSamples
  rw [updateSamples, Dictionary.updateSamples, dictionary_write, Dictionary.word, Dictionary.word,
    hpre, hpost]
  rfl

/-- The number of bits is inserted under its name. -/
theorem dictionary_updateBits (form : Form) :
    form.updateBits.dictionary = form.dictionary.updateBits := by
  have hresolution : form.dictionary.text "channel.std.0" = form.text resolution :=
    text_dictionary form resolution
  rw [updateBits, Dictionary.updateBits, dictionary_write, hresolution]
  rfl

/-- What follows an edited text by name follows the edited field. -/
theorem dictionary_edit (form : Form) (field : Field) (text : String) :
    (form.edit field text).dictionary =
      (form.dictionary.insert field.name text).follow field.name := by
  rw [← dictionary_write]
  by_cases hmask : ∃ owner kind, field = .mask owner kind
  · obtain ⟨owner, kind, rfl⟩ := hmask
    have htext : Text.lenientHex text.toList =
        (form.write (.mask owner kind) text).hexWord (.mask owner kind) := by
      rw [hexWord, text_write, if_pos rfl]
    rw [edit, htext, dictionary_blankOutside]
    exact Dictionary.follow_maskName.symm
  · have hne (owner : Owner) (kind : Kind) : field ≠ .mask owner kind := fun heq =>
      hmask ⟨owner, kind, heq⟩
    have hname (owner : Owner) (kind : Kind) : field.name ≠ Dictionary.maskName owner kind :=
      fun heq => hne owner kind (Field.name_injective heq)
    have hpre : field.name = "trigger.std.1" ↔ field = preSamples :=
      Field.name_injective.eq_iff' rfl
    have hpost : field.name = "trigger.std.2" ↔ field = postSamples :=
      Field.name_injective.eq_iff' rfl
    have hresolution : field.name = "channel.std.0" ↔ field = resolution :=
      Field.name_injective.eq_iff' rfl
    rw [edit_eq hne, Dictionary.follow_of_ne hname]
    simp only [hpre, hpost, hresolution]
    split
    · exact dictionary_updateSamples _
    · split
      · exact dictionary_updateBits _
      · rfl

end Form

namespace Dictionary

variable {d : Dictionary} {name text : String}

/-- On the dictionary of a form an edit does what it does on the form. -/
theorem run_set (form : Form) (name text : String) :
    (set name text).run.run form.dictionary =
      ((form.set name text).map fun _ => (), (form.attempt (name, text)).dictionary) := by
  by_cases hhost : name = "addr.hostid"
  · subst hhost
    rw [run_set_hostId, Form.attempt, Form.set, Form.ofName?_eq_hostId_iff.mpr rfl]
    rfl
  cases hname : Field.ofName? name with
  | none =>
    have hnone : form.dictionary.get? name = none := congrArg (Option.map form.text) hname
    rw [run_set_of_ne _ _ hhost, hnone, Form.attempt, Form.set, hname]
    rfl
  | some field =>
    have hsome : form.dictionary.get? name = some (form.text field) :=
      congrArg (Option.map form.text) hname
    have hfield : field ≠ .hostId := by
      rintro rfl
      exact hhost (Form.ofName?_eq_hostId_iff.mp hname)
    have hset : form.set name text = .ok (form.edit field text) :=
      Form.set_eq_ok_iff.mpr ⟨field, hname, hfield, rfl⟩
    obtain rfl := Field.name_of_ofName? hname
    rw [run_set_of_ne _ _ hhost, hsome, Form.attempt, hset, Form.dictionary_edit]
    rfl

/-- The others of several edits follow if the first one succeeds. -/
theorem run_setAll_cons (d : Dictionary) (edit : String × String) (rest : List (String × String)) :
    (setAll (edit :: rest)).run.run d =
      match (set edit.1 edit.2).run.run d with
      | (.ok (), next) => (setAll rest).run.run next
      | (.error error, next) => (.error error, next) := by
  have hbind : (setAll (edit :: rest)).run.run d =
      (ExceptT.bindCont (fun _ => setAll rest) ((set edit.1 edit.2).run.run d).1).run
        ((set edit.1 edit.2).run.run d).2 := rfl
  rw [hbind]
  rcases (set edit.1 edit.2).run.run d with ⟨_ | _, next⟩ <;> rfl

/-- So does a run of edits, and it leaves the dictionary of a form: of the form that the edits lead
to if all succeed. -/
theorem run_setAll (form : Form) (edits : List (String × String)) :
    ∃ reached : Form, (setAll edits).run.run form.dictionary =
        ((form.setAll edits).map fun _ => (), reached.dictionary) ∧
      ∀ next, form.setAll edits = .ok next → reached = next := by
  induction edits generalizing form with
  | nil => exact ⟨form, rfl, fun next h => Except.ok.inj h⟩
  | cons edit rest ih =>
    have hfirst := run_set form edit.1 edit.2
    cases hset : form.set edit.1 edit.2 with
    | error error =>
      rw [Form.attempt, hset] at hfirst
      refine ⟨form, ?_, ?_⟩
      · rw [run_setAll_cons, hfirst, Form.setAll, hset]
        rfl
      · rw [Form.setAll, hset]
        intro next h
        cases h
    | ok mid =>
      rw [Form.attempt, hset] at hfirst
      obtain ⟨reached, hrest, hreached⟩ := ih mid
      refine ⟨reached, ?_, ?_⟩
      · rw [run_setAll_cons, hfirst, Form.setAll, hset]
        exact hrest
      · rw [Form.setAll, hset]
        exact hreached

/-- A run of edits adds no name to those of the fields and loses none, whether or not all edits
succeed. -/
theorem namesFields_run_setAll (hnames : d.NamesFields) (edits : List (String × String)) :
    ((setAll edits).run.run d).2.NamesFields := by
  obtain ⟨form, rfl⟩ := Form.exists_dictionary_eq_iff.mpr hnames
  obtain ⟨reached, hrun, -⟩ := run_setAll form edits
  rw [hrun]
  exact Form.exists_dictionary_eq_iff.mp ⟨reached, rfl⟩

end Dictionary

end ZioControl
