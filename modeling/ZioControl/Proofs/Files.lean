import ZioControl.Dialogue

/-!
# One ordinary file in a world

What a path leads to is decided by directories and by the way the path is written, so new bytes in
an ordinary file change nothing but what that file holds (`Store.open?_put`). `World.Holds` says
that a path leads to an ordinary file with certain bytes, and that the log is kept elsewhere. Then
the answers of the world to requests about that path are those of a cell: a read gives the first
bytes (`World.Holds.answer_readBlock`), a write replaces them (`World.Holds.answer_writeBlock`), and
notices and texts leave the file alone.
-/

namespace ZioControl

namespace Store

variable {store : Store} {place other : Place} {path : String} {old new : List UInt8}

/-- The entry at the place that was put. -/
theorem entry?_put_self (entry : Entry) : Store.entry? (store.put place entry) place = some entry :=
  if_pos rfl

/-- The entries at other places. -/
theorem entry?_put_of_ne (entry : Entry) (h : other ≠ place) :
    Store.entry? (store.put place entry) other = store.entry? other :=
  if_neg h

/-- What a path leads to lies at the place that it leads to. -/
theorem entry?_of_open? {entry : Entry} (h : store.open? path = .ok (place, entry)) :
    store.locate path = .ok place ∧ store.entry? place = some entry := by
  rw [open?] at h
  split at h
  · cases h
  · next found hlocate =>
    split at h
    · cases h
    · next hentry =>
      cases h
      exact ⟨hlocate, hentry⟩
    · next hentry =>
      split at h
      · cases h
      · cases h
        exact ⟨hlocate, hentry⟩

section Put

variable (hold : store.entry? place = some (.file old))

include hold

/-- New bytes in a file leave the directories as they are. -/
theorem checkDirectory_put : (store.put place (.file new)).checkDirectory other =
    store.checkDirectory other := by
  by_cases h : other = place
  · rw [h, checkDirectory, entry?_put_self, checkDirectory, hold]
  · rw [checkDirectory, entry?_put_of_ne _ h, checkDirectory]

/-- New bytes in a file do not change where steps lead. -/
theorem walk_put (steps : List String) :
    (store.put place (.file new)).walk other steps = store.walk other steps := by
  induction steps generalizing other with
  | nil => rfl
  | cons step rest ih => simp only [walk, checkDirectory_put hold, ih]

/-- New bytes in a file do not change where a path leads. -/
theorem locate_put : (store.put place (.file new)).locate path = store.locate path := by
  simp only [locate, follow, walk_put hold]

/-- New bytes in a file change nothing but what that file holds. -/
theorem open?_put : (store.put place (.file new)).open? path =
    (store.open? path).map fun (found, entry) =>
      (found, if found = place then .file new else entry) := by
  simp only [open?, locate_put hold]
  cases store.locate path with
  | error fault => rfl
  | ok found =>
    dsimp only
    by_cases h : found = place
    · rw [h, entry?_put_self, hold]
      dsimp only
      split
      · rfl
      · simp [Except.map]
    · rw [entry?_put_of_ne _ h]
      cases store.entry? found with
      | none => rfl
      | some entry =>
        cases entry with
        | directory => simp [Except.map, h]
        | _ => dsimp only; split <;> simp [Except.map, h]

end Put

end Store

namespace World

/-- A path leads to an ordinary file with these bytes, and the log is kept elsewhere. -/
structure Holds (w : World) (path : String) (place : Place) (bytes : List UInt8) : Prop where
  /-- Where the path leads and what is found there. -/
  file : w.store.open? path = .ok (place, .file bytes)
  /-- A record in the log is no change of the file. -/
  log : ∀ logPath, w.logFile = some logPath → ∀ entry, w.store.open? logPath ≠ .ok (place, entry)

variable {w : World} {path other : String} {place : Place} {bytes : List UInt8}

/-- New bytes in one file leave every other file alone, where the log goes, and where paths lead. -/
theorem Holds.put {next : World} {target : Place} {old new : List UInt8}
    (h : w.Holds path place bytes) (hold : w.store.entry? target = some (.file old))
    (hstore : next.store = w.store.put target (.file new)) (hlog : next.logFile = w.logFile) :
    next.Holds path place (if place = target then new else bytes) := by
  constructor
  · rw [hstore, Store.open?_put hold, h.file]
    simp only [Except.map]
    split <;> rfl
  · intro logPath hpath entry hopen
    rw [hlog] at hpath
    rw [hstore, Store.open?_put hold] at hopen
    cases hfound : w.store.open? logPath with
    | error fault => simp [hfound, Except.map] at hopen
    | ok found =>
      simp only [hfound, Except.map, Except.ok.injEq, Prod.mk.injEq] at hopen
      obtain ⟨rfl, -⟩ := hopen
      exact h.log logPath hpath found.2 hfound

/-- A block is read from a file: its first bytes, as far as there are any. -/
theorem Holds.answer_readBlock (h : w.Holds path place bytes) :
    w.answer (.readBlock path) = (.ok (bytes.take blockSize), w) := by
  simp only [answer, Store.read, h.file, Store.readEntry]

/-- A block is written to a file: it takes the place of the first bytes, on whatever path the file
is found. -/
theorem Holds.answer_writeBlock (h : w.Holds path place bytes) (new : List UInt8) :
    ∃ next, w.answer (.writeBlock path new) = (.ok (), next) ∧ next.printed = w.printed ∧
      ∀ other, w.Holds other place bytes →
        next.Holds other place (new ++ bytes.drop new.length) := by
  let next : World :=
    { w with store := w.store.put place (.file (new ++ bytes.drop new.length)) }
  refine ⟨next, ?_, rfl, ?_⟩
  · simp only [answer, Store.overwrite, h.file]
    rfl
  · intro other hother
    have hput : next.Holds other place _ :=
      hother.put (Store.entry?_of_open? h.file).2 rfl rfl
    rwa [if_pos rfl] at hput

/-- All that a notice can change in the store are the bytes of the file that the log goes to. -/
theorem store_note (w : World) (notice : Notice) : (w.note notice).store = w.store ∨
    ∃ logPath place old new, w.logFile = some logPath ∧
      w.store.open? logPath = .ok (place, .file old) ∧
      (w.note notice).store = w.store.put place (.file new) := by
  cases hlog : w.logFile with
  | none => exact .inl (by simp only [World.note, hlog])
  | some logPath =>
    by_cases hlevel : w.level.admits notice.severity = true
    · simp only [World.note, hlog, hlevel, if_true, Store.append]
      split
      · next place old hopen => exact .inr ⟨logPath, place, old, _, rfl, hopen, rfl⟩
      · exact .inl rfl
    · exact .inl (by simp only [World.note, hlog, if_neg hlevel])

/-- A notice goes to the log and leaves the file alone. -/
theorem Holds.note (h : w.Holds path place bytes) (notice : Notice) :
    (w.note notice).Holds path place bytes := by
  rcases w.store_note notice with hsame | ⟨logPath, target, old, new, hlog, hopen, hput⟩
  · constructor
    · rw [hsame]
      exact h.file
    · rw [hsame]
      exact h.log
  · have hnext := h.put (Store.entry?_of_open? hopen).2 hput rfl
    have hne : place ≠ target := by
      rintro rfl
      exact h.log logPath hlog _ hopen
    rwa [if_neg hne] at hnext

/-- A text on the output leaves the file alone. -/
theorem Holds.print (h : w.Holds path place bytes) (text : String) :
    (w.print text).Holds path place bytes :=
  ⟨h.file, h.log⟩

end World

end ZioControl
