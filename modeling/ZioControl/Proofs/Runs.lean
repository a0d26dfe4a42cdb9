import ZioControl.Proofs.Files
import ZioControl.Proofs.RoundTrip
import ZioControl.Session

/-!
# Runs of a dialogue alone with a world

`Dialogue.ComesTo` says of a dialogue that is alone with a world what it comes to: its result, the
world that it leaves behind, and the blocks that it has written on the way. Dialogues one after the
other come to what they come to one by one (`ComesTo.bind`), and so do those that may end with an
error, up to the first one that does (`ComesTo.bind_ok`, `ComesTo.bind_error`). What a device's
control file is asked comes to what the file holds (`Device.readControl_comesTo`,
`Device.writeControl_comesTo`); a check only leaves a record (`Session.check_comesTo`), and a
session that starts only reads (`Session.start_comesTo`).
-/

namespace ZioControl

/-- The path and the bytes of a request to write a block. -/
def Request.written? : Request → Option (String × List UInt8)
  | .writeBlock path bytes => some (path, bytes)
  | _ => none

namespace Dialogue

variable {α β ε ε' : Type}

/-- The requests of a dialogue that is alone with a world, in order. -/
def requests : Dialogue α → World → List Request
  | .done _, _ => []
  | .ask request next, w =>
    request :: (next (w.answer request).1).requests (w.answer request).2

/-- The blocks that a dialogue writes when it is alone with a world, each with its path. -/
def writes (d : Dialogue α) (w : World) : List (String × List UInt8) :=
  (d.requests w).filterMap Request.written?

/-- What a dialogue comes to that is alone with a world. -/
structure ComesTo (d : Dialogue α) (w : World) (a : α) (next : World)
    (written : List (String × List UInt8)) : Prop where
  /-- Its result, and the world that it leaves behind. -/
  run : d.run w = (a, next)
  /-- The blocks that it writes. -/
  writes : d.writes w = written

variable {d : Dialogue α} {w next last : World} {a : α} {b : β}
  {written more : List (String × List UInt8)}

/-- The requests of two dialogues one after the other. -/
theorem requests_bind (d : Dialogue α) (f : α → Dialogue β) (w : World) :
    (d >>= f).requests w = d.requests w ++ (f (d.run w).1).requests (d.run w).2 := by
  induction d generalizing w with
  | done a => rfl
  | ask request next ih =>
    exact congrArg (request :: ·) (ih (w.answer request).1 (w.answer request).2)

/-- A dialogue without a request. -/
theorem ComesTo.done (a : α) (w : World) : (Dialogue.done a).ComesTo w a w [] := ⟨rfl, rfl⟩

/-- A dialogue of one request. -/
theorem ComesTo.request {r : Request} {answer : r.Answer} (h : w.answer r = (answer, next)) :
    (Dialogue.request r).ComesTo w answer next r.written?.toList := by
  constructor
  · change ((w.answer r).1, (w.answer r).2) = (answer, next)
    exact h
  · cases r <;> rfl

/-- Dialogues one after the other. -/
theorem ComesTo.bind {f : α → Dialogue β} (hd : d.ComesTo w a next written)
    (hf : (f a).ComesTo next b last more) : (d >>= f).ComesTo w b last (written ++ more) := by
  constructor
  · rw [run_bind, hd.run, hf.run]
  · rw [Dialogue.writes, requests_bind, List.filterMap_append, hd.run]
    exact congr (congrArg _ hd.writes) hf.writes

/-- A result that no later dialogue needs to look at. -/
theorem ComesTo.map (f : α → β) (hd : d.ComesTo w a next written) :
    (f <$> d).ComesTo w (f a) next written := by
  have hmap : (f <$> d).ComesTo w (f a) next (written ++ []) :=
    hd.bind (ComesTo.done (f a) next)
  rwa [List.append_nil] at hmap

section Errors

variable {e : ExceptT ε Dialogue α} {f : α → ExceptT ε Dialogue β} {result : Except ε β}

/-- A dialogue that does not end with an error goes on. -/
theorem ComesTo.bind_ok (he : e.run.ComesTo w (.ok a) next written)
    (hf : (f a).run.ComesTo next result last more) :
    (e >>= f).run.ComesTo w result last (written ++ more) :=
  ComesTo.bind he hf

/-- A dialogue that ends with an error goes no further. -/
theorem ComesTo.bind_error {error : ε} (he : e.run.ComesTo w (.error error) next written) :
    (e >>= f).run.ComesTo w (.error error) next written := by
  have hbind : (e >>= f).run.ComesTo w _ next (written ++ []) :=
    ComesTo.bind he (ComesTo.done _ next)
  rwa [List.append_nil] at hbind

end Errors

end Dialogue

open Dialogue

variable {w : World} {path : String} {place : Place} {bytes : List UInt8} {b : Block}
  {order : ByteOrder}

namespace Exchange

/-- A result that is already there. -/
theorem ofExcept_comesTo {α : Type} {known result : Except Error α} (h : known = result)
    (w : World) : (ofExcept known).run.ComesTo w result w [] :=
  h ▸ ComesTo.done known w

/-- A record is made. -/
theorem note_comesTo (notice : Notice) (w : World) :
    (note notice).run.ComesTo w (.ok ()) (w.note notice) [] :=
  (ComesTo.request rfl).map Except.ok

/-- A text is put out. -/
theorem print_comesTo (text : String) (w : World) :
    (print text).run.ComesTo w (.ok ()) (w.print text) [] :=
  (ComesTo.request rfl).map Except.ok

/-- The answer of a file, in which a fault is an error. -/
theorem ofFile_comesTo {α : Type} {d : Dialogue (Except FileFault α)} {next : World}
    {answer : Except FileFault α} {written : List (String × List UInt8)} (path : String)
    (h : d.ComesTo w answer next written) :
    (ofFile path d).run.ComesTo w (answer.mapError (.file path)) next written := by
  have hanswer :
      (ofFile path d).run.ComesTo w (answer.mapError (.file path)) next (written ++ []) :=
    h.bind (by cases answer <;> exact ComesTo.done _ next)
  rwa [List.append_nil] at hanswer

section Reads

variable {α β : Type} {e : Exchange α} {f : α → Exchange β}

/-- An exchange that leaves every world as it is. -/
def Reads (e : Exchange α) : Prop := ∀ w, ∃ result, e.run.ComesTo w result w []

/-- A result that is already there leaves the world as it is. -/
theorem reads_ofExcept (known : Except Error α) : (ofExcept known).Reads :=
  fun w => ⟨known, ofExcept_comesTo rfl w⟩

/-- So does an exchange that asks for nothing. -/
theorem reads_pure (a : α) : (pure a : Exchange α).Reads := fun w => ⟨.ok a, ComesTo.done _ w⟩

/-- Reading a file leaves the world as it is. -/
theorem reads_readFile (path : String) : (ofFile path (Dialogue.request (.readFile path))).Reads :=
  fun _ => ⟨_, ofFile_comesTo path (ComesTo.request rfl)⟩

/-- Exchanges one after the other leave the world as it is if each of them does. -/
theorem Reads.bind (he : e.Reads) (hf : ∀ a, (f a).Reads) : (e >>= f).Reads := by
  intro w
  obtain ⟨result, he⟩ := he w
  cases result with
  | error error => exact ⟨_, he.bind_error⟩
  | ok a =>
    obtain ⟨result, hf⟩ := hf a w
    exact ⟨result, he.bind_ok hf⟩

end Reads

end Exchange

namespace Device

/-- The block that a file holds is read. -/
theorem readControl_comesTo (order : ByteOrder) (h : w.Holds path place bytes) :
    (readControl path order).run.ComesTo w (Block.decode order bytes) w [] := by
  have hread := Exchange.ofFile_comesTo path (ComesTo.request h.answer_readBlock)
  exact hread.bind_ok (Exchange.ofExcept_comesTo (Block.decode_take order bytes) w)

/-- A block that has no bytes is not written. -/
theorem writeControl_comesTo_error {error : Error} (h : b.encode order = .error error)
    (path : String) (w : World) : (writeControl path b order).run.ComesTo w (.error error) w [] :=
  (Exchange.ofExcept_comesTo h w).bind_error

/-- Any other block is written over the beginning of the file. -/
theorem writeControl_comesTo {new : List UInt8} (h : w.Holds path place bytes)
    (hencode : b.encode order = .ok new) :
    ∃ next, (writeControl path b order).run.ComesTo w (.ok ()) next [(path, new)] ∧
      next.printed = w.printed ∧ next.Holds path place (new ++ bytes.drop new.length) := by
  obtain ⟨next, hanswer, hprinted, hnext⟩ := h.answer_writeBlock new
  have hbytes := Exchange.ofExcept_comesTo hencode w
  have hwrite := Exchange.ofFile_comesTo path (ComesTo.request hanswer)
  have hnote := Exchange.note_comesTo (.wrote path b.sequence) next
  exact ⟨next.note (.wrote path b.sequence), hbytes.bind_ok (hwrite.bind_ok hnote), hprinted,
    (hnext path h).note _⟩

/-- What a device says of its attributes is only read. -/
theorem reads_readDescription (directory : String) : (readDescription directory).Reads := by
  have htext : (readText (Path.join directory descriptionName)).Reads := by
    refine (Exchange.reads_readFile _).bind fun bytes => ?_
    cases Utf8.decode? bytes with
    | none => exact Exchange.reads_ofExcept _
    | some text => exact Exchange.reads_pure text
  exact htext.bind fun text => Exchange.reads_ofExcept _

end Device

namespace Session

/-- A check comes to whether the device takes the block. It may leave a record behind. -/
theorem check_comesTo (b current : Block) (w : World) :
    ∃ next, (check b current).run.ComesTo w (b.checkAgainst current) next [] ∧
      next.printed = w.printed ∧
      ∀ path place bytes, w.Holds path place bytes → next.Holds path place bytes := by
  have hcheck (next : World) :=
    Exchange.ofExcept_comesTo (rfl : b.checkAgainst current = b.checkAgainst current) next
  cases hnotice : b.versionNotice? current with
  | none =>
    refine ⟨w, ?_, rfl, fun path place bytes h => h⟩
    rw [check, hnotice]
    exact (ComesTo.done _ w).bind_ok (hcheck w)
  | some notice =>
    refine ⟨w.note notice, ?_, rfl, fun path place bytes h => h.note notice⟩
    rw [check, hnotice]
    exact (Exchange.note_comesTo notice w).bind_ok (hcheck _)

/-- What a session holds of a description is only read. -/
theorem reads_describe (directory : Option String) : (describe directory).Reads := by
  cases directory with
  | none => exact Exchange.reads_pure ({} : Description)
  | some directory => exact Device.reads_readDescription directory

/-- A session that starts leaves the world as it is, and works on the control file it was told. -/
theorem start_comesTo (control : String) (directory : Option String) (w : World) :
    ∃ result, (start control directory).run.ComesTo w result w [] ∧
      ∀ session, result = .ok session → session.control = control := by
  obtain ⟨described, hdescribe⟩ := reads_describe directory w
  cases described with
  | error error => exact ⟨_, hdescribe.bind_error, nofun⟩
  | ok description =>
    let session : Session := { control, directory, description }
    have hsession : (pure session : Exchange Session).run.ComesTo w (.ok session) w [] :=
      ComesTo.done _ w
    refine ⟨_, hdescribe.bind_ok hsession, ?_⟩
    rintro _ ⟨⟩
    rfl

end Session

end ZioControl
