import ZioControl.Notice
import ZioControl.Store
import ZioControl.Text.Utf8

/-!
# Dialogues

The program's work is a dialogue with the world around it: it makes one request at a time and goes
on with the answer. A dialogue is finite on every path, and says by itself in which steps the work
is done, so that dialogues of several programs can be interleaved request by request.
`Dialogue.run` has one alone with a `World`, whose answers come from a store of files.
-/

namespace ZioControl

/-- What a dialogue can ask for. -/
inductive Request where
  /-- The first bytes of a file, as many as a block has if the file has them. -/
  | readBlock (path : String)
  /-- The bytes of a block written over the beginning of a file. -/
  | writeBlock (path : String) (bytes : List UInt8)
  /-- All bytes of a file. -/
  | readFile (path : String)
  /-- A record in the log. -/
  | note (notice : Notice)
  /-- A text on the output. -/
  | print (text : String)
  /-- From then on records of a level are logged, also to a new file if there is to be one. -/
  | startLog (file : Option String) (level : LogLevel)
  deriving DecidableEq, Repr

/-- The type of the answer to a request. -/
def Request.Answer : Request → Type
  | .readBlock _ => Except FileFault (List UInt8)
  | .writeBlock _ _ => Except FileFault Unit
  | .readFile _ => Except FileFault (List UInt8)
  | .note _ => Unit
  | .print _ => Unit
  | .startLog _ _ => Except FileFault Unit

/-- Requests, each with a dialogue for every answer, up to a result. -/
inductive Dialogue (α : Type) : Type where
  | done (a : α)
  | ask (request : Request) (next : request.Answer → Dialogue α)

namespace Dialogue

/-- One dialogue after another. -/
def bind {α β : Type} (d : Dialogue α) (f : α → Dialogue β) : Dialogue β :=
  match d with
  | done a => f a
  | ask request next => ask request fun answer => (next answer).bind f

instance : Monad Dialogue where
  pure := done
  bind := bind

/-- The dialogue of one request. -/
def request (r : Request) : Dialogue r.Answer := ask r done

end Dialogue

/-- The world that a dialogue is held with. -/
structure World where
  /-- The files. -/
  store : Store := .empty
  /-- All notices, the last one first. -/
  log : List Notice := []
  /-- The texts on the output, the last one first. -/
  printed : List String := []
  /-- Which notices are logged. -/
  level : LogLevel := .off
  /-- The file to which they are logged, if there is one. -/
  logFile : Option String := none

namespace World

/-- All notices in order. -/
def notices (w : World) : List Notice := w.log.reverse

/-- The records on the terminal, in order. -/
def records (w : World) : List String :=
  (w.notices.filter fun notice => w.level.admits notice.severity).map Notice.record

/-- All that was put out. -/
def output (w : World) : String := String.join w.printed.reverse

/-- The world after a notice, which goes to the log and, if its level is met, to the log file. -/
def note (w : World) (notice : Notice) : World where
  store :=
    match w.logFile with
    | some path =>
      if w.level.admits notice.severity then
        w.store.append path (Utf8.encode (notice.record.toList ++ ['\n']))
      else w.store
    | none => w.store
  log := notice :: w.log
  printed := w.printed
  level := w.level
  logFile := w.logFile

/-- The world after a text was put out. -/
def print (w : World) (text : String) : World := { w with printed := text :: w.printed }

/-- The answer of the world to a request, and the world after it. -/
def answer (w : World) : (r : Request) → r.Answer × World
  | .readBlock path => (w.store.read path blockSize, w)
  | .writeBlock path bytes =>
    match w.store.overwrite path bytes with
    | .ok store => (.ok (), { w with store := store })
    | .error fault => (.error fault, w)
  | .readFile path => (w.store.readAll path, w)
  | .note notice => ((), w.note notice)
  | .print text => ((), w.print text)
  | .startLog none level => (.ok (), { w with level := level })
  | .startLog (some path) level =>
    match w.store.create path with
    | .ok store => (.ok (), { w with store := store, level := level, logFile := some path })
    | .error fault => (.error fault, w)

end World

namespace Dialogue

/-- The result of a dialogue that is alone with a world, and the world after it. -/
def run {α : Type} (d : Dialogue α) (w : World) : α × World :=
  match d with
  | done a => (a, w)
  | ask request next =>
    let (answer, w) := w.answer request
    (next answer).run w

/-- Two dialogues one after the other leave what they leave when each is alone. -/
theorem run_bind {α β : Type} (d : Dialogue α) (f : α → Dialogue β) (w : World) :
    (d >>= f).run w = (f (d.run w).1).run (d.run w).2 := by
  induction d generalizing w with
  | done a => rfl
  | ask request next ih => exact ih (w.answer request).1 (w.answer request).2

end Dialogue

/-- A dialogue that may end with an error. -/
abbrev Exchange := ExceptT Error Dialogue

namespace Exchange

/-- An exchange that only records a notice. -/
def note (notice : Notice) : Exchange Unit := ExceptT.lift (Dialogue.request (.note notice))

/-- An exchange that only puts out a text. -/
def print (text : String) : Exchange Unit := ExceptT.lift (Dialogue.request (.print text))

/-- A result that is already there, or the error. -/
def ofExcept {α : Type} (result : Except Error α) : Exchange α := ExceptT.mk (.done result)

/-- The answer of a file, or the error that its fault is. -/
def ofFile {α : Type} (path : String) (d : Dialogue (Except FileFault α)) : Exchange α :=
  ExceptT.mk (d >>= fun
    | .ok a => .done (.ok a)
    | .error fault => .done (.error (.file path fault)))

end Exchange

end ZioControl
