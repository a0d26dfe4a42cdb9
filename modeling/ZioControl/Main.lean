import Std.Time.Format
import ZioControl.Program
import ZioControl.Text.Fixed

/-!
# The command line

The outer layer of the program. It answers the requests of a dialogue with the files of the system,
follows a device with a thread that reads while the receiver waits, and leaves the status of the
outcome. A read that has begun cannot be given up: when the time to follow a silent device is over,
the program leaves with the next block of the device or with its end.
-/

namespace ZioControl.Console

/-- Where records are logged besides the terminal, and which ones. -/
structure Log where
  /-- How grave a record has to be. -/
  level : LogLevel := .off
  /-- The log file. -/
  file : Option IO.FS.Handle := none

/-- The failures that have a name of their own. -/
def namedFaults : List FileFault :=
  [.notFound, .isDirectory, .notDirectory, .nameTooLong, .noSpace]

/-- The failure of a file operation in the words of the system, with the number of its cause. A path
with the byte that ends a path does not get as far as the system. -/
def faultOfSystem (details : String) (number : UInt32) : FileFault :=
  if details = "string contains NUL bytes" then .embeddedNul else
  let text := details ++ " (os error " ++ Text.decimal number.toNat ++ ")"
  (namedFaults.find? fun fault => fault.text = text).getD (.other text)

/-- The failure of a file operation. -/
def faultOf : IO.Error → FileFault
  | .alreadyExists _ number details | .interrupted _ number details
  | .noFileOrDirectory _ number details | .invalidArgument _ number details
  | .permissionDenied _ number details | .resourceExhausted _ number details
  | .inappropriateType _ number details | .noSuchThing _ number details
  | .otherError number details | .resourceBusy number details
  | .resourceVanished number details | .unsupportedOperation number details
  | .hardwareFault number details | .unsatisfiedConstraints number details
  | .illegalOperation number details | .protocolError number details
  | .timeExpired number details => faultOfSystem details number
  | .unexpectedEof => .other "unexpected end of file"
  | .userError text => .other text

/-- The result of a file operation, or its failure. -/
def attempt {α : Type} (operation : IO α) : IO (Except FileFault α) := do
  try
    return .ok (← operation)
  catch e =>
    return .error (faultOf e)

/-- A piece of a file of at most so many bytes. A read that is interrupted is tried again. -/
def readPiece (handle : IO.FS.Handle) (count : Nat) : IO ByteArray := do
  repeat
    try
      return ← handle.read count.toUSize
    catch
      | .interrupted .. => continue
      | e => throw e
  return .empty

/-- The next bytes of a file, as many as a block has if the file has them. -/
def readBlock (handle : IO.FS.Handle) : IO (List UInt8) := do
  let mut got := ByteArray.empty
  while got.size < blockSize do
    let piece ← readPiece handle (blockSize - got.size)
    if piece.isEmpty then break
    got := got ++ piece
  return got.toList

/-- The time of day in front of a record. -/
def timeStamp : IO String := do
  let now := Std.Time.DateTime.ofTimestampWithZone (← Std.Time.Timestamp.now) .UTC
  return now.format "uuuu-MM-dd'T'HH:mm:ss.SSSSSSSSS'Z'"

/-- Logs a notice, if it is grave enough. A record that cannot be written is lost. -/
def note (log : IO.Ref Log) (notice : Notice) : IO Unit := do
  let { level, file } ← log.get
  if level.admits notice.severity then
    let record := (← timeStamp) ++ " " ++ notice.record ++ "\n"
    try
      IO.eprint record
      if let some handle := file then
        handle.putStr record
        handle.flush
    catch _ =>
      return

/-- The answer of the system to a request. -/
def answer (log : IO.Ref Log) : (request : Request) → IO request.Answer
  | .readBlock path => attempt do readBlock (← IO.FS.Handle.mk path .read)
  | .writeBlock path bytes => attempt do
    let handle ← IO.FS.Handle.mk path .readWrite
    handle.write ⟨bytes.toArray⟩
    handle.flush
  | .readFile path => attempt do
    return (← (← IO.FS.Handle.mk path .read).readBinToEnd).toList
  | .note notice => note log notice
  | .print text => IO.print text
  | .startLog path level => attempt do
    let file ← path.mapM fun path => IO.FS.Handle.mk path .write
    log.set { level := level, file := file }

/-- Has a dialogue with the system. -/
def hold {α : Type} (log : IO.Ref Log) : Dialogue α → IO α
  | .done a => return a
  | .ask request next => do hold log (next (← answer log request))

/-- What the receiver of a monitor waits for. -/
inductive Event where
  /-- A message of the reader, or nothing at the end of the source. -/
  | message (message : Option Message)
  /-- A second is over. -/
  | tick
  /-- The time to follow is over. -/
  | deadline

/-- The next message of a source. -/
def nextMessage (path : String) (handle : IO.FS.Handle) (order : ByteOrder) :
    IO (Option Message) := do
  match ← attempt (readBlock handle) with
  | .error fault => return some (.error (.file path fault))
  | .ok [] => return none
  | .ok bytes => return some (Block.decode order bytes)

/-- Waits until a time, in nanoseconds, unless the wait is given up. -/
def waitUntil (due : Nat) : IO Unit := do
  repeat
    let now ← IO.monoNanosNow
    if due ≤ now then break
    if ← IO.checkCanceled then break
    IO.sleep (min 20 ((due - now) / 1000000 + 1)).toUInt32

/-- A second, in nanoseconds. -/
def second : Nat := 1000000000

/-- Follows the source of a monitor until the monitor ends. -/
def followSource (log : IO.Ref Log) (m : Monitor) (handle : IO.FS.Handle) (order : ByteOrder) :
    IO (Except Failure Unit) := do
  let start ← IO.monoNanosNow
  let reader := IO.asTask (Event.message <$> nextMessage m.path handle order) .dedicated
  let clock (due : Nat) (event : Event) :=
    IO.asTask (do waitUntil due; return event) .dedicated
  let deadline ← m.seconds.mapM fun seconds => clock (start + seconds * second) .deadline
  let mut due := start + second
  let mut tick ← clock due .tick
  let mut message ← reader
  let mut meter : RateMeter := {}
  let mut followed : Followed := {}
  -- a tick and the deadline are events like a block: whichever comes first is looked at first
  while followed.ending.isNone do
    match ← IO.ofExcept (← IO.waitAny (message :: tick :: deadline.toList)) with
    | .message none | .deadline => followed := followed.close
    | .message (some received) =>
      if received.isOk then
        meter := meter.record (← IO.monoNanosNow)
      -- only what is new has to be shown, so the receiver starts with the counter alone
      followed := m.accept { counter := followed.counter } received
      followed.notices.forM (note log)
      followed.sightings.forM fun s => IO.print (Program.sightingText s.block)
      if followed.ending.isNone then
        message ← reader
    | .tick =>
      let now ← IO.monoNanosNow
      note log (.following ((now - start) / second) followed.counter.blocks followed.counter.lost
        (Text.fixed 1 (meter.rate now)))
      due := due + second
      tick ← clock due .tick
  IO.cancel tick
  if let some task := deadline then IO.cancel task
  match followed.result with
  | .error e => return .error (.error e)
  | .ok counter =>
    let now ← IO.monoNanosNow
    let seconds := Float.ofNat (now - start) / Float.ofNat second
    note log (.followed counter.blocks (Text.fixed 1 seconds) counter.lost)
    return .ok ()

/-- Carries out a plan. -/
def carryOut (log : IO.Ref Log) : Plan → IO (Except Failure Unit)
  | .work job => hold log job.run
  | .follow m order => do
    match ← attempt (IO.FS.Handle.mk m.path .read) with
    | .error fault => return .error (.error (.file m.path fault))
    | .ok handle => followSource log m handle order

/-- Reports the lines of an outcome, and gives its status. -/
def leave (status : Nat) (errors : List String) : IO UInt32 := do
  errors.forM fun line => IO.eprintln line
  return status.toUInt32

/-- The byte order of the system that the program is built for. -/
def hostOrder : ByteOrder := .little

/-- Does what a command line asks for. -/
def run (line : List String) : IO UInt32 := do
  match Invocation.parse line with
  | .error refusal =>
    let outcome := Program.refuse {} refusal
    IO.print outcome.world.output
    leave outcome.status outcome.errors
  | .ok inv =>
    let env : Environment := {
      control := ← IO.getEnv Environment.controlVariable
      directory := ← IO.getEnv Environment.directoryVariable }
    let log ← IO.mkRef {}
    match ← hold log (Program.prepare env inv hostOrder).run with
    | .error failure => leave 1 failure.report
    | .ok plan =>
      let result ← carryOut log plan
      hold log (Program.finish result)
      match result with
      | .ok () => leave 0 []
      | .error failure => leave 1 failure.report

end ZioControl.Console

/-- The program. -/
def main (line : List String) : IO UInt32 := ZioControl.Console.run line
