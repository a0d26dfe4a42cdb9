import ZioControl.Block.Summary
import ZioControl.Invocation
import ZioControl.Monitor
import ZioControl.Session
import ZioControl.Settings.Template

/-!
# The program

What each command of §10.7 of `SPEC_FULL.md` does, as a dialogue: which files it reads and writes,
what it puts out, and how it fails. Following a device has no end of its own, so it is a plan apart,
which only says what to follow.
-/

namespace ZioControl

/-- Why the program fails. -/
inductive Failure where
  /-- Something is wrong with a control, a description or a file. -/
  | error (e : Error)
  /-- A command needs a control file. -/
  | noControl
  /-- There is nothing to follow. -/
  | nothingToFollow
  /-- A description needs the directory of a device. -/
  | noDirectory
  /-- The settings cannot be read. -/
  | settings (path : String) (cause : SettingsError)
  /-- The log file cannot be made. -/
  | logFile (path : String) (fault : FileFault)
  deriving DecidableEq, Repr

namespace Failure

/-- The wording of a failure. -/
def message : Failure → String
  | .error e => e.message
  | .noControl => "no control file given (use --control or the config file)"
  | .nothingToFollow => "no control file given"
  | .noDirectory => "describe needs the device sysfs directory (--sysfs-dir)"
  | .settings path _ => "loading configuration " ++ path
  | .logFile path _ => "creating log file " ++ path

/-- What the system says of the cause, where it has one. -/
def cause? : Failure → Option String
  | .error e => e.fault?.map FileFault.text
  | .logFile _ fault => some fault.text
  | _ => none

/-- The failure in one line, with its cause behind it. -/
def account (f : Failure) : String :=
  f.message ++ ((f.cause?.map fun cause => ": " ++ cause).getD "")

/-- The failure as a report of some lines. -/
def report (f : Failure) : List String :=
  ["Error: " ++ f.message] ++
    ((f.cause?.map fun cause => ["", "Caused by:", "    " ++ cause]).getD [])

end Failure

/-- A dialogue that may end with a failure. -/
abbrev Job := ExceptT Failure Dialogue

namespace Job

/-- An exchange, of which an error is a failure. -/
def ofExchange {α : Type} (e : Exchange α) : Job α :=
  ExceptT.mk (e.run >>= fun
    | .ok a => .done (.ok a)
    | .error e => .done (.error (.error e)))

end Job

/-- What a command comes to. -/
inductive Plan where
  /-- Work that comes to an end. -/
  | work (job : Job Unit)
  /-- A device to follow, whose blocks are in a byte order. -/
  | follow (m : Monitor) (order : ByteOrder)

namespace Program

/-- What the program says of its version. -/
def versionText : String := "zio-ctl 0.1.0\n"

/-- The shape of a command line. -/
def usageText : String := "Usage: zio-ctl [OPTIONS] <COMMAND>"

/-- What the program says when it is asked for help. -/
def helpText : String :=
  "Inspect and edit ZIO control blocks\n\n" ++ usageText ++ "\n\n" ++
  "Commands:\n" ++
  "  show [--fields]                             Print the current control\n" ++
  "  set <NAME=VALUE>... [--force] [--dry-run]   Edit fields and write the control back\n" ++
  "  describe                                    List the attributes described by the device\n" ++
  "  triggers                                    List the triggers the kernel offers\n" ++
  "  monitor [-n <COUNT>] [-t <SECONDS>]         Follow a device and report every block\n" ++
  "  template                                    Print a commented configuration file\n\n" ++
  "Options:\n" ++
  "  -c, --config <CONFIG>        Configuration file [default: zio-ctl.toml]\n" ++
  "  -f, --control <CONTROL>      Control file (device node or sysfs file)\n" ++
  "  -s, --sysfs-dir <SYSFS_DIR>  sysfs directory of the device, for attribute names\n" ++
  "  -h, --help                   Print help\n" ++
  "  -V, --version                Print version\n"

/-- A text filled up with spaces on its right. -/
def column (width : Nat) (text : String) : String :=
  String.ofList (Text.padRight width text.toList)

/-- The line for a field, with the label of its slot if there is something in the slot. -/
def fieldLine (d : Description) (name text : String) : String :=
  match d.fieldLabel? name with
  | some label =>
    if text.isEmpty then column 20 name ++ " " ++ text ++ "\n"
    else column 20 name ++ " " ++ column 12 text ++ " # " ++ label ++ "\n"
  | none => column 20 name ++ " " ++ text ++ "\n"

/-- The line for an attribute that a device describes. -/
def descriptorLine (d : Descriptor) : String :=
  String.ofList (Text.padLeft 2 ' ' (Text.decimal d.index).toList) ++ " " ++
    (match d.kind with
      | .extended => "e"
      | .standard => "s") ++ " " ++
    (if d.isReadable then "r" else "-") ++ (if d.isWritable then "w" else "-") ++ " " ++
    column 8 d.owner.word ++ " " ++ d.path ++ "\n"

/-- What a block is shown as while a device is followed. -/
def sightingText (b : Block) : String := b.summary ++ "\n"

/-- Starts a session, for which there has to be a control file. -/
def start (control directory : Option String) : Job Session :=
  match control with
  | some path => Job.ofExchange (Session.start path directory)
  | none => throw .noControl

/-- Shows the control, and the fields of its form if wanted. -/
def «show» (control directory : Option String) (fields : Bool) (order : ByteOrder) :
    Job Unit := do
  let session ← start control directory
  Job.ofExchange do
    let b ← session.read order
    Exchange.print b.summary
    if fields then
      for (name, text) in (Form.ofBlock b).entries do
        Exchange.print (fieldLine session.description name text)

/-- Edits the control and writes it, or only shows it. If wanted it is written only if the device
takes it. What the device holds afterwards is shown. -/
def set (control directory : Option String) (assignments : List (String × String))
    (check dryRun : Bool) (order : ByteOrder) : Job Unit := do
  let session ← start control directory
  Job.ofExchange do
    let current ← session.read order
    let form ← Exchange.ofExcept ((Form.ofBlock current).setAll assignments)
    let b := form.apply current
    if check then Session.check b current
    -- a dry run shows what would be written
    if dryRun then Exchange.print b.summary
    else
      session.write b order
      let now ← session.read order
      if now ≠ b then Exchange.note .adjusted
      Exchange.print now.summary

/-- Lists the attributes that the device describes. -/
def describe (control directory : Option String) : Job Unit := do
  let session ← start control directory
  if directory.isNone then throw .noDirectory
  Job.ofExchange do
    for d in session.description.descriptors do
      Exchange.print (descriptorLine d)

/-- Lists the triggers. -/
def triggers (path : String) : Job Unit :=
  Job.ofExchange do
    for name in ← Device.availableTriggers path do
      Exchange.print (name ++ "\n")

/-- What an invocation comes to. What it does not say is taken from the settings. -/
def plan (inv : Invocation) (settings : Settings) (order : ByteOrder := .little) : Plan :=
  let control := inv.control <|> settings.control
  let directory := inv.directory <|> settings.directory
  match inv.command with
  | .show fields => .work (Program.show control directory fields order)
  | .set assignments force dryRun =>
    .work (set control directory assignments (settings.checkBeforeWrite && !force) dryRun order)
  | .describe => .work (describe control directory)
  | .triggers => .work (triggers settings.availableTriggers)
  | .monitor count seconds =>
    match control with
    | some path => .follow { path := path, limit := count, seconds := seconds } order
    | none => .work (throw .nothingToFollow)
  | .template => .work (Job.ofExchange (Exchange.print Settings.template))

/-- Reads the settings for an invocation. -/
def load (env : Environment) (inv : Invocation) : Job Settings := do
  match ← (Settings.load env inv.config : Dialogue _) with
  | .ok settings => return settings
  | .error cause => throw (.settings inv.config cause)

/-- Reads the settings, starts the log, and says what is to be done. -/
def prepare (env : Environment) (inv : Invocation) (order : ByteOrder) : Job Plan := do
  let settings ← load env inv
  let request := Request.startLog settings.logFile settings.logLevel
  match ← (Dialogue.request request : Dialogue (Except FileFault Unit)) with
  | .ok () => return plan inv settings order
  | .error fault => throw (.logFile (settings.logFile.getD "") fault)

/-- Records how the work went. -/
def finish (result : Except Failure Unit) : Dialogue Unit :=
  match result with
  | .ok () => pure ()
  | .error failure => Dialogue.request (.note (.failed failure.account))

end Program

/-- What a program that ended leaves behind. -/
structure Outcome where
  /-- The status that it ends with. -/
  status : Nat
  /-- The texts on its error output, of which each ends its line. The records come without their
  time. -/
  errors : List String
  /-- The world after it. -/
  world : World

namespace Program

/-- Carries out a plan alone in a world. A device is followed as long as its file goes, and no time
passes meanwhile. -/
def carryOut (plan : Plan) (w : World) : Except Failure Unit × World :=
  match plan with
  | .work job => job.run.run w
  | .follow m order =>
    let followed := m.run w.store order
    let w := followed.notices.foldl World.note w
    let w := (followed.sightings.map fun s => sightingText s.block).foldl World.print w
    match followed.result with
    | .ok _ => (.ok (), w)
    | .error e => (.error (.error e), w)

/-- What a program that is not asked for a command leaves behind. -/
def refuse (w : World) : Refusal → Outcome
  | .usage => {
      status := 2
      errors := ["error: the arguments are not understood", "", usageText]
      world := w }
  | .help => { status := 0, errors := [], world := w.print helpText }
  | .version => { status := 0, errors := [], world := w.print versionText }

/-- The whole program alone in a world. -/
def run (env : Environment) (line : List String) (w : World)
    (order : ByteOrder := .little) : Outcome :=
  match Invocation.parse line with
  | .error refusal => refuse w refusal
  | .ok inv =>
    match (prepare env inv order).run.run w with
    | (.error failure, w) => { status := 1, errors := failure.report, world := w }
    | (.ok plan, w) =>
      let (result, w) := carryOut plan w
      let (_, w) := (finish result).run w
      match result with
      | .ok () => { status := 0, errors := w.records, world := w }
      | .error failure => { status := 1, errors := w.records ++ failure.report, world := w }

end Program

end ZioControl
