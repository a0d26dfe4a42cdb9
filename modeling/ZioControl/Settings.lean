import ZioControl.Dialogue
import ZioControl.Session
import ZioControl.Toml.Document

/-!
# Settings

What the program does not have to be told on its command line (§10.7 of `SPEC_FULL.md`). Settings
come from two environment variables, then from a file, then from the defaults; each such layer may
leave any of them open.
-/

namespace ZioControl

/-- The settings. -/
structure Settings where
  /-- The control file to work on, unless the command line names one. -/
  control : Option String := none
  /-- The directory of the device, unless the command line names one. -/
  directory : Option String := none
  /-- The file that lists the triggers. -/
  availableTriggers : String := "/sys/bus/zio/available_triggers"
  /-- Whether a control is checked before it is written. -/
  checkBeforeWrite : Bool := true
  /-- Which records are logged. -/
  logLevel : LogLevel := .info
  /-- The file to which they are logged, besides the terminal. -/
  logFile : Option String := none
  deriving DecidableEq, Repr, Inhabited

/-- The variables of the environment that count. -/
structure Environment where
  /-- The control file. -/
  control : Option String := none
  /-- The directory of the device. -/
  directory : Option String := none
  deriving DecidableEq, Repr, Inhabited

namespace Environment

/-- The variable for the control file. -/
def controlVariable : String := "ZIO_CTL_CONTROL"

/-- The variable for the directory of the device. -/
def directoryVariable : String := "ZIO_CTL_SYSFS_DIR"

end Environment

/-- The settings that one source makes. -/
structure Layer where
  control : Option String := none
  directory : Option String := none
  availableTriggers : Option String := none
  checkBeforeWrite : Option Bool := none
  logLevel : Option LogLevel := none
  logFile : Option String := none
  deriving DecidableEq, Repr, Inhabited

/-- Why settings cannot be read. -/
inductive SettingsError where
  /-- The name of the file does not say that it is a TOML file. -/
  | unknownFormat
  /-- The file cannot be read. -/
  | unreadable (fault : FileFault)
  /-- The file is not a text. -/
  | notText
  /-- The text is not TOML. -/
  | malformed
  /-- A setting has a value of the wrong sort. -/
  | mistyped
  /-- Nothing can hold a number of the text. -/
  | outOfRange
  deriving DecidableEq, Repr

namespace Layer

/-- A layer, with what it leaves open taken from another one. -/
def orElse (upper lower : Layer) : Layer where
  control := upper.control <|> lower.control
  directory := upper.directory <|> lower.directory
  availableTriggers := upper.availableTriggers <|> lower.availableTriggers
  checkBeforeWrite := upper.checkBeforeWrite <|> lower.checkBeforeWrite
  logLevel := upper.logLevel <|> lower.logLevel
  logFile := upper.logFile <|> lower.logFile

/-- The settings of a layer, with what it leaves open by default. -/
def settle (layer : Layer) : Settings :=
  let default : Settings := {}
  { control := layer.control
    directory := layer.directory
    availableTriggers := layer.availableTriggers.getD default.availableTriggers
    checkBeforeWrite := layer.checkBeforeWrite.getD default.checkBeforeWrite
    logLevel := layer.logLevel.getD default.logLevel
    logFile := layer.logFile }

/-- What the environment sets. -/
def ofEnvironment (env : Environment) : Layer where
  control := env.control
  directory := env.directory

/-- A setting that is a text. -/
def text? : Toml.Value → Option String
  | .string text => some text
  | _ => none

/-- A setting that is true or false. -/
def flag? : Toml.Value → Option Bool
  | .boolean b => some b
  | _ => none

/-- A setting that is a level: its word, or a table with the word as its one key and nothing in
it. -/
def level? : Toml.Value → Option LogLevel
  | .string word => LogLevel.ofWord? word
  | .table _ [(word, .table _ [])] | .table _ [(word, .array [])] => LogLevel.ofWord? word
  | _ => none

/-- A setting of a section, nothing if the section does not have it, and an error if it is of the
wrong sort. -/
def setting {α : Type} (section? : Option Toml.Table) (key : String)
    (read : Toml.Value → Option α) : Except SettingsError (Option α) :=
  match section?.bind fun entries => entries.get? key with
  | none => .ok none
  | some value =>
    match read value with
    | some a => .ok (some a)
    | none => .error .mistyped

/-- A section of a document, if it is there. It may also be an array of the values of all its keys
in their order, with anything behind them, and a date is a section that sets nothing. -/
def sectionOf (document : Toml.Table) (name : String) (keys : List String) :
    Except SettingsError (Option Toml.Table) :=
  let listed (values : List Toml.Value) :=
    if values.length < keys.length then .error .mistyped else .ok (some (keys.zip values))
  match document.get? name with
  | none => .ok none
  | some (.table _ entries) => .ok (some entries)
  | some (.array values) => listed values
  | some (.tables tables) => listed (tables.map (.table .header))
  | some (.date _) => .ok (some [])
  | some _ => .error .mistyped

/-- Checks that something can hold every number in the values of a table. -/
def checkNumbers (entries : Toml.Table) : Except SettingsError Unit :=
  if Toml.entriesReadable entries then .ok () else .error .outOfRange

/-- What a document sets. Keys that are no settings do not count, but their values have to be such
that something can hold them. -/
def ofDocument (document : Toml.Table) : Except SettingsError Layer := do
  let device ← sectionOf document "device"
    ["control", "sysfs_dir", "available_triggers", "check_before_write"]
  let log ← sectionOf document "log" ["level", "file"]
  checkNumbers (device.getD [])
  checkNumbers (log.getD [])
  checkNumbers (document.filter fun (name, _) => name ≠ "device" ∧ name ≠ "log")
  return {
    control := ← setting device "control" text?
    directory := ← setting device "sysfs_dir" text?
    availableTriggers := ← setting device "available_triggers" text?
    checkBeforeWrite := ← setting device "check_before_write" flag?
    logLevel := ← setting log "level" level?
    logFile := ← setting log "file" text? }

/-- What a file with these bytes sets. -/
def ofBytes (bytes : List UInt8) : Except SettingsError Layer :=
  match Utf8.decode? bytes with
  | none => .error .notText
  | some text =>
    match Toml.parse? text with
    | none => .error .malformed
    | some document => ofDocument document

/-- What the file of a path sets, by what reading it gave. A file that is not there sets nothing. -/
def ofFile (path : String) (read : Except FileFault (List UInt8)) : Except SettingsError Layer :=
  if Path.extension? path ≠ some "toml" then .error .unknownFormat
  else
    match read with
    | .ok bytes => ofBytes bytes
    | .error .notFound => .ok {}
    | .error fault => .error (.unreadable fault)

end Layer

/-- Reads the settings for an environment and the file of a path. -/
def Settings.load (env : Environment) (path : String) :
    Dialogue (Except SettingsError Settings) := do
  let read ← Dialogue.request (.readFile path)
  return (Layer.ofFile path read).map fun file => ((Layer.ofEnvironment env).orElse file).settle

end ZioControl
