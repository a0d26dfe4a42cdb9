import ZioControl.Arguments
import ZioControl.Text.Numeral
import ZioControl.Text.Quoted

/-!
# Invocations

What a command line asks the program to do: the options that hold for every command, which stand in
front of it, and the command with its own.
-/

namespace ZioControl

/-- What the program can be asked to do. -/
inductive Command where
  /-- Show the control, and every field of its form if wanted. -/
  | «show» (fields : Bool)
  /-- Edit fields and write the control, even if the device would not take it, or only show it. -/
  | set (assignments : List (String × String)) (force dryRun : Bool)
  /-- List the attributes that the device describes. -/
  | describe
  /-- List the triggers. -/
  | triggers
  /-- Follow the device up to a count of blocks and of seconds. -/
  | monitor (count seconds : Option Nat)
  /-- Put out a template of the settings. -/
  | template
  deriving DecidableEq, Repr

/-- A command line that can be carried out. -/
structure Invocation where
  /-- The file of the settings. -/
  config : String := "zio-ctl.toml"
  /-- The control file. -/
  control : Option String := none
  /-- The directory of the device. -/
  directory : Option String := none
  /-- What to do. -/
  command : Command
  deriving DecidableEq, Repr

/-- The name and the value of an assignment: what stands before its first equality sign, without the
blanks around it, and all that stands behind. -/
def assignment? (arg : String) : Option (String × String) :=
  let chars := arg.toList
  match chars.dropWhile (· ≠ '=') with
  | _ :: value =>
    some (String.ofList (Text.trim (chars.takeWhile (· ≠ '='))), String.ofList value)
  | [] => none

/-- The wording of what is wrong with an argument that is no assignment. -/
def assignmentMessage (arg : String) : String := "expected name=value, got " ++ Text.quoted arg

namespace Invocation

/-- Whether a text is a path, which has at least one character. -/
def isPath (text : String) : Bool := !text.isEmpty

/-- The number that a text writes in 64 bits. -/
def count? (text : String) : Option Nat := Text.unsigned? 10 UInt64.size text.toList

/-- The names of the commands, and of the one that asks for help. -/
def commandNames : List String :=
  ["show", "set", "describe", "triggers", "monitor", "template", "help"]

/-- The options in front of the command. -/
def mainGrammar : Grammar where
  options := [
    { long := "config", short := some 'c', value? := some isPath },
    { long := "control", short := some 'f', value? := some isPath },
    { long := "sysfs-dir", short := some 's', value? := some isPath }]
  hasVersion := true
  subcommands := commandNames

/-- What follows the name of each command. -/
def commandGrammar (name : String) : Grammar :=
  match name with
  | "show" => { options := [{ long := "fields" }] }
  | "set" => {
      options := [{ long := "force" }, { long := "dry-run" }]
      isOperand := fun arg => (assignment? arg).isSome }
  | "monitor" => {
      options := [
        { long := "count", short := some 'n', value? := some fun t => (count? t).isSome },
        { long := "seconds", short := some 't', value? := some fun t => (count? t).isSome }] }
  | _ => {}

/-- What a request for help on some commands comes to: help, if there are such commands. -/
def helpRefusal (names : List String) : Refusal :=
  match names with
  | [] => .help
  | [name] => if name ∈ commandNames then .help else .usage
  | _ => .usage

/-- The command of a name with its arguments. -/
def command? (name : String) (args : Arguments) : Option Command :=
  match name with
  | "show" => some (.show (args.has "fields"))
  | "set" =>
    if args.operands.isEmpty then none
    else some (.set (args.operands.filterMap assignment?) (args.has "force") (args.has "dry-run"))
  | "describe" => some .describe
  | "triggers" => some .triggers
  | "monitor" => some (.monitor ((args.value? "count").bind count?)
      ((args.value? "seconds").bind count?))
  | "template" => some .template
  | _ => none

/-- What a command line asks for. -/
def parse (line : List String) : Except Refusal Invocation := do
  let front ← Arguments.read mainGrammar {} line
  match front.subcommand with
  | none => .error .usage
  | some ("help", names) => .error (helpRefusal names)
  | some (name, rest) =>
    let args ← Arguments.read (commandGrammar name) {} rest
    match command? name args with
    | none => .error .usage
    | some command => return {
        config := (front.value? "config").getD "zio-ctl.toml"
        control := front.value? "control"
        directory := front.value? "sysfs-dir"
        command := command }

end Invocation

end ZioControl
