/-!
# Arguments

The common grammar of command lines. Arguments are options, which begin with a dash, and operands.
An option has a long spelling and perhaps a short one of a letter; it may take a value, which is
written in the same argument or is the next one, and it may be given once. Behind two dashes alone
everything is an operand.
-/

namespace ZioControl

/-- Why a command line is not carried out as a command. -/
inductive Refusal where
  /-- It is not well formed. -/
  | usage
  /-- It asks for help. -/
  | help
  /-- It asks for the version. -/
  | version
  deriving DecidableEq, Repr

/-- An option that a command line may have. -/
structure OptionSpec where
  /-- The long spelling, which follows two dashes. -/
  long : String
  /-- The short spelling, which follows one dash. -/
  short : Option Char := none
  /-- Whether a text is a value of the option. An option without one takes no value. -/
  value? : Option (String → Bool) := none

/-- What the arguments of a command may be. -/
structure Grammar where
  /-- Its options, apart from those for help and for the version. -/
  options : List OptionSpec := []
  /-- Whether it knows the option for the version. -/
  hasVersion : Bool := false
  /-- Whether a text is one of its operands. -/
  isOperand : String → Bool := fun _ => false
  /-- The operands that end the arguments of this command and begin those of another one. -/
  subcommands : List String := []

/-- The arguments of a command, read. -/
structure Arguments where
  /-- The options given, each with its value if it takes one. -/
  options : List (String × Option String) := []
  /-- The operands in order. -/
  operands : List String := []
  /-- The operand that begins another command, with the arguments behind it. -/
  subcommand : Option (String × List String) := none
  deriving DecidableEq, Repr

namespace Arguments

/-- Whether an option was given. -/
def has (a : Arguments) (long : String) : Bool := a.options.any (·.1 == long)

/-- The value of an option, if it was given. -/
def value? (a : Arguments) (long : String) : Option String := (a.options.lookup long).join

/-- The arguments with one more option, which must not be given twice. -/
def addOption (a : Arguments) (long : String) (value : Option String) :
    Except Refusal Arguments :=
  if a.has long then .error .usage else .ok { a with options := a.options ++ [(long, value)] }

/-- The arguments with one more operand. -/
def addOperand (g : Grammar) (a : Arguments) (text : String) : Except Refusal Arguments :=
  if g.isOperand text then .ok { a with operands := a.operands ++ [text] } else .error .usage

/-- Whether an argument is no option. A dash alone is none. -/
def isPlain (arg : List Char) : Bool := arg.head? != some '-' || arg.length == 1

/-- What an option at the end of an argument leads to. -/
inductive Pending where
  /-- The option is complete. -/
  | complete (a : Arguments)
  /-- The option still needs its value. -/
  | needs (a : Arguments) (spec : OptionSpec) (accepts : String → Bool)

/-- Reads an option by its long spelling, with the value that follows an equality sign. -/
def readLong (g : Grammar) (a : Arguments) (name : String) (attached : Option String) :
    Except Refusal Pending :=
  match g.options.find? (·.long == name) with
  | some spec =>
    match spec.value?, attached with
    | none, none => (a.addOption name none).map .complete
    | none, some _ => .error .usage
    | some accepts, some value =>
      if accepts value then (a.addOption name value).map .complete else .error .usage
    | some accepts, none => .ok (.needs a spec accepts)
  | none =>
    if attached.isSome then .error .usage
    else if name = "help" then .error .help
    else if name = "version" ∧ g.hasVersion then .error .version
    else .error .usage

/-- Reads options by their short spellings, one letter each. What follows the letter of an option
with a value is that value, an equality sign in front apart. -/
def readShort (g : Grammar) (a : Arguments) : List Char → Except Refusal Pending
  | [] => .ok (.complete a)
  | letter :: rest =>
    match g.options.find? (·.short == some letter) with
    | some spec =>
      match spec.value? with
      | none => do
        let a ← a.addOption spec.long none
        readShort g a rest
      | some accepts =>
        match rest with
        | [] => .ok (.needs a spec accepts)
        | rest =>
          let value := String.ofList (if rest.head? = some '=' then rest.drop 1 else rest)
          if accepts value then (a.addOption spec.long value).map .complete else .error .usage
    | none =>
      if letter = 'h' then .error .help
      else if letter = 'V' ∧ g.hasVersion then .error .version
      else .error .usage

/-- Reads one argument that is an option. -/
def readOption (g : Grammar) (a : Arguments) (arg : List Char) : Except Refusal Pending :=
  match arg with
  | '-' :: '-' :: name =>
    let key := String.ofList (name.takeWhile (· ≠ '='))
    match name.dropWhile (· ≠ '=') with
    | _ :: value => readLong g a key (some (String.ofList value))
    | [] => readLong g a key none
  | '-' :: letters => readShort g a letters
  | _ => .error .usage

/-- Reads the arguments of a command. -/
def read (g : Grammar) (a : Arguments) : List String → Except Refusal Arguments
  | [] => .ok a
  | arg :: rest =>
    -- behind two dashes there are neither options nor other commands
    if arg = "--" then rest.foldlM (addOperand g) a
    else if isPlain arg.toList then
      if arg ∈ g.subcommands then .ok { a with subcommand := some (arg, rest) }
      else do
        let a ← addOperand g a arg
        read g a rest
    else
      match readOption g a arg.toList with
      | .error refusal => .error refusal
      | .ok (.complete a) => read g a rest
      -- the value is the next argument, which must not look like an option
      | .ok (.needs a spec accepts) =>
        match rest with
        | [] => .error .usage
        | value :: rest =>
          if isPlain value.toList ∧ accepts value then do
            let a ← a.addOption spec.long (some value)
            read g a rest
          else .error .usage

end Arguments

end ZioControl
