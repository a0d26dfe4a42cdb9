import ZioControl.Text.Numeral

/-!
# Notices

What the library has to say beside its results: each notice is a thing that happened, with the
severity and the wording of its record in the log.
-/

namespace ZioControl

/-- How grave a notice is. -/
inductive Severity where
  | info
  | warning
  | error
  deriving DecidableEq, Repr, Inhabited

/-- Something worth a record in the log. -/
inductive Notice where
  /-- A control has another minor version than the device. -/
  | minorVersion (own device : UInt8)
  /-- The channel's resolution does not fit the field for the bits of a sample. -/
  | wideResolution (value : UInt32)
  /-- A block's sequence number does not follow the one before it. -/
  | wentBack (last sequence : UInt32)
  /-- Blocks are missing before the one with this sequence number. -/
  | blocksLost (count sequence : UInt32)
  /-- A control was written to a file. -/
  | wrote (path : String) (sequence : UInt32)
  /-- The device holds another control than the one written to it. -/
  | adjusted
  /-- The program failed, with this account of the failure. -/
  | failed (account : String)
  /-- A device is being followed for so many seconds, with the rate of its blocks in a second. -/
  | following (seconds blocks : Nat) (lost : UInt64) (rate : String)
  /-- A device was followed for a time, in seconds. -/
  | followed (blocks : Nat) (time : String) (lost : UInt64)
  deriving DecidableEq, Repr

namespace Notice

/-- The severity of each notice. -/
def severity : Notice → Severity
  | .minorVersion .. | .wideResolution .. | .wentBack .. | .blocksLost .. => .warning
  | .wrote .. | .adjusted | .following .. | .followed .. => .info
  | .failed .. => .error

/-- The wording of each notice. -/
def text : Notice → String
  | .minorVersion own device =>
    "different ZIO minor version (" ++ Text.decimal own.toNat ++ " vs " ++
      Text.decimal device.toNat ++ ")"
  | .wideResolution value =>
    "nbits attribute " ++ Text.decimal value.toNat ++ " does not fit the nbits field"
  | .wentBack last sequence =>
    "sequence number went back from " ++ Text.decimal last.toNat ++ " to " ++
      Text.decimal sequence.toNat
  | .blocksLost count sequence =>
    Text.decimal count.toNat ++ " block(s) lost before seq " ++ Text.decimal sequence.toNat
  | .wrote path sequence =>
    path ++ ": wrote control seq " ++ Text.decimal sequence.toNat ++ " (512 bytes)"
  | .adjusted => "device adjusted the control after write"
  | .failed account => account
  | .following seconds blocks lost rate =>
    "Time (s): " ++ Text.decimal seconds ++ "\tBlocks: " ++ Text.decimal blocks ++ "\tLost: " ++
      Text.decimal lost.toNat ++ "\tRate (blocks/s): " ++ rate
  | .followed blocks time lost =>
    Text.decimal blocks ++ " blocks in " ++ time ++ " s, " ++ Text.decimal lost.toNat ++ " lost"

end Notice

/-- The word for a severity in a log. -/
def Severity.label : Severity → String
  | .info => "INFO"
  | .warning => "WARN"
  | .error => "ERROR"

/-- How grave a record has to be to be logged. -/
inductive LogLevel where
  | off
  | error
  | warn
  | info
  | debug
  | trace
  deriving DecidableEq, Repr, Inhabited

namespace LogLevel

/-- The word for a level in the file. -/
def word : LogLevel → String
  | .off => "off"
  | .error => "error"
  | .warn => "warn"
  | .info => "info"
  | .debug => "debug"
  | .trace => "trace"

/-- The level of a word. -/
def ofWord? (word : String) : Option LogLevel :=
  [off, error, warn, info, debug, trace].find? fun level => level.word = word

/-- Whether a record of some severity is logged. -/
def admits : LogLevel → Severity → Bool
  | .off, _ => false
  | .error, severity => severity = .error
  | .warn, severity => severity ≠ .info
  | .info, _ | .debug, _ | .trace, _ => true

end LogLevel

/-- The record of a notice, without its time. -/
def Notice.record (notice : Notice) : String :=
  "[" ++ notice.severity.label ++ "] " ++ notice.text

end ZioControl
