import ZioControl.Text.Numeral
import ZioControl.Text.Quoted

/-!
# Errors

Everything that can go wrong with controls, each as its cause; `Error.message` words them, and
`Error.category` sorts them into malformed input, values that cannot be taken, and files, the three
kinds of §7 of `SPEC_FULL.md`.
-/

namespace ZioControl

/-- Why a name cannot be stored in a block. -/
inductive NameFault where
  /-- It has this many bytes, which is more than the field holds. -/
  | tooLong (bytes : Nat)
  /-- It contains the byte that ends a name. -/
  | embeddedNul
  /-- It ends in a space, which would be taken for padding. -/
  | trailingSpace
  deriving DecidableEq, Repr

/-- Why a device does not take a control. -/
inductive Rejection where
  | version (own device : UInt8)
  | sampleSize (own device : UInt16)
  | address
  | samples (own trigger : UInt32)
  | bits (own : UInt16) (resolution : UInt32)
  deriving DecidableEq, Repr

/-- Why a line does not describe an attribute. -/
inductive LineFault where
  | fields
  | index
  | mode
  deriving DecidableEq, Repr

/-- Why a file operation failed. -/
inductive FileFault where
  | notFound
  | isDirectory
  | notDirectory
  /-- A step of the path, or the whole path, is longer than the system takes. -/
  | nameTooLong
  /-- The path contains the byte that ends a path. -/
  | embeddedNul
  | noSpace
  | notText
  | timedOut
  /-- Any other failure, with the system's own words. -/
  | other (text : String)
  deriving DecidableEq, Repr

/-- What went wrong. -/
inductive Error where
  /-- There are this many bytes, fewer than a block has. -/
  | shortBlock (bytes : Nat)
  /-- A line does not describe an attribute. -/
  | badLine (line : String) (fault : LineFault)
  /-- The name in this field cannot be stored. -/
  | badName (field : String) (fault : NameFault)
  /-- The device would not take the control. -/
  | rejected (cause : Rejection)
  /-- The form has no such field. -/
  | unknownField (name : String)
  /-- The field cannot be edited. -/
  | readOnly (field : String)
  /-- A file operation failed. -/
  | file (path : String) (fault : FileFault)
  deriving DecidableEq, Repr

/-- The bytes that a block has. -/
def blockSize : Nat := 512

/-- The bytes that a name in a block has. -/
def nameSize : Nat := 12

/-- The wording of a rejection. -/
def Rejection.text : Rejection → String
  | .version own device =>
    "incompatible ZIO version " ++ Text.decimal own.toNat ++ ", device has " ++
      Text.decimal device.toNat
  | .sampleSize own device =>
    "sample size is fixed at " ++ Text.decimal device.toNat ++ ", got " ++ Text.decimal own.toNat
  | .address => "the zio address cannot change"
  | .samples own trigger =>
    "nsamples " ++ Text.decimal own.toNat ++ " differs from pre + post samples " ++
      Text.decimal trigger.toNat
  | .bits own resolution =>
    "nbits " ++ Text.decimal own.toNat ++ " differs from the nbits attribute " ++
      Text.decimal resolution.toNat

/-- The wording of what is wrong with a line. -/
def LineFault.text : LineFault → String
  | .fields => "expected 4 fields"
  | .index => "index is not a number"
  | .mode => "mode is not a number"

/-- The wording of a failed file operation. -/
def FileFault.text : FileFault → String
  | .notFound => "No such file or directory (os error 2)"
  | .isDirectory => "Is a directory (os error 21)"
  | .notDirectory => "Not a directory (os error 20)"
  | .nameTooLong => "File name too long (os error 36)"
  | .embeddedNul => "file name contained an unexpected NUL byte"
  | .noSpace => "No space left on device (os error 28)"
  | .notText => "stream did not contain valid UTF-8"
  | .timedOut => "timed out"
  | .other text => text

namespace Error

/-- The wording of an error. -/
def message : Error → String
  | .shortBlock bytes =>
    "control buffer holds " ++ Text.decimal bytes ++ " bytes, at least " ++
      Text.decimal blockSize ++ " are required"
  | .badLine line fault =>
    "bad control-description line " ++ Text.quoted line ++ ": " ++ fault.text
  | .badName field (.tooLong bytes) =>
    field ++ " is " ++ Text.decimal bytes ++ " bytes long, the field holds at most " ++
      Text.decimal nameSize
  | .badName field .embeddedNul => field ++ " contains a NUL byte"
  | .badName field .trailingSpace => field ++ " ends with a space, which reads back as padding"
  | .rejected cause => "control rejected: " ++ cause.text
  | .unknownField name => "no control field named " ++ Text.quoted name
  | .readOnly field => field ++ " is read-only"
  | .file path fault => path ++ ": " ++ fault.text

/-- The three sorts of errors. -/
inductive Category where
  /-- Input that is malformed. -/
  | format
  /-- A value that cannot be stored or that a device would not take. -/
  | validation
  /-- A file that could not be read or written. -/
  | file
  deriving DecidableEq, Repr

/-- The sort of an error. -/
def category : Error → Category
  | .shortBlock .. | .badLine .. => .format
  | .badName .. | .rejected .. | .unknownField .. | .readOnly .. => .validation
  | .file .. => .file

/-- The failure of the file operation behind an error, if there is one. -/
def fault? : Error → Option FileFault
  | .file _ fault => some fault
  | _ => none

end Error

end ZioControl
