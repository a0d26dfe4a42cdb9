import ZioControl.Error
import ZioControl.Form.Field
import ZioControl.Text.Lines

/-!
# Descriptions of attributes

A device describes its attributes in a text, the `control-description` of §6 of `SPEC_FULL.md`: a
heading, then a line for each attribute that gives its path, its kind, its slot and its permissions
(§4.3). `Description.parse` reads such a text, and `Description.label` names a slot by what it says
(§10.6).
-/

namespace ZioControl

/-- What a device says of one attribute: `AttributeDescriptor` of §3. -/
structure Descriptor where
  /-- Where the attribute lies below the device. -/
  path : String
  /-- The kind of its slot. -/
  kind : Kind
  /-- The number of its slot. -/
  index : Nat
  /-- Whether somebody may write it. -/
  isWritable : Bool
  /-- Whether somebody may read it. -/
  isReadable : Bool
  deriving DecidableEq, Repr

namespace Descriptor

/-- The permission bits of which one lets somebody write. -/
def writeBits : Nat := 0o222

/-- The permission bits of which one lets somebody read. -/
def readBits : Nat := 0o444

/-- The attribute's own name, which is what follows the last slash of its path. -/
def name (d : Descriptor) : String :=
  String.ofList (d.path.toList.reverse.takeWhile (· ≠ '/')).reverse

/-- The path up to its last slash. -/
def directory (d : Descriptor) : String :=
  String.ofList (d.path.toList.reverse.dropWhile (· ≠ '/')).reverse

/-- Whether a word stands somewhere in a text. -/
def mentions (word : List Char) : List Char → Bool
  | [] => word.isEmpty
  | c :: rest => word.isPrefixOf (c :: rest) || mentions word rest

/-- What the attribute belongs to: the trigger if its path mentions one. -/
def owner (d : Descriptor) : Owner :=
  if mentions "trigger".toList d.path.toList then .trigger else .channel

/-- The descriptor of four words or more, or what is wrong with them. The mode is a decimal numeral
of which each bit has its meaning. -/
def ofWords : List (List Char) → Except LineFault Descriptor
  | path :: kind :: index :: mode :: _ =>
    match Text.unsigned? 10 UInt64.size index, Text.unsigned? 10 UInt32.size mode with
    | none, _ => .error .index
    | some _, none => .error .mode
    | some index, some mode => .ok {
        path := String.ofList path
        kind := if kind = ['e'] then .extended else .standard
        index := index
        isWritable := mode &&& writeBits ≠ 0
        isReadable := mode &&& readBits ≠ 0 }
  | _ => .error .fields

/-- The descriptor that a line spells, in the format of §4.3. -/
def parseLine (line : String) : Except Error Descriptor :=
  match ofWords (Text.words line.toList) with
  | .ok d => .ok d
  | .error fault => .error (.badLine line fault)

end Descriptor

/-- What a device says of its attributes, in the order in which it does. -/
structure Description where
  /-- The attributes described. -/
  descriptors : List Descriptor := []
  deriving DecidableEq, Repr, Inhabited

namespace Description

/-- The lines of a text that describe an attribute: those after the first that are not blank. -/
def describingLines (text : List Char) : List (List Char) :=
  ((Text.lines text).drop 1).filter fun line => !(Text.trim line).isEmpty

/-- The description that a text spells, or the first line of it that is wrong. -/
def parse (text : List Char) : Except Error Description :=
  ((describingLines text).mapM fun line => Descriptor.parseLine (String.ofList line)).map
    fun descriptors => ⟨descriptors⟩

/-- The first attribute described for a slot. -/
def find? (d : Description) (owner : Owner) (kind : Kind) (index : Nat) : Option Descriptor :=
  d.descriptors.find? fun a => a.kind = kind && a.index = index && a.owner = owner

/-- The name of a slot: the device's own, else the standard one, else one made from its number. -/
def label (d : Description) (owner : Owner) (kind : Kind) (index : Nat) : String :=
  -- the device's own name comes before the standard one
  match d.find? owner kind index, kind, owner.standardName? index with
  | some a, _, _ => a.name
  | none, .standard, some name => name
  | none, _, _ => "Attribute " ++ Text.decimal index

/-- The owner that a word in the name of a field stands for. -/
def ownerOfWord? (word : List Char) : Option Owner :=
  if word = Owner.channel.word.toList then some .channel
  else if word = Owner.trigger.word.toList then some .trigger
  else none

/-- The kind that a word in the name of a field stands for. -/
def kindOfWord? (word : List Char) : Option Kind :=
  if word = Kind.standard.word.toList then some .standard
  else if word = Kind.extended.word.toList then some .extended
  else none

/-- The label for the name of a field: that of its slot, if the name is one of a slot's. -/
def fieldLabel? (d : Description) (name : String) : Option String :=
  match name.toList.splitOn '.' with
  | owner :: kind :: index :: _ =>
    match ownerOfWord? owner, kindOfWord? kind, Text.unsigned? 10 UInt64.size index with
    | some owner, some kind, some index => some (d.label owner kind index)
    | _, _, _ => none
  | _ => none

end Description

end ZioControl
