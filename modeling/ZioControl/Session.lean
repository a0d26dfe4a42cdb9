import ZioControl.Block.Acceptance
import ZioControl.Codec
import ZioControl.Description
import ZioControl.Dialogue
import ZioControl.Form

/-!
# Sessions

A session points at one device: at the file of its control, and at the directory that describes its
attributes if there is one (§10.6 of `SPEC_FULL.md`). The description that a session holds is always
the one of the device it points at, since `start` and `retarget` set all three together or not at
all. The block in a control file has the byte order of the host, which is little-endian where no
other one is given.
-/

namespace ZioControl

namespace Device

/-- The file in a device's directory that describes its attributes. -/
def descriptionName : String := "control-description"

/-- The block that the control file holds, in the byte order of the host. -/
def readControl (path : String) (order : ByteOrder := .little) : Exchange Block := do
  let bytes ← Exchange.ofFile path (Dialogue.request (.readBlock path))
  Exchange.ofExcept (Block.decode order bytes)

/-- Writes a block to the control file, in the byte order of the host. A block without bytes leaves
the file alone. -/
def writeControl (path : String) (b : Block) (order : ByteOrder := .little) :
    Exchange Unit := do
  let bytes ← Exchange.ofExcept (b.encode order)
  Exchange.ofFile path (Dialogue.request (.writeBlock path bytes))
  Exchange.note (.wrote path b.sequence)

/-- The text of a file. -/
def readText (path : String) : Exchange (List Char) := do
  let bytes ← Exchange.ofFile path (Dialogue.request (.readFile path))
  match Utf8.decode? bytes with
  | some text => pure text
  | none => throw (.file path .notText)

/-- What the device of this directory says of its attributes. -/
def readDescription (directory : String) : Exchange Description := do
  let text ← readText (Path.join directory descriptionName)
  Exchange.ofExcept (Description.parse text)

/-- The names of triggers in a text, one a line. -/
def triggerNames (text : List Char) : List String :=
  (((Text.lines text).map Text.trim).filter fun line => !line.isEmpty).map String.ofList

/-- The triggers that a file lists. -/
def availableTriggers (path : String) : Exchange (List String) := do
  return triggerNames (← readText path)

end Device

/-- A device that is being worked on. -/
structure Session where
  /-- The path of its control file. -/
  control : String
  /-- The directory that describes its attributes. -/
  directory : Option String
  /-- What it says of its attributes, nothing if there is no such directory. -/
  description : Description
  deriving DecidableEq, Repr

namespace Session

/-- What the device of a directory says of its attributes, nothing if there is no directory. -/
def describe : Option String → Exchange Description
  | some directory => Device.readDescription directory
  | none => pure {}

/-- A session on a device. -/
def start (control : String) (directory : Option String) : Exchange Session := do
  let description ← describe directory
  return { control, directory, description }

/-- Moves a session to another device, of which it then has the description. If that cannot be
read, the session stays where it is. -/
def retarget (s : Session) (control : String) (directory : Option String) :
    Dialogue (Except Error Unit × Session) := do
  match ← (describe directory).run with
  | .ok description => return (.ok (), { control, directory, description })
  | .error e => return (.error e, s)

/-- The control that the device holds. -/
def read (s : Session) (order : ByteOrder := .little) : Exchange Block :=
  Device.readControl s.control order

/-- Writes a control to the device. -/
def write (s : Session) (b : Block) (order : ByteOrder := .little) : Exchange Unit :=
  Device.writeControl s.control b order

/-- Checks that the device, which holds `current`, takes a control. -/
def check (b current : Block) : Exchange Unit := do
  if let some notice := b.versionNotice? current then Exchange.note notice
  Exchange.ofExcept (b.checkAgainst current)

/-- Writes a control that the device takes, and reads back what the device then holds. -/
def apply (s : Session) (b : Block) (order : ByteOrder := .little) :
    Exchange Block := do
  let current ← s.read order
  check b current
  s.write b order
  -- the device may have changed what was written
  s.read order

/-- Edits fields of the control that the device holds, and applies the result. -/
def edit (s : Session) (assignments : List (String × String))
    (order : ByteOrder := .little) : Exchange Block := do
  let current ← s.read order
  let form ← Exchange.ofExcept ((Form.ofBlock current).setAll assignments)
  s.apply (form.apply current) order

end Session

end ZioControl
