import ZioControl.Error
import ZioControl.Store.Path

/-!
# Files

The files that the program sees, as a value: what lies at each place, and what reading and writing
there does. Besides directories and ordinary files there are the special files of a device: endless
zeros, of which one kind swallows what is written and the other has no space for it, and pipes.
-/

namespace ZioControl

/-- What lies at a place. -/
inductive Entry where
  | directory
  /-- An ordinary file with these bytes. -/
  | file (bytes : List UInt8)
  /-- Zeros without end. What is written is swallowed. -/
  | zeros
  /-- Zeros without end. Nothing can be written. -/
  | full
  /-- A pipe that holds these bytes and whose other end stays open. -/
  | pipe (bytes : List UInt8)
  deriving DecidableEq, Repr

/-- A place, by the names that lead to it from where the program works. -/
abbrev Place := List String

/-- The place that two dots lead to. There is nothing above the top, and what is above the place
where the program works is out of sight. -/
def Place.parent (place : Place) : Place :=
  if place = ["/"] then place
  else if place = [] ∨ place.getLast? = some ".." then place ++ [".."]
  else place.dropLast

/-- What lies at each place. -/
@[ext]
structure Store where
  /-- The entry at a place, if there is one. -/
  entry? : Place → Option Entry

namespace Store

/-- The store of a directory without files. The directories above it are there, too, but nothing
else in them can be seen. -/
def empty : Store where
  entry? place :=
    if place.all (· == "..") ∨ place = ["/"] then some .directory else none

/-- The store with another entry at a place. -/
def put (store : Store) (place : Place) (entry : Entry) : Store where
  entry? other := if other = place then some entry else store.entry? other

/-- The store with an entry at the end of a path, and with the directories that lead there. -/
def addFile (store : Store) (path : String) (entry : Entry) : Store :=
  let place := Path.steps path
  let parents := (List.range place.length).map fun n => place.take n
  (parents.foldl (fun store parent => store.put parent .directory) store).put place entry

/-- Checks that there is a directory at a place. -/
def checkDirectory (store : Store) (place : Place) : Except FileFault Unit :=
  match store.entry? place with
  | none => .error .notFound
  | some .directory => .ok ()
  | some _ => .error .notDirectory

/-- The place that steps lead to from a place. Every place on the way has to be a directory, in
which no name is longer than the limit. -/
def walk (store : Store) (place : Place) : List String → Except FileFault Place
  | [] => .ok place
  | step :: rest =>
    match store.checkDirectory place with
    | .error fault => .error fault
    | .ok () =>
      if Path.stepLimit < step.utf8ByteSize then .error .nameTooLong
      else walk store (if step = ".." then Place.parent place else place ++ [step]) rest

/-- The place that the steps of a path lead to. -/
def follow (store : Store) : List String → Except FileFault Place
  | "/" :: steps => store.walk ["/"] steps
  | steps => store.walk [] steps

/-- Checks that a text can be the path of a file, whatever files there are. -/
def checkPath (path : String) : Except FileFault Unit :=
  if '\x00' ∈ path.toList then .error .embeddedNul
  else if path.isEmpty then .error .notFound
  else if Path.lengthLimit < path.utf8ByteSize then .error .nameTooLong
  else .ok ()

/-- The place of a path, which need not hold anything. -/
def locate (store : Store) (path : String) : Except FileFault Place :=
  match checkPath path with
  | .error fault => .error fault
  | .ok () => store.follow (Path.steps path)

/-- The place and the entry of a path. -/
def open? (store : Store) (path : String) : Except FileFault (Place × Entry) :=
  match store.locate path with
  | .error fault => .error fault
  | .ok place =>
    match store.entry? place with
    | none => .error .notFound
    | some .directory => .ok (place, .directory)
    -- a slash at the end asks for a directory
    | some entry =>
      if Path.endsInDirectory path then .error .notDirectory else .ok (place, entry)

/-- The first `count` bytes that an entry hands out. -/
def readEntry (count : Nat) : Entry → Except FileFault (List UInt8)
  | .directory => .error .isDirectory
  | .file bytes | .pipe bytes => .ok (bytes.take count)
  | .zeros | .full => .ok (List.replicate count 0)

/-- The first `count` bytes of a file. -/
def read (store : Store) (path : String) (count : Nat) : Except FileFault (List UInt8) :=
  match store.open? path with
  | .error fault => .error fault
  | .ok (_, entry) => readEntry count entry

/-- All bytes of a file. A file without end has none to give. -/
def readAll (store : Store) (path : String) : Except FileFault (List UInt8) :=
  match store.open? path with
  | .error fault => .error fault
  | .ok (_, .directory) => .error .isDirectory
  | .ok (_, .file bytes) | .ok (_, .pipe bytes) => .ok bytes
  | .ok (_, .zeros) | .ok (_, .full) => .error (.other "file without end")

/-- Writes bytes over the beginning of a file, which has to exist and keeps what lies behind
them. -/
def overwrite (store : Store) (path : String) (bytes : List UInt8) : Except FileFault Store :=
  match store.open? path with
  | .error fault => .error fault
  | .ok (_, .directory) => .error .isDirectory
  | .ok (place, .file old) => .ok (store.put place (.file (bytes ++ old.drop bytes.length)))
  | .ok (_, .full) => .error .noSpace
  | .ok (_, .zeros) | .ok (_, .pipe _) => .ok store

/-- Checks that there is a directory for the last step of a path to be looked up in. -/
def checkParent (store : Store) (path : String) : Except FileFault Unit :=
  match checkPath path with
  | .error fault => .error fault
  | .ok () =>
    match store.follow (Path.steps path).dropLast with
    | .error fault => .error fault
    | .ok place => store.checkDirectory place

/-- Makes a file empty, or makes an empty one. A path that asks for a directory is refused, whether
there is one or not. -/
def create (store : Store) (path : String) : Except FileFault Store :=
  if Path.endsInDots path then
    match store.open? path with
    | .error fault => .error fault
    | .ok _ => .error .isDirectory
  else if Path.endsInSlash path then
    match store.checkParent path with
    | .error fault => .error fault
    | .ok () => .error .isDirectory
  else
    match store.locate path with
    | .error fault => .error fault
    | .ok place =>
      match store.entry? place with
      | some .directory => .error .isDirectory
      | some (.file _) | none => .ok (store.put place (.file []))
      | some _ => .ok store

/-- Writes bytes behind the end of an ordinary file. Elsewhere they are lost. -/
def append (store : Store) (path : String) (bytes : List UInt8) : Store :=
  match store.open? path with
  | .ok (place, .file old) => store.put place (.file (old ++ bytes))
  | _ => store

end Store

end ZioControl
