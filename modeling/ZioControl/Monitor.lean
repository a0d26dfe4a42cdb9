import ZioControl.Codec
import ZioControl.Counter
import ZioControl.Store

/-!
# Following a device

A monitor reads one block after the other from a file, counts it, and shows it together with the
counter (the monitor mode of §10.6 of `SPEC_FULL.md`). It ends with the source, with an error of the
source, or when its limit or its time is reached. The reader and the receiver run at the same time
with a queue of messages between them (`Running`), but what the receiver sees depends on the
messages alone, so `Monitor.run` has them as a list.
-/

namespace ZioControl

/-- What the reader passes on to the receiver: a block, or the error that ended its work. -/
abbrev Message := Except Error Block

namespace Message

/-- The messages for bytes that come to an end: each whole block, and an error if less than a block
is left. -/
def ofBytes (order : ByteOrder) (bytes : List UInt8) : List Message :=
  if _h : bytes = [] then []
  else if bytes.length < blockSize then [.error (.shortBlock bytes.length)]
  else Block.decode order (bytes.take blockSize) :: ofBytes order (bytes.drop blockSize)
termination_by bytes.length
decreasing_by
  have hlen : 0 < bytes.length := List.length_pos_iff.2 _h
  rw [List.length_drop, blockSize]
  omega

/-- The messages for bytes after which the source stays open: each whole block. -/
def ofOpenBytes (order : ByteOrder) (bytes : List UInt8) : List Message :=
  ofBytes order (bytes.take (bytes.length / blockSize * blockSize))

/-- The messages for what lies at a path. Of a file without end there are as many as are wanted. -/
def ofEntry (order : ByteOrder) (path : String) (wanted : Nat) : Entry → List Message
  | .directory => [.error (.file path .isDirectory)]
  | .file bytes => ofBytes order bytes
  | .pipe bytes => ofOpenBytes order bytes
  | .zeros | .full =>
    List.replicate wanted (Block.decode order (List.replicate blockSize 0))

end Message

/-- A block as the monitor shows it, with the counter after it. -/
structure Sighting where
  /-- The block. -/
  block : Block
  /-- The counter that includes it. -/
  counter : Counter
  deriving DecidableEq

/-- What to follow, and for how long. -/
structure Monitor where
  /-- The file that the blocks come from. -/
  path : String
  /-- How many blocks to follow at most. The limit is looked at after each block, so even a limit
  of zero lets one through. -/
  limit : Option Nat := none
  /-- How many seconds to follow at most. -/
  seconds : Option Nat := none
  deriving DecidableEq, Repr

/-- How a monitor ended. -/
inductive Ending where
  /-- The source is at its end, or the limit or the time is reached. -/
  | complete
  /-- The source failed. -/
  | failed (e : Error)
  deriving DecidableEq, Repr

/-- How far a monitor has come. -/
structure Followed where
  /-- The counter. -/
  counter : Counter := {}
  /-- The blocks that were shown. -/
  sightings : List Sighting := []
  /-- What there was to say about them. -/
  notices : List Notice := []
  /-- How it ended, if it has. -/
  ending : Option Ending := none
  deriving DecidableEq

namespace Followed

/-- The counter at the end, or the error that ended the work. -/
def result (f : Followed) : Except Error Counter :=
  match f.ending with
  | some (.failed e) => .error e
  | some .complete | none => .ok f.counter

/-- The work ends without an error. -/
def close (f : Followed) : Followed := { f with ending := some .complete }

end Followed

/-- What there is to say about a block's sequence number: that it went back, or that blocks are
missing before it. -/
def Counter.notices (c : Counter) (sequence : UInt32) : List Notice :=
  (c.notice? sequence).toList ++
    if c.gap sequence = 0 then [] else [.blocksLost (c.gap sequence) sequence]

namespace Monitor

/-- Whether the limit is reached. -/
def isReached (m : Monitor) (c : Counter) : Bool := m.limit.any (· ≤ c.blocks)

/-- How many messages of a source without end the monitor takes. -/
def wanted (m : Monitor) : Nat := (m.limit.map (max 1)).getD 0

/-- What the receiver does with a message: it logs each block, and counts it and what is missing
before it, as §10.6 asks. -/
def accept (m : Monitor) (f : Followed) : Message → Followed
  | .error e => { f with ending := some (.failed e) }
  | .ok b =>
    let after := f.counter.increment b.sequence
    -- the block is shown before the limit is looked at
    { counter := after
      sightings := f.sightings ++ [⟨b, after⟩]
      notices := f.notices ++ f.counter.notices b.sequence
      ending := if m.isReached after then some .complete else none }

/-- What the receiver does with all messages of a source: it takes them up to the one that ends its
work, or ends with the source. -/
def receive (m : Monitor) (f : Followed) : List Message → Followed
  | [] => f.close
  | message :: rest =>
    let f := m.accept f message
    if f.ending.isSome then f else m.receive f rest

/-- Follows the file of the monitor's path, whose blocks have the byte order of the host. -/
def run (m : Monitor) (store : Store) (order : ByteOrder := .little) : Followed :=
  match store.open? m.path with
  | .error fault => { ending := some (.failed (.file m.path fault)) }
  | .ok (_, entry) => m.receive {} (Message.ofEntry order m.path m.wanted entry)

end Monitor

end ZioControl
