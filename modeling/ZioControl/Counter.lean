import ZioControl.Notice

/-!
# Counting blocks

A device numbers its blocks modulo `2^32`. A counter follows these numbers (§10.6 of
`SPEC_FULL.md`): what a number skips is lost, unless it skips so much that it must have gone back.
How many blocks come in a second is measured apart (`RateMeter`), over a window that ends now.
-/

namespace ZioControl

/-- What is known after some blocks. -/
structure Counter where
  /-- How many blocks were counted. A monitor keeps the count in a word of 64 bits, whose width no
  run can reach: each block is read as 512 bytes, and `2^64` of them would be `2^73` bytes. -/
  blocks : Nat := 0
  /-- How many blocks are missing between them. -/
  lost : UInt64 := 0
  /-- The sequence number of the last one. -/
  last : Option UInt32 := none
  deriving DecidableEq, Repr, Inhabited

namespace Counter

/-- How far a sequence number lies after the one that was expected next, modulo `2^32`. -/
def ahead (last sequence : UInt32) : UInt32 := sequence - (last + 1)

/-- The numbers that lie less than this far ahead went on; the others went back. -/
def horizon : UInt32 := 0x7fffffff

/-- How many blocks are missing before the block with this sequence number. -/
def gap (c : Counter) (sequence : UInt32) : UInt32 :=
  match c.last with
  | some last => if ahead last sequence < horizon then ahead last sequence else 0
  | none => 0

/-- What there is to say about a sequence number: that it went back. -/
def notice? (c : Counter) (sequence : UInt32) : Option Notice :=
  match c.last with
  | some last => if ahead last sequence < horizon then none else some (.wentBack last sequence)
  | none => none

/-- The counter after one more block. -/
def increment (c : Counter) (sequence : UInt32) : Counter where
  blocks := c.blocks + 1
  lost := c.lost + (c.gap sequence).toUInt64
  last := some sequence

end Counter

/-- The times of the blocks that came within a window, in nanoseconds, the last one first. -/
structure RateMeter where
  /-- The length of the window in nanoseconds. -/
  window : Nat := 1000000000
  /-- The times that were within it when the last block came. -/
  times : List Nat := []

namespace RateMeter

/-- The times that a window ending now covers. -/
def recent (m : RateMeter) (now : Nat) : List Nat := m.times.takeWhile fun t => now - t ≤ m.window

/-- The meter after a block that came now. -/
def record (m : RateMeter) (now : Nat) : RateMeter := { m with times := now :: m.recent now }

/-- The length of the window in seconds. -/
def seconds (m : RateMeter) : Float :=
  Float.ofNat (m.window / 1000000000) + Float.ofNat (m.window % 1000000000) / 1000000000.0

/-- The blocks in a second over a window that ends now. A window counts as a microsecond at
least. -/
def rate (m : RateMeter) (now : Nat) : Float :=
  let seconds := m.seconds
  Float.ofNat (m.recent now).length / (if seconds < 0.000001 then 0.000001 else seconds)

end RateMeter

end ZioControl
