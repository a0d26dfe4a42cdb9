import ZioControl.Codec

/-!
# Reading blocks from a source

A source hands out bytes in pieces that need not be blocks, and a read of it may be interrupted.
`readBlock` goes on reading until it has a whole block or the source has no more, since §10.6 of
`SPEC_FULL.md` asks for exactly 512 bytes. A source follows a script that says how each read goes;
when the script is over, reads get all they ask for.
-/

namespace ZioControl

/-- How a read of a source goes. -/
inductive ReadEvent where
  /-- It hands out this many bytes at most. -/
  | atMost (count : Nat)
  /-- It is interrupted, and may be tried again. -/
  | interrupted
  /-- It fails. -/
  | fails (fault : FileFault)
  deriving DecidableEq, Repr

/-- A source of bytes. -/
structure Source where
  /-- The bytes that are left. -/
  rest : List UInt8
  /-- How the next reads go. -/
  script : List ReadEvent := []
  /-- How many bytes were handed out. -/
  position : Nat := 0
  /-- How many reads there were. -/
  reads : Nat := 0
  deriving DecidableEq, Repr

namespace Source

/-- The source after a read that handed out `count` bytes. -/
def advance (s : Source) (count : Nat) : Source where
  rest := s.rest.drop count
  script := s.script.drop 1
  position := s.position + (s.rest.take count).length
  reads := s.reads + 1

/-- Reads until `got` is a block or the source has no more. -/
def fill (s : Source) (got : List UInt8) : Except FileFault (List UInt8) × Source :=
  if blockSize ≤ got.length then (.ok got, s)
  else
    match _h : s.script with
    -- an interrupted read hands out nothing and is tried again
    | .interrupted :: _ => fill (s.advance 0) got
    | .fails fault :: _ => (.error fault, s.advance 0)
    | .atMost count :: _ =>
      let piece := s.rest.take (min count (blockSize - got.length))
      if piece.isEmpty then (.ok got, s.advance 0)
      else fill (s.advance piece.length) (got ++ piece)
    | [] =>
      let piece := s.rest.take (blockSize - got.length)
      if _hp : piece.isEmpty then (.ok got, s.advance 0)
      else fill (s.advance piece.length) (got ++ piece)
termination_by s.script.length + (blockSize - got.length)
decreasing_by
  · simp only [advance, _h, List.drop_one, List.tail_cons, List.length_cons]
    omega
  · simp only [advance, _h, List.length_append, List.length_drop, List.length_cons]
    omega
  · have : 0 < (s.rest.take (blockSize - got.length)).length :=
      List.length_pos_iff.2 fun hnil => _hp (List.isEmpty_iff.2 hnil)
    simp only [advance, _h, List.length_append, List.length_drop, List.length_nil]
    omega

/-- The next block, in the byte order of the host, of a source that stands for the file of this
path. -/
def readBlock (s : Source) (path : String) (order : ByteOrder := .little) :
    Except Error Block × Source :=
  match s.fill [] with
  | (.ok bytes, s) => (Block.decode order bytes, s)
  | (.error fault, s) => (.error (.file path fault), s)

end Source

end ZioControl
