import ZioControl.Monitor

/-!
# A monitor at work

The reader and the receiver of a monitor, a thread and the end of a channel in §10.6 of
`SPEC_FULL.md`, take turns in any order. The reader looks whether it has to stop, reads a block in
one piece or in many, and puts it at the end of a queue, from which the receiver takes the first
message; the clock ticks, and the deadline may fire as soon as there is one. When the receiver has
come to its end, it tells the reader to stop and lets go of the queue. A schedule lists whose turn
it is. What the receiver can still get, `Running.pending`, changes only when it takes a message
(`Running.pending_read`).
-/

namespace ZioControl

/-- Whose turn it is. -/
inductive Turn where
  /-- The reader goes on. When it reads, it gets a byte and so many more, as far as there are. -/
  | reader (more : Nat)
  /-- The receiver takes a message, or does what it has to do after its end. -/
  | receiver
  /-- The clock ticks, at which the receiver only reports. -/
  | tick
  /-- The time is over. -/
  | deadline
  deriving DecidableEq, Repr

/-- Where the reader stands. -/
inductive Reader where
  /-- It is about to look whether it has to stop, with these bytes still to be read. -/
  | checking (unread : List UInt8)
  /-- It is about to read on, and has got these bytes of a block so far. -/
  | reading (got unread : List UInt8) (hgot : got.length ≤ blockSize)
  /-- It has read a message and is about to pass it on. -/
  | passing (message : Message) (unread : List UInt8)
  /-- It has stopped, and let go of its end of the queue. -/
  | stopped

/-- The messages that a reader passes on if nothing stops it. -/
def Reader.messages (order : ByteOrder) : Reader → List Message
  | .checking unread => Message.ofBytes order unread
  | .reading got unread _ => Message.ofBytes order (got ++ unread)
  | .passing message unread =>
    message :: if message.isOk then Message.ofBytes order unread else []
  | .stopped => []

/-- What the reader makes of the bytes that it has got when a block is full or the file is at its
end. -/
def Reader.finish (order : ByteOrder) (got unread : List UInt8) : Reader :=
  if got = [] then .stopped else .passing (Block.decode order got) unread

/-- A block that is full, or cut off by the end of the file, is the first message of the rest. -/
theorem Reader.messages_finish (order : ByteOrder) {got unread : List UInt8}
    (hgot : got.length ≤ blockSize) (hdone : got.length = blockSize ∨ unread = []) :
    (Reader.finish order got unread).messages order = Message.ofBytes order (got ++ unread) := by
  by_cases hfull : got.length = blockSize
  · have hne : got ≠ [] := List.ne_nil_of_length_pos (by simp [hfull, blockSize])
    have hlong : ¬(got ++ unread).length < blockSize := by
      rw [List.length_append]
      omega
    have hok : (Block.decode order got).isOk = true := by
      simp [Block.decode, hfull, Except.isOk, Except.toBool]
    rw [finish, if_neg hne, messages, hok, if_pos rfl, Message.ofBytes.eq_1 order (got ++ unread),
      dif_neg (by simp [hne]), if_neg hlong, ← hfull, List.take_left, List.drop_left]
  · have hnil : unread = [] := hdone.resolve_left hfull
    have hshort : got.length < blockSize := Nat.lt_of_le_of_ne hgot hfull
    rw [hnil, List.append_nil, Message.ofBytes.eq_1 order got]
    by_cases hne : got = []
    · rw [finish, if_pos hne, dif_pos hne, messages]
    · have herror : Block.decode order got = .error (.shortBlock got.length) := by
        rw [Block.decode, if_pos hshort]
      rw [finish, if_neg hne, dif_neg hne, if_pos hshort, herror]
      rfl

/-- A monitor that follows an ordinary file. -/
structure Running where
  /-- Where the reader stands. -/
  reader : Reader
  /-- The messages on the way to the receiver, the first one first. -/
  queue : List Message := []
  /-- How far the receiver has come. -/
  seen : Followed := {}
  /-- Whether the reader has been told to stop. -/
  halted : Bool := false
  /-- Whether the receiver has let go of its end of the queue. -/
  closed : Bool := false

namespace Running

variable (order : ByteOrder)

/-- A monitor that is about to follow a file with these bytes. -/
def start (bytes : List UInt8) : Running := { reader := .checking bytes }

/-- Whether the receiver has come to its end. -/
def ended (s : Running) : Bool := s.seen.ending.isSome

/-- The messages that the receiver can still get. -/
def pending (s : Running) : List Message := s.queue ++ s.reader.messages order

/-- The reader goes on. It stops when it is told to, at the end of the file, after an error, and
when nobody takes its message. -/
def read (s : Running) (more : Nat) : Option Running :=
  match s.reader with
  | .checking unread =>
    some { s with reader := if s.halted then .stopped else .reading [] unread (Nat.zero_le _) }
  | .reading got unread hgot =>
    let size := min (more + 1) (blockSize - got.length)
    have hsize : (got ++ unread.take size).length ≤ blockSize := by
      rw [List.length_append, List.length_take]
      omega
    some { s with
      reader := if got.length = blockSize ∨ unread = [] then .finish order got unread
        else .reading (got ++ unread.take size) (unread.drop size) hsize }
  | .passing message unread =>
    if s.closed then some { s with reader := .stopped }
    else some { s with
      reader := if message.isOk then .checking unread else .stopped
      queue := s.queue ++ [message] }
  | .stopped => none

/-- The receiver takes the first message, or ends if there is none and the reader stopped. It waits
for a reader that goes on. -/
def take (m : Monitor) (s : Running) : Option Running :=
  match s.queue, s.reader with
  | message :: queue, _ => some { s with queue := queue, seen := m.accept s.seen message }
  | [], .stopped => some { s with seen := s.seen.close }
  | [], _ => none

/-- After its end the receiver tells the reader to stop, and lets go of the queue and of what is in
it. -/
def leave (s : Running) : Option Running :=
  if s.closed then none
  else if s.halted then some { s with closed := true, queue := [] }
  else some { s with halted := true }

/-- What a turn leads to, if it is possible. After its end the receiver follows no more. -/
def step? (m : Monitor) (s : Running) : Turn → Option Running
  | .reader more => s.read order more
  | .receiver => if s.ended then s.leave else s.take m
  | .tick => if s.ended then none else some s
  | .deadline => if s.ended ∨ m.seconds.isNone then none else some { s with seen := s.seen.close }

/-- What a schedule leads to, if each of its turns is possible. -/
def run? (m : Monitor) (s : Running) (schedule : List Turn) : Option Running :=
  schedule.foldlM (step? order m) s

/-- As long as the receiver listens, the reader moves messages to the queue and neither loses nor
adds one. -/
theorem pending_read {s t : Running} {more : Nat} (hhalted : s.halted = false)
    (hclosed : s.closed = false) (h : s.read order more = some t) :
    t.pending order = s.pending order := by
  unfold read at h
  split at h
  · next unread hreader =>
    obtain rfl := Option.some.inj h
    simp [pending, hhalted, hreader, Reader.messages]
  · next got unread hgot hreader =>
    obtain rfl := Option.some.inj h
    by_cases hdone : got.length = blockSize ∨ unread = []
    · have hfinish := Reader.messages_finish order hgot hdone
      simp only [pending, if_pos hdone, hfinish, hreader]
      rfl
    -- the bytes that it gets follow the ones that it has
    · simp only [pending, hreader, if_neg hdone, Reader.messages, List.append_assoc,
        List.take_append_drop]
  · next message unread hreader =>
    rw [if_neg (by simp [hclosed])] at h
    obtain rfl := Option.some.inj h
    by_cases hok : message.isOk
    · simp [pending, hreader, hok, Reader.messages]
    · simp [pending, hreader, hok, Reader.messages]
  · cases h

end Running

end ZioControl
