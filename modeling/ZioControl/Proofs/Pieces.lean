import ZioControl.Source
import ZioControl.Proofs.RoundTrip

/-!
# How a source hands out its bytes does not count

Reading a block gathers pieces of any size and tries interrupted reads again, so a block only
depends on the bytes of the source and on how many blocks were read before it, up to the first read
that fails (`Source.readBlock_pieces`). One call is followed read by read: `Source.Filled` says what
filling up the bytes of a block comes to when no read fails before the tail of the script. From call
to call `Source.Intact` carries that the source stands where whole blocks leave it. Every call makes
a read, so a failure in the script is met by some call. A number of calls makes only so many reads,
so that scripts also stand for what happens under a schedule without end.
-/

namespace ZioControl

/-- The read makes progress: it hands out something if the source has any, or is tried again. -/
def ReadEvent.IsFair : ReadEvent → Prop
  | .atMost count => 0 < count
  | .interrupted => True
  | .fails _ => False

namespace Source

/-- The source after so many calls for a block. -/
def after (s : Source) (path : String) (order : ByteOrder) : Nat → Source
  | 0 => s
  | calls + 1 => ((s.after path order calls).readBlock path order).2

/-- What the call for a block returns after so many others. -/
def outcome (s : Source) (path : String) (order : ByteOrder) (calls : Nat) : Except Error Block :=
  ((s.after path order calls).readBlock path order).1

/-- The block at an index of a byte string, if all its bytes are there. -/
def blockAt (order : ByteOrder) (bytes : List UInt8) (index : Nat) : Except Error Block :=
  if blockSize * (index + 1) ≤ bytes.length then
    Block.decode order ((bytes.drop (blockSize * index)).take blockSize)
  else .error (.shortBlock (bytes.length - blockSize * index))

variable {s next : Source} {got bytes : List UInt8} {before tail : List ReadEvent}

/-- The bytes of a block are decoded to it, and fewer bytes are counted. -/
theorem decode_take_drop (order : ByteOrder) (bytes : List UInt8) (index : Nat) :
    Block.decode order ((bytes.drop (blockSize * index)).take blockSize) =
      blockAt order bytes index := by
  rw [blockAt]
  split
  · rfl
  · next hshort =>
    have hlength : (bytes.drop (blockSize * index)).length < blockSize := by
      rw [List.length_drop]
      rw [Nat.mul_succ] at hshort
      have hpos : 0 < blockSize := by decide
      omega
    rw [Block.decode_take, Block.decode, if_pos hlength, List.length_drop]

/-! ## One call -/

/-- `count` bytes were taken from the source, or all it had if these were fewer. -/
structure Took (count : Nat) (s next : Source) : Prop where
  rest : next.rest = s.rest.drop count
  position : next.position = s.position + min count s.rest.length

theorem took_advance (count : Nat) : Took count s (s.advance count) where
  rest := rfl
  position := by rw [advance, List.length_take]

theorem Took.trans {count more : Nat} {last : Source} (hfirst : Took count s next)
    (hlast : Took more next last) : Took (count + more) s last where
  rest := by rw [hlast.rest, hfirst.rest, List.drop_drop]
  position := by
    rw [hlast.position, hfirst.position, hfirst.rest, List.length_drop]
    omega

/-- A script up to its first failure, if it has one, and the rest of it. -/
structure Parts (before tail : List ReadEvent) : Prop where
  /-- Nothing fails at first. -/
  fair : ∀ event ∈ before, event.IsFair
  /-- The rest begins with the failure. -/
  fails : tail = [] ∨ ∃ fault later, tail = .fails fault :: later

/-- A script that begins with no failure has something before its first failure. -/
theorem Parts.eq_cons {event : ReadEvent} {rest : List ReadEvent} (h : Parts before tail)
    (hevent : ∀ fault, event ≠ .fails fault) (hscript : event :: rest = before ++ tail) :
    ∃ left, before = event :: left ∧ rest = left ++ tail ∧ event.IsFair ∧ Parts left tail := by
  cases before with
  | nil =>
    obtain rfl | ⟨fault, later, rfl⟩ := h.fails
    · cases hscript
    · exact absurd (List.cons.inj hscript).1 (hevent fault)
  | cons first left =>
    obtain ⟨rfl, rfl⟩ := List.cons.inj hscript
    exact ⟨left, rfl, rfl, h.fair _ List.mem_cons_self,
      fun other hother => h.fair other (List.mem_cons_of_mem _ hother), h.fails⟩

/-- A script that begins with a failure has nothing before it. -/
theorem Parts.eq_nil {fault : FileFault} {rest : List ReadEvent} (h : Parts before tail)
    (hscript : .fails fault :: rest = before ++ tail) :
    before = [] ∧ tail = .fails fault :: rest := by
  cases before with
  | nil => exact ⟨rfl, hscript.symm⟩
  | cons first left =>
    obtain ⟨rfl, -⟩ := List.cons.inj hscript
    exact (h.fair _ List.mem_cons_self).elim

/-- What filling up `got` comes to when nothing fails before `tail`: the bytes of a block or the
last ones of the source, or the failure that `tail` begins with. -/
inductive Filled (s : Source) (got : List UInt8) (before tail : List ReadEvent) :
    Except FileFault (List UInt8) × Source → Prop where
  | done {next : Source} (left : List ReadEvent) (took : Took (blockSize - got.length) s next)
      (script : next.script = left ++ tail) (parts : Parts left tail)
      (reads : tail ≠ [] → next.reads + left.length = s.reads + before.length) :
      Filled s got before tail (.ok (got ++ s.rest.take (blockSize - got.length)), next)
  | failed {next : Source} {fault : FileFault} {later : List ReadEvent}
      (fails : tail = .fails fault :: later) (reads : next.reads = s.reads + before.length + 1) :
      Filled s got before tail (.error fault, next)

/-- A piece no longer than what is missing leaves the rest to the reads that follow. -/
theorem Filled.of_piece {left : List ReadEvent} {count : Nat}
    {result : Except FileFault (List UInt8) × Source} (hcount : count ≤ blockSize - got.length)
    (hlength : tail ≠ [] → before.length = left.length + 1)
    (h : Filled (s.advance (s.rest.take count).length) (got ++ s.rest.take count) left tail
      result) :
    Filled s got before tail result := by
  generalize hpiece : s.rest.take count = piece at h
  have htake : piece = s.rest.take piece.length := by
    rw [← hpiece, List.length_take, ← List.take_eq_take_min]
  have hroom : piece.length ≤ blockSize - got.length :=
    (hpiece ▸ List.length_take_le count s.rest).trans hcount
  have hmissing : blockSize - (got ++ piece).length =
      blockSize - got.length - piece.length := by
    rw [List.length_append, Nat.sub_add_eq]
  cases h with
  | done left' took script parts reads =>
    have hbytes := calc
      piece ++ (s.rest.drop piece.length).take (blockSize - got.length - piece.length)
        = s.rest.take (piece.length + (blockSize - got.length - piece.length)) := by
          rw [List.take_add, ← htake]
      _ = s.rest.take (blockSize - got.length) := by rw [Nat.add_sub_cancel' hroom]
    rw [hmissing] at took
    have htook := (took_advance piece.length).trans took
    rw [Nat.add_sub_cancel' hroom] at htook
    rw [hmissing, List.append_assoc, (took_advance piece.length).rest, hbytes]
    refine .done left' htook script parts fun htail => ?_
    rw [reads htail, hlength htail]
    simp only [advance]
    omega
  | failed fails reads =>
    refine .failed fails ?_
    rw [reads, hlength (by rw [fails]; exact List.cons_ne_nil _ _)]
    simp only [advance]
    omega

/-- A source without bytes ends the block. -/
theorem Filled.of_rest_eq_nil {left : List ReadEvent} (hrest : s.rest = [])
    (hscript : s.script.drop 1 = left ++ tail) (hparts : Parts left tail)
    (hlength : tail ≠ [] → before.length = left.length + 1) :
    Filled s got before tail (.ok got, s.advance 0) := by
  have htook : Took (blockSize - got.length) s (s.advance 0) :=
    ⟨by rw [advance, hrest, List.drop_nil, List.drop_nil],
      by rw [advance, hrest, List.take_nil, List.length_nil, Nat.min_zero]⟩
  have hdone : Filled s got before tail
      (.ok (got ++ s.rest.take (blockSize - got.length)), s.advance 0) :=
    .done left htook hscript hparts fun htail => by
      rw [hlength htail]
      simp only [advance]
      omega
  rwa [hrest, List.take_nil, List.append_nil] at hdone

/-- Filling up follows the script to its first failure, if it comes to that. -/
theorem fill_filled (s : Source) (got : List UInt8) :
    ∀ before tail, s.script = before ++ tail → Parts before tail →
      Filled s got before tail (s.fill got) := by
  fun_induction fill s got with intro before tail hscript hparts
  | case1 s got hfull =>
    have hroom : blockSize - got.length = 0 := by omega
    have htook : Took (blockSize - got.length) s s := by
      rw [hroom]
      exact ⟨rfl, by rw [Nat.zero_min, Nat.add_zero]⟩
    have hdone : Filled s got before tail
        (.ok (got ++ s.rest.take (blockSize - got.length)), s) :=
      .done before htook hscript hparts fun _ => rfl
    rwa [hroom, List.take_zero, List.append_nil] at hdone
  | case2 s got hroom rest hhead ih =>
    rw [hhead] at hscript
    obtain ⟨left, rfl, hleft, -, hparts⟩ := hparts.eq_cons (by rintro _ ⟨⟩) hscript
    -- an interruption is a piece of no bytes
    refine .of_piece (Nat.zero_le _) (fun _ => rfl) ?_
    rw [List.take_zero, List.append_nil]
    exact ih left tail (by rw [advance, hhead, ← hleft]; rfl) hparts
  | case3 s got hroom fault rest hhead =>
    rw [hhead] at hscript
    obtain ⟨rfl, rfl⟩ := hparts.eq_nil hscript
    exact .failed rfl rfl
  | case4 s got hroom count rest hhead piece hpiece =>
    rw [hhead] at hscript
    obtain ⟨left, rfl, hleft, hfair, hparts⟩ := hparts.eq_cons (by rintro _ ⟨⟩) hscript
    have hcount : 0 < count := hfair
    have hrest : s.rest = [] :=
      (List.take_eq_nil_iff.1 (List.isEmpty_iff.1 hpiece)).resolve_left (by omega)
    exact .of_rest_eq_nil hrest (by rw [hhead, ← hleft]; rfl) hparts fun _ => rfl
  | case5 s got hroom count rest hhead piece hpiece ih =>
    rw [hhead] at hscript
    obtain ⟨left, rfl, hleft, -, hparts⟩ := hparts.eq_cons (by rintro _ ⟨⟩) hscript
    exact .of_piece (Nat.min_le_right _ _) (fun _ => rfl)
      (ih left tail (by rw [advance, hhead, ← hleft]; rfl) hparts)
  | case6 s got hroom hhead piece hpiece =>
    rw [hhead] at hscript
    obtain ⟨rfl, rfl⟩ := List.nil_eq_append_iff.1 hscript
    have hrest : s.rest = [] :=
      (List.take_eq_nil_iff.1 (List.isEmpty_iff.1 hpiece)).resolve_left (by omega)
    exact .of_rest_eq_nil hrest (by rw [hhead]; rfl) hparts fun htail => absurd rfl htail
  | case7 s got hroom hhead piece hpiece ih =>
    rw [hhead] at hscript
    obtain ⟨rfl, rfl⟩ := List.nil_eq_append_iff.1 hscript
    exact .of_piece le_rfl (fun htail => absurd rfl htail)
      (ih [] [] (by rw [advance, hhead]; rfl) hparts)

/-- A block that is not complete takes a read. -/
theorem reads_fill (s : Source) (got : List UInt8) :
    s.reads + min 1 (blockSize - got.length) ≤ (s.fill got).2.reads := by
  fun_induction fill s got <;> simp only [advance] at * <;> omega

/-- Every call makes a read. -/
theorem reads_lt_readBlock (s : Source) (path : String) (order : ByteOrder) :
    s.reads < (s.readBlock path order).2.reads := by
  have hfill := s.reads_fill []
  rw [readBlock]
  split <;> next hresult =>
    rw [hresult] at hfill
    exact hfill

/-! ## Call after call -/

variable {origin : Source} {path : String} {order : ByteOrder} {calls : Nat}

/-- So many calls returned the blocks of the source and took their bytes, and no read has failed. -/
structure Intact (origin : Source) (before tail : List ReadEvent) (path : String)
    (order : ByteOrder) (calls : Nat) : Prop where
  /-- Each call returned its block. -/
  outcome : ∀ earlier < calls, origin.outcome path order earlier = blockAt order origin.rest earlier
  /-- The calls up to each took their bytes and no more. -/
  took : ∀ earlier ≤ calls, Took (blockSize * earlier) origin (origin.after path order earlier)
  /-- The failure is still to come, after as many reads as there are left before it. -/
  script : ∃ left, (origin.after path order calls).script = left ++ tail ∧ Parts left tail ∧
    (tail ≠ [] → (origin.after path order calls).reads + left.length = origin.reads + before.length)
  /-- Every call made a read. -/
  calls_le : calls ≤ (origin.after path order calls).reads

/-- The reads of the call after so many others come to the failure that `tail` begins with. -/
structure Fails (origin : Source) (before tail : List ReadEvent) (path : String)
    (order : ByteOrder) (calls : Nat) : Prop where
  /-- The call returns the failure with the path. -/
  outcome : ∃ fault later, tail = .fails fault :: later ∧
    origin.outcome path order calls = .error (.file path fault)
  /-- The calls before it made none but fair reads. -/
  unread : (origin.after path order calls).reads ≤ origin.reads + before.length
  /-- The read that fails is its last one. -/
  read : (origin.after path order (calls + 1)).reads = origin.reads + before.length + 1

theorem intact_zero (hscript : origin.script = before ++ tail) (hparts : Parts before tail) :
    Intact origin before tail path order 0 where
  outcome _ hearlier := absurd hearlier (Nat.not_lt_zero _)
  took earlier hearlier := by
    obtain rfl := Nat.le_zero.1 hearlier
    exact ⟨rfl, by rw [Nat.mul_zero, Nat.zero_min, Nat.add_zero]; rfl⟩
  script := ⟨before, hscript, hparts, fun _ => rfl⟩
  calls_le := Nat.zero_le _

/-- The next call returns the next block, unless its reads come to a failure. -/
theorem Intact.step (h : Intact origin before tail path order calls) :
    Intact origin before tail path order (calls + 1) ∨
      Fails origin before tail path order calls := by
  obtain ⟨left, hscript, hparts, hreads⟩ := h.script
  have htook := h.took calls le_rfl
  have hcalls := h.calls_le
  generalize hs : origin.after path order calls = s at hscript hreads htook hcalls
  have hnext : origin.after path order (calls + 1) = (s.readBlock path order).2 := by rw [after, hs]
  have houtcome : origin.outcome path order calls = (s.readBlock path order).1 := by
    rw [Source.outcome, hs]
  have hfilled := fill_filled s [] left tail hscript hparts
  have hread := s.reads_lt_readBlock path order
  generalize hresult : s.fill [] = result at hfilled
  cases hfilled with
  | @done next left' took script parts reads =>
    rw [← hnext] at hread
    rw [readBlock, hresult] at hnext houtcome
    rw [List.nil_append, htook.rest] at houtcome
    refine .inl ⟨fun earlier hearlier => ?_, fun earlier hearlier => ?_, ?_, ?_⟩
    · obtain hearlier | rfl := Nat.lt_succ_iff_lt_or_eq.1 hearlier
      · exact h.outcome earlier hearlier
      · exact houtcome.trans (decode_take_drop _ _ _)
    · obtain hearlier | rfl := Nat.le_succ_iff.1 hearlier
      · exact h.took earlier hearlier
      · exact hnext ▸ htook.trans took
    · rw [hnext]
      exact ⟨left', script, parts, fun htail => (reads htail).trans (hreads htail)⟩
    · exact hcalls.trans_lt hread
  | @failed last fault later fails reads =>
    have hbefore := hreads (by rw [fails]; exact List.cons_ne_nil _ _)
    rw [readBlock, hresult] at hnext houtcome
    refine .inr ⟨⟨fault, later, fails, houtcome⟩, ?_, ?_⟩
    · rw [hs]
      omega
    · rw [hnext, reads, hbefore]

/-- After any number of calls nothing has failed, or one of them failed and those before it did
not. -/
theorem intact_or_fails (hscript : origin.script = before ++ tail) (hparts : Parts before tail)
    (path : String) (order : ByteOrder) (calls : Nat) :
    Intact origin before tail path order calls ∨
      ∃ failing < calls, Intact origin before tail path order failing ∧
        Fails origin before tail path order failing := by
  induction calls with
  | zero => exact .inl (intact_zero hscript hparts)
  | succ calls ih =>
    obtain hintact | ⟨failing, hlt, hfailing⟩ := ih
    · obtain hintact' | hfails := hintact.step
      · exact .inl hintact'
      · exact .inr ⟨calls, Nat.lt_succ_self _, hintact, hfails⟩
    · exact .inr ⟨failing, Nat.lt_succ_of_lt hlt, hfailing⟩

/-- While nothing fails there were no more calls than reads before the failure. -/
theorem Intact.calls_le_length (h : Intact origin before tail path order calls)
    (htail : tail ≠ []) : calls ≤ origin.reads + before.length := by
  obtain ⟨left, -, -, hreads⟩ := h.script
  have hlength := hreads htail
  have hcalls := h.calls_le
  omega

/-- However the bytes of a source are handed out in pieces, with any number of interruptions, each
call returns the next block, or counts the bytes that are left if these are too few, and takes no
byte of the block after it. If a read fails then the call that makes it returns the failure with the
path, and the calls before it are not affected. -/
theorem readBlock_pieces (bytes : List UInt8) (path : String) (order : ByteOrder)
    (before : List ReadEvent)
    (hfair : ∀ event ∈ before, event.IsFair) :
    (∀ calls, let s : Source := { rest := bytes, script := before }
      s.outcome path order calls = blockAt order bytes calls ∧
        (s.after path order calls).position = min (blockSize * calls) bytes.length) ∧
    ∀ fault later, let s : Source := { rest := bytes, script := before ++ .fails fault :: later }
      ∃ failing ≤ before.length,
        (∀ calls < failing, s.outcome path order calls = blockAt order bytes calls) ∧
        (∀ calls ≤ failing,
          (s.after path order calls).position = min (blockSize * calls) bytes.length) ∧
        s.outcome path order failing = .error (.file path fault) ∧
        (s.after path order failing).reads ≤ before.length ∧
        (s.after path order (failing + 1)).reads = before.length + 1 := by
  have hposition : ∀ {s next : Source} {count}, Took count s next → s.position = 0 →
      s.rest = bytes → next.position = min count bytes.length := by
    intro s next count htook hzero hrest
    rw [htook.position, hzero, hrest, Nat.zero_add]
  constructor
  · intro calls s
    have hparts : Parts before [] := ⟨hfair, .inl rfl⟩
    have hintact : ∀ calls, Intact s before [] path order calls := by
      intro calls
      have hscript : s.script = before ++ [] := (List.append_nil before).symm
      obtain hintact | ⟨failing, -, -, hfails⟩ := intact_or_fails hscript hparts path order calls
      · exact hintact
      · obtain ⟨fault, later, htail, -⟩ := hfails.outcome
        cases htail
    exact ⟨(hintact (calls + 1)).outcome calls (Nat.lt_succ_self calls),
      hposition ((hintact calls).took calls le_rfl) rfl rfl⟩
  · intro fault later s
    have hparts : Parts before (.fails fault :: later) := ⟨hfair, .inr ⟨fault, later, rfl⟩⟩
    have hscript : s.script = before ++ .fails fault :: later := rfl
    obtain hintact | ⟨failing, hlt, hintact, hfails⟩ :=
      intact_or_fails hscript hparts path order (before.length + 1)
    · have hle := hintact.calls_le_length (List.cons_ne_nil _ _)
      have hzero : s.reads = 0 := rfl
      omega
    · obtain ⟨fault', later', htail, houtcome⟩ := hfails.outcome
      obtain ⟨hfault, -⟩ := List.cons.inj htail
      obtain rfl := ReadEvent.fails.inj hfault
      refine ⟨failing, Nat.le_of_lt_succ hlt, hintact.outcome,
        fun calls hcalls => hposition (hintact.took calls hcalls) rfl rfl, houtcome, ?_, ?_⟩
      · exact (Nat.zero_add before.length) ▸ hfails.unread
      · exact hfails.read.trans (by rw [Nat.zero_add])

/-- The 600 bytes of a source in pieces of at most 100 and 500, with an interruption between. -/
theorem readBlock_pieces_replicate :
    (∀ event ∈ [.atMost 100, .interrupted, .atMost 500], ReadEvent.IsFair event) ∧
      let s : Source :=
        { rest := List.replicate 600 0, script := [.atMost 100, .interrupted, .atMost 500] }
      s.outcome "src" .little 1 = .error (.shortBlock 88) ∧
        (s.after "src" .little 1).position = 512 ∧ (s.after "src" .little 2).position = 600 := by
  have hfair : ∀ event ∈ [.atMost 100, .interrupted, .atMost 500], ReadEvent.IsFair event := by
    simp [ReadEvent.IsFair]
  have hpieces := (readBlock_pieces (List.replicate 600 0) "src" .little _ hfair).1
  refine ⟨hfair, ?_, ?_, ?_⟩
  · rw [(hpieces 1).1, blockAt, List.length_replicate, if_neg (by decide)]
    rfl
  · rw [(hpieces 1).2, List.length_replicate]
    rfl
  · rw [(hpieces 2).2, List.length_replicate]
    rfl

end Source

end ZioControl
