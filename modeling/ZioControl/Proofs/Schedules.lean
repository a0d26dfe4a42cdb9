import ZioControl.Monitor.Schedule
import ZioControl.Proofs.Following

/-!
# A monitor under any schedule

What the receiver of a monitor comes to does not depend on the schedule. As long as it listens, it
has seen a part of what `Monitor.receive` makes of all messages, and what is still on the way to it
makes up the rest. So `Running.outcome`, which a state of a monitor is bound to come to, is kept by
each turn but the deadline, and the deadline only cuts it short (`Running.outcome_step?`). The proof
has one case for each thing that a turn can do (`Running.Effect`), and the schedule is followed turn
by turn (`Running.outcome_run?`).

A monitor comes to its end: each turn but a tick uses up some of `Running.work`, and until the
receiver has let go of the queue, it or the reader can go on (`Running.isSome_step?`). The main
theorem is `Running.follows_any_schedule`.
-/

namespace ZioControl

/-- The blocks that were shown. -/
def Followed.shown (f : Followed) : List Block := f.sightings.map Sighting.block

namespace Monitor

variable (m : Monitor) (f : Followed)

/-- What was shown stays shown when a message is received. -/
theorem sightings_accept (message : Message) :
    f.sightings <+: (m.accept f message).sightings := by
  cases message with
  | error e => exact List.prefix_refl _
  | ok b => exact List.prefix_append _ _

/-- What was shown stays shown when more messages are received. -/
theorem sightings_receive (messages : List Message) :
    f.sightings <+: (m.receive f messages).sightings := by
  induction messages generalizing f with
  | nil => exact List.prefix_refl _
  | cons message rest ih =>
    have hfirst := sightings_accept m f message
    rw [receive]
    by_cases hended : (m.accept f message).ending.isSome = true
    · rwa [if_pos hended]
    · rw [if_neg hended]
      exact hfirst.trans (ih _)

end Monitor

/-- How often a reader can go on, and how many messages it can pass on, at most. -/
def Reader.work : Reader → Nat
  | .checking unread => 5 * unread.length + 2
  | .reading [] unread _ => 5 * unread.length + 1
  | .reading (_ :: _) unread _ => 5 * unread.length + 5
  | .passing _ unread => 5 * unread.length + 4
  | .stopped => 0

/-- A byte that is read outweighs what its block is worth. -/
theorem Reader.work_reading {got unread more rest : List UInt8} (hgot : got.length ≤ blockSize)
    (hmore : more.length ≤ blockSize) (h : rest.length < unread.length) :
    (Reader.reading more rest hmore).work < (Reader.reading got unread hgot).work := by
  have hfrom : 5 * unread.length + 1 ≤ (Reader.reading got unread hgot).work := by
    cases got <;> simp [work]
  have hto : (Reader.reading more rest hmore).work ≤ 5 * rest.length + 5 := by
    cases more <;> simp [work]
  omega

/-- A block that is done needs no more to be read. -/
theorem Reader.work_finish (order : ByteOrder) {got unread : List UInt8}
    (hgot : got.length ≤ blockSize) :
    (Reader.finish order got unread).work < (Reader.reading got unread hgot).work := by
  cases got <;> simp [finish, work]

namespace Running

variable {order : ByteOrder} {m : Monitor} {s t : Running} {turn : Turn}

/-- The receiver turns to the reader and to the queue only after its end. -/
structure Orderly (s : Running) : Prop where
  /-- Before, it has not told the reader to stop. -/
  halted : s.ended = false → s.halted = false
  /-- And it has not let go of the queue. -/
  closed : s.ended = false → s.closed = false

/-- What the receiver comes to if the time is not over before. -/
def outcome (order : ByteOrder) (m : Monitor) (s : Running) : Followed :=
  if s.ended then s.seen else m.receive s.seen (s.pending order)

/-- What a turn does, as far as the receiver can tell. -/
inductive Effect (order : ByteOrder) (m : Monitor) (s t : Running) : Turn → Prop where
  /-- The receiver has come to its end and sees no more. -/
  | finished {turn : Turn} (hended : s.ended = true) (hseen : t.seen = s.seen) :
    Effect order m s t turn
  /-- The receiver sees nothing, and can still get what it could. -/
  | kept {turn : Turn} (hpending : t.pending order = s.pending order) (hseen : t.seen = s.seen)
    (hhalted : t.halted = s.halted) (hclosed : t.closed = s.closed) : Effect order m s t turn
  /-- The receiver gets a message. -/
  | received (message : Message) (hended : s.ended = false)
    (hpending : s.pending order = message :: t.pending order)
    (hseen : t.seen = m.accept s.seen message) (hhalted : t.halted = s.halted)
    (hclosed : t.closed = s.closed) : Effect order m s t .receiver
  /-- There is no message left. -/
  | exhausted (hended : s.ended = false) (hpending : s.pending order = [])
    (hseen : t.seen = s.seen.close) : Effect order m s t .receiver
  /-- The time is over. -/
  | expired (hended : s.ended = false) (hseen : t.seen = s.seen.close) :
    Effect order m s t .deadline

/-- A monitor starts in order. -/
theorem Orderly.start (bytes : List UInt8) : (start bytes).Orderly := ⟨fun _ => rfl, fun _ => rfl⟩

/-- A turn of the reader changes nothing about the receiver. -/
theorem read_eq {more : Nat} (h : s.read order more = some t) :
    t.seen = s.seen ∧ t.halted = s.halted ∧ t.closed = s.closed := by
  unfold read at h
  split at h
  · obtain rfl := Option.some.inj h
    exact ⟨rfl, rfl, rfl⟩
  · obtain rfl := Option.some.inj h
    exact ⟨rfl, rfl, rfl⟩
  · split at h
    · obtain rfl := Option.some.inj h
      exact ⟨rfl, rfl, rfl⟩
    · obtain rfl := Option.some.inj h
      exact ⟨rfl, rfl, rfl⟩
  · cases h

/-- What happens when the receiver wants a message. -/
theorem Effect.of_take (hended : s.ended = false) (h : s.take m = some t) :
    Effect order m s t .receiver := by
  unfold take at h
  split at h
  · next _ message queue hqueue =>
    obtain rfl := Option.some.inj h
    refine .received message hended ?_ rfl rfl rfl
    rw [pending, hqueue, List.cons_append]
    rfl
  · next hqueue hreader =>
    obtain rfl := Option.some.inj h
    refine .exhausted hended ?_ rfl
    rw [pending, hqueue, hreader]
    rfl
  · cases h

/-- After its end the receiver sees no more. -/
theorem seen_leave (h : s.leave = some t) : t.seen = s.seen := by
  unfold leave at h
  split at h
  · cases h
  · split at h
    all_goals
      obtain rfl := Option.some.inj h
      rfl

/-- All that a turn can do. -/
theorem Effect.of_step? (hs : s.Orderly) (h : s.step? order m turn = some t) :
    Effect order m s t turn := by
  cases hended : s.ended with
  | true =>
    refine .finished hended ?_
    cases turn with
    | reader more => exact (read_eq h).1
    | receiver =>
      rw [step?, if_pos hended] at h
      exact seen_leave h
    | tick => simp [step?, hended] at h
    | deadline => simp [step?, hended] at h
  | false =>
    cases turn with
    | reader more =>
      obtain ⟨hseen, hhalted, hclosed⟩ := read_eq h
      have hpending := pending_read order (hs.halted hended) (hs.closed hended) h
      exact .kept hpending hseen hhalted hclosed
    | receiver =>
      rw [step?, if_neg (by simp [hended])] at h
      exact .of_take hended h
    | tick =>
      rw [step?, if_neg (by simp [hended])] at h
      obtain rfl := Option.some.inj h
      exact .kept rfl rfl rfl rfl
    | deadline =>
      simp only [step?, hended] at h
      split at h
      · cases h
      · obtain rfl := Option.some.inj h
        exact .expired hended rfl

/-- Whether the receiver has come to its end is told by what it has seen. -/
theorem ended_congr (hseen : t.seen = s.seen) : t.ended = s.ended := by
  unfold ended
  rw [hseen]

/-- A receiver that closes its work has come to its end. -/
theorem ended_of_close (hseen : t.seen = s.seen.close) : t.ended = true := by
  unfold ended
  rw [hseen]
  rfl

/-- After the end of the receiver there is nothing that has to wait for it. -/
theorem Orderly.of_ended (hended : s.ended = true) : s.Orderly where
  halted h := absurd h (by simp [hended])
  closed h := absurd h (by simp [hended])

/-- Each turn leaves the monitor in order. -/
theorem Orderly.step? (hs : s.Orderly) (h : s.step? order m turn = some t) : t.Orderly := by
  cases Effect.of_step? hs h with
  | finished hended hseen => exact .of_ended ((ended_congr hseen).trans hended)
  | kept _ hseen hhalted hclosed =>
    have hended := ended_congr hseen
    exact ⟨fun ht => hhalted.trans (hs.halted (hended ▸ ht)),
      fun ht => hclosed.trans (hs.closed (hended ▸ ht))⟩
  | received message hended _ _ hhalted hclosed =>
    exact ⟨fun _ => hhalted.trans (hs.halted hended), fun _ => hclosed.trans (hs.closed hended)⟩
  | exhausted _ _ hseen => exact .of_ended (ended_of_close hseen)
  | expired _ hseen => exact .of_ended (ended_of_close hseen)

/-- A turn does not change what the receiver comes to, but the deadline may cut it short. -/
theorem outcome_step? (hs : s.Orderly) (h : s.step? order m turn = some t) :
    (t.outcome order m).sightings <+: (s.outcome order m).sightings ∧
      (turn ≠ .deadline → t.outcome order m = s.outcome order m) := by
  -- it is enough that the outcome is kept
  have hkept (heq : t.outcome order m = s.outcome order m) :
      (t.outcome order m).sightings <+: (s.outcome order m).sightings ∧
        (turn ≠ .deadline → t.outcome order m = s.outcome order m) :=
    ⟨by rw [heq], fun _ => heq⟩
  cases Effect.of_step? hs h with
  | finished hended hseen =>
    refine hkept ?_
    rw [outcome, outcome, ended_congr hseen, if_pos hended, if_pos hended, hseen]
  | kept hpending hseen _ _ =>
    refine hkept ?_
    rw [outcome, outcome, ended_congr hseen, hseen, hpending]
  | received message hended hpending hseen _ _ =>
    refine hkept ?_
    rw [outcome, outcome, hended, hpending, ended, hseen]
    rfl
  | exhausted hended hpending hseen =>
    refine hkept ?_
    rw [outcome, outcome, ended_of_close hseen, hended, hpending, hseen]
    rfl
  | expired hended hseen =>
    refine ⟨?_, fun hne => absurd rfl hne⟩
    rw [outcome, outcome, ended_of_close hseen, hended, hseen]
    exact Monitor.sightings_receive m s.seen (s.pending order)

/-- What was shown is a part of what the receiver comes to. -/
theorem sightings_outcome (order : ByteOrder) (m : Monitor) (s : Running) :
    s.seen.sightings <+: (s.outcome order m).sightings := by
  unfold outcome
  split
  · exact List.prefix_refl _
  · exact Monitor.sightings_receive m s.seen (s.pending order)

/-- A schedule begins with its first turn. -/
theorem run?_cons (turn : Turn) (schedule : List Turn) :
    s.run? order m (turn :: schedule) = (s.step? order m turn).bind (run? order m · schedule) :=
  List.foldlM_cons

variable {schedule : List Turn}

/-- Each schedule leaves the monitor in order. -/
theorem Orderly.run? (hs : s.Orderly) (h : s.run? order m schedule = some t) : t.Orderly := by
  induction schedule generalizing s with
  | nil =>
    obtain rfl := Option.some.inj h
    exact hs
  | cons turn schedule ih =>
    rw [run?_cons] at h
    obtain ⟨next, hstep, hrest⟩ := Option.bind_eq_some_iff.mp h
    exact ih (hs.step? hstep) hrest

/-- A schedule does not change what the receiver comes to, but a deadline may cut it short. -/
theorem outcome_run? (hs : s.Orderly) (h : s.run? order m schedule = some t) :
    (t.outcome order m).sightings <+: (s.outcome order m).sightings ∧
      (.deadline ∉ schedule → t.outcome order m = s.outcome order m) := by
  induction schedule generalizing s with
  | nil =>
    obtain rfl := Option.some.inj h
    exact ⟨List.prefix_refl _, fun _ => rfl⟩
  | cons turn schedule ih =>
    rw [run?_cons] at h
    obtain ⟨next, hstep, hrest⟩ := Option.bind_eq_some_iff.mp h
    obtain ⟨hcut, hkept⟩ := outcome_step? hs hstep
    obtain ⟨hcutRest, hkeptRest⟩ := ih (hs.step? hstep) hrest
    refine ⟨hcutRest.trans hcut, fun hnone => ?_⟩
    have hfirst : turn ≠ .deadline := fun heq => hnone (heq ▸ List.mem_cons_self)
    have hothers : .deadline ∉ schedule := fun hmem => hnone (List.mem_cons_of_mem _ hmem)
    rw [hkeptRest hothers, hkept hfirst]

/-- How many turns the receiver is away from letting go of the queue, not counting the messages. -/
def toGo (s : Running) : Nat :=
  if s.closed then 0 else if s.halted then 1 else if s.ended then 2 else 3

/-- What is left to do for the reader and for the receiver. -/
def work (s : Running) : Nat := s.reader.work + s.queue.length + s.toGo

/-- What is left to do at the start. -/
theorem work_start (bytes : List UInt8) : (start bytes).work = 5 * bytes.length + 5 := rfl

/-- A receiver that has not come to its end has all its turns before it. -/
theorem toGo_of_not_ended (hs : s.Orderly) (hended : s.ended = false) : s.toGo = 3 := by
  rw [toGo, hs.closed hended, hs.halted hended, hended]
  rfl

/-- The receiver is never further away than at the start. -/
theorem toGo_le (s : Running) : s.toGo ≤ 3 := by
  unfold toGo
  repeat' split
  all_goals omega

/-- Its end brings the receiver nearer. -/
theorem toGo_of_ended (hended : s.ended = true) : s.toGo ≤ 2 := by
  unfold toGo
  rw [if_pos hended]
  repeat' split
  all_goals omega

/-- A turn of the reader uses up work. -/
theorem work_read {more : Nat} (h : s.read order more = some t) : t.work < s.work := by
  obtain ⟨hseen, hhalted, hclosed⟩ := read_eq h
  have hlt : t.reader.work + t.queue.length < s.reader.work + s.queue.length := by
    unfold read at h
    split at h
    · next unread hreader =>
      obtain rfl := Option.some.inj h
      rw [hreader]
      split
      · simp [Reader.work]
      · simp [Reader.work]
    · next got unread hgot hreader =>
      obtain rfl := Option.some.inj h
      rw [hreader]
      by_cases hdone : got.length = blockSize ∨ unread = []
      · have hfinish := @Reader.work_finish order got unread hgot
        simp only [if_pos hdone]
        omega
      · obtain ⟨hpart, hne⟩ := not_or.mp hdone
        have hpos := List.length_pos_iff.mpr hne
        simp only [if_neg hdone]
        -- there is a byte to read, and room for it
        refine Nat.add_lt_add_right (Reader.work_reading hgot _ ?_) _
        rw [List.length_drop]
        omega
    · next message unread hreader =>
      rw [hreader]
      split at h
      · obtain rfl := Option.some.inj h
        simp [Reader.work]
      · obtain rfl := Option.some.inj h
        rw [List.length_append, List.length_singleton]
        split
        · simp only [Reader.work]
          omega
        · simp only [Reader.work]
          omega
    · cases h
  have htoGo : t.toGo = s.toGo := by
    rw [toGo, toGo, hhalted, hclosed, ended_congr hseen]
  unfold work
  omega

/-- A receiver that closes its work uses up work. -/
theorem work_close (hs : s.Orderly) (hended : s.ended = false) :
    work { s with seen := s.seen.close } < s.work := by
  have hthree := toGo_of_not_ended hs hended
  have htwo : toGo { s with seen := s.seen.close } ≤ 2 := toGo_of_ended rfl
  calc s.reader.work + s.queue.length + toGo { s with seen := s.seen.close }
      ≤ s.reader.work + s.queue.length + 2 := Nat.add_le_add_left htwo _
    _ < s.reader.work + s.queue.length + s.toGo := by omega

/-- A receiver that takes a message or finds that there is none left uses up work. -/
theorem work_take (hs : s.Orderly) (hended : s.ended = false) (h : s.take m = some t) :
    t.work < s.work := by
  unfold take at h
  split at h
  · next _ message queue hqueue =>
    have hthree := toGo_of_not_ended hs hended
    have hle := toGo_le t
    obtain rfl := Option.some.inj h
    simp only [work, hqueue, List.length_cons]
    omega
  · obtain rfl := Option.some.inj h
    exact work_close hs hended
  · cases h

/-- A receiver that does what is to do after its end uses up work. -/
theorem work_leave (hended : s.ended = true) (h : s.leave = some t) : t.work < s.work := by
  unfold leave at h
  split at h
  · cases h
  · next hclosed =>
    split at h
    · next hhalted =>
      obtain rfl := Option.some.inj h
      simp only [work, toGo, if_neg hclosed, if_pos hhalted, if_true, List.length_nil]
      omega
    · next hhalted =>
      obtain rfl := Option.some.inj h
      simp only [work, toGo, if_neg hclosed, if_neg hhalted, if_pos hended, if_true]
      omega

/-- Each turn but a tick uses up work. -/
theorem work_step? (hs : s.Orderly) (h : s.step? order m turn = some t) :
    t.work + (if turn = .tick then 0 else 1) ≤ s.work := by
  cases turn with
  | reader more => exact work_read h
  | receiver =>
    cases hended : s.ended with
    | true =>
      rw [step?, if_pos hended] at h
      exact work_leave hended h
    | false =>
      rw [step?, if_neg (by simp [hended])] at h
      exact work_take hs hended h
  | tick =>
    simp only [step?] at h
    split at h
    · cases h
    · obtain rfl := Option.some.inj h
      exact le_rfl
  | deadline =>
    simp only [step?] at h
    split at h
    · cases h
    · next hnot =>
      obtain rfl := Option.some.inj h
      exact work_close hs (eq_false_of_ne_true (not_or.mp hnot).1)

/-- A schedule has no more turns but ticks than there is work to do. -/
theorem work_run? (hs : s.Orderly) (h : s.run? order m schedule = some t) :
    t.work + schedule.countP (· ≠ .tick) ≤ s.work := by
  induction schedule generalizing s with
  | nil =>
    obtain rfl := Option.some.inj h
    exact le_rfl
  | cons turn schedule ih =>
    rw [run?_cons] at h
    obtain ⟨next, hstep, hrest⟩ := Option.bind_eq_some_iff.mp h
    have hfirst := work_step? hs hstep
    have hothers := ih (hs.step? hstep) hrest
    rw [List.countP_cons]
    by_cases htick : turn = .tick
    · rw [if_pos htick] at hfirst
      rw [if_neg (by simp [htick])]
      omega
    · rw [if_neg htick] at hfirst
      rw [if_pos (by simp [htick])]
      omega

/-- A reader that has not stopped can go on. -/
theorem isSome_read (hreader : s.reader ≠ .stopped) (more : Nat) : (s.read order more).isSome := by
  unfold read
  split
  · rfl
  · rfl
  · split <;> rfl
  · contradiction

/-- Until the receiver has let go of the queue, it can go on, or else the reader can. -/
theorem isSome_step? (order : ByteOrder) (m : Monitor) (hclosed : s.closed = false) :
    (s.step? order m .receiver).isSome ∨ ∀ more, (s.step? order m (.reader more)).isSome := by
  by_cases hreader : s.reader = .stopped
  · left
    unfold step? leave take
    rw [hclosed, hreader]
    cases s.ended <;> cases s.halted <;> cases s.queue <;> rfl
  · exact .inr (isSome_read hreader)

/-- The messages of a file lead the receiver to a part of what it would see without a limit. -/
theorem sightings_receive_ofRest (m : Monitor) (blocks : List Block) (length : Nat) :
    (m.receive {} (blocks.map .ok ++ Message.ofRest length)).sightings <+:
      (Followed.ofBlocks blocks).sightings := by
  by_cases hroom : ∀ limit, m.limit = some limit → blocks.length < max 1 limit
  · rw [m.receive_unlimited hroom]
  · push Not at hroom
    obtain ⟨limit, hlimit, hle⟩ := hroom
    rw [m.receive_limited hlimit hle]
    exact Followed.sightings_ofBlocks_take _ _

/-- However the reader, the receiver, the clock and the deadline take turns, a monitor that follows
an ordinary file shows the first of the file's blocks in their order, each with the counter of the
blocks up to it. Unless the deadline comes before, it ends as `Monitor.run` does: with all blocks,
and an error if a part of a block is left, or with as many blocks as its limit allows. It ends
after a bounded number of turns, since the reader or the receiver can always go on before. -/
theorem follows_any_schedule {order : ByteOrder} {m : Monitor} {store : Store} {place : Place}
    {bytes : List UInt8} {schedule : List Turn} {t : Running}
    (hfile : store.open? m.path = .ok (place, .file bytes))
    (hrun : (start bytes).run? order m schedule = some t) :
    ∃ blocks, Slices order bytes blocks ∧
      t.seen.shown <+: blocks ∧
      (∀ k (h : k < t.seen.sightings.length),
        t.seen.sightings[k].counter = Counter.ofBlocks (blocks.take (k + 1))) ∧
      (.deadline ∉ schedule → t.ended = true →
        t.seen = m.run store order ∧
        ((∀ limit, m.limit = some limit → bytes.length / 512 < limit) →
          t.seen.shown = blocks ∧
          t.seen.result = if bytes.length % 512 = 0 then .ok (Counter.ofBlocks blocks)
            else .error (.shortBlock (bytes.length % 512))) ∧
        (∀ limit, m.limit = some limit → 1 ≤ limit → limit ≤ bytes.length / 512 →
          t.seen.shown = blocks.take limit ∧
          t.seen.result = .ok (Counter.ofBlocks (blocks.take limit)))) ∧
      schedule.countP (· ≠ .tick) ≤ 5 * bytes.length + 5 ∧
      (t.closed = true → t.ended = true) ∧
      (t.closed = false →
        (t.step? order m .receiver).isSome ∨ ∀ more, (t.step? order m (.reader more)).isSome) := by
  obtain ⟨blocks, hslices, hmessages⟩ := exists_slices order bytes
  have hstart := Orderly.start bytes
  have ht := hstart.run? hrun
  obtain ⟨hcut, hkept⟩ := outcome_run? hstart hrun
  -- the receiver is bound to come to what all messages make of it
  have hwhole : (start bytes).outcome order m =
      m.receive {} (blocks.map .ok ++ Message.ofRest (bytes.length % 512)) :=
    congrArg (m.receive {}) hmessages
  have hshown : t.seen.sightings <+: (Followed.ofBlocks blocks).sightings := by
    rw [hwhole] at hcut
    exact (sightings_outcome order m t).trans (hcut.trans (sightings_receive_ofRest m blocks _))
  refine ⟨blocks, hslices, ?_, ?_, ?_, ?_, ?_, isSome_step? order m⟩
  · rw [← Followed.map_block_sightings blocks]
    exact hshown.map Sighting.block
  · intro k hk
    rw [hshown.getElem hk]
    exact Followed.counter_getElem_sightings blocks _
  · intro hdeadline hended
    have hseen : t.seen = m.receive {} (blocks.map .ok ++ Message.ofRest (bytes.length % 512)) := by
      rw [← hwhole, ← hkept hdeadline, outcome, if_pos hended]
    refine ⟨?_, ?_, ?_⟩
    · rw [hseen, Monitor.run, hfile, ← hmessages]
      rfl
    · intro hroom
      rw [← hslices.length] at hroom
      rw [m.receive_unlimited fun limit hlimit => (hroom limit hlimit).trans_le (le_max_right 1 _)]
        at hseen
      rw [hseen]
      refine ⟨Followed.map_block_sightings blocks, ?_⟩
      by_cases hrest : bytes.length % 512 = 0
      · rw [if_pos hrest, if_pos hrest]
        exact congrArg Except.ok (Followed.counter_ofBlocks blocks)
      · rw [if_neg hrest, if_neg hrest]
        rfl
    · intro limit hlimit hpos hle
      rw [← hslices.length] at hle
      have hmax : max 1 limit = limit := max_eq_right hpos
      rw [m.receive_limited hlimit (hmax.symm ▸ hle), hmax] at hseen
      rw [hseen]
      refine ⟨Followed.map_block_sightings _, ?_⟩
      exact congrArg Except.ok (Followed.counter_ofBlocks _)
  · have hwork := work_run? hstart hrun
    rw [work_start] at hwork
    exact le_trans (Nat.le_add_left _ _) hwork
  · intro hclosed
    by_contra hended
    have hopen := ht.closed (eq_false_of_ne_true hended)
    simp [hclosed] at hopen

/-- A file of one block and three bytes is read in pieces, and the monitor ends with an error for
the three bytes. -/
theorem follows_any_schedule_pieces :
    let m : Monitor := { path := "control" }
    let bytes : List UInt8 := List.replicate 512 0 ++ [1, 2, 3]
    let store := Store.empty.addFile "control" (.file bytes)
    let schedule : List Turn := [.reader 0, .reader 299, .tick, .reader 999, .reader 0, .reader 0,
      .receiver, .reader 0, .reader 9, .reader 0, .reader 0, .receiver, .receiver, .receiver]
    store.open? m.path = .ok (["control"], .file bytes) ∧
      ∃ t, (start bytes).run? .little m schedule = some t ∧ t.closed = true ∧
        t.seen = m.run store .little ∧ t.seen.shown.length = 1 ∧
        t.seen.result = .error (.shortBlock 3) := by
  intro m bytes store schedule
  have hfile : store.open? m.path = .ok (["control"], .file bytes) := by decide +kernel
  have hany : ((start bytes).run? .little m schedule).any (fun t => t.ended && t.closed) =
      true := by decide +kernel
  obtain ⟨t, hrun, ht⟩ := (Option.any_eq_true _ _).mp hany
  obtain ⟨hended, hclosed⟩ := Bool.and_eq_true_iff.mp ht
  obtain ⟨blocks, hslices, _, _, hend, _⟩ := follows_any_schedule hfile hrun
  obtain ⟨hseen, hall, _⟩ := hend (by decide) hended
  obtain ⟨hshown, hresult⟩ := hall nofun
  have hlength : bytes.length = 515 := by decide +kernel
  refine ⟨hfile, t, hrun, hclosed, hseen, ?_, ?_⟩
  · rw [hshown, hslices.length, hlength]
  · rw [hresult, hlength]
    rfl

end Running

end ZioControl
