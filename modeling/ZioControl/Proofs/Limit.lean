import ZioControl.Proofs.Schedules

/-!
# How many blocks a monitor shows

A monitor looks at its limit after it has shown a block, so a limit of zero lets one block through,
as a limit of one does; any greater limit is never exceeded. What carries the argument is that a
receiver that goes on has room for one more block (`Followed.Within`). Receiving a message keeps
this (`Followed.Within.accept`), and so does every turn of a schedule (`Running.within_step?`),
whatever waits in the queue and whatever the reader has still to read. Without a deadline the number
of blocks is exact: as many as come before the first error, up to the limit
(`Monitor.length_sightings_receive`). The main theorem is `Running.shown_le_limit_iff`.
-/

namespace ZioControl

/-- How many blocks come before the first error. -/
def Message.leading (messages : List Message) : Nat := (messages.takeWhile Except.isOk).length

namespace Followed

variable {m : Monitor} {limit : Nat} {f : Followed}

/-- How far a receiver has come that looks at a limit after each block. -/
structure Within (limit : Nat) (f : Followed) : Prop where
  /-- Every block that is shown is counted. -/
  counted : f.counter.blocks = f.sightings.length
  /-- There are no more blocks than the limit allows, or just one. -/
  bounded : f.sightings.length ≤ max 1 limit
  /-- A receiver that goes on has room for one more. -/
  room : f.ending = none → f.sightings.length < max 1 limit

/-- A block that is shown is one more. -/
theorem length_sightings_add (f : Followed) (b : Block) :
    (f.add b).sightings.length = f.sightings.length + 1 := by
  rw [add, List.length_append, List.length_singleton]

/-- A receiver begins without a block. -/
theorem within_empty (limit : Nat) : ({} : Followed).Within limit where
  counted := rfl
  bounded := Nat.zero_le _
  room _ := Nat.le_max_left 1 limit

/-- A receiver that ends shows no other block. -/
theorem Within.end (h : f.Within limit) (ending : Ending) :
    Within limit { f with ending := some ending } where
  counted := h.counted
  bounded := h.bounded
  room := nofun

/-- A receiver that goes on and receives a message keeps to the limit. -/
theorem Within.accept (hlimit : m.limit = some limit) (h : f.Within limit)
    (hopen : f.ending = none) (message : Message) : (m.accept f message).Within limit := by
  cases message with
  | error e => exact h.end (.failed e)
  | ok b =>
    have hroom := h.room hopen
    have hlength := f.length_sightings_add b
    have hcounted : (f.add b).counter.blocks = (f.add b).sightings.length := by
      rw [hlength, ← h.counted]
      rfl
    rw [m.accept_ok]
    by_cases hreached : m.isReached (f.add b).counter = true
    · rw [if_pos hreached]
      exact ⟨hcounted, by rw [close, hlength]; omega, nofun⟩
    · rw [if_neg hreached]
      refine ⟨hcounted, by omega, fun _ => ?_⟩
      -- the block is not the one that reaches the limit
      rw [Monitor.isReached, hlimit, Option.any_some, decide_eq_true_iff, hcounted] at hreached
      omega

/-- The counter that a receiver hands back is its own. -/
theorem counter_of_result {c : Counter} (h : f.result = .ok c) : c = f.counter := by
  unfold result at h
  split at h
  · cases h
  · exact (Except.ok.inj h).symm
  · exact (Except.ok.inj h).symm

end Followed

namespace Monitor

variable (m : Monitor) {limit : Nat} {f : Followed}

/-- A receiver that is given all messages shows the blocks before the first error, as far as the
limit allows. -/
theorem length_sightings_receive (hlimit : m.limit = some limit) (h : f.Within limit)
    (hopen : f.ending = none) (messages : List Message) :
    (m.receive f messages).sightings.length =
      min (f.sightings.length + Message.leading messages) (max 1 limit) := by
  induction messages generalizing f with
  | nil =>
    have hbounded := h.bounded
    change f.sightings.length = min (f.sightings.length + 0) (max 1 limit)
    omega
  | cons message rest ih =>
    cases message with
    | error e =>
      have hbounded := h.bounded
      change f.sightings.length = min (f.sightings.length + 0) (max 1 limit)
      omega
    | ok b =>
      have hleading : Message.leading (.ok b :: rest) = Message.leading rest + 1 := rfl
      have hlength := f.length_sightings_add b
      have hwithin := h.accept hlimit hopen (.ok b)
      rw [m.accept_ok] at hwithin
      by_cases hreached : m.isReached (f.add b).counter = true
      · rw [if_pos hreached] at hwithin
        have hfull : limit ≤ (f.add b).sightings.length := by
          rw [isReached, hlimit, Option.any_some, decide_eq_true_iff] at hreached
          exact hreached.trans_eq hwithin.counted
        have hbounded : (f.add b).sightings.length ≤ max 1 limit := hwithin.bounded
        rw [m.receive_cons_of_isReached hreached, hleading]
        change (f.add b).sightings.length = _
        omega
      · have hgoes : m.isReached (f.add b).counter = false := eq_false_of_ne_true hreached
        rw [if_neg hreached] at hwithin
        rw [m.receive_cons_of_not_isReached hgoes, ih hwithin rfl, hlength, hleading]
        omega

/-- Whatever lies at the path of a monitor, it shows no more blocks than its limit, or one. -/
theorem length_sightings_run_le (hlimit : m.limit = some limit) (store : Store)
    (order : ByteOrder) : (m.run store order).sightings.length ≤ max 1 limit := by
  unfold run
  split
  · exact Nat.zero_le _
  · rw [m.length_sightings_receive hlimit (Followed.within_empty limit) rfl]
    exact min_le_right _ _

end Monitor

namespace Running

variable {order : ByteOrder} {m : Monitor} {limit : Nat} {s t : Running} {turn : Turn}
  {schedule : List Turn}

/-- A turn keeps the receiver to the limit. -/
theorem within_step? (hlimit : m.limit = some limit) (hs : s.Orderly)
    (hwithin : s.seen.Within limit) (h : s.step? order m turn = some t) : t.seen.Within limit := by
  cases Effect.of_step? hs h with
  | finished _ hseen => exact hseen ▸ hwithin
  | kept _ hseen => exact hseen ▸ hwithin
  | received message hended _ hseen =>
    have hopen : s.seen.ending = none := by
      rwa [ended, Option.isSome_eq_false_iff, Option.isNone_iff_eq_none] at hended
    exact hseen ▸ hwithin.accept hlimit hopen message
  | exhausted _ _ hseen => exact hseen ▸ hwithin.end .complete
  | expired _ hseen => exact hseen ▸ hwithin.end .complete

/-- So does a schedule. -/
theorem within_run? (hlimit : m.limit = some limit) (hs : s.Orderly)
    (hwithin : s.seen.Within limit) (h : s.run? order m schedule = some t) :
    t.seen.Within limit := by
  induction schedule generalizing s with
  | nil =>
    obtain rfl := Option.some.inj h
    exact hwithin
  | cons turn schedule ih =>
    rw [run?_cons] at h
    obtain ⟨next, hstep, hrest⟩ := Option.bind_eq_some_iff.mp h
    exact ih (hs.step? hstep) (within_step? hlimit hs hwithin hstep) hrest

/-- However the reader, the receiver, the clock and the deadline take turns, and whatever waits in
the queue and is still to be read, a monitor shows no more blocks than its limit and counts them,
except that a limit of zero lets one block through. Unless the deadline comes before, it shows the
blocks before the first error, as far as the limit allows. -/
theorem shown_le_limit_iff {reader : Reader} {queue : List Message}
    (hlimit : m.limit = some limit)
    (hrun : run? order m { reader := reader, queue := queue } schedule = some t) :
    t.seen.counter.blocks = t.seen.shown.length ∧
      (t.seen.shown.length ≤ limit ∧ (∀ c, t.seen.result = .ok c → c.blocks ≤ limit) ↔
        1 ≤ limit ∨ t.seen.shown = []) ∧
      t.seen.shown.length ≤ max 1 limit ∧
      (.deadline ∉ schedule → t.ended = true → t.seen.shown.length =
        min (Message.leading (queue ++ reader.messages order)) (max 1 limit)) ∧
      ∀ store, (m.run store order).shown.length ≤ max 1 limit := by
  set s : Running := { reader := reader, queue := queue }
  have hs : s.Orderly := ⟨fun _ => rfl, fun _ => rfl⟩
  have hlength (f : Followed) : f.shown.length = f.sightings.length := List.length_map _
  have hwithin := within_run? hlimit hs (Followed.within_empty limit) hrun
  have hbounded : t.seen.shown.length ≤ max 1 limit := (hlength _).trans_le hwithin.bounded
  have hcounted : t.seen.counter.blocks = t.seen.shown.length :=
    hwithin.counted.trans (hlength _).symm
  refine ⟨hcounted, ⟨?_, ?_⟩, hbounded, ?_, ?_⟩
  · rintro ⟨hle, -⟩
    rcases Nat.eq_zero_or_pos limit with rfl | hpos
    · exact .inr (List.eq_nil_of_length_eq_zero (Nat.le_zero.mp hle))
    · exact .inl hpos
  · intro hcase
    have hle : t.seen.shown.length ≤ limit := by
      rcases hcase with hpos | hnone
      · omega
      · rw [hnone]
        exact Nat.zero_le limit
    refine ⟨hle, fun c hc => ?_⟩
    rw [Followed.counter_of_result hc, hcounted]
    exact hle
  · intro hdeadline hended
    have hkept := (outcome_run? hs hrun).2 hdeadline
    have hseen : t.seen = m.receive {} (queue ++ reader.messages order) := by
      rw [outcome, if_pos hended] at hkept
      exact hkept
    rw [hlength, hseen, m.length_sightings_receive hlimit (Followed.within_empty limit) rfl]
    exact congrArg (min · (max 1 limit)) (Nat.zero_add _)
  · intro store
    rw [hlength]
    exact m.length_sightings_run_le hlimit store order

/-- A limit of two lets the first two blocks of the queue through, in front of an error. -/
theorem shown_le_limit_iff_two :
    let m : Monitor := { path := "control", limit := some 2 }
    let queue : List Message := [.ok {}, .ok { sequence := 1 }, .ok { sequence := 2 },
      .error (.file "control" .timedOut)]
    let schedule : List Turn := [.receiver, .tick, .receiver]
    ∃ t, run? .little m { reader := .stopped, queue := queue } schedule = some t ∧
      t.seen.shown.length = 2 ∧ t.seen.counter.blocks = 2 := by
  intro m queue schedule
  have hany : (run? .little m { reader := .stopped, queue := queue } schedule).any
      (fun t => t.ended) = true := by decide +kernel
  obtain ⟨t, hrun, hended⟩ := (Option.any_eq_true _ _).mp hany
  obtain ⟨hcounted, -, -, hexact, -⟩ := shown_le_limit_iff rfl hrun
  have hshown : t.seen.shown.length = 2 := hexact (by decide) hended
  exact ⟨t, hrun, hshown, hcounted.trans hshown⟩

/-- A limit of zero lets the first block through. -/
theorem shown_gt_limit_of_zero :
    let m : Monitor := { path := "control", limit := some 0 }
    let schedule : List Turn := [.reader 0, .reader 511, .reader 0, .reader 0, .receiver]
    ∃ t c, (start (List.replicate 512 0)).run? .little m schedule = some t ∧
      t.seen.shown = [{}] ∧ t.seen.result = .ok c ∧ c.blocks = 1 := by
  intro m schedule
  have hany : ((start (List.replicate 512 0)).run? .little m schedule).any (fun t =>
      t.seen.shown = [{}] ∧ t.seen.result = .ok { blocks := 1, last := some 0 }) = true := by
    decide +kernel
  obtain ⟨t, hrun, ht⟩ := (Option.any_eq_true _ _).mp hany
  obtain ⟨hshown, hresult⟩ := of_decide_eq_true ht
  exact ⟨t, _, hrun, hshown, hresult, rfl⟩

end Running

end ZioControl
