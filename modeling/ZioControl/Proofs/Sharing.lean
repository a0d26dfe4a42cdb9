import ZioControl.Dialogue.Interleaving
import ZioControl.Proofs.Apply

/-!
# Sessions that share a control file

Sessions that apply blocks to one file at the same time check each block against what the file held
when they read it, which another session may have replaced since. That does no harm, since all that
a check compares with is the same in every block that passed one. The argument is one of rely and
guarantee: `Dialogue.Respects` says that a dialogue only makes requests that it guarantees, as long
as it can rely on the answers, and dialogues that respect one contract keep what the world promises
for it under every schedule (`Interleaving.respects_run?`). For sessions the contract is that
whatever is written agrees with itself and is for the device, so that whatever is read is
(`Session.respects_applyAll`, `Session.shared_together`).
-/

namespace ZioControl

namespace Dialogue

variable {α β ε : Type} {guarantee : Request → Prop} {rely : (r : Request) → r.Answer → Prop}
  {result : α → Prop}

/-- A dialogue that makes no request which it does not guarantee and comes to a result with some
property, as long as it can rely on the answers. -/
def Respects (guarantee : Request → Prop) (rely : (r : Request) → r.Answer → Prop)
    (result : α → Prop) : Dialogue α → Prop
  | .done a => result a
  | .ask request next =>
    guarantee request ∧ ∀ answer, rely request answer →
      (next answer).Respects guarantee rely result

/-- The result of a dialogue that is over. -/
def result? : Dialogue α → Option α
  | .done a => some a
  | .ask _ _ => none

/-- A dialogue with a result is over. -/
theorem eq_done_of_result? {d : Dialogue α} {a : α} (h : d.result? = some a) : d = .done a := by
  cases d with
  | done _ => exact congrArg done (Option.some.inj h)
  | ask _ _ => cases h

/-- Dialogues one after the other respect what each of them respects. -/
theorem Respects.bind {d : Dialogue α} {f : α → Dialogue β} {mid : α → Prop} {result : β → Prop}
    (hd : d.Respects guarantee rely mid)
    (hf : ∀ a, mid a → (f a).Respects guarantee rely result) :
    (d >>= f).Respects guarantee rely result := by
  induction d with
  | done a => exact hf a hd
  | ask request next ih => exact ⟨hd.1, fun answer hanswer => ih answer (hd.2 answer hanswer)⟩

/-- A dialogue also comes to a result with a weaker property. -/
theorem Respects.mono {d : Dialogue α} {weaker : α → Prop}
    (hd : d.Respects guarantee rely result) (h : ∀ a, result a → weaker a) :
    d.Respects guarantee rely weaker := by
  induction d with
  | done a => exact h a hd
  | ask request next ih => exact ⟨hd.1, fun answer hanswer => ih answer (hd.2 answer hanswer)⟩

/-- The same where the first may end with an error, after which the second is not held. -/
theorem Respects.bind_except {e : ExceptT ε Dialogue α} {f : α → ExceptT ε Dialogue β}
    {mid : Except ε α → Prop} {result : Except ε β → Prop}
    (he : e.run.Respects guarantee rely mid)
    (hok : ∀ a, mid (.ok a) → (f a).run.Respects guarantee rely result)
    (herror : ∀ error, mid (.error error) → result (.error error)) :
    (e >>= f).run.Respects guarantee rely result :=
  Respects.bind he fun
    | .ok a, ha => hok a ha
    | .error error, h => herror error h

end Dialogue

namespace Interleaving

variable {α : Type} {s t : Interleaving α}

/-- What is left after the request of a dialogue was answered. -/
def turn (s : Interleaving α) (i : Nat) (request : Request)
    (next : request.Answer → Dialogue α) : Interleaving α where
  dialogues := s.dialogues.set i (next (s.world.answer request).1)
  world := (s.world.answer request).2

/-- The requests that are made in the course of a schedule, in order. -/
def requests (s : Interleaving α) : List Nat → List Request
  | [] => []
  | i :: rest =>
    match s.dialogues[i]? with
    | some (.ask request next) => request :: (s.turn i request next).requests rest
    | _ => []

/-- The blocks that are written in the course of a schedule in a byte order. -/
def Writes (s : Interleaving α) (order : ByteOrder) (schedule : List Nat) (b : Block) : Prop :=
  ∃ path bytes, .writeBlock path bytes ∈ s.requests schedule ∧ b.encode order = .ok bytes

/-- A schedule that goes on has one dialogue make a request, and then the rest goes on. -/
theorem exists_of_run?_cons {i : Nat} {rest : List Nat} (h : s.run? (i :: rest) = some t) :
    ∃ request next, s.dialogues[i]? = some (.ask request next) ∧
      s.requests (i :: rest) = request :: (s.turn i request next).requests rest ∧
      (s.turn i request next).run? rest = some t := by
  rw [run?, List.foldlM_cons] at h
  obtain ⟨mid, hstep, hrest⟩ := Option.bind_eq_some_iff.mp h
  rw [step?] at hstep
  split at hstep
  · next request next hask =>
    have hmid : s.turn i request next = mid := Option.some.inj hstep
    exact ⟨request, next, hask, by simp only [requests, hask], hmid ▸ hrest⟩
  · cases hstep
  · cases hstep

/-- Dialogues that respect a contract go on to respect it under every schedule, in a world that
answers the requests which are made as the dialogues rely on, and keeps its invariant by that. -/
theorem respects_run? {guarantee : Request → Prop} {rely : (r : Request) → r.Answer → Prop}
    {result : α → Prop} {invariant : World → Prop} {schedule : List Nat}
    (hrun : s.run? schedule = some t) (hworld : invariant s.world)
    (hdialogues : ∀ d ∈ s.dialogues, d.Respects guarantee rely result)
    (hanswer : ∀ request ∈ s.requests schedule, ∀ w, invariant w → guarantee request →
      rely request (w.answer request).1 ∧ invariant (w.answer request).2) :
    invariant t.world ∧ ∀ d ∈ t.dialogues, d.Respects guarantee rely result := by
  induction schedule generalizing s with
  | nil =>
    obtain rfl := Option.some.inj hrun
    exact ⟨hworld, hdialogues⟩
  | cons i rest ih =>
    obtain ⟨request, next, hask, hrequests, hrest⟩ := exists_of_run?_cons hrun
    rw [hrequests] at hanswer
    obtain ⟨hfirst, hanswer⟩ := List.forall_mem_cons.mp hanswer
    obtain ⟨hguarantee, hnext⟩ := hdialogues _ (List.mem_of_getElem? hask)
    obtain ⟨hrely, hworld⟩ := hfirst s.world hworld hguarantee
    refine ih hrest hworld (fun d hd => ?_) hanswer
    rcases List.mem_or_eq_of_mem_set hd with hd | rfl
    · exact hdialogues d hd
    · exact hnext _ hrely

end Interleaving

namespace Session

open Dialogue

/-- Applies blocks one after the other, whatever becomes of each of them. -/
def applyAll (s : Session) (order : ByteOrder) :
    List Block → Dialogue (List (Except Error Block))
  | [] => .done []
  | b :: rest => do
    let result ← (s.apply b order).run
    let results ← s.applyAll order rest
    return result :: results

/-- What sessions ask for that share a control file: to read it, to make records, and to write
blocks that agree with themselves and are for the device. -/
def Asks (controls : String → Prop) (order : ByteOrder) (initial : Block) : Request → Prop
  | .readBlock path => controls path
  | .writeBlock path bytes =>
    controls path ∧ ∃ b : Block, b.encode order = .ok bytes ∧ b.SameDevice initial ∧ b.Agrees
  | .note _ => True
  | _ => False

/-- What sessions hear that share a control file: a read gives a known block for the device, and a
write is done. -/
def Hears (order : ByteOrder) (initial : Block) (known : Block → Prop) :
    (r : Request) → r.Answer → Prop
  | .readBlock _, answer =>
    ∃ bytes current, answer = .ok bytes ∧ Block.decode order bytes = .ok current ∧
      current.SameDevice initial ∧ known current
  | .writeBlock _ _, answer => answer = .ok ()
  | _, _ => True

section Contract

variable {controls : String → Prop} {order : ByteOrder} {initial : Block} {known : Block → Prop}

/-- A session reads a known block for the device. -/
theorem respects_readControl {path : String} (hpath : controls path) :
    (Device.readControl path order).run.Respects (Asks controls order initial)
      (Hears order initial known)
      fun result => ∃ current, result = .ok current ∧ current.SameDevice initial ∧
        known current := by
  refine ⟨hpath, ?_⟩
  rintro _ ⟨bytes, current, rfl, hdecode, hcurrent⟩
  exact ⟨current, hdecode, hcurrent⟩

/-- A check asks at most for a record. -/
theorem respects_check (b current : Block) :
    (check b current).run.Respects (Asks controls order initial) (Hears order initial known)
      fun result => result = b.checkAgainst current := by
  rw [check]
  cases b.versionNotice? current with
  | none => rfl
  | some notice => exact ⟨trivial, fun _ _ => rfl⟩

/-- A session may write a block that agrees with itself and is for the device. -/
theorem respects_writeControl {path : String} {b : Block} (hpath : controls path)
    (hdevice : b.SameDevice initial) (hagrees : b.Agrees) :
    (Device.writeControl path b order).run.Respects (Asks controls order initial)
      (Hears order initial known) fun _ => True := by
  rw [Device.writeControl]
  cases hencode : b.encode order with
  | error error => trivial
  | ok bytes =>
    refine ⟨⟨hpath, b, hencode, hdevice, hagrees⟩, ?_⟩
    rintro _ rfl
    exact ⟨trivial, fun _ _ => trivial⟩

/-- Applying a block keeps to the contract, however old the block is that the check was made
against: what it compares with is the same in all of them. -/
theorem respects_apply {s : Session} (hpath : controls s.control) (b : Block) :
    (s.apply b order).run.Respects (Asks controls order initial) (Hears order initial known)
      fun result => ∀ now, result = .ok now → known now := by
  refine (respects_readControl hpath).bind_except ?_ (by simp)
  rintro current ⟨_, hcurrent, hdevice, -⟩
  obtain rfl := Except.ok.inj hcurrent
  refine (respects_check b current).bind_except ?_ (by simp)
  intro _ hcheck
  obtain ⟨hsame, hagrees⟩ := Block.checkAgainst_eq_ok_iff.mp hcheck.symm
  refine (respects_writeControl hpath (hsame.trans hdevice) hagrees).bind_except ?_ (by simp)
  intro _ _
  refine (respects_readControl hpath).mono ?_
  rintro _ ⟨now, rfl, -, hknown⟩ _ ⟨⟩
  exact hknown

/-- So does applying any number of blocks. -/
theorem respects_applyAll {s : Session} (hpath : controls s.control) (blocks : List Block) :
    (s.applyAll order blocks).Respects (Asks controls order initial) (Hears order initial known)
      fun results => ∀ now, .ok now ∈ results → known now := by
  induction blocks with
  | nil =>
    intro now hnow
    cases hnow
  | cons b rest ih =>
    refine (respects_apply hpath b).bind fun result hresult => ih.bind fun results hresults => ?_
    intro now hnow
    rcases List.mem_cons.mp hnow with rfl | hnow
    · exact hresult now rfl
    · exact hresults now hnow

end Contract

/-- What a control file can hold on which sessions work: what it held before, or in place of the
first bytes a block that was written and agrees with itself and is for the device. -/
inductive Shared (order : ByteOrder) (bytes : List UInt8) (initial : Block)
    (wrote : Block → Prop) : List UInt8 → Block → Prop
  /-- Nothing was written. -/
  | untouched : Shared order bytes initial wrote bytes initial
  /-- The block was the last one that was written. -/
  | replaced (b : Block) (new : List UInt8) (hwrote : wrote b)
      (hencode : b.encode order = .ok new) (hdevice : b.SameDevice initial)
      (hagrees : b.Agrees) : Shared order bytes initial wrote (new ++ bytes.drop blockSize) b

section World

variable {controls : String → Prop} {order : ByteOrder} {place : Place}
  {bytes content : List UInt8} {initial current : Block} {wrote : Block → Prop}

/-- The block of the file. -/
theorem Shared.decode (hinitial : Block.decode order bytes = .ok initial)
    (h : Shared order bytes initial wrote content current) :
    Block.decode order content = .ok current := by
  cases h with
  | untouched => exact hinitial
  | replaced b new _ hencode => exact Block.decode_encode_append hencode _

/-- It is for the device. -/
theorem Shared.sameDevice (h : Shared order bytes initial wrote content current) :
    current.SameDevice initial := by
  cases h with
  | untouched => exact .refl initial
  | replaced b new _ _ hdevice => exact hdevice

/-- It is the block from before, or one that was written. -/
theorem Shared.eq_or_wrote (h : Shared order bytes initial wrote content current) :
    current = initial ∨ wrote current := by
  cases h with
  | untouched => exact .inl rfl
  | replaced b new hwrote => exact .inr hwrote

/-- It agrees with itself, unless nothing was written. -/
theorem Shared.eq_or_agrees (h : Shared order bytes initial wrote content current) :
    content = bytes ∨ current.Agrees := by
  cases h with
  | untouched => exact .inl rfl
  | replaced b new _ _ _ hagrees => exact .inr hagrees

/-- Behind its block the file keeps its bytes. -/
theorem Shared.drop (h : Shared order bytes initial wrote content current) :
    content.drop blockSize = bytes.drop blockSize := by
  cases h with
  | untouched => rfl
  | replaced b new _ hencode => exact List.drop_left' (Block.length_of_encode hencode)

/-- A world in which some paths lead to one such file. -/
def Shares (controls : String → Prop) (order : ByteOrder) (place : Place) (bytes : List UInt8)
    (initial : Block) (wrote : Block → Prop) (w : World) : Prop :=
  ∃ content current, Shared order bytes initial wrote content current ∧
    ∀ path, controls path → w.Holds path place content

/-- The world answers sessions that share a control file as they rely on. -/
theorem Shares.answer {w : World} {request : Request}
    (hinitial : Block.decode order bytes = .ok initial)
    (h : Shares controls order place bytes initial wrote w)
    (hasks : Asks controls order initial request)
    (hwrote : ∀ path new b, request = .writeBlock path new → b.encode order = .ok new →
      wrote b) :
    Hears order initial (fun b => b = initial ∨ wrote b) request (w.answer request).1 ∧
      Shares controls order place bytes initial wrote (w.answer request).2 := by
  obtain ⟨content, current, hshared, hholds⟩ := h
  cases request with
  | readBlock path =>
    rw [(hholds path hasks).answer_readBlock]
    refine ⟨⟨_, current, rfl, ?_, hshared.sameDevice, hshared.eq_or_wrote⟩,
      content, current, hshared, hholds⟩
    rw [Block.decode_take]
    exact hshared.decode hinitial
  | writeBlock path new =>
    obtain ⟨hpath, b, hencode, hdevice, hagrees⟩ := hasks
    obtain ⟨next, hanswer, -, hnext⟩ := (hholds path hpath).answer_writeBlock new
    rw [hanswer]
    rw [Block.length_of_encode hencode, hshared.drop] at hnext
    exact ⟨rfl, _, b, .replaced b new (hwrote path new b rfl hencode) hencode hdevice hagrees,
      fun other hother => hnext other (hholds other hother)⟩
  | note notice =>
    exact ⟨trivial, content, current, hshared, fun path hpath => (hholds path hpath).note notice⟩
  | readFile path => exact hasks.elim
  | print text => exact hasks.elim
  | startLog path level => exact hasks.elim

end World

/-- Sessions that each apply some blocks, held with one world. -/
def together (sessions : List (Session × List Block)) (order : ByteOrder) (w : World) :
    Interleaving (List (Except Error Block)) where
  dialogues := sessions.map fun session => session.1.applyAll order session.2
  world := w

/-- However sessions on one control file take turns in applying blocks, the file holds a block for
the same device at every moment, which agrees with itself unless nothing was written yet, and all
that a session reads is the block from before or one that some session wrote. -/
theorem shared_together {sessions : List (Session × List Block)} {order : ByteOrder} {w : World}
    {place : Place} {bytes : List UInt8} {schedule : List Nat}
    {t : Interleaving (List (Except Error Block))}
    (hfiles : ∀ session ∈ sessions, w.Holds session.1.control place bytes)
    (hlen : blockSize ≤ bytes.length)
    (hrun : (together sessions order w).run? schedule = some t) :
    ∃ initial content current, Block.decode order bytes = .ok initial ∧
      (∀ session ∈ sessions, t.world.Holds session.1.control place content) ∧
      Block.decode order content = .ok current ∧
      current.SameDevice initial ∧ (content = bytes ∨ current.Agrees) ∧
      (∀ path next, .ask (.readBlock path) next ∈ t.dialogues →
        ∃ read b, (t.world.answer (.readBlock path)).1 = .ok read ∧
          Block.decode order read = .ok b ∧
          (b = initial ∨ (together sessions order w).Writes order schedule b)) ∧
      ∀ d ∈ t.dialogues, ∀ results, d.result? = some results → ∀ b, .ok b ∈ results →
        b = initial ∨ (together sessions order w).Writes order schedule b := by
  have hinitial := Block.decode_eq_ok order hlen
  set initial := Block.ofImage (Image.ofBytes order bytes)
  let controls (path : String) := ∃ session ∈ sessions, session.1.control = path
  let wrote := (together sessions order w).Writes order schedule
  have hworld : Shares controls order place bytes initial wrote w := by
    refine ⟨bytes, initial, .untouched, ?_⟩
    rintro _ ⟨session, hsession, rfl⟩
    exact hfiles session hsession
  have hdialogues : ∀ d ∈ (together sessions order w).dialogues,
      d.Respects (Asks controls order initial) (Hears order initial fun b => b = initial ∨ wrote b)
        fun results => ∀ b, .ok b ∈ results → b = initial ∨ wrote b := by
    intro d hd
    obtain ⟨session, hsession, rfl⟩ := List.mem_map.mp hd
    exact respects_applyAll ⟨session, hsession, rfl⟩ session.2
  obtain ⟨⟨content, current, hshared, hholds⟩, hrespects⟩ :=
    Interleaving.respects_run? hrun hworld hdialogues fun request hrequest w hw hasks =>
      hw.answer hinitial hasks fun path new b hwrite hencode =>
        ⟨path, new, hwrite ▸ hrequest, hencode⟩
  refine ⟨initial, content, current, hinitial, ?_, hshared.decode hinitial, hshared.sameDevice,
    hshared.eq_or_agrees, ?_, ?_⟩
  · exact fun session hsession => hholds _ ⟨session, hsession, rfl⟩
  · intro path next hask
    -- a dialogue that is about to read a file respects the contract, so the file is the shared one
    have hcontrol : controls path := (hrespects _ hask).1
    refine ⟨_, current, by rw [(hholds path hcontrol).answer_readBlock], ?_, hshared.eq_or_wrote⟩
    rw [Block.decode_take]
    exact hshared.decode hinitial
  · intro d hd results hresults
    obtain rfl := eq_done_of_result? hresults
    exact hrespects _ hd

/-- Of two sessions that have both read zeros, the one that writes first reads back what the other
one wrote in the meantime. -/
theorem shared_together_overtaken :
    let bytes : List UInt8 := List.replicate 512 0
    let w : World := { store := Store.empty.addFile "control" (.file bytes) }
    let sessions : List (Session × List Block) :=
      [(⟨"control", none, {}⟩, [{ sequence := 7 }]), (⟨"./control", none, {}⟩, [{ sequence := 8 }])]
    (∀ session ∈ sessions, w.Holds session.1.control ["control"] bytes) ∧
      blockSize ≤ bytes.length ∧
      ∃ t, (together sessions .little w).run? [0, 1, 0, 1, 0, 0] = some t ∧
        (∃ d ∈ t.dialogues, d.result? = some [.ok { sequence := 8 }]) ∧
        (together sessions .little w).Writes .little [0, 1, 0, 1, 0, 0] { sequence := 8 } := by
  intro bytes w sessions
  have hfiles : ∀ session ∈ sessions, w.Holds session.1.control ["control"] bytes := by
    simp only [sessions, List.forall_mem_cons]
    exact ⟨⟨rfl, nofun⟩, ⟨rfl, nofun⟩, nofun⟩
  have hlen : blockSize ≤ bytes.length := List.length_replicate.ge
  have hresults : ((together sessions .little w).run? [0, 1, 0, 1, 0, 0]).map
      (fun t => t.dialogues.map Dialogue.result?) = some [some [.ok { sequence := 8 }], none] := by
    decide +kernel
  obtain ⟨t, hrun, hresults⟩ := Option.map_eq_some_iff.mp hresults
  have hmem : some [.ok { sequence := 8 }] ∈ t.dialogues.map Dialogue.result? :=
    hresults ▸ List.mem_cons_self
  obtain ⟨d, hd, hresult⟩ := List.mem_map.mp hmem
  obtain ⟨initial, content, current, hinitial, -, -, -, -, -, hdones⟩ :=
    shared_together hfiles hlen hrun
  refine ⟨hfiles, hlen, t, hrun, ⟨d, hd, hresult⟩, ?_⟩
  refine (hdones d hd _ hresult { sequence := 8 } List.mem_cons_self).resolve_left ?_
  rintro rfl
  have hzeros : Block.decode .little bytes ≠ .ok { sequence := 8 } := by decide +kernel
  exact hzeros hinitial

end Session

end ZioControl
