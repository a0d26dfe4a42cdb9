import ZioControl.Program
import ZioControl.Proofs.Apply

/-!
# Setting fields of a control file

The command that sets fields starts a session, reads the control, makes the assignments, checks the
outcome if that is wanted, and only then writes it, or shows it in a dry run. So a control file is
either left alone or gets a whole new block, and it is written exactly if nothing stands against it
(`Program.set_all_or_nothing`). `Program.SetsTo` says what has to go well before a block can be
written, and `Program.SetEnds` lists how the command may end.
-/

namespace ZioControl

open Dialogue

variable {w next : World} {path : String} {place : Place} {bytes : List UInt8} {order : ByteOrder}

/-- A job of one exchange comes to what the exchange comes to. -/
theorem Job.ofExchange_comesTo {α : Type} {e : Exchange α} {result : Except Error α}
    {written : List (String × List UInt8)} (h : e.run.ComesTo w result next written) :
    (Job.ofExchange e).run.ComesTo w (result.mapError .error) next written := by
  have hjob : (Job.ofExchange e).run.ComesTo w (result.mapError .error) next (written ++ []) :=
    h.bind (by cases result <;> exact ComesTo.done _ next)
  rwa [List.append_nil] at hjob

/-- The blocks that carrying out a plan writes. Following a device writes none. -/
def Plan.writes (plan : Plan) (w : World) : List (String × List UInt8) :=
  match plan with
  | .work job => job.run.writes w
  | .follow _ _ => []

namespace Program

/-- The assignments make a block of the one that these bytes begin with. -/
structure EditsTo (order : ByteOrder) (bytes : List UInt8) (assignments : List (String × String))
    (check : Bool) (b : Block) : Prop where
  /-- The bytes of a block are there. -/
  long : blockSize ≤ bytes.length
  /-- Every assignment can be made, and the device takes the outcome if that is checked. -/
  edited : ∃ current form, Block.decode order bytes = .ok current ∧
    (Form.ofBlock current).setAll assignments = .ok form ∧ form.apply current = b ∧
    (check = true → b.checkAgainst current = .ok ())

/-- The ways in which setting fields may end: with a result, with bytes that the file then has, with
blocks that were written and with texts that were put out. -/
inductive SetEnds (possible : Block → Prop) (order : ByteOrder) (path : String)
    (bytes : List UInt8) (dryRun : Bool) :
    Except Error Unit → List UInt8 → List (String × List UInt8) → List String → Prop
  /-- There is no block to be written. -/
  | failed (error : Error) (h : ∀ b, ¬possible b) :
      SetEnds possible order path bytes dryRun (.error error) bytes [] []
  /-- A dry run shows the block. -/
  | shown (b : Block) (h : possible b) (hdry : dryRun = true) :
      SetEnds possible order path bytes dryRun (.ok ()) bytes [] [b.summary]
  /-- The block has a name that does not fit its field. -/
  | misnamed (b : Block) (error : Error) (h : possible b) (hdry : dryRun = false)
      (hencode : b.encode order = .error error) :
      SetEnds possible order path bytes dryRun (.error error) bytes [] []
  /-- The block is written, and shown as it is read back. -/
  | written (b : Block) (new : List UInt8) (h : possible b) (hdry : dryRun = false)
      (hencode : b.encode order = .ok new) :
      SetEnds possible order path bytes dryRun (.ok ()) (new ++ bytes.drop blockSize) [(path, new)]
        [b.summary]

section SetEnds

variable {possible possible' : Block → Prop} {dryRun : Bool} {result : Except Error Unit}
  {after : List UInt8} {written : List (String × List UInt8)} {printed : List String} {b : Block}

/-- It does not matter how it is said which blocks are possible. -/
theorem SetEnds.congr (h : SetEnds possible order path bytes dryRun result after written printed)
    (hiff : ∀ b, possible b ↔ possible' b) :
    SetEnds possible' order path bytes dryRun result after written printed := by
  obtain rfl : possible = possible' := funext fun b => propext (hiff b)
  exact h

/-- The file is left alone, or begins with a block that was written. -/
theorem SetEnds.eq_or_replaced
    (h : SetEnds possible order path bytes dryRun result after written printed) :
    written = [] ∧ after = bytes ∨ ∃ b new, possible b ∧ b.encode order = .ok new ∧
      written = [(path, new)] ∧ after = new ++ bytes.drop blockSize := by
  cases h with
  | failed error hnone => exact .inl ⟨rfl, rfl⟩
  | shown b hb hdry => exact .inl ⟨rfl, rfl⟩
  | misnamed b error hb hdry hencode => exact .inl ⟨rfl, rfl⟩
  | written b new hb hdry hencode => exact .inr ⟨b, new, hb, hencode, rfl, rfl⟩

section Unique

variable (hunique : ∀ b other, possible b → possible other → b = other)

include hunique

/-- Something is written exactly if there is a block with bytes and this is no dry run. -/
theorem SetEnds.written_ne_nil_iff
    (h : SetEnds possible order path bytes dryRun result after written printed) :
    written ≠ [] ↔ ∃ b new, possible b ∧ dryRun = false ∧ b.encode order = .ok new := by
  cases h with
  | failed error hnone =>
    exact iff_of_false (not_not.mpr rfl) fun ⟨b, _, hb, _⟩ => hnone b hb
  | shown b hb hdry =>
    exact iff_of_false (not_not.mpr rfl) fun ⟨_, _, _, hwet, _⟩ => nomatch hdry.symm.trans hwet
  | misnamed b error hb hdry hencode =>
    refine iff_of_false (not_not.mpr rfl) ?_
    rintro ⟨other, new, hother, -, hok⟩
    obtain rfl := hunique b other hb hother
    cases hencode.symm.trans hok
  | written b new hb hdry hencode => exact iff_of_true nofun ⟨b, new, hb, hdry, hencode⟩

/-- A block is shown if this is a dry run or it has bytes. -/
theorem SetEnds.eq_ok (h : SetEnds possible order path bytes dryRun result after written printed)
    (hb : possible b) (hshown : dryRun = true ∨ ∃ new, b.encode order = .ok new) :
    result = .ok () ∧ printed = [b.summary] := by
  cases h with
  | failed error hnone => exact absurd hb (hnone b)
  | shown other hother hdry =>
    obtain rfl := hunique b other hb hother
    exact ⟨rfl, rfl⟩
  | misnamed other error hother hdry hencode =>
    obtain rfl := hunique b other hb hother
    rcases hshown with hwet | ⟨new, hok⟩
    · cases hdry.symm.trans hwet
    · cases hencode.symm.trans hok
  | written other new hother hdry hencode =>
    obtain rfl := hunique b other hb hother
    exact ⟨rfl, rfl⟩

/-- Nothing is written, and there is an error, if there is no block, or one without bytes outside a
dry run. -/
theorem SetEnds.eq_error (h : SetEnds possible order path bytes dryRun result after written printed)
    (hfails : (∀ b, ¬possible b) ∨
      ∃ b error, possible b ∧ dryRun = false ∧ b.encode order = .error error) :
    written = [] ∧ ∃ error, result = .error error := by
  cases h with
  | failed error hnone => exact ⟨rfl, error, rfl⟩
  | misnamed b error hb hdry hencode => exact ⟨rfl, error, rfl⟩
  | shown b hb hdry =>
    rcases hfails with hnone | ⟨other, error, hother, hwet, -⟩
    · exact absurd hb (hnone b)
    · cases hdry.symm.trans hwet
  | written b new hb hdry hencode =>
    rcases hfails with hnone | ⟨other, error, hother, -, herror⟩
    · exact absurd hb (hnone b)
    · obtain rfl := hunique b other hb hother
      cases hencode.symm.trans herror

end Unique

end SetEnds

variable {assignments : List (String × String)} {check dryRun : Bool} {b other : Block}

/-- What assignments make of the block that the bytes begin with. -/
theorem EditsTo.of_decode {current : Block} (h : EditsTo order bytes assignments check b)
    (hcurrent : Block.decode order bytes = .ok current) :
    ∃ form, (Form.ofBlock current).setAll assignments = .ok form ∧ form.apply current = b ∧
      (check = true → b.checkAgainst current = .ok ()) := by
  obtain ⟨_, form, hok, hform⟩ := h.edited
  obtain rfl := Except.ok.inj (hcurrent.symm.trans hok)
  exact ⟨form, hform⟩

/-- Assignments make at most one block. -/
theorem EditsTo.unique (h : EditsTo order bytes assignments check b)
    (hother : EditsTo order bytes assignments check other) : b = other := by
  obtain ⟨current, form, hcurrent, hform, rfl, -⟩ := h.edited
  obtain ⟨form', hform', rfl, -⟩ := hother.of_decode hcurrent
  obtain rfl := Except.ok.inj (hform.symm.trans hform')
  rfl

/-- Writes a block, and shows what the device then holds. -/
def writeBack (session : Session) (b : Block) (order : ByteOrder) : Exchange Unit := do
  session.write b order
  let now ← session.read order
  if now ≠ b then Exchange.note .adjusted
  Exchange.print now.summary

/-- Shows a block in a dry run, and writes it otherwise. -/
def offer (session : Session) (b : Block) (dryRun : Bool) (order : ByteOrder) : Exchange Unit :=
  if dryRun then Exchange.print b.summary else writeBack session b order

/-- Offers a block, after a check if that is wanted. -/
def offerChecked (session : Session) (current b : Block) (check dryRun : Bool)
    (order : ByteOrder) : Exchange Unit := do
  if check then Session.check b current
  offer session b dryRun order

/-- Sets fields on a session. -/
def setOn (session : Session) (assignments : List (String × String)) (check dryRun : Bool)
    (order : ByteOrder) : Exchange Unit := do
  let current ← session.read order
  let form ← Exchange.ofExcept ((Form.ofBlock current).setAll assignments)
  offerChecked session current (form.apply current) check dryRun order

/-- The command that sets fields starts a session and sets them on it. -/
theorem set_eq (control directory : Option String) :
    set control directory assignments check dryRun order = (do
      let session ← start control directory
      Job.ofExchange (setOn session assignments check dryRun order)) :=
  rfl

/-- An exchange that sets fields of a control file and ends in one of the ways in which that may
end. -/
def Sets (possible : Block → Prop) (order : ByteOrder) (path : String) (place : Place)
    (bytes : List UInt8) (dryRun : Bool) (e : Exchange Unit) (w : World) : Prop :=
  ∃ result next after written printed, e.run.ComesTo w result next written ∧
    next.printed = printed ++ w.printed ∧ next.Holds path place after ∧
    SetEnds possible order path bytes dryRun result after written printed

section Sets

variable {α : Type} {possible : Block → Prop} {e : Exchange α} {f : α → Exchange Unit}

/-- An exchange that fails before anything is written. -/
theorem Sets.of_error {error : Error} (he : e.run.ComesTo w (.error error) next [])
    (hprinted : next.printed = w.printed) (hfile : next.Holds path place bytes)
    (h : ∀ b, ¬possible b) : Sets possible order path place bytes dryRun (e >>= f) w :=
  ⟨_, next, bytes, _, [], he.bind_error, hprinted, hfile, .failed error h⟩

/-- An exchange that goes on before anything is written. -/
theorem Sets.of_ok {a : α} (he : e.run.ComesTo w (.ok a) next [])
    (hprinted : next.printed = w.printed)
    (hf : Sets possible order path place bytes dryRun (f a) next) :
    Sets possible order path place bytes dryRun (e >>= f) w := by
  obtain ⟨result, last, after, written, printed, hrun, hlast, hfile, hends⟩ := hf
  exact ⟨result, last, after, written, printed, he.bind_ok hrun, hlast.trans (by rw [hprinted]),
    hfile, hends⟩

variable {session : Session} {current : Block}

/-- A block that no name stands against is written, and what is read back and shown is that
block. -/
theorem writeBack_comesTo {new : List UInt8} (hfile : w.Holds session.control place bytes)
    (hencode : b.encode order = .ok new) :
    ∃ next, (writeBack session b order).run.ComesTo w (.ok ()) next [(session.control, new)] ∧
      next.printed = b.summary :: w.printed ∧
      next.Holds session.control place (new ++ bytes.drop blockSize) := by
  obtain ⟨next, hwrite, hprinted, hnext⟩ := Device.writeControl_comesTo hfile hencode
  rw [Block.length_of_encode hencode] at hnext
  have hback := Session.read_written_comesTo hencode hnext
  have hshow : (do
      if b ≠ b then Exchange.note .adjusted
      Exchange.print b.summary : Exchange Unit).run.ComesTo next (.ok ()) (next.print b.summary)
        [] := by
    rw [if_neg (not_not.mpr rfl)]
    exact Exchange.print_comesTo b.summary next
  exact ⟨next.print b.summary, hwrite.bind_ok (hback.bind_ok hshow),
    congrArg (b.summary :: ·) hprinted, hnext.print b.summary⟩

/-- A possible block is shown in a dry run, and written otherwise. -/
theorem sets_offer (hb : possible b) (hfile : w.Holds session.control place bytes) :
    Sets possible order session.control place bytes dryRun (offer session b dryRun order) w := by
  cases dryRun with
  | true =>
    exact ⟨_, _, bytes, _, [b.summary], Exchange.print_comesTo b.summary w, rfl,
      hfile.print b.summary, .shown b hb rfl⟩
  | false =>
    cases hencode : b.encode order with
    | error error =>
      have hwrite := Device.writeControl_comesTo_error hencode session.control w
      exact ⟨_, w, bytes, _, [], hwrite.bind_error, rfl, hfile, .misnamed b error hb rfl hencode⟩
    | ok new =>
      obtain ⟨next, hwrite, hprinted, hnext⟩ := writeBack_comesTo hfile hencode
      exact ⟨_, next, _, _, [b.summary], hwrite, hprinted, hnext, .written b new hb rfl hencode⟩

/-- A block is possible exactly if the check, where it is wanted, does not stand against it. -/
theorem sets_offerChecked
    (hpossible : ∀ other, possible other ↔
      b = other ∧ (check = true → b.checkAgainst current = .ok ()))
    (hfile : w.Holds session.control place bytes) :
    Sets possible order session.control place bytes dryRun
      (offerChecked session current b check dryRun order) w := by
  cases check with
  | false => exact sets_offer ((hpossible b).mpr ⟨rfl, nofun⟩) hfile
  | true =>
    obtain ⟨checked, hcheck, hprinted, hkept⟩ := Session.check_comesTo b current w
    have hchecked := hkept _ _ _ hfile
    cases haccepted : b.checkAgainst current with
    | error error =>
      rw [haccepted] at hcheck hpossible
      exact .of_error hcheck hprinted hchecked fun other h =>
        nomatch ((hpossible other).mp h).2 rfl
    | ok _ =>
      rw [haccepted] at hcheck hpossible
      exact .of_ok hcheck hprinted (sets_offer ((hpossible b).mpr ⟨rfl, fun _ => rfl⟩) hchecked)

/-- Once a session has started, fields are set in one of the ways in which that may end. -/
theorem sets_setOn (hfile : w.Holds session.control place bytes) :
    Sets (EditsTo order bytes assignments check) order session.control place bytes dryRun
      (setOn session assignments check dryRun order) w := by
  have hread := Device.readControl_comesTo order hfile
  by_cases hlen : bytes.length < blockSize
  · rw [Block.decode, if_pos hlen] at hread
    exact .of_error hread rfl hfile fun b h => absurd h.long (Nat.not_le.mpr hlen)
  have hlong := Nat.le_of_not_lt hlen
  have hcurrent := Block.decode_eq_ok order hlong
  rw [hcurrent] at hread
  refine .of_ok hread rfl ?_
  cases hform : (Form.ofBlock _).setAll assignments with
  | error error =>
    refine .of_error (Exchange.ofExcept_comesTo rfl w) rfl hfile fun b h => ?_
    obtain ⟨form, hok, -⟩ := h.of_decode hcurrent
    cases hform.symm.trans hok
  | ok form =>
    refine .of_ok (Exchange.ofExcept_comesTo rfl w) rfl (sets_offerChecked (fun b => ?_) hfile)
    constructor
    · intro h
      obtain ⟨form', hok, rfl, haccepted⟩ := h.of_decode hcurrent
      obtain rfl := Except.ok.inj (hform.symm.trans hok)
      exact ⟨rfl, haccepted⟩
    · rintro ⟨rfl, haccepted⟩
      exact ⟨hlong, _, form, hcurrent, hform, rfl, haccepted⟩

end Sets

/-- What has to go well before a command that sets fields comes to a block. -/
structure SetsTo (inv : Invocation) (settings : Settings) (order : ByteOrder) (w : World)
    (path : String) (bytes : List UInt8) (assignments : List (String × String)) (force : Bool)
    (b : Block) : Prop where
  /-- A session starts. -/
  starts : ∃ session,
    ((Session.start path (inv.directory <|> settings.directory)).run.run w).1 = .ok session
  /-- The assignments make the block of the one that the file holds. -/
  edits : EditsTo order bytes assignments (settings.checkBeforeWrite && !force) b

variable {inv : Invocation} {settings : Settings} {force : Bool}

/-- The command that sets fields ends in one of the ways in which that may end. -/
theorem set_ends (order : ByteOrder) (hcommand : inv.command = .set assignments force dryRun)
    (hcontrol : (inv.control <|> settings.control) = some path)
    (hfile : w.Holds path place bytes) :
    ∃ result next after written printed,
      carryOut (plan inv settings order) w = (Except.mapError .error result, next) ∧
      (plan inv settings order).writes w = written ∧ next.printed = printed ++ w.printed ∧
      next.Holds path place after ∧
      SetEnds (SetsTo inv settings order w path bytes assignments force) order path bytes dryRun
        result after written printed := by
  have hplan : plan inv settings order = .work (do
      let session ← start (some path) (inv.directory <|> settings.directory)
      Job.ofExchange
        (setOn session assignments (settings.checkBeforeWrite && !force) dryRun order)) := by
    simp only [plan, hcommand, hcontrol, set_eq]
  rw [hplan]
  obtain ⟨started, hstart, hsession⟩ :=
    Session.start_comesTo path (inv.directory <|> settings.directory) w
  have hjob := Job.ofExchange_comesTo hstart
  cases started with
  | error error =>
    have hend := hjob.bind_error (f := fun session =>
      Job.ofExchange
        (setOn session assignments (settings.checkBeforeWrite && !force) dryRun order))
    refine ⟨.error error, w, bytes, [], [], hend.run, hend.writes, rfl, hfile,
      .failed error fun b h => ?_⟩
    obtain ⟨session, hok⟩ := h.starts
    rw [hstart.run] at hok
    cases hok
  | ok session =>
    obtain rfl := hsession session rfl
    have hsets : Sets _ order session.control place bytes dryRun
        (setOn session assignments (settings.checkBeforeWrite && !force) dryRun order) w :=
      sets_setOn hfile
    obtain ⟨result, next, after, written, printed, hrun, hprinted, hafter, hends⟩ := hsets
    have hend := hjob.bind_ok (f := fun session => Job.ofExchange
      (setOn session assignments (settings.checkBeforeWrite && !force) dryRun order))
      (Job.ofExchange_comesTo hrun)
    refine ⟨result, next, after, written, printed, hend.run, hend.writes, hprinted, hafter,
      hends.congr fun b => ⟨fun h => ⟨⟨session, ?_⟩, h⟩, SetsTo.edits⟩⟩
    rw [hstart.run]

/-- The command that sets fields is all or nothing on a control file. -/
theorem set_all_or_nothing (order : ByteOrder)
    (hcommand : inv.command = .set assignments force dryRun)
    (hcontrol : (inv.control <|> settings.control) = some path)
    (hfile : w.Holds path place bytes) :
    ∃ result next after, carryOut (plan inv settings order) w = (result, next) ∧
      next.Holds path place after ∧
      -- the file is as it was, or begins with a whole new block
      ((plan inv settings order).writes w = [] ∧ after = bytes ∨
        ∃ b new, SetsTo inv settings order w path bytes assignments force b ∧
          b.encode order = .ok new ∧ (plan inv settings order).writes w = [(path, new)] ∧
          after = new ++ bytes.drop blockSize) ∧
      -- it is written exactly if nothing stands against it
      ((plan inv settings order).writes w ≠ [] ↔
        ∃ b new, SetsTo inv settings order w path bytes assignments force b ∧ dryRun = false ∧
          b.encode order = .ok new) ∧
      -- then, and in a dry run in any case, the block is shown
      (∀ b, SetsTo inv settings order w path bytes assignments force b →
        (dryRun = true ∨ ∃ new, b.encode order = .ok new) →
        result = .ok () ∧ next.printed = b.summary :: w.printed) ∧
      -- otherwise nothing is written and there is an error
      ((∀ b, ¬SetsTo inv settings order w path bytes assignments force b) ∨
        (∃ b error, SetsTo inv settings order w path bytes assignments force b ∧ dryRun = false ∧
          b.encode order = .error error) →
        (plan inv settings order).writes w = [] ∧ ∃ failure, result = .error failure) := by
  obtain ⟨result, next, after, written, printed, hrun, rfl, hprinted, hafter, hends⟩ :=
    set_ends order hcommand hcontrol hfile
  have hunique (b other : Block) (h : SetsTo inv settings order w path bytes assignments force b)
      (hother : SetsTo inv settings order w path bytes assignments force other) : b = other :=
    h.edits.unique hother.edits
  refine ⟨_, next, after, hrun, hafter, hends.eq_or_replaced, hends.written_ne_nil_iff hunique,
    fun b hb hshown => ?_, fun hfails => ?_⟩
  · obtain ⟨rfl, rfl⟩ := hends.eq_ok hunique hb hshown
    exact ⟨rfl, hprinted⟩
  · obtain ⟨hwritten, error, rfl⟩ := hends.eq_error hunique hfails
    exact ⟨hwritten, _, rfl⟩

/-- A number and a mask are set in a file of zeros, which then begins with the block that is shown
and has both. -/
theorem set_all_or_nothing_zeros :
    let bytes : List UInt8 := List.replicate 512 0 ++ [1, 2, 3]
    let w : World := { store := Store.empty.addFile "control" (.file bytes) }
    let assignments := [("seq_num", "7"), ("trigger.std_mask", "0x3")]
    let inv : Invocation :=
      { control := some "control", command := .set assignments false false }
    w.Holds "control" ["control"] bytes ∧
      ∃ next b new, carryOut (plan inv {} .little) w = (.ok (), next) ∧
        SetsTo inv {} .little w "control" bytes assignments false b ∧ b.encode .little = .ok new ∧
        next.Holds "control" ["control"] (new ++ [1, 2, 3]) ∧ next.printed = [b.summary] ∧
        b.sequence = 7 ∧ b.trigger.standard.mask = 0x3 := by
  intro bytes w assignments inv
  have hfile : w.Holds "control" ["control"] bytes := ⟨rfl, nofun⟩
  have hcommand : inv.command = .set assignments false false := rfl
  have hcontrol : (inv.control <|> ({} : Settings).control) = some "control" := rfl
  have hwrites : (plan inv {} .little).writes w ≠ [] := by decide +kernel
  obtain ⟨result, next, after, hrun, hafter, hreplaced, -, hshown, -⟩ :=
    set_all_or_nothing .little hcommand hcontrol hfile
  obtain ⟨b, new, hb, hencode, -, rfl⟩ := hreplaced.resolve_left fun h => hwrites h.1
  obtain ⟨rfl, hprinted⟩ := hshown b hb (.inr ⟨new, hencode⟩)
  have hrest : bytes.drop blockSize = [1, 2, 3] := List.drop_left' List.length_replicate
  rw [hrest] at hafter
  obtain ⟨current, form, hcurrent, hform, hblock, -⟩ := hb.edits.edited
  have hedited : ((Block.decode .little bytes).bind fun current =>
      ((Form.ofBlock current).setAll assignments).map fun form =>
        ((form.apply current).sequence, (form.apply current).trigger.standard.mask)) =
      .ok (7, 0x3) := by decide +kernel
  rw [hcurrent, Except.bind, hform, Except.map, hblock] at hedited
  obtain ⟨hsequence, hmask⟩ := Prod.mk.inj (Except.ok.inj hedited)
  exact ⟨hfile, next, b, new, hrun, hb, hencode, hafter, hprinted, hsequence, hmask⟩

end Program

end ZioControl
