import ZioControl.Proofs.SetCommand

/-!
# A dry run shows what would be written

Setting fields in a dry run shows the block that the assignments make, and otherwise the block that
is read back after it was written. On an ordinary file these are the same: whenever fields are set,
a dry run in the same world succeeds with the same output, and leaves the file alone
(`Program.set_dryRun`). Nor is there ever a record that the device adjusted the block. That is a
statement about all that is recorded on the way (`Dialogue.notes`), which is taken apart along the
exchanges of the command; only where the block is read back does it depend on the file.
-/

namespace ZioControl

/-- The notice that is to be recorded, if that is the request. -/
def Request.noted? : Request → Option Notice
  | .note notice => some notice
  | _ => none

/-- All that the world records is what it is asked to. -/
theorem World.notices_answer (w : World) (r : Request) :
    (w.answer r).2.notices = w.notices ++ r.noted?.toList := by
  cases r with
  | note notice => exact List.reverse_cons
  | writeBlock path bytes =>
    simp only [World.answer]
    split <;> exact (List.append_nil _).symm
  | startLog file level =>
    cases file with
    | none => exact (List.append_nil _).symm
    | some path =>
      simp only [World.answer]
      split <;> exact (List.append_nil _).symm
  | readBlock path | readFile path | print text => exact (List.append_nil _).symm

namespace Dialogue

variable {α β ε : Type} {notice : Notice} {w : World}

/-- The notices that a dialogue records when it is alone with a world, in order. -/
def notes (d : Dialogue α) (w : World) : List Notice := (d.requests w).filterMap Request.noted?

/-- What a dialogue records comes behind the notices that there are. -/
theorem notices_run (d : Dialogue α) (w : World) :
    (d.run w).2.notices = w.notices ++ d.notes w := by
  induction d generalizing w with
  | done a => exact (List.append_nil _).symm
  | ask request next ih =>
    have hnotes : (ask request next).notes w =
        request.noted?.toList ++ (next (w.answer request).1).notes (w.answer request).2 := by
      cases request <;> rfl
    rw [hnotes, ← List.append_assoc, ← w.notices_answer]
    exact ih _ _

/-- A dialogue that is alone with a world does not record this notice. -/
def Omits (notice : Notice) (d : Dialogue α) (w : World) : Prop := notice ∉ d.notes w

/-- A dialogue without a request records nothing. -/
theorem omits_done (a : α) (w : World) : (done a).Omits notice w := List.not_mem_nil

/-- A request omits all notices but the one that it is. -/
theorem omits_request (r : Request) (w : World) (h : r ≠ .note notice) :
    (request r).Omits notice w := by
  intro hmem
  obtain ⟨r', hr', hnoted⟩ := List.mem_filterMap.mp hmem
  obtain rfl := List.mem_singleton.mp hr'
  cases r' with
  | note other => exact h (congrArg Request.note (Option.some.inj hnoted))
  | _ => cases hnoted

/-- Dialogues one after the other omit what each of them omits. -/
theorem Omits.bind {d : Dialogue α} {f : α → Dialogue β} (hd : d.Omits notice w)
    (hf : (f (d.run w).1).Omits notice (d.run w).2) : (d >>= f).Omits notice w := by
  rw [Omits, notes, requests_bind, List.filterMap_append, List.mem_append]
  exact not_or.mpr ⟨hd, hf⟩

/-- The same where the first may end with an error, after which the second is not held. Of the
second it is enough to look at the world that the first leaves behind. -/
theorem Omits.bind_comesTo {e : ExceptT ε Dialogue α} {f : α → ExceptT ε Dialogue β}
    {result : Except ε α} {next : World} {written : List (String × List UInt8)}
    (he : e.run.Omits notice w) (hcomes : e.run.ComesTo w result next written)
    (hf : ∀ a, result = .ok a → (f a).run.Omits notice next) : (e >>= f).run.Omits notice w := by
  have hcont : (ExceptT.bindCont f result).Omits notice next := by
    cases result with
    | ok a => exact hf a rfl
    | error error => exact omits_done _ next
  refine Omits.bind he ?_
  have hrun : run e w = (result, next) := hcomes.run
  rw [hrun]
  exact hcont

/-- The same where the second omits the notice in every world. -/
theorem Omits.bind_except {e : ExceptT ε Dialogue α} {f : α → ExceptT ε Dialogue β}
    (he : e.run.Omits notice w) (hf : ∀ a next, (f a).run.Omits notice next) :
    (e >>= f).run.Omits notice w :=
  he.bind_comesTo ⟨rfl, rfl⟩ fun a _ => hf a _

end Dialogue

open Dialogue

variable {w : World} {notice : Notice}

namespace Exchange

/-- A result that is already there comes without a notice. -/
theorem omits_ofExcept {α : Type} (result : Except Error α) (w : World) :
    (ofExcept result).run.Omits notice w :=
  omits_done result w

/-- So does a text that is put out. -/
theorem omits_print (text : String) (w : World) : (print text).run.Omits notice w :=
  Omits.bind (omits_request (.print text) w nofun) (omits_done _ _)

/-- Another notice is not this one. -/
theorem omits_note (other : Notice) (w : World) (h : other ≠ notice) :
    (note other).run.Omits notice w :=
  Omits.bind (omits_request (.note other) w fun heq => h (Request.note.inj heq)) (omits_done _ _)

/-- A file answers without a notice, even if the answer is a fault. -/
theorem omits_ofFile {α : Type} {d : Dialogue (Except FileFault α)} (path : String)
    (h : d.Omits notice w) : (ofFile path d).run.Omits notice w := by
  refine Omits.bind h ?_
  cases (d.run w).1 <;> exact omits_done _ _

end Exchange

/-- A job of one exchange records what the exchange does. -/
theorem Job.omits_ofExchange {α : Type} {e : Exchange α} (h : e.run.Omits notice w) :
    (Job.ofExchange e).run.Omits notice w := by
  refine Omits.bind h ?_
  cases (e.run.run w).1 <;> exact omits_done _ _

namespace Device

/-- A block is read without a notice. -/
theorem omits_readControl (path : String) (order : ByteOrder) (w : World) :
    (readControl path order).run.Omits notice w :=
  (Exchange.omits_ofFile path (omits_request (.readBlock path) w nofun)).bind_except
    fun _ next => Exchange.omits_ofExcept _ next

/-- A description is read without a notice. -/
theorem omits_readDescription (directory : String) (w : World) :
    (readDescription directory).run.Omits notice w := by
  have htext : (readText (Path.join directory descriptionName)).run.Omits notice w := by
    refine (Exchange.omits_ofFile _ (omits_request (.readFile _) w nofun)).bind_except
      fun bytes next => ?_
    cases Utf8.decode? bytes <;> exact omits_done _ next
  exact htext.bind_except fun _ next => Exchange.omits_ofExcept _ next

/-- A block is written without a word of what the device makes of it. -/
theorem omits_writeControl (path : String) (b : Block) (order : ByteOrder) (w : World) :
    (writeControl path b order).run.Omits .adjusted w := by
  refine (Exchange.omits_ofExcept _ w).bind_except fun bytes next => ?_
  refine (Exchange.omits_ofFile path
    (omits_request (.writeBlock path bytes) next nofun)).bind_except fun _ next => ?_
  exact Exchange.omits_note (.wrote path b.sequence) next nofun

end Device

namespace Session

/-- A session starts without a notice. -/
theorem omits_start (control : String) (directory : Option String) (w : World) :
    (start control directory).run.Omits notice w := by
  have hdescribe : (describe directory).run.Omits notice w := by
    cases directory with
    | none => exact omits_done _ w
    | some directory => exact Device.omits_readDescription directory w
  exact hdescribe.bind_except fun _ next => omits_done _ next

/-- A check at most records that the versions differ. -/
theorem omits_check (b current : Block) (w : World) :
    (check b current).run.Omits .adjusted w := by
  have hnotice : ∀ notice, b.versionNotice? current = some notice → notice ≠ .adjusted := by
    intro notice h
    rw [Block.versionNotice?] at h
    split at h
    · cases h
      nofun
    · cases h
  rw [check]
  cases hversion : b.versionNotice? current with
  | none => exact Exchange.omits_ofExcept _ w
  | some notice =>
    exact (Exchange.omits_note notice w (hnotice notice hversion)).bind_except
      fun _ next => Exchange.omits_ofExcept _ next

end Session

namespace Program

variable {path : String} {place : Place} {bytes : List UInt8} {session : Session} {b : Block}
  {order : ByteOrder} {assignments : List (String × String)} {check dryRun : Bool}

/-- On an ordinary file a block that is written is read back as it is. -/
theorem omits_writeBack (hfile : w.Holds session.control place bytes) :
    (writeBack session b order).run.Omits .adjusted w := by
  have hwrites := Device.omits_writeControl session.control b order w
  cases hencode : b.encode order with
  | error error =>
    exact hwrites.bind_comesTo (Device.writeControl_comesTo_error hencode session.control w) nofun
  | ok new =>
    obtain ⟨next, hwrite, -, hnext⟩ := Device.writeControl_comesTo hfile hencode
    rw [Block.length_of_encode hencode] at hnext
    refine hwrites.bind_comesTo hwrite fun _ _ => ?_
    refine (Device.omits_readControl session.control order next).bind_comesTo
      (Session.read_written_comesTo hencode hnext) fun now hnow => ?_
    obtain rfl := Except.ok.inj hnow
    rw [if_neg (not_not.mpr rfl)]
    exact Exchange.omits_print b.summary next

/-- Nor is anything else recorded of what the device makes of a block that is offered to it. -/
theorem omits_offer (hfile : w.Holds session.control place bytes) :
    (offer session b dryRun order).run.Omits .adjusted w := by
  cases dryRun with
  | true => exact Exchange.omits_print b.summary w
  | false => exact omits_writeBack hfile

/-- Setting fields of a session on an ordinary file. -/
theorem omits_setOn (hfile : w.Holds session.control place bytes) :
    (setOn session assignments check dryRun order).run.Omits .adjusted w := by
  refine (Device.omits_readControl session.control order w).bind_comesTo
    (Device.readControl_comesTo order hfile) fun current _ => ?_
  refine (Exchange.omits_ofExcept _ w).bind_comesTo (Exchange.ofExcept_comesTo rfl w)
    fun form _ => ?_
  cases check with
  | false => exact omits_offer hfile
  | true =>
    obtain ⟨checked, hcheck, -, hkept⟩ := Session.check_comesTo (form.apply current) current w
    exact (Session.omits_check _ current w).bind_comesTo hcheck fun _ _ =>
      omits_offer (hkept _ _ _ hfile)

/-- The command that sets fields of an ordinary file does not record that the device adjusted the
block. -/
theorem omits_set {directory : Option String} (hfile : w.Holds path place bytes) :
    (set (some path) directory assignments check dryRun order).run.Omits .adjusted w := by
  obtain ⟨started, hstart, hsession⟩ := Session.start_comesTo path directory w
  refine (Job.omits_ofExchange (Session.omits_start path directory w)).bind_comesTo
    (Job.ofExchange_comesTo hstart) fun session hok => ?_
  cases started with
  | error error => cases hok
  | ok started =>
    obtain rfl := Except.ok.inj hok
    obtain rfl := hsession started rfl
    exact Job.omits_ofExchange (omits_setOn hfile)

variable {possible : Block → Prop} {result : Except Error Unit} {after : List UInt8}
  {written : List (String × List UInt8)} {printed : List String}

/-- A dry run leaves the file alone. -/
theorem SetEnds.of_dryRun
    (h : SetEnds possible order path bytes true result after written printed) :
    after = bytes ∧ written = [] := by
  cases h with
  | failed error hnone => exact ⟨rfl, rfl⟩
  | shown b hb hdry => exact ⟨rfl, rfl⟩
  | misnamed b error hb hdry hencode => cases hdry
  | written b new hb hdry hencode => cases hdry

/-- If all goes well a possible block is shown. -/
theorem SetEnds.of_ok
    (h : SetEnds possible order path bytes dryRun (.ok ()) after written printed) :
    ∃ b, possible b ∧ printed = [b.summary] := by
  cases h with
  | shown b hb hdry => exact ⟨b, hb, rfl⟩
  | written b new hb hdry hencode => exact ⟨b, hb, rfl⟩

variable {inv : Invocation} {settings : Settings} {force : Bool}

/-- If the command that sets fields of an ordinary file succeeds, then a dry run of it in the same
world succeeds as well, puts out the same, and leaves the file alone. Whether it succeeds or not, it
does not record that the device adjusted the block. -/
theorem set_dryRun (order : ByteOrder)
    (hcommand : inv.command = .set assignments force false)
    (hcontrol : (inv.control <|> settings.control) = some path)
    (hfile : w.Holds path place bytes) :
    let dry : Invocation := { inv with command := .set assignments force true }
    (∀ next, carryOut (plan inv settings order) w = (.ok (), next) →
      ∃ shown, carryOut (plan dry settings order) w = (.ok (), shown) ∧
        shown.printed = next.printed ∧ shown.Holds path place bytes ∧
        (plan dry settings order).writes w = []) ∧
    ∃ recorded, (carryOut (plan inv settings order) w).2.notices = w.notices ++ recorded ∧
      .adjusted ∉ recorded := by
  intro dry
  constructor
  · intro next hrun
    obtain ⟨result, next', after, written, printed, hwet, -, hprinted, -, hends⟩ :=
      set_ends order hcommand hcontrol hfile
    obtain ⟨hresult, rfl⟩ := Prod.mk.inj (hwet.symm.trans hrun)
    obtain rfl : result = .ok () := by
      cases result with
      | error error => cases hresult
      | ok _ => rfl
    obtain ⟨b, hb, rfl⟩ := hends.of_ok
    have hdry : dry.command = .set assignments force true := rfl
    obtain ⟨result, shown, after, written, printed, hshown, hwrites, hprinted', hafter, hends'⟩ :=
      set_ends order hdry hcontrol hfile
    obtain ⟨rfl, rfl⟩ := hends'.of_dryRun
    -- what the assignments come to does not depend on whether the run is dry
    have hb' : SetsTo dry settings order w path after assignments force b := ⟨hb.starts, hb.edits⟩
    obtain ⟨rfl, rfl⟩ :=
      hends'.eq_ok (fun _ _ h hother => h.edits.unique hother.edits) hb' (.inl rfl)
    exact ⟨shown, hshown, hprinted'.trans hprinted.symm, hafter, hwrites⟩
  · have hplan : plan inv settings order = .work (set (some path)
        (inv.directory <|> settings.directory) assignments (settings.checkBeforeWrite && !force)
        false order) := by
      simp only [plan, hcommand, hcontrol]
    rw [hplan]
    exact ⟨_, notices_run _ w, omits_set hfile⟩

/-- Names with blanks at their ends and a slot with a sign are typed for a file of zeros. Both runs
show the name without the blanks, and the slot as a word. -/
theorem set_dryRun_zeros :
    let bytes : List UInt8 := List.replicate 512 0 ++ [1, 2, 3]
    let w : World := { store := Store.empty.addFile "control" (.file bytes) }
    let assignments := [("triggername", "timer \t"), ("channel.std_mask", "0x2"),
      ("channel.std.1", " -5 "), ("addr.devname", "")]
    let inv : Invocation :=
      { control := some "control", command := .set assignments false false }
    let dry : Invocation := { inv with command := .set assignments false true }
    let text := "Ctrl: version 0.0, trigger timer, dev , cset 0, chan 0\n" ++
      "Ctrl: seq 0, n 0, size 0, bits 0, flags 00000000 (unknown-endian)\n" ++
      "Ctrl: alarms zio 0x0 dev 0x0\nCtrl: stamp 0.000000000 (0)\n" ++
      "Ctrl: dev std 0x2 ext 0x0 s1=4294967291\nCtrl: trg std 0x0 ext 0x0\n"
    w.Holds "control" ["control"] bytes ∧
      ∃ next shown, carryOut (plan inv {} .little) w = (.ok (), next) ∧
        carryOut (plan dry {} .little) w = (.ok (), shown) ∧ shown.printed = next.printed ∧
        next.printed = [text] ∧
        shown.Holds "control" ["control"] bytes ∧ .adjusted ∉ next.notices := by
  intro bytes w assignments inv dry text
  have hfile : w.Holds "control" ["control"] bytes := ⟨rfl, nofun⟩
  have hcommand : inv.command = .set assignments false false := rfl
  have hcontrol : (inv.control <|> ({} : Settings).control) = some "control" := rfl
  obtain ⟨hok, htext⟩ : (carryOut (plan inv {} .little) w).1 = .ok () ∧
      (carryOut (plan inv {} .little) w).2.printed = [text] := by decide +kernel
  obtain ⟨hshown, recorded, hnotices, hrecorded⟩ := set_dryRun .little hcommand hcontrol hfile
  generalize hrun : carryOut (plan inv {} .little) w = outcome at hok htext hshown hnotices
  obtain ⟨result, next⟩ := outcome
  subst hok
  obtain ⟨shown, hdry, hprinted, hholds, -⟩ := hshown next rfl
  have hnone : .adjusted ∉ next.notices := by
    rw [hnotices]
    exact hrecorded
  exact ⟨hfile, next, shown, rfl, hdry, hprinted, htext, hholds, hnone⟩

end Program

end ZioControl
