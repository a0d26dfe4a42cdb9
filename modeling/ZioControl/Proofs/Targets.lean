import ZioControl.Proofs.Utf8
import ZioControl.Session

/-!
# Where a session is

A session is moved from device to device while others change the files, so nothing may be assumed of
the answers that it gets: `Dialogue.Held` lets each request have any answer. All that a session asks
for when it is moved is the description in the new directory (`Session.describe_held_iff`), and only
if there is one does it change, in its control, its directory and its description at once
(`Session.retarget_held_iff`); it starts by such a move, too (`Session.start_held_iff`).
`Session.IsAt` says that the three belong to one move. A call on a session either succeeds in moving
it or leaves it what it is (`Session.Called.Takes.effect`). The main theorem is
`Session.lives_isAt`: whatever calls a session lives through, it is at the device of the last move
that succeeded.
-/

namespace ZioControl

/-- A request and the answer to it. -/
structure Reply where
  /-- The request. -/
  request : Request
  /-- The answer. -/
  answer : request.Answer

namespace Dialogue

variable {α β : Type}

/-- A dialogue is held: each of its requests gets an answer, up to its result. The answers need not
fit together, as a file may hold something else whenever it is read. -/
inductive Held : Dialogue α → List Reply → α → Prop
  /-- There is a result. -/
  | done (a : α) : Held (.done a) [] a
  /-- A request is answered. -/
  | ask (request : Request) (next : request.Answer → Dialogue α) (answer : request.Answer)
    (replies : List Reply) (a : α) (hnext : Held (next answer) replies a) :
    Held (.ask request next) (⟨request, answer⟩ :: replies) a

variable {replies : List Reply} {a c : α} {b : β}

/-- A result asks for nothing. -/
theorem held_done_iff : (Dialogue.done a).Held replies c ↔ replies = [] ∧ c = a := by
  constructor
  · intro h
    cases h
    exact ⟨rfl, rfl⟩
  · rintro ⟨rfl, rfl⟩
    exact .done c

/-- Two dialogues one after the other are held if each of them is. -/
theorem held_bind_iff {d : Dialogue α} {f : α → Dialogue β} :
    (d >>= f).Held replies b ↔
      ∃ a first rest, replies = first ++ rest ∧ d.Held first a ∧ (f a).Held rest b := by
  constructor
  · -- on the first dialogue, which takes its replies off the front one by one
    intro h
    induction d generalizing replies with
    | done a => exact ⟨a, [], replies, rfl, .done a, h⟩
    | ask request next ih =>
      cases h with
      | ask _ _ answer others _ hnext =>
        obtain ⟨a, first, rest, rfl, hd, hf⟩ := ih answer hnext
        exact ⟨a, _, rest, rfl, .ask request next answer first a hd, hf⟩
  · -- on how the first dialogue is held, as its replies are put in front again
    rintro ⟨a, first, rest, rfl, hd, hf⟩
    induction hd with
    | done a => exact hf
    | ask request next answer first a _ ih => exact .ask request _ answer _ b (ih hf)

/-- What is made of a result asks for nothing more. -/
theorem held_bind_done_iff {d : Dialogue α} {f : α → Dialogue β} {g : α → β}
    (hdone : ∀ a, f a = .done (g a)) :
    (d >>= f).Held replies b ↔ ∃ a, d.Held replies a ∧ b = g a := by
  rw [held_bind_iff]
  constructor
  · rintro ⟨a, first, rest, rfl, hd, hf⟩
    obtain ⟨rfl, rfl⟩ := held_done_iff.mp (hdone a ▸ hf)
    exact ⟨a, (List.append_nil first).symm ▸ hd, rfl⟩
  · rintro ⟨a, hd, rfl⟩
    exact ⟨a, replies, [], (List.append_nil replies).symm, hd, hdone a ▸ .done (g a)⟩

/-- A dialogue that is alone with a world is held. -/
theorem exists_held_run (d : Dialogue α) (w : World) : ∃ replies, d.Held replies (d.run w).1 := by
  induction d generalizing w with
  | done a => exact ⟨[], .done a⟩
  | ask request next ih =>
    obtain ⟨replies, hnext⟩ := ih (w.answer request).1 (w.answer request).2
    exact ⟨_, .ask request next _ replies _ hnext⟩

end Dialogue

namespace Session

open Dialogue

variable {s next : Session} {control : String} {directory : Option String} {replies : List Reply}

/-- What is replied to a session that asks for the description in a directory, and what it makes of
it. -/
inductive Describes : Option String → List Reply → Except Error Description → Prop
  /-- Without a directory the session asks for nothing, and the description is empty. -/
  | nowhere : Describes none [] (.ok {})
  /-- The file cannot be read. -/
  | unread (directory : String) (fault : FileFault) :
    Describes (some directory)
      [⟨.readFile (Path.join directory "control-description"), .error fault⟩]
      (.error (.file (Path.join directory "control-description") fault))
  /-- The file is not a text. -/
  | garbled (directory : String) (bytes : List UInt8) (hbytes : ∀ text, bytes ≠ Utf8.encode text) :
    Describes (some directory)
      [⟨.readFile (Path.join directory "control-description"), .ok bytes⟩]
      (.error (.file (Path.join directory "control-description") .notText))
  /-- The file is a text, which is parsed. -/
  | parsed (directory : String) (text : List Char) (result : Except Error Description)
    (hparse : Description.parse text = result) :
    Describes (some directory)
      [⟨.readFile (Path.join directory "control-description"), .ok (Utf8.encode text)⟩] result

/-- What a device says of its attributes is asked for by one request. What comes back may be no
file, no text or a text. -/
theorem readDescription_run (directory : String) :
    let path := Path.join directory "control-description"
    ∃ next, (Device.readDescription directory).run = .ask (.readFile path) next ∧
      (∀ fault, next (.error fault) = .done (.error (.file path fault))) ∧
      (∀ bytes, (∀ text, bytes ≠ Utf8.encode text) →
        next (.ok bytes) = .done (.error (.file path .notText))) ∧
      ∀ text, next (.ok (Utf8.encode text)) = .done (Description.parse text) := by
  intro path
  refine ⟨_, rfl, fun fault => rfl, fun bytes hbytes => ?_, fun text => ?_⟩
  · have hnone : Utf8.decode? bytes = none :=
      Option.eq_none_iff_forall_ne_some.mpr fun text htext =>
        hbytes text (Utf8.decode?_eq_some_iff.mp htext)
    simp only [Dialogue.bind, ExceptT.bindCont, hnone]
    rfl
  · have hsome : Utf8.decode? (Utf8.encode text) = some text := Utf8.decode?_eq_some_iff.mpr rfl
    simp only [Dialogue.bind, ExceptT.bindCont, hsome]
    rfl

/-- A session asks for a description in no other way. -/
theorem describe_held_iff {result : Except Error Description} :
    (describe directory).run.Held replies result ↔ Describes directory replies result := by
  cases directory with
  | none =>
    change (Dialogue.done _).Held replies result ↔ _
    rw [held_done_iff]
    constructor
    · rintro ⟨rfl, rfl⟩
      exact .nowhere
    · rintro ⟨⟩
      exact ⟨rfl, rfl⟩
  | some directory =>
    obtain ⟨next, hrun, hfault, hgarbled, hparsed⟩ := readDescription_run directory
    rw [describe, hrun]
    constructor
    · intro h
      cases h with
      | ask _ _ answer rest _ hnext =>
        cases answer with
        | error fault =>
          rw [hfault, held_done_iff] at hnext
          obtain ⟨rfl, rfl⟩ := hnext
          exact .unread directory fault
        | ok bytes =>
          by_cases htext : ∃ text, bytes = Utf8.encode text
          · obtain ⟨text, rfl⟩ := htext
            rw [hparsed, held_done_iff] at hnext
            obtain ⟨rfl, hparse⟩ := hnext
            exact .parsed directory text result hparse.symm
          · have hbytes : ∀ text, bytes ≠ Utf8.encode text := not_exists.mp htext
            rw [hgarbled bytes hbytes, held_done_iff] at hnext
            obtain ⟨rfl, rfl⟩ := hnext
            exact .garbled directory bytes hbytes
    · intro h
      cases h with
      | unread _ fault => exact .ask _ next _ [] _ (hfault fault ▸ .done _)
      | garbled _ bytes hbytes => exact .ask _ next _ [] _ (hgarbled bytes hbytes ▸ .done _)
      | parsed _ text _ hparse => exact .ask _ next _ [] _ (hparse ▸ hparsed text ▸ .done _)

/-- How a move may end: the session is at the other device, of which it has the description, or it
is what it was. -/
inductive Retargeted (s : Session) (control : String) (directory : Option String)
    (replies : List Reply) : Except Error Unit → Session → Prop
  /-- The other device is described. -/
  | moved (description : Description) (h : Describes directory replies (.ok description)) :
    Retargeted s control directory replies (.ok ()) { control, directory, description }
  /-- There is an error in its place. -/
  | stayed (error : Error) (h : Describes directory replies (.error error)) :
    Retargeted s control directory replies (.error error) s

/-- A move ends in no other way. -/
theorem retarget_held_iff {result : Except Error Unit} :
    (s.retarget control directory).Held replies (result, next) ↔
      s.Retargeted control directory replies result next := by
  -- what the move makes of the description: nothing is asked after it, so it decides the end
  let ending (described : Except Error Description) : Except Error Unit × Session :=
    (described.map fun _ => (),
      described.toOption.elim s fun description => { control, directory, description })
  have hends : (s.retarget control directory).Held replies (result, next) ↔
      ∃ described, Describes directory replies described ∧ (result, next) = ending described := by
    simp only [← describe_held_iff]
    exact held_bind_done_iff (Except.rec (fun _ => rfl) fun _ => rfl)
  rw [hends]
  constructor
  · rintro ⟨error | description, hdescribes, hending⟩
    · obtain ⟨rfl, rfl⟩ := Prod.mk.inj hending
      exact .stayed error hdescribes
    · obtain ⟨rfl, rfl⟩ := Prod.mk.inj hending
      exact .moved description hdescribes
  · rintro (⟨description, hdescribes⟩ | ⟨error, hdescribes⟩)
    · exact ⟨.ok description, hdescribes, rfl⟩
    · exact ⟨.error error, hdescribes, rfl⟩

/-- In every world a move ends in one of these ways. -/
theorem exists_retargeted_run (s : Session) (control : String) (directory : Option String)
    (w : World) :
    ∃ replies result next, ((s.retarget control directory).run w).1 = (result, next) ∧
      s.Retargeted control directory replies result next := by
  obtain ⟨replies, hheld⟩ := exists_held_run (s.retarget control directory) w
  exact ⟨replies, _, _, rfl, retarget_held_iff.mp hheld⟩

/-- A session starts by being moved from no device to its first. -/
theorem start_held_iff {result : Except Error Session} :
    (start control directory).run.Held replies result ↔
      ∃ moved next, Retargeted ⟨control, none, {}⟩ control directory replies moved next ∧
        result = moved.map fun _ => next := by
  have hends : (start control directory).run.Held replies result ↔
      ∃ described, Describes directory replies described ∧
        result = described.map fun description => { control, directory, description } := by
    simp only [← describe_held_iff]
    exact held_bind_done_iff (Except.rec (fun _ => rfl) fun _ => rfl)
  rw [hends]
  constructor
  · rintro ⟨error | description, hdescribes, rfl⟩
    · exact ⟨_, _, .stayed error hdescribes, rfl⟩
    · exact ⟨_, _, .moved description hdescribes, rfl⟩
  · rintro ⟨moved, next, ⟨description, hdescribes⟩ | ⟨error, hdescribes⟩, rfl⟩
    · exact ⟨.ok description, hdescribes, rfl⟩
    · exact ⟨.error error, hdescribes, rfl⟩

/-- Where a session is moved, and what is replied to it there. -/
structure Target where
  /-- The path of the control file. -/
  control : String
  /-- The directory that describes the attributes. -/
  directory : Option String
  /-- What is replied when the session asks for the description. -/
  replies : List Reply

/-- A session is at a device: its control and its directory are the device's, and its description is
the one that was read when it was moved there. -/
structure IsAt (s : Session) (t : Target) : Prop where
  /-- The control file is the device's. -/
  control : s.control = t.control
  /-- The directory is the device's. -/
  directory : s.directory = t.directory
  /-- The description is the one that was read. -/
  description : Describes t.directory t.replies (.ok s.description)

/-- A session that was moved is where it was moved to. -/
theorem Retargeted.isAt (h : s.Retargeted control directory replies (.ok ()) next) :
    next.IsAt ⟨control, directory, replies⟩ := by
  cases h with
  | moved description h => exact ⟨rfl, rfl, h⟩

/-- What can be done with a session, with controls in any byte order. -/
inductive Call where
  /-- It is moved to another device. -/
  | retarget (control : String) (directory : Option String)
  /-- The control is read. -/
  | read (order : ByteOrder)
  /-- A control is written. -/
  | write (b : Block) (order : ByteOrder)
  /-- A control is applied. -/
  | apply (b : Block) (order : ByteOrder)

/-- The dialogue of a call: whether it succeeds, and what the session is after it. -/
def Call.hold (s : Session) : Call → Dialogue (Except Error Unit × Session)
  | .retarget control directory => s.retarget control directory
  | .read order => return ((← (s.read order).run).map fun _ => (), s)
  | .write b order => return (← (s.write b order).run, s)
  | .apply b order => return ((← (s.apply b order).run).map fun _ => (), s)

/-- A call that was made. -/
structure Called where
  /-- The call. -/
  call : Call
  /-- What was replied meanwhile. -/
  replies : List Reply
  /-- Whether it succeeded. -/
  result : Except Error Unit

namespace Called

/-- Where a call moved the session: it has to be a move, and one that succeeded. -/
def target? : Called → Option Target
  | ⟨.retarget control directory, replies, .ok ()⟩ => some { control, directory, replies }
  | _ => none

/-- A call takes one session to another. -/
def Takes (c : Called) (s next : Session) : Prop := (c.call.hold s).Held c.replies (c.result, next)

/-- A call that only looks at the session hands it back. -/
theorem eq_of_held_bind {α : Type} {d : Dialogue α} {f : α → Except Error Unit}
    {result : Except Error Unit}
    (h : (d >>= fun a => .done (f a, s)).Held replies (result, next)) : next = s := by
  obtain ⟨a, -, hend⟩ := (held_bind_done_iff fun _ => rfl).mp h
  exact (Prod.mk.inj hend).2

/-- A call moves the session, or it leaves the session what it was. -/
theorem Takes.effect {c : Called} (h : c.Takes s next) :
    (∃ t, c.target? = some t ∧ next.IsAt t) ∨ c.target? = none ∧ next = s := by
  obtain ⟨call, replies, result⟩ := c
  cases call with
  | retarget control directory =>
    have hmoved := retarget_held_iff.mp h
    cases result with
    | ok _ => exact .inl ⟨_, rfl, hmoved.isAt⟩
    | error error =>
      cases hmoved with
      | stayed _ _ => exact .inr ⟨rfl, rfl⟩
  | read order => exact .inr ⟨rfl, eq_of_held_bind h⟩
  | write b order => exact .inr ⟨rfl, eq_of_held_bind h⟩
  | apply b order => exact .inr ⟨rfl, eq_of_held_bind h⟩

end Called

/-- A session lives through calls, one after the other. -/
inductive Lives : Session → List Called → Session → Prop
  /-- There is no further call. -/
  | nil (s : Session) : Lives s [] s
  /-- A call takes it to the next session. -/
  | cons (s next last : Session) (c : Called) (calls : List Called) (hcall : c.Takes s next)
    (hrest : Lives next calls last) : Lives s (c :: calls) last

/-- Where a session was moved last, if it was at a device before. -/
def lastTarget (first : Target) (calls : List Called) : Target :=
  (calls.filterMap Called.target?).getLastD first

/-- A session that is at a device stays where it was moved last. -/
theorem Lives.isAt {t : Target} {calls : List Called} {last : Session} (h : Lives s calls last)
    (hs : s.IsAt t) : last.IsAt (lastTarget t calls) := by
  -- the device changes with a call that moves the session, so it is general in the induction
  induction h generalizing t with
  | nil s => exact hs
  | cons s next last c calls hcall _ ih =>
    rw [lastTarget, List.filterMap_cons]
    obtain ⟨moved, htarget, hmoved⟩ | ⟨htarget, rfl⟩ := hcall.effect
    · rw [htarget, List.getLastD_cons]
      exact ih hmoved
    · rw [htarget]
      exact ih hs

/-- Whatever a session lives through, and whatever is replied to it, it is at the device of the last
move that succeeded, its start included: it has the control and the directory of that move, and the
description that was read then. A further move ends in one of two ways, which the replies decide; a
further call that is no successful move leaves the session what it is, and one that is takes it to
its own device. -/
theorem lives_isAt {first : Target} {calls : List Called} {last : Session}
    (hstart : (start first.control first.directory).run.Held first.replies (.ok s))
    (hlives : Lives s calls last) :
    last.IsAt (lastTarget first calls) ∧
      (∀ control directory replies result next,
        (last.retarget control directory).Held replies (result, next) ↔
          last.Retargeted control directory replies result next) ∧
      ∀ (c : Called) (next : Session), c.Takes last next →
        (c.target? = none → next = last) ∧ ∀ t, c.target? = some t → next.IsAt t := by
  obtain ⟨moved, next, hmoved, hresult⟩ := start_held_iff.mp hstart
  have hfirst : s.IsAt first := by
    cases moved with
    | error error => cases hresult
    | ok _ =>
      obtain rfl : s = next := Except.ok.inj hresult
      exact hmoved.isAt
  refine ⟨hlives.isAt hfirst, fun _ _ _ _ _ => retarget_held_iff, fun c next hcall => ?_⟩
  obtain ⟨t, htarget, hnext⟩ | ⟨htarget, hnext⟩ := hcall.effect
  · rw [htarget]
    refine ⟨nofun, fun other hother => ?_⟩
    rwa [← Option.some.inj hother]
  · rw [htarget]
    exact ⟨fun _ => hnext, nofun⟩

/-- A session that was moved to a described device stays there when the control cannot be read and
when the same directory has lost its description. -/
theorem lives_isAt_kept :
    let path := "sys/control-description"
    let first : Target := ⟨"none", none, []⟩
    let moved : Target := ⟨"left", some "sys",
      [⟨.readFile path, .ok (Utf8.encode "1\nx s 1 292\n".toList)⟩]⟩
    let calls : List Called :=
      [⟨.retarget "left" (some "sys"), moved.replies, .ok ()⟩,
        ⟨.read .little, [⟨.readBlock "left", .error .timedOut⟩], .error (.file "left" .timedOut)⟩,
        ⟨.retarget "right" (some "sys"), [⟨.readFile path, .error .notFound⟩],
          .error (.file path .notFound)⟩]
    ∃ s last, (start first.control first.directory).run.Held first.replies (.ok s) ∧
      Lives s calls last ∧ lastTarget first calls = moved ∧ last.IsAt moved := by
  intro path first moved calls
  let described : Description := ⟨[⟨"x", .standard, 1, false, true⟩]⟩
  let s : Session := ⟨"none", none, {}⟩
  let last : Session := ⟨"left", some "sys", described⟩
  have hstart : (start first.control first.directory).run.Held first.replies (.ok s) :=
    start_held_iff.mpr ⟨.ok (), s, .moved {} .nowhere, rfl⟩
  have hdescribes : Describes (some "sys") moved.replies (.ok described) :=
    .parsed "sys" "1\nx s 1 292\n".toList _ rfl
  have hmove : Called.Takes ⟨.retarget "left" (some "sys"), moved.replies, .ok ()⟩ s last :=
    retarget_held_iff.mpr (.moved described hdescribes)
  have hread : Called.Takes ⟨.read .little, [⟨.readBlock "left", .error .timedOut⟩],
      .error (.file "left" .timedOut)⟩ last last :=
    .ask (.readBlock "left") _ (.error .timedOut) [] _ (.done _)
  have hstay : Called.Takes ⟨.retarget "right" (some "sys"), [⟨.readFile path, .error .notFound⟩],
      .error (.file path .notFound)⟩ last last :=
    retarget_held_iff.mpr (.stayed _ (.unread "sys" .notFound))
  have hlives : Lives s calls last :=
    .cons s last last _ _ hmove (.cons last last last _ _ hread
      (.cons last last last _ _ hstay (.nil last)))
  exact ⟨s, last, hstart, hlives, rfl, (lives_isAt hstart hlives).1⟩

end Session

end ZioControl
