import ZioControl.Proofs.Acceptance
import ZioControl.Proofs.Runs

/-!
# Applying a block to a file

`Session.apply` reads the block that the device holds, checks the new one against it, writes it and
reads it back. On an ordinary file that nothing else writes it is all or nothing: either the new
block stands at the beginning of the file and is what comes back, or there is an error and the file
is as it was (`Session.apply_applied`). `Session.Applied` lists the four ways in which that may end,
in the order in which they are looked at.
-/

namespace ZioControl.Session

open Dialogue

/-- How applying a block to a file with these bytes may end: the result, and the bytes that the file
then has. -/
inductive Applied (order : ByteOrder) (bytes : List UInt8) (b : Block) :
    Except Error Block → List UInt8 → Prop
  /-- The file does not hold a block. -/
  | short (hbytes : bytes.length < 512) :
      Applied order bytes b (.error (.shortBlock bytes.length)) bytes
  /-- The device does not take the block. -/
  | refused (current : Block) (cause : Rejection)
      (hcurrent : Block.decode order bytes = .ok current)
      (hcheck : b.checkAgainst current = .error (.rejected cause)) :
      Applied order bytes b (.error (.rejected cause)) bytes
  /-- The name of the trigger does not fit its field. -/
  | misnamed (current : Block) (fault : NameFault)
      (hcurrent : Block.decode order bytes = .ok current)
      (hcheck : b.checkAgainst current = .ok ())
      (hencode : b.encode order = .error (.badName "triggername" fault)) :
      Applied order bytes b (.error (.badName "triggername" fault)) bytes
  /-- The block is written, and what follows it in the file stays. -/
  | written (current : Block) (new : List UInt8)
      (hcurrent : Block.decode order bytes = .ok current)
      (hcheck : b.checkAgainst current = .ok ()) (hencode : b.encode order = .ok new) :
      Applied order bytes b (.ok b) (new ++ bytes.drop 512)

variable {s : Session} {w : World} {place : Place} {bytes : List UInt8} {b : Block}
  {order : ByteOrder}

/-- A block that was written is read back, whatever follows it in the file. -/
theorem read_written_comesTo {new rest : List UInt8} (hencode : b.encode order = .ok new)
    (h : w.Holds s.control place (new ++ rest)) : (s.read order).run.ComesTo w (.ok b) w [] := by
  have hread := Device.readControl_comesTo order h
  rwa [Block.decode_encode_append hencode] at hread

/-- On an ordinary file that nothing else writes, applying a block is all or nothing. -/
theorem apply_applied (s : Session) (b : Block) (order : ByteOrder)
    (hfile : w.Holds s.control place bytes) :
    ∃ result next after, (s.apply b order).run.run w = (result, next) ∧
      Applied order bytes b result after ∧ next.Holds s.control place after := by
  have hread := Device.readControl_comesTo order hfile
  by_cases hlen : bytes.length < 512
  · rw [Block.decode, if_pos (by exact hlen)] at hread
    exact ⟨_, w, bytes, hread.bind_error.run, .short hlen, hfile⟩
  have hcurrent := Block.decode_eq_ok order (Nat.le_of_not_lt hlen)
  set current := Block.ofImage (Image.ofBytes order bytes)
  rw [hcurrent] at hread
  obtain ⟨checked, hcheck, -, hkept⟩ := check_comesTo b current w
  have hchecked := hkept _ _ _ hfile
  cases haccepted : b.checkAgainst current with
  | error error =>
    obtain ⟨cause, rfl⟩ := Block.exists_cause_of_checkAgainst_eq_error haccepted
    rw [haccepted] at hcheck
    exact ⟨_, checked, bytes, (hread.bind_ok hcheck.bind_error).run,
      .refused current cause hcurrent haccepted, hchecked⟩
  | ok _ =>
    rw [haccepted] at hcheck
    cases hencode : b.encode order with
    | error error =>
      have hdevice := (Block.checkAgainst_eq_ok_iff.mp haccepted).1
      obtain ⟨fault, rfl⟩ := Block.exists_fault_of_encode_eq_error hcurrent hdevice hencode
      have hwrite := Device.writeControl_comesTo_error hencode s.control checked
      exact ⟨_, checked, bytes, (hread.bind_ok (hcheck.bind_ok hwrite.bind_error)).run,
        .misnamed current fault hcurrent haccepted hencode, hchecked⟩
    | ok new =>
      obtain ⟨next, hwrite, -, hnext⟩ := Device.writeControl_comesTo hchecked hencode
      rw [Block.length_of_encode hencode] at hnext
      have hback := read_written_comesTo hencode hnext
      exact ⟨_, next, _, (hread.bind_ok (hcheck.bind_ok (hwrite.bind_ok hback))).run,
        .written current new hcurrent haccepted hencode, hnext⟩

/-- A block for the device of zeros is written over the beginning of a file of zeros, and the bytes
behind it stay. -/
theorem apply_applied_zeros :
    let w : World :=
      { store := Store.empty.addFile "control" (.file (List.replicate 512 0 ++ [1, 2, 3])) }
    w.Holds "control" ["control"] (List.replicate 512 0 ++ [1, 2, 3]) ∧
      ∃ next new, (apply ⟨"control", none, {}⟩ { sequence := 7 } .little).run.run w =
          (.ok { sequence := 7 }, next) ∧
        Block.encode .little { sequence := 7 } = .ok new ∧
        next.Holds "control" ["control"] (new ++ [1, 2, 3]) := by
  intro w
  have hfile : w.Holds "control" ["control"] (List.replicate 512 0 ++ [1, 2, 3]) := ⟨rfl, nofun⟩
  have hresult : ((apply ⟨"control", none, {}⟩ { sequence := 7 } .little).run.run w).1 =
      .ok { sequence := 7 } := by decide +kernel
  obtain ⟨result, next, after, hrun, happlied, hnext⟩ :=
    apply_applied ⟨"control", none, {}⟩ { sequence := 7 } .little hfile
  simp only [hrun] at hresult
  subst hresult
  cases happlied with
  | written current new _ _ hencode =>
    rw [List.drop_left' List.length_replicate] at hnext
    exact ⟨hfile, next, new, hrun, hencode, hnext⟩

end ZioControl.Session
