import Mathlib.Data.List.Infix
import ZioControl.Monitor
import ZioControl.Proofs.RoundTrip

/-!
# What a monitor shows

The messages of a file are the blocks of its slices, and an error if a part of a block is left
(`exists_slices`). A monitor shows them one after the other, each with the counter that has counted
it (`Followed.getElem?_sightings`), and ends after the last message (`Monitor.receive_unlimited`) or
with the block that reaches its limit (`Monitor.receive_limited`), whatever comes behind that block.
-/

namespace ZioControl

/-- The blocks of a byte string slice by slice, a block for each whole slice. -/
structure Slices (order : ByteOrder) (bytes : List UInt8) (blocks : List Block) : Prop where
  /-- There are as many blocks as whole slices. -/
  length : blocks.length = bytes.length / 512
  /-- Each block is read from its slice. -/
  decode : ∀ i (h : i < blocks.length),
    Block.decode order (bytes.extract (512 * i) (512 * i + 512)) = .ok blocks[i]

/-- The counter that has counted these blocks. -/
def Counter.ofBlocks (blocks : List Block) : Counter :=
  (blocks.map Block.sequence).foldl Counter.increment {}

/-- The message about so many bytes that are left behind the last whole block. -/
def Message.ofRest (length : Nat) : List Message :=
  if length = 0 then [] else [.error (.shortBlock length)]

/-- A first slice and the slices behind it. -/
theorem Slices.cons {order : ByteOrder} {bytes : List UInt8} {b : Block} {blocks : List Block}
    (hlen : 512 ≤ bytes.length) (hfirst : Block.decode order bytes = .ok b)
    (h : Slices order (bytes.drop 512) blocks) : Slices order bytes (b :: blocks) where
  length := by
    have hblocks := h.length
    rw [List.length_drop] at hblocks
    rw [List.length_cons, hblocks]
    omega
  decode i hi := by
    cases i with
    | zero =>
      rw [List.extract_eq_take_drop]
      exact (Block.decode_take order bytes).trans hfirst
    | succ i =>
      have hrest := h.decode i (Nat.lt_of_succ_lt_succ hi)
      have hstart : 512 * (i + 1) = 512 + 512 * i := by omega
      rw [List.extract_eq_take_drop, List.drop_drop] at hrest
      rw [List.extract_eq_take_drop, hstart, List.getElem_cons_succ, ← hrest]
      congr 2
      omega

/-- The messages of a file are its blocks, and an error if a part of a block is left. -/
theorem exists_slices (order : ByteOrder) (bytes : List UInt8) : ∃ blocks,
    Slices order bytes blocks ∧
      Message.ofBytes order bytes = blocks.map .ok ++ Message.ofRest (bytes.length % 512) := by
  induction bytes using Message.ofBytes.induct with
  | case1 => exact ⟨[], ⟨rfl, nofun⟩, by simp [Message.ofBytes, Message.ofRest]⟩
  | case2 bytes hne hshort =>
    have hlt : bytes.length < 512 := hshort
    have hpos := List.length_pos_iff.mpr hne
    have hnone : bytes.length / 512 = 0 := Nat.div_eq_of_lt hlt
    refine ⟨[], ⟨by simp [hnone], nofun⟩, ?_⟩
    rw [Message.ofBytes, dif_neg hne, if_pos hshort, Nat.mod_eq_of_lt hlt, Message.ofRest,
      if_neg (by omega)]
    rfl
  | case3 bytes hne hlong ih =>
    have hlen : 512 ≤ bytes.length := Nat.le_of_not_lt hlong
    obtain ⟨blocks, hslices, hmessages⟩ := ih
    have hfirst := Block.decode_eq_ok order hlen
    refine ⟨_, hslices.cons hlen hfirst, ?_⟩
    have hmod : (bytes.drop blockSize).length % 512 = bytes.length % 512 := by
      rw [List.length_drop, blockSize]
      omega
    rw [Message.ofBytes, dif_neg hne, if_neg hlong, hmessages, Block.decode_take, hfirst, hmod]
    rfl

namespace Followed

/-- The receiver has shown one more block. -/
def add (f : Followed) (b : Block) : Followed where
  counter := f.counter.increment b.sequence
  sightings := f.sightings ++ [⟨b, f.counter.increment b.sequence⟩]
  notices := f.notices ++ f.counter.notices b.sequence

/-- The receiver has shown these blocks. -/
def ofBlocks (blocks : List Block) : Followed := blocks.foldl add {}

variable (blocks : List Block)

/-- The blocks with one more at the end. -/
theorem ofBlocks_concat (b : Block) : ofBlocks (blocks ++ [b]) = (ofBlocks blocks).add b := by
  unfold ofBlocks
  rw [List.foldl_append, List.foldl_cons, List.foldl_nil]

/-- The counter has counted the blocks by their sequence numbers. -/
theorem counter_ofBlocks : (ofBlocks blocks).counter = Counter.ofBlocks blocks := by
  induction blocks using List.reverseRecOn with
  | nil => rfl
  | append_singleton blocks b ih =>
    rw [ofBlocks_concat, Counter.ofBlocks, List.map_append, List.foldl_append,
      ← Counter.ofBlocks, ← ih]
    rfl

/-- It has counted as many blocks as there are. -/
theorem blocks_counter_ofBlocks : (ofBlocks blocks).counter.blocks = blocks.length := by
  induction blocks using List.reverseRecOn with
  | nil => rfl
  | append_singleton blocks b ih =>
    have hadd : ((ofBlocks blocks).add b).counter.blocks = (ofBlocks blocks).counter.blocks + 1 :=
      rfl
    rw [ofBlocks_concat, hadd, ih, List.length_append, List.length_singleton]

/-- As many blocks are shown as there are. -/
theorem length_sightings : (ofBlocks blocks).sightings.length = blocks.length := by
  induction blocks using List.reverseRecOn with
  | nil => rfl
  | append_singleton blocks b ih =>
    rw [ofBlocks_concat, add, List.length_append, ih, List.length_append]
    rfl

/-- Each block is shown in its turn, with the counter of the blocks up to it. -/
theorem getElem?_sightings (k : Nat) : (ofBlocks blocks).sightings[k]? =
    blocks[k]?.map fun b => ⟨b, Counter.ofBlocks (blocks.take (k + 1))⟩ := by
  induction blocks using List.reverseRecOn with
  | nil => rfl
  | append_singleton blocks b ih =>
    have hlen := length_sightings blocks
    rw [ofBlocks_concat, add]
    rcases Nat.lt_trichotomy k blocks.length with hk | rfl | hk
    · rw [List.getElem?_append_left (by omega), ih, List.getElem?_append_left hk,
        List.take_append_of_le_length (by omega)]
    · -- the last block, with the counter of all of them
      rw [← hlen, List.getElem?_concat_length, hlen, List.getElem?_concat_length,
        List.take_of_length_le (by simp), ← counter_ofBlocks, ofBlocks_concat, Option.map_some]
      rfl
    · rw [List.getElem?_eq_none (by simp [hlen]; omega), List.getElem?_eq_none (by simp; omega)]
      rfl

/-- The counter beside a block has counted the blocks up to it. -/
theorem counter_getElem_sightings {k : Nat} (h : k < (ofBlocks blocks).sightings.length) :
    (ofBlocks blocks).sightings[k].counter = Counter.ofBlocks (blocks.take (k + 1)) := by
  have hshown := getElem?_sightings blocks k
  rw [List.getElem?_eq_getElem h] at hshown
  obtain ⟨b, _, hb⟩ := Option.map_eq_some_iff.mp hshown.symm
  rw [← hb]

/-- The blocks that are shown are the blocks in their order. -/
theorem map_block_sightings : (ofBlocks blocks).sightings.map Sighting.block = blocks := by
  apply List.ext_getElem?
  intro k
  rw [List.getElem?_map, getElem?_sightings, Option.map_map]
  exact Option.map_id'

/-- What was shown stays shown when more blocks are. -/
theorem sightings_foldl_add (f : Followed) : f.sightings <+: (blocks.foldl add f).sightings := by
  induction blocks generalizing f with
  | nil => exact List.prefix_refl _
  | cons b blocks ih =>
    have hfirst : f.sightings <+: (f.add b).sightings := List.prefix_append _ _
    exact hfirst.trans (ih (f.add b))

/-- Of the first blocks the first sightings are shown. -/
theorem sightings_ofBlocks_take (n : Nat) :
    (ofBlocks (blocks.take n)).sightings <+: (ofBlocks blocks).sightings := by
  have hsplit : ofBlocks blocks = (blocks.drop n).foldl add (ofBlocks (blocks.take n)) := by
    unfold ofBlocks
    rw [← List.foldl_append, List.take_append_drop]
  rw [hsplit]
  exact sightings_foldl_add (blocks.drop n) _

end Followed

namespace Monitor

variable (m : Monitor) {f : Followed} {blocks : List Block} {rest : List Message}

/-- What the receiver does with a block. -/
theorem accept_ok (f : Followed) (b : Block) : m.accept f (.ok b) =
    if m.isReached (f.add b).counter = true then (f.add b).close else f.add b := by
  by_cases h : m.isReached (f.add b).counter = true
  · have hending : m.isReached (f.counter.increment b.sequence) = true := h
    rw [if_pos h, accept, hending]
    rfl
  · have hending : m.isReached (f.counter.increment b.sequence) = false :=
      eq_false_of_ne_true h
    rw [if_neg h, accept, hending]
    rfl

/-- A block that does not reach the limit is followed by the others. -/
theorem receive_cons_of_not_isReached {b : Block} (h : m.isReached (f.add b).counter = false) :
    m.receive f (.ok b :: rest) = m.receive (f.add b) rest := by
  have haccept : m.accept f (.ok b) = f.add b := by rw [accept_ok, if_neg (by simp [h])]
  rw [receive, haccept]
  rfl

/-- The block that reaches the limit is the last one. -/
theorem receive_cons_of_isReached {b : Block} (h : m.isReached (f.add b).counter = true) :
    m.receive f (.ok b :: rest) = (f.add b).close := by
  have haccept : m.accept f (.ok b) = (f.add b).close := by rw [accept_ok, if_pos h]
  rw [receive, haccept]
  rfl

/-- An error ends the work. -/
theorem receive_error (e : Error) :
    m.receive f (.error e :: rest) = { f with ending := some (.failed e) } := rfl

/-- Blocks that do not reach the limit are followed by what comes behind them. A limit of zero is
reached by the first block. -/
theorem receive_append
    (h : ∀ limit, m.limit = some limit → f.counter.blocks + blocks.length < max 1 limit) :
    m.receive f (blocks.map .ok ++ rest) = m.receive (blocks.foldl Followed.add f) rest := by
  induction blocks generalizing f with
  | nil => rfl
  | cons b blocks ih =>
    have hcount : (f.add b).counter.blocks = f.counter.blocks + 1 := rfl
    have hreached : m.isReached (f.add b).counter = false := by
      unfold isReached
      cases hlimit : m.limit with
      | none => rfl
      | some limit =>
        have hlt := h limit hlimit
        rw [List.length_cons] at hlt
        have hnot : ¬limit ≤ (f.add b).counter.blocks := by omega
        simp [hnot]
    rw [List.map_cons, List.cons_append, receive_cons_of_not_isReached m hreached, ih]
    · rfl
    · intro limit hlimit
      have hlt := h limit hlimit
      rw [List.length_cons] at hlt
      omega

/-- Without a limit in the way all blocks are shown, and the rest of the file decides how the work
ends. -/
theorem receive_unlimited
    (h : ∀ limit, m.limit = some limit → blocks.length < max 1 limit) (length : Nat) :
    m.receive {} (blocks.map .ok ++ Message.ofRest length) =
      { Followed.ofBlocks blocks with
        ending := some (if length = 0 then .complete else .failed (.shortBlock length)) } := by
  have hall : ∀ limit, m.limit = some limit →
      (0 : Nat) + blocks.length < max 1 limit := by
    intro limit hlimit
    rw [Nat.zero_add]
    exact h limit hlimit
  rw [receive_append m hall, Message.ofRest]
  by_cases hlength : length = 0
  · rw [if_pos hlength, if_pos hlength]
    rfl
  · rw [if_neg hlength, if_neg hlength, receive_error]
    rfl

/-- With as many blocks as the limit allows just these are shown, whatever comes behind them. -/
theorem receive_limited {limit : Nat} (hlimit : m.limit = some limit)
    (hle : max 1 limit ≤ blocks.length) : m.receive {} (blocks.map .ok ++ rest) =
      (Followed.ofBlocks (blocks.take (max 1 limit))).close := by
  -- the block that reaches the limit, and the blocks in front of it
  obtain ⟨last, hlast⟩ : ∃ last, max 1 limit = last + 1 := ⟨max 1 limit - 1, by omega⟩
  rw [hlast] at hle ⊢
  have hlt : last < blocks.length := hle
  have htake : blocks.take (last + 1) = blocks.take last ++ [blocks[last]] :=
    List.take_succ_eq_append_getElem hlt
  have hsplit : blocks = blocks.take last ++ blocks[last] :: blocks.drop (last + 1) := by
    rw [← List.singleton_append, ← List.append_assoc, ← htake, List.take_append_drop]
  have hfront : ∀ limit', m.limit = some limit' →
      (0 : Nat) + (blocks.take last).length < max 1 limit' := by
    intro limit' hlimit'
    obtain rfl := Option.some.inj (hlimit.symm.trans hlimit')
    rw [List.length_take]
    omega
  have hcount : (Followed.ofBlocks (blocks.take (last + 1))).counter.blocks = last + 1 := by
    rw [Followed.blocks_counter_ofBlocks, List.length_take_of_le hle]
  have hreached : m.isReached ((Followed.ofBlocks (blocks.take last)).add blocks[last]).counter =
      true := by
    rw [← Followed.ofBlocks_concat, ← htake]
    unfold isReached
    rw [hlimit, Option.any_some, hcount, decide_eq_true_iff]
    omega
  conv_lhs => rw [hsplit, List.map_append, List.append_assoc, receive_append m hfront]
  rw [htake, Followed.ofBlocks_concat]
  exact receive_cons_of_isReached m hreached

end Monitor

end ZioControl
