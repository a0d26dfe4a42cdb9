import ZioControl.Dialogue

/-!
# Dialogues at the same time

Several dialogues may be held with one world. Each request is answered at once, but between two
requests of one dialogue the others may make theirs. A schedule lists which dialogue goes on; a
dialogue that goes on alone comes to the result of its `run` (`run?_replicate`).
-/

namespace ZioControl

/-- Dialogues that are held with one world. -/
structure Interleaving (α : Type) where
  /-- What is left of each dialogue. -/
  dialogues : List (Dialogue α)
  /-- The world. -/
  world : World

namespace Interleaving

variable {α : Type}

/-- What a request of the `i`-th dialogue leads to, if it makes one. -/
def step? (s : Interleaving α) (i : Nat) : Option (Interleaving α) :=
  match s.dialogues[i]? with
  | some (.ask request next) =>
    let (answer, world) := s.world.answer request
    some ⟨s.dialogues.set i (next answer), world⟩
  | some (.done _) | none => none

/-- What a schedule leads to, if each of its requests is made. -/
def run? (s : Interleaving α) (schedule : List Nat) : Option (Interleaving α) :=
  schedule.foldlM step? s

/-- One dialogue alone comes to its result after some requests. -/
theorem run?_replicate (d : Dialogue α) (w : World) :
    ∃ n, run? ⟨[d], w⟩ (List.replicate n 0) = some ⟨[.done (d.run w).1], (d.run w).2⟩ := by
  induction d generalizing w with
  | done a => exact ⟨0, rfl⟩
  | ask request next ih =>
    obtain ⟨n, hn⟩ := ih (w.answer request).1 (w.answer request).2
    exact ⟨n + 1, hn⟩

end Interleaving

end ZioControl
