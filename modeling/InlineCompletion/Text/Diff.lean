import InlineCompletion.Text.Basic

/-!
# The smallest splice between two texts

Two texts share a start and, behind it, an end.  What is left of the first gives
way to what is left of the second.  The main statements are that what two texts
share is a start of both, and that the shared end does not reach into the shared
start.
-/

namespace InlineCompletion
namespace Diff

def shared : Text → Text → Nat
  | c :: s, d :: t => if c = d then 1 + shared s t else 0
  | _, _ => 0

theorem shared_le_left (s t : Text) : shared s t ≤ s.length := by
  induction s generalizing t with
  | nil => simp [shared]
  | cons c s ih =>
      cases t with
      | nil => simp [shared]
      | cons d t =>
          unfold shared
          split
          · have := ih t
            simp only [List.length_cons]
            omega
          · simp

theorem take_shared (s t : Text) :
    s.take (shared s t) = t.take (shared s t) := by
  induction s generalizing t with
  | nil => cases t <;> simp [shared]
  | cons c s ih =>
      cases t with
      | nil => simp [shared]
      | cons d t =>
          unfold shared
          split
          · next h => simp [h, Nat.add_comm 1, ih t]
          · simp

theorem shared_comm (s t : Text) : shared s t = shared t s := by
  induction s generalizing t with
  | nil => cases t <;> simp [shared]
  | cons c s ih =>
      cases t with
      | nil => simp [shared]
      | cons d t => simp only [shared, ih t, eq_comm]

/-- How many code points two texts have in common at their ends, behind their
shared start. -/
def sharedEnd (old new : Text) : Nat :=
  shared (old.drop (shared old new)).reverse (new.drop (shared old new)).reverse

theorem shared_add_sharedEnd_le (old new : Text) :
    shared old new + sharedEnd old new ≤ old.length := by
  have h :=
    shared_le_left (old.drop (shared old new)).reverse
    (new.drop (shared old new)).reverse
  have h' := shared_le_left old new
  simp only [List.length_reverse, List.length_drop] at h
  unfold sharedEnd
  omega

/-- The edit that turns one text into another and touches only what they do not
share. -/
def edit (old new : Text) : Edit where
  start := shared old new
  stop := (old.length - sharedEnd old new : Nat)
  inserted := (new.take (new.length - sharedEnd old new)).drop (shared old new)

end Diff
end InlineCompletion
