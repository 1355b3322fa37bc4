import InlineCompletion.Text.Units

/-!
# Positions

A position addresses a place in a text by its line and by a column counted in
UTF-16 units.  Only `'\n'` ends a line.  A position is read off the text before
an offset, one code point after the other, and an offset is found from a
position by walking down the lines.  The main statements are that an offset
found this way lies within the text, and what an appended code point does to the
position of the end.
-/

namespace InlineCompletion

structure Position where
  line : Int
  character : Int
  deriving DecidableEq, Repr

structure Range where
  start : Position
  stop : Position
  deriving DecidableEq, Repr

namespace Position

def origin : Position := ⟨0, 0⟩

def advance (p : Position) (c : Char) : Position :=
  if c = '\n' then ⟨p.line + 1, 0⟩ else ⟨p.line, p.character + Units.width c⟩

def behind (p : Position) (t : Text) : Position :=
  t.foldl advance p

def ofOffset (t : Text) (offset : Int) : Position :=
  origin.behind (t.take offset.toNat)

def offsetOn : Text → Nat → Int → Nat
  | [], _, _ => 0
  | c :: rest, 0, column =>
      if c = '\n' then 0
      else if (Units.width c : Int) ≤ column then
        1 + offsetOn rest 0 (column - Units.width c)
      else 0
  | c :: rest, line + 1, column =>
      1 + offsetOn rest (if c = '\n' then line else line + 1) column

/-- The offset of a position: a column behind the end of its line means that
end, a line behind the last means the end of the text, and a line before the
first means the start of the text. -/
def toOffset (t : Text) (p : Position) : Nat :=
  if p.line < 0 then 0 else offsetOn t p.line.toNat p.character

@[simp] theorem behind_nil (p : Position) : p.behind [] = p := rfl

@[simp] theorem behind_cons (p : Position) (c : Char) (t : Text) :
    p.behind (c :: t) = (p.advance c).behind t := rfl

@[simp] theorem behind_append (p : Position) (s t : Text) :
    p.behind (s ++ t) = (p.behind s).behind t := by
  simp [behind]

theorem offsetOn_le_length (t : Text) (line : Nat) (column : Int) :
    offsetOn t line column ≤ t.length := by
  induction t generalizing line column with
  | nil => simp [offsetOn]
  | cons c rest ih =>
      cases line with
      | zero =>
          unfold offsetOn
          split
          · simp
          · split
            · have := ih 0 (column - Units.width c)
              simp only [List.length_cons]
              omega
            · simp
      | succ n =>
          unfold offsetOn
          have := ih (if c = '\n' then n else n + 1) column
          simp only [List.length_cons]
          omega

theorem toOffset_le_length (t : Text) (p : Position) :
    toOffset t p ≤ t.length := by
  unfold toOffset
  split
  · simp
  · exact offsetOn_le_length _ _ _

end Position
end InlineCompletion
