import InlineCompletion.Fault

/-!
# Places in a settings file

A cursor is a place in a file: what stands from there on, how much stands before
it, and its line and column.  A byte order mark has no column of its own.  The
end of the file counts as a gap, and as a line end where one is looked for.
-/

namespace InlineCompletion
namespace Yaml

/-- Whether a code point ends a line.  Carriage returns are not among them, as
files are read with one kind of line end. -/
def isBreak (c : Char) : Bool :=
  c == '\n' || c == '\u0085' || c == '\u2028' || c == '\u2029'

def isSpace (c : Char) : Bool := c == ' ' || c == '\t'

def isGap (c : Char) : Bool := isSpace c || isBreak c

def inName (c : Char) : Bool := c.isAlphanum || c == '-' || c == '_'

def isBracket (c : Char) : Bool :=
  c == '[' || c == ']' || c == '\x7b' || c == '\x7d'

def foldBreak (c : Char) : Char := if c = '\u0085' then '\n' else c

def folded (first : Char) (more : Text) : Text :=
  (if foldBreak first ≠ '\n' then [first] else if more.isEmpty then [' '] else
    []) ++ more

structure Cursor where
  rest : Text
  index : Nat
  line : Nat
  column : Nat
  deriving Repr

namespace Cursor

def start (t : Text) : Cursor := ⟨t, 0, 0, 0⟩

def next? (c : Cursor) : Option Char := c.rest.head?

def ahead? (n : Nat) (c : Cursor) : Option Char := (c.rest.drop n).head?

def sees (p : Char → Bool) (c : Cursor) : Bool := c.next?.any p

def seesOrEnds (p : Char → Bool) (c : Cursor) : Bool := c.next?.all p

def pass (c : Cursor) : Cursor :=
  match c.rest with
  | [] => c
  | x :: rest =>
      if isBreak x then ⟨rest, c.index + 1, c.line + 1, 0⟩
      else if x = '\uFEFF' then ⟨rest, c.index + 1, c.line, c.column⟩
      else ⟨rest, c.index + 1, c.line, c.column + 1⟩

def passMany : Nat → Cursor → Cursor
  | 0, c => c
  | n + 1, c => passMany n c.pass

def passWhile (p : Char → Bool) (c : Cursor) : Text × Cursor :=
  let t := c.rest.takeWhile p
  (t, c.passMany t.length)

def skip (p : Char → Bool) (c : Cursor) : Cursor := (c.passWhile p).2

def skipComment (c : Cursor) : Cursor :=
  if c.next? = some '#' then c.skip (!isBreak ·) else c

def skipBreak (c : Cursor) : Cursor := if c.sees isBreak then c.pass else c

def atMarks (mark : Char) (c : Cursor) : Bool :=
  c.rest.take 3 == [mark, mark, mark] && (c.ahead? 3).all isGap

def atSeparator (c : Cursor) : Bool := c.atMarks '-' || c.atMarks '.'

end Cursor

structure Stop where
  fault : Fault
  index : Nat
  deriving DecidableEq, Repr

def unreadable {α : Type} (c : Cursor) : Except Stop α :=
  .error ⟨.badSettings .token, c.index⟩

end Yaml
end InlineCompletion
