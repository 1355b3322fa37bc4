import InlineCompletion.Yaml.Cursor

/-!
# Plain scalars

A scalar without quotes is made of words, and ends at a comment, at a colon that
ends a key, at a mark between brackets, or where the lines are no longer
indented enough.  A single line end between words is read as a blank, and
further ones stay.
-/

namespace InlineCompletion
namespace Yaml
namespace Plain

def endsKey (inFlow : Bool) (behind : Option Char) : Bool :=
  behind.all fun c => isGap c || (inFlow && (c == ',' || isBracket c))

def word (inFlow : Bool) : Text → Text
  | [] => []
  | c :: rest =>
      if isGap c || (c == ':' && endsKey inFlow rest.head?)
          || (inFlow && (c == ',' || c == '?' || isBracket c)) then []
      else c :: word inFlow rest

def breaks : Nat → Cursor → Option Text × Cursor
  | 0, c => (some [], c)
  | steps + 1, c =>
      match c.next? with
      | none => (some [], c)
      | some x =>
          if x = ' ' then breaks steps c.pass
          else if isBreak x then
            let c := c.pass
            if c.atSeparator then (none, c)
            else
              let (more, c) := breaks steps c
              (more.map (foldBreak x :: ·), c)
          else (some [], c)

/-- What stands between two words: its text, which is empty where the scalar
ends, and whether it holds a line end. -/
def gap (c : Cursor) : Text × Bool × Cursor :=
  let (blanks, c) := c.passWhile (· == ' ')
  match c.next?.filter isBreak with
  | none => (blanks, false, c)
  | some b =>
      let c := c.pass
      if c.atSeparator then ([], true, c)
      else
        match breaks (c.rest.length + 1) c with
        | (none, c) => ([], true, c)
        | (some more, c) => (folded b more, true, c)

/-- Reads words behind some text and a gap, indented by some columns at least;
the result is the text, and whether the last gap holds a line end. -/
def readFrom (inFlow : Bool) (indent : Int) :
    Nat → Text → Text → Bool → Cursor →
    Text × Bool × Cursor
  | 0, before, _, broken, c => (before, broken, c)
  | steps + 1, before, blanks, broken, c =>
      let next := word inFlow c.rest
      if c.next? = some '#' || next.isEmpty then (before, broken, c)
      else
        let t := before ++ blanks ++ next
        let (blanks, broken, c) := gap (c.passMany next.length)
        if blanks.isEmpty || c.next? ==
          some '#' || (!inFlow && (c.column : Int) < indent) then
          (t, broken, c)
        else readFrom inFlow indent steps t blanks broken c

def read (inFlow : Bool) (indent : Int) (c : Cursor) : Text × Bool × Cursor :=
  readFrom inFlow indent (c.rest.length + 1) [] [] false c

end Plain
end Yaml
end InlineCompletion
