import InlineCompletion.Yaml.Cursor

/-!
# Block scalars

A scalar may be given by the lines below its mark, as far as they are indented.
Literal lines stay as they are; folded ones are joined by blanks where neither
starts with one.  What follows the mark says how far the lines are indented, and
which line ends at the end are kept.
-/

namespace InlineCompletion
namespace Yaml
namespace Block

inductive Ending where
  | none
  | one
  | all
  deriving DecidableEq, Repr

/-- What the header of a block says: the line ends that are kept, and the
columns by which the lines are indented. -/
structure Header where
  ending : Ending
  indent : Option Nat
  deriving DecidableEq, Repr

def ending (c : Cursor) : Option (Ending × Cursor) :=
  match c.next? with
  | some '+' => some (.all, c.pass)
  | some '-' => some (.none, c.pass)
  | _ => Option.none

def indentation (c : Cursor) : Except Stop (Option Nat × Cursor) :=
  match c.next?.filter fun x => '0' ≤ x && x ≤ '9' with
  | Option.none => .ok (Option.none, c)
  | some x =>
      if x = '0' then unreadable c else .ok (some (x.toNat - 0x30), c.pass)

def header (c : Cursor) : Except Stop (Header × Cursor) := do
  let (h, c) ← match ending c with
    | some (e, c) => do
        let (n, c) ← indentation c
        pure (Header.mk e n, c)
    | Option.none => do
        let (n, c) ← indentation c
        match n, ending c with
        | some n, some (e, c) => pure (⟨e, some n⟩, c)
        | n, _ => pure (⟨.one, n⟩, c)
  if !c.seesOrEnds (fun x => x == ' ' || isBreak x) then unreadable c
  else
    let c := (c.skip (· == ' ')).skipComment
    if c.seesOrEnds isBreak then return (h, c.skipBreak) else unreadable c

/-- The line ends in front of a block of which the indentation is not given, and
how far their lines and the first one are indented at most. -/
def leading : Nat → Nat → Cursor → Text × Nat × Cursor
  | 0, most, c => ([], most, c)
  | steps + 1, most, c =>
      match c.next? with
      | Option.none => ([], most, c)
      | some x =>
          if x = ' ' then
            let c := c.pass
            leading steps (max most c.column) c
          else if isBreak x then
            let (bs, most, c) := leading steps most c.pass
            (foldBreak x :: bs, most, c)
          else ([], most, c)

def indent (column : Nat) (c : Cursor) : Cursor :=
  c.passMany ((c.rest.takeWhile (· == ' ')).take (column - c.column)).length

def breaks (column : Nat) : Nat → Cursor → Text × Cursor
  | 0, c => ([], c)
  | steps + 1, c =>
      let c := indent column c
      match c.next?.filter isBreak with
      | Option.none => ([], c)
      | some b =>
          let (bs, c) := breaks column steps c.pass
          (foldBreak b :: bs, c)

def startsLine (column : Nat) (c : Cursor) : Bool :=
  c.column == column && c.next?.isSome

/-- Reads the lines of a block behind line ends; the result is their text
without the line ends at the end, and these: that of the last line, and those of
empty lines. -/
def lines (isFolded : Bool) (column : Nat) :
    Nat → Text → Cursor → Text × Text × Text × Cursor
  | 0, bs, c => ([], [], bs, c)
  | steps + 1, bs, c =>
      let flush := !c.sees isSpace
      let (line, c) := c.passWhile (!isBreak ·)
      let last := ((c.next?.filter isBreak).map foldBreak).toList
      let (more, c) := breaks column steps c.skipBreak
      if startsLine column c then
        let joint :=
          if isFolded && last == ['\n'] && flush && !c.sees isSpace then
            (if more.isEmpty then [' '] else [])
          else last
        let (rest, last, more, c) := lines isFolded column steps more c
        (bs ++ line ++ joint ++ rest, last, more, c)
      else (bs ++ line, last, more, c)

/-- Reads a block behind the mark that says whether it is folded, below a line
that is indented by some columns. -/
def read (isFolded : Bool) (outer : Int) (c : Cursor) :
    Except Stop (Text × Cursor) := do
  let (h, c) ← header c.pass
  let least := (max 1 (outer + 1)).toNat
  let steps := c.rest.length + 1
  let (bs, column, c) := match h.indent with
    | some n =>
        let column := least + n - 1
        let (bs, c) := breaks column steps c
        (bs, column, c)
    | Option.none =>
        let (bs, most, c) := leading steps 0 c
        (bs, max least most, c)
  let (t, last, more, c) :=
    if startsLine column c then lines isFolded column steps bs c else
      ([], [], bs, c)
  let kept := match h.ending with
    | .none => []
    | .one => last
    | .all => last ++ more
  return (t ++ kept, c)

end Block
end Yaml
end InlineCompletion
