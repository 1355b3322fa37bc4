import InlineCompletion.Yaml.Block
import InlineCompletion.Yaml.Plain
import InlineCompletion.Yaml.Quoted
import InlineCompletion.Yaml.Token

/-!
# Reading tokens

Only the colon behind it shows that a scalar is a key.  So places where a key
may have started are kept, one for each level of brackets, and when a colon
comes the token of the key is put in there.  Such a place is given up with its
line, or after a good thousand code points; where the indentation asks for a
key, giving it up is a fault.  Tokens from the earliest such place on do not
count yet, and never do if reading fails before it is known what they are.
-/

namespace InlineCompletion
namespace Yaml

structure KeyPlace where
  /-- How many tokens stand before it. -/
  token : Nat
  /-- Whether the indentation asks for a key there. -/
  required : Bool
  index : Nat
  line : Nat
  column : Nat
  deriving Repr

structure Lexer where
  cursor : Cursor
  tokens : List Token
  /-- How many brackets are open. -/
  level : Nat
  /-- The column of the innermost collection by indentation, and those of the
  outer ones. -/
  indent : Int
  outer : List Int
  /-- Whether a key may start at the cursor. -/
  keyAllowed : Bool
  /-- Where keys may have started, by the level of brackets. -/
  places : List (Nat × KeyPlace)
  done : Bool

namespace Lexer

def start (t : Text) : Lexer :=
  { cursor := .start t, tokens := [], level := 0, indent := -1, outer := [],
    keyAllowed := true, places := [], done := false }

def maxKey : Nat := 1024

def settled (x : Lexer) : Nat :=
  x.places.foldl (fun n p => min n p.2.token) x.tokens.length

def isStale (x : Lexer) (p : KeyPlace) : Bool :=
  p.line != x.cursor.line || x.cursor.index - p.index > maxKey

def dropStale (x : Lexer) : Except Stop Lexer :=
  if x.places.any fun p => x.isStale p.2 && p.2.required then
    unreadable x.cursor
  else .ok { x with places := x.places.filter fun p => !x.isStale p.2 }

def dropPlace (x : Lexer) : Except Stop Lexer :=
  if x.places.any fun p => p.1 == x.level && p.2.required then
    unreadable x.cursor
  else .ok { x with places := x.places.filter fun p => p.1 != x.level }

def savePlace (x : Lexer) : Except Stop Lexer :=
  if !x.keyAllowed then .ok x
  else do
    let x ← x.dropPlace
    let required := x.level == 0 && x.indent == x.cursor.column
    let place : KeyPlace :=
      ⟨x.tokens.length, required, x.cursor.index, x.cursor.line,
        x.cursor.column⟩
    return { x with places := x.places ++ [(x.level, place)] }

def push (t : Token) (x : Lexer) : Lexer := { x with tokens := x.tokens ++ [t] }

def goTo (c : Cursor) (x : Lexer) : Lexer := { x with cursor := c }

def allowKey (b : Bool) (x : Lexer) : Lexer := { x with keyAllowed := b }

def closeIn (column : Int) (x : Lexer) : Lexer :=
  if x.level > 0 || x.indent ≤ column then x
  else
    let rec go : List Int → Int → List Token → Lexer
      | outer, indent, ts =>
          if indent ≤ column then
            { x with indent := indent, outer := outer, tokens := ts }
          else
            match outer with
            | [] => { x with indent := indent, outer := [], tokens := ts }
            | o :: outer => go outer o (ts ++ [.blockEnd])
    go x.outer x.indent x.tokens

/-- Opens a collection by indentation at a column, if none is open there; its
token stands behind so many others. -/
def openAt (column : Int) (place : Nat) (t : Token) (x : Lexer) : Lexer :=
  if x.indent < column then
    { x with indent := column, outer := x.indent ::
      x.outer, tokens := x.tokens.insertIdx place t }
  else x

def skipGaps : Nat → Lexer → Lexer
  | 0, x => x
  | steps + 1, x =>
      let c := (x.cursor.skip (· == ' ')).skipComment
      if c.sees isBreak then
        skipGaps steps
          { x with cursor := c.pass, keyAllowed := x.keyAllowed || x.level ==
            0 }
      else { x with cursor := c }

def mark (t : Token) (length : Nat) (x : Lexer) : Except Stop Lexer := do
  let x ← (x.closeIn (-1)).dropPlace
  return ((x.allowKey false).push t).goTo (x.cursor.passMany length)

def openBracket (t : Token) (x : Lexer) : Except Stop Lexer := do
  let x ← x.savePlace
  return (({ x with level := x.level + 1 }.allowKey true).push t).goTo
    x.cursor.pass

def closeBracket (t : Token) (x : Lexer) : Except Stop Lexer := do
  let x ← x.dropPlace
  return (({ x with level := x.level - 1 }.allowKey false).push t).goTo
    x.cursor.pass

def keyLike (read : Cursor → Except Stop (Token × Cursor)) (x : Lexer) :
    Except Stop Lexer := do
  let x ← x.savePlace
  let (t, c) ← read x.cursor
  return ((x.allowKey false).push t).goTo c

def separator (x : Lexer) : Except Stop Lexer := do
  let x ← x.dropPlace
  return ((x.allowKey true).push .separator).goTo x.cursor.pass

/-- The mark of an item or of a key by indentation, which may open its
collection.  That it is one shows only behind it. -/
def blockMark (collection t : Token) (keyNext : Bool) (x : Lexer) :
    Except Stop Lexer := do
  if x.level == 0 && !x.keyAllowed then unreadable x.cursor.pass
  else
    let x :=
      if x.level == 0 then
        x.openAt x.cursor.column x.tokens.length collection
      else x
    let x ← x.dropPlace
    return ((x.allowKey keyNext).push t).goTo x.cursor.pass

def colon (x : Lexer) : Except Stop Lexer :=
  match x.places.find? fun p => p.1 == x.level with
  | some (_, p) =>
      let x := { x with places := x.places.filter fun p => p.1 != x.level }
      let x := { x with tokens := x.tokens.insertIdx p.token .key }
      let x :=
        if x.level == 0 then x.openAt p.column p.token .blockMapping else x
      .ok (((x.allowKey false).push .value).goTo x.cursor.pass)
  | none => x.blockMark .blockMapping .value (x.level == 0)

def block (isFolded : Bool) (x : Lexer) : Except Stop Lexer := do
  let x ← (x.allowKey true).dropPlace
  let (t, c) ← Block.read isFolded x.indent x.cursor
  return (x.push (.scalar t false)).goTo c

def plain (x : Lexer) : Except Stop Lexer := do
  let x ← x.savePlace
  let (t, broken, c) := Plain.read (x.level > 0) (x.indent + 1) x.cursor
  return ((x.allowKey broken).push (.scalar t true)).goTo c

def startsPlain (inFlow : Bool) (c : Cursor) : Bool :=
  match c.next? with
  | none => false
  | some x =>
      let special :=
        isGap x || isBracket x || "-?:,#&*!|>'\"%@`".toList.contains x
      !special ||
        (!(c.ahead? 1).all isGap &&
          (x == '-' || (!inFlow && (x == '?' || x == ':'))))

def token (x : Lexer) : Except Stop Lexer :=
  let c := x.cursor
  let inFlow := x.level > 0
  let gapNext := (c.ahead? 1).all isGap
  match c.next? with
  | none => do
      let x ← (x.closeIn (-1)).dropPlace
      return { x.push .fileEnd with places := [], done := true }
  | some ch =>
      if ch = '%' ∧ c.column = 0 then do
        let x ← (x.closeIn (-1)).dropPlace
        let (d, c) ← Property.directive c
        return ((x.allowKey false).push (.directive d)).goTo c
      else if c.column = 0 ∧ c.atMarks '-' then x.mark .documentStart 3
      else if c.column = 0 ∧ c.atMarks '.' then x.mark .documentEnd 3
      else if ch = '[' then x.openBracket .flowSequence
      else if ch = '\x7b' then x.openBracket .flowMapping
      else if ch = ']' then x.closeBracket .flowSequenceEnd
      else if ch = '\x7d' then x.closeBracket .flowMappingEnd
      else if ch = ',' then x.separator
      else if ch = '-' ∧ gapNext then x.blockMark .blockSequence .item true
      else if ch = '?' ∧ (inFlow ∨ gapNext) then
        x.blockMark .blockMapping .key (!inFlow)
      else if ch = ':' ∧ (inFlow ∨ gapNext) then x.colon
      else if ch = '*' then
        x.keyLike fun c => (Property.name c).map fun r => (.alias r.1, r.2)
      else if ch = '&' then
        x.keyLike fun c => (Property.name c).map fun r => (.anchor r.1, r.2)
      else if ch = '!' then
        x.keyLike fun c => (Property.tag c).map fun r => (.tag r.1, r.2)
      else if ch = '|' ∧ !inFlow then x.block false
      else if ch = '>' ∧ !inFlow then x.block true
      else if ch = '\'' ∨ ch = '"' then
        x.keyLike fun c => (Quoted.read ch c).map fun r =>
          (.scalar r.1 false, r.2)
      else if startsPlain inFlow c then x.plain
      else unreadable x.cursor

def step (x : Lexer) : Except Stop Lexer := do
  let x ← (x.skipGaps (x.cursor.rest.length + 1)).dropStale
  let x ← (x.closeIn x.cursor.column).token
  x.dropStale

/-- Reads tokens; so many at most.  The result is those that count, and the
fault that kept the others from being read: what was read together with a fault
does not count.  The end of what can be looked at is a fault where it is
reached. -/
def run (horizon : Option Stop) : Nat → Lexer → List Token × Option Fault
  | 0, x => (x.tokens, none)
  | steps + 1, x =>
      if x.done then (x.tokens, none)
      else
        let counted := x.tokens.take x.settled
        let stopsAt := fun (index : Nat) => horizon.filter (·.index ≤ index)
        match x.step with
        | .error s => (counted, some ((stopsAt s.index).getD s).fault)
        | .ok y =>
            match stopsAt y.cursor.index with
            | some s => (counted, some s.fault)
            | none => run horizon steps y

end Lexer

def tokens (horizon : Option Stop) (t : Text) : List Token × Option Fault :=
  let x := Lexer.start t
  let x := if t.head? = some '\uFEFF' then x.goTo x.cursor.pass else x
  x.run horizon (t.length + 2)

end Yaml
end InlineCompletion
