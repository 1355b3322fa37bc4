import InlineCompletion.Yaml.Cursor
import InlineCompletion.Text.Hex

/-!
# Quoted scalars

A scalar in quotes may run over several lines.  A single line end in it is read
as a blank, further ones stay, and blanks around them do not count.  In single
quotes a quote is written twice; in double quotes a backslash starts an escape,
and before a line end it joins two lines.
-/

namespace InlineCompletion
namespace Yaml
namespace Quoted

def escape? (c : Char) : Option Char :=
  match c with
  | '0' => some '\x00'
  | 'a' => some '\x07'
  | 'b' => some '\x08'
  | 't' | '\t' => some '\t'
  | 'n' => some '\n'
  | 'v' => some '\x0b'
  | 'f' => some '\x0c'
  | 'r' => some '\r'
  | 'e' => some '\x1b'
  | ' ' => some ' '
  | '"' => some '"'
  | '/' => some '/'
  | '\\' => some '\\'
  | 'N' => some '\u0085'
  | '_' => some '\u00a0'
  | 'L' => some '\u2028'
  | 'P' => some '\u2029'
  | _ => none

def escapeDigits? (c : Char) : Option Nat :=
  if c = 'x' then some 2 else if c = 'u' then some 4 else if c = 'U' then
    some 8 else none

def number? (places : Nat) (t : Text) : Option Nat :=
  let ds := t.take places
  if ds.length = places ∧ ds.all (fun c => (Hex.value? c).isSome) then
    some (ds.foldl (fun n c => 16 * n + (Hex.value? c).getD 0) 0)
  else none

def lowHalf? (c : Cursor) : Option Nat :=
  match c.rest with
  | '\\' :: 'u' :: rest => (number? 4 rest).filter fun n =>
      0xDC00 ≤ n && n ≤ 0xDFFF
  | _ => none

/-- The code point with a number; the halves of a surrogate pair are one, and
one half alone is the replacement character. -/
def codePoint (n : Nat) (c : Cursor) : Except Stop (Char × Cursor) :=
  if 0x10FFFF < n then .error ⟨.noCodePoint n, c.index⟩
  else if 0xD800 ≤ n ∧ n ≤ 0xDFFF then
    match (lowHalf? c).filter fun _ => n < 0xDC00 with
    | some low =>
        .ok (Char.ofNat (0x10000 + (n - 0xD800) * 0x400 + (low - 0xDC00)),
          c.passMany 6)
    | none => .ok ('\uFFFD', c)
  else .ok (Char.ofNat n, c)

/-- Line ends at a cursor, behind one that was passed; blanks around them are
dropped.  No mark between documents may stand at the start of a line. -/
def breaks : Nat → Cursor → Except Stop (Text × Cursor)
  | 0, c => unreadable c
  | steps + 1, c =>
      if c.atSeparator then unreadable c
      else
        let c := c.skip isSpace
        match c.next?.filter isBreak with
        | some b => (breaks steps c.pass).map fun r => (foldBreak b :: r.1, r.2)
        | none => .ok ([], c)

def gap (steps : Nat) (c : Cursor) : Except Stop (Text × Cursor) :=
  let (blanks, c) := c.passWhile isSpace
  match c.next? with
  | none => unreadable c
  | some b =>
      if isBreak b then do
        let (more, c) ← breaks steps c.pass
        return (folded b more, c)
      else .ok (blanks, c)

def escape (steps : Nat) (c : Cursor) : Except Stop (Text × Cursor) :=
  match c.next? with
  | none => unreadable c
  | some e =>
      match escape? e, escapeDigits? e with
      | some x, _ => .ok ([x], c.pass)
      | none, some places =>
          match number? places c.pass.rest with
          | none => unreadable c
          | some n => do
              let (x, c) ← codePoint n (c.pass.passMany places)
              return ([x], c)
      | none, none => if isBreak e then breaks steps c.pass else unreadable c

def isPlain (c : Char) : Bool := !isGap c && c != '\'' && c != '"' && c != '\\'

def readBehind (quote : Char) : Nat → Cursor → Except Stop (Text × Cursor)
  | 0, c => unreadable c
  | steps + 1, c =>
      let go := fun (t : Text) (c : Cursor) =>
        (readBehind quote steps c).map fun r => (t ++ r.1, r.2)
      match c.next? with
      | none => unreadable c
      | some x =>
          if isPlain x then
            let (word, c) := c.passWhile isPlain
            go word c
          else if quote = '\'' ∧ x = '\'' ∧ c.ahead? 1 = some '\'' then
            go ['\''] (c.passMany 2)
          else if x = quote then .ok ([], c.pass)
          else if quote = '"' ∧ x = '\\' then do
            let (t, c) ← escape steps c.pass
            go t c
          else if isGap x then do
            let (t, c) ← gap steps c
            go t c
          else go [x] c.pass

def read (quote : Char) (c : Cursor) : Except Stop (Text × Cursor) :=
  readBehind quote (c.rest.length + 1) c.pass

end Quoted
end Yaml
end InlineCompletion
