import InlineCompletion.Yaml.Cursor
import InlineCompletion.Text.Hex
import InlineCompletion.Text.Utf8

/-!
# Names, tags and directives

A value may have a name, under which it can be put in other places too, and a
tag, which says of what kind it is.  A tag is a handle and a suffix, or given in
full.  Directives stand before a document and say what handles stand for.
-/

namespace InlineCompletion
namespace Yaml

structure TagName where
  handle : Option Text
  suffix : Text
  deriving DecidableEq, Repr

inductive Directive where
  | version (major minor : Nat)
  | handle (handle meaning : Text)
  | other
  deriving DecidableEq, Repr

namespace Property

def endsName (c : Char) : Bool :=
  isGap c || "?:,]%@`".toList.contains c || c == '\x7d'

def name (c : Cursor) : Except Stop (Text × Cursor) :=
  let (t, c) := c.pass.passWhile inName
  if t.isEmpty || !c.seesOrEnds endsName then unreadable c else .ok (t, c)

def inTag (c : Char) : Bool :=
  c.isAlphanum || "-;/?:@&=+$,_.!~*'()[]".toList.contains c

def escapes : Nat → Text → Option (List UInt8)
  | 0, _ => some []
  | steps + 1, t =>
      match t with
      | '%' :: a :: b :: rest =>
          match Hex.value? a, Hex.value? b with
          | some x, some y =>
              (escapes steps rest).map ((16 * x + y).toUInt8 :: ·)
          | _, _ => none
      | '%' :: _ => none
      | _ => some []

def tagText : Nat → Cursor → Except Stop (Text × Cursor)
  | 0, c => .ok ([], c)
  | steps + 1, c =>
      match c.next? with
      | some '%' =>
          match escapes (c.rest.length + 1) c.rest with
          | none => unreadable c
          | some bytes =>
              match Utf8.decode? bytes with
              | none => unreadable c
              | some t => do
                  let (more, c) ← tagText steps (c.passMany (3 * bytes.length))
                  return (t ++ more, c)
      | _ =>
          let (t, c) := c.passWhile inTag
          if t.isEmpty then .ok ([], c)
          else (tagText steps c).map fun r => (t ++ r.1, r.2)

def tagSuffix (c : Cursor) : Except Stop (Text × Cursor) := do
  let (t, c) ← tagText (c.rest.length + 1) c
  if t.isEmpty then unreadable c else return (t, c)

def handle (c : Cursor) : Except Stop (Text × Cursor) :=
  if c.next? ≠ some '!' then unreadable c
  else if c.ahead? 1 = some ' ' then .ok (['!'], c.pass)
  else
    let (t, c) := c.pass.passWhile inName
    if c.next? = some '!' then .ok ('!' :: t ++ ['!'], c.pass) else unreadable c

def endsTag (c : Char) : Bool := c == ' ' || isBreak c

def tag (c : Cursor) : Except Stop (TagName × Cursor) := do
  let (t, c) ← match c.ahead? 1 with
    | some '<' => do
        let (suffix, c) ← tagSuffix (c.passMany 2)
        if c.next? = some '>' then pure (TagName.mk none suffix, c.pass) else
          unreadable c
    | x =>
        if x.all isGap then pure (⟨none, ['!']⟩, c.pass)
        else if ((c.pass.rest.takeWhile (!endsTag ·)).contains '!') then do
          let (h, c) ← handle c
          let (suffix, c) ← tagSuffix c
          pure (⟨some h, suffix⟩, c)
        else do
          let (suffix, c) ← tagSuffix c.pass
          pure (⟨some ['!'], suffix⟩, c)
  if c.seesOrEnds endsTag then return (t, c) else unreadable c

def number (c : Cursor) : Except Stop (Nat × Cursor) :=
  let (t, c) := c.passWhile Char.isDigit
  if t.isEmpty then unreadable c
  else .ok (t.foldl (fun n d => 10 * n + (d.toNat - 0x30)) 0, c)

def directive (c : Cursor) : Except Stop (Directive × Cursor) := do
  let (name, c) := c.pass.passWhile inName
  if name.isEmpty || !c.seesOrEnds endsTag then unreadable c
  else
    let (d, c) ←
      if name = "YAML".toList then do
        let (major, c) ← number (c.skip (· == ' '))
        if c.next? ≠ some '.' then unreadable c
        else
          let (minor, c) ← number c.pass
          if c.seesOrEnds endsTag then
            pure (Directive.version major minor, c) else unreadable c
      else if name = "TAG".toList then do
        let (h, c) ← handle (c.skip (· == ' '))
        if c.next? ≠ some ' ' then unreadable c
        else
          let (meaning, c) ← tagSuffix (c.skip (· == ' '))
          if c.seesOrEnds endsTag then pure (.handle h meaning, c) else
            unreadable c
      else pure (.other, c.skip (!isBreak ·))
    let c := (c.skip (· == ' ')).skipComment
    if c.seesOrEnds isBreak then return (d, c.skipBreak) else unreadable c

end Property
end Yaml
end InlineCompletion
