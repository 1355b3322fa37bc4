import InlineCompletion.Path.Basic
import InlineCompletion.Path.Host
import InlineCompletion.Text.Utf8

/-!
# File addresses

A document is named by the address of its file: the absolute path, with all but
the plainest characters escaped by their bytes.  An address is a path again: its
escapes are resolved, its host does not count, and what asks a question or names
a fragment is cut off.
-/

namespace InlineCompletion
namespace Uri

/-- Whether a byte stands for itself in an address: letters, digits, and few
marks. -/
def isPlain (b : UInt8) : Bool :=
  let c := Char.ofNat b.toNat
  b < 0x80 && (c.isAlphanum || "_.-~/:".toList.contains c)

def escapeByte (b : UInt8) : Text :=
  if isPlain b then [Char.ofNat b.toNat]
  else ['%', Hex.capital (b.toNat / 16), Hex.capital (b.toNat % 16)]

def escape (t : Text) : Text := (Utf8.encode t).flatMap escapeByte

def escaped? (t : Text) : Option UInt8 :=
  match t with
  | a :: b :: _ =>
      match Hex.value? a, Hex.value? b with
      | some x, some y => some (16 * x + y).toUInt8
      | _, _ => none
  | _ => none

/-- A text with its escapes resolved, behind bytes that wait to be read, with so
many code points of an escape still to be passed over.  Only bytes of ASCII
characters and escapes wait. -/
def unescapeFrom : Nat → List UInt8 → Text → Text
  | _, waiting, [] => Utf8.decodeLossy waiting
  | skip + 1, waiting, _ :: rest => unescapeFrom skip waiting rest
  | 0, waiting, c :: rest =>
      if c.toNat ≥ 0x80 then
        Utf8.decodeLossy waiting ++ c :: unescapeFrom 0 [] rest
      else
        match if c = '%' then escaped? rest else none with
        | some b => unescapeFrom 2 (waiting ++ [b]) rest
        | none => unescapeFrom 0 (waiting ++ [c.toNat.toUInt8]) rest

def unescape (t : Text) : Text := unescapeFrom 0 [] t

def scheme : Text := "file:".toList

def pathOf (address : Text) : Except Fault (Option Text) := do
  let t := (address.drop scheme.length).filter fun c =>
    c != '\t' && c != '\n' && c != '\r'
  let isEnd := fun c => c == '/' || c == '?' || c == '#'
  let rest ← match t with
    | '/' :: '/' :: t => do
        Host.check (t.takeWhile (!isEnd ·))
        pure (t.dropWhile (!isEnd ·))
    | t => pure t
  let path := (rest.takeWhile (· != '#')).takeWhile (· != '?')
  return if path.isEmpty then none else some path

def normalize (dir : Path.Directory) (path : Text) :
    Except Fault (Option Text) :=
  if path.isEmpty then .ok none
  else if scheme.isPrefixOf path then
    (pathOf path).map fun p =>
      some (Path.absolute dir ((p.map unescape).getD path))
  else .ok (some (Path.absolute dir path))

def ofAbsolute (path : Text) : Text := scheme ++ '/' :: '/' :: escape path

def ofPath (dir : Path.Directory) (path : Text) : Except Fault (Option Text) :=
  (normalize dir path).map fun p => p.map ofAbsolute

end Uri
end InlineCompletion
