import InlineCompletion.Text.Basic

/-!
# UTF-8

Texts are written as bytes, one to four for a code point.  Bytes are read one
after the other by a machine that stands between two code points or inside one,
and it yields items: a code point, or `none` for a longest piece that begins an
encoding and does not complete it.  Strict reading refuses such a piece,
forgiving reading leaves it out, and lossy reading puts the replacement
character in its place.
-/

namespace InlineCompletion
namespace Utf8

def encodeChar (c : Char) : List UInt8 :=
  let n := c.toNat
  if n < 0x80 then [n.toUInt8]
  else if n < 0x800 then [(0xC0 + n / 0x40).toUInt8, (0x80 + n % 0x40).toUInt8]
  else if n < 0x10000 then
    [(0xE0 + n / 0x1000).toUInt8, (0x80 + n / 0x40 % 0x40).toUInt8,
      (0x80 + n % 0x40).toUInt8]
  else
    [(0xF0 + n / 0x40000).toUInt8, (0x80 + n / 0x1000 % 0x40).toUInt8,
      (0x80 + n / 0x40 % 0x40).toUInt8, (0x80 + n % 0x40).toUInt8]

def encode (t : Text) : List UInt8 :=
  t.flatMap encodeChar

/-- Inside a code point: the bits read so far, how many bytes are owed, and the
bounds of the next one. -/
structure Inside where
  bits : Nat
  owed : Nat
  least : UInt8
  greatest : UInt8

def first (b : UInt8) : List (Option Char) × Option Inside :=
  let n := b.toNat
  if n < 0x80 then ([some (Char.ofNat n)], none)
  else if n < 0xC2 then ([none], none)
  else if n < 0xE0 then ([], some ⟨n - 0xC0, 1, 0x80, 0xBF⟩)
  else if n = 0xE0 then ([], some ⟨0, 2, 0xA0, 0xBF⟩)
  else if n = 0xED then ([], some ⟨0xD, 2, 0x80, 0x9F⟩)
  else if n < 0xF0 then ([], some ⟨n - 0xE0, 2, 0x80, 0xBF⟩)
  else if n = 0xF0 then ([], some ⟨0, 3, 0x90, 0xBF⟩)
  else if n < 0xF4 then ([], some ⟨n - 0xF0, 3, 0x80, 0xBF⟩)
  else if n = 0xF4 then ([], some ⟨4, 3, 0x80, 0x8F⟩)
  else ([none], none)

/-- What a byte yields: a byte that does not continue a code point ends the
piece before it and is a first byte itself. -/
def step (at? : Option Inside) (b : UInt8) :
    List (Option Char) × Option Inside :=
  match at? with
  | none => first b
  | some p =>
      if p.least ≤ b ∧ b ≤ p.greatest then
        let bits := p.bits * 0x40 + (b.toNat - 0x80)
        if p.owed ≤ 1 then ([some (Char.ofNat bits)], none)
        else ([], some ⟨bits, p.owed - 1, 0x80, 0xBF⟩)
      else (none :: (first b).1, (first b).2)

def run (at? : Option Inside) : List UInt8 → List (Option Char)
  | [] => if at?.isSome then [none] else []
  | b :: rest => (step at? b).1 ++ run (step at? b).2 rest

def items (bytes : List UInt8) : List (Option Char) := run none bytes

def known? : List (Option Char) → Option Text
  | [] => some []
  | none :: _ => none
  | some c :: rest => (known? rest).map (c :: ·)

def decode? (bytes : List UInt8) : Option Text :=
  known? (items bytes)

/-- Reading as far as it goes: the code points before the first piece that is
none. -/
def decodeStart (bytes : List UInt8) : Text :=
  ((items bytes).takeWhile (·.isSome)).filterMap id

def decodeKnown (bytes : List UInt8) : Text :=
  (items bytes).filterMap id

def decodeLossy (bytes : List UInt8) : Text :=
  (items bytes).map (·.getD '\uFFFD')

theorem known?_map_some (t : Text) : known? (t.map some) = some t := by
  induction t with
  | nil => rfl
  | cons c rest ih => simp [known?, ih]

end Utf8
end InlineCompletion
