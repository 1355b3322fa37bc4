import InlineCompletion.Yaml.Meaning

/-!
# Settings files

A settings file is a text without control characters that holds one value:
mappings and sequences, laid out by indentation or between brackets, with plain,
quoted and block scalars and with comments.  This module and those below it
stand in for the library that reads such files, so that the program can run.
They are no part of the theory: what is stated about settings is stated about
the values that files hold, and how they are read does not matter.  How many
collections may stand inside one another is given by whoever reads.
-/

namespace InlineCompletion
namespace Yaml

def allowed (c : Char) : Bool :=
  c == '\t' || c == '\n' || c == '\r' || (' ' ≤ c && c ≤ '~') || c == '\u0085'
    || ('\u00A0' ≤ c && c != '\uFFFE' && c != '\uFFFF')

def partSize : Nat := 4096

/-- Where the part of a file begins that holds a place.  The first two parts are
looked at together, before anything is read. -/
def partStart (index : Nat) : Nat :=
  if index < 2 * partSize then 0 else index / partSize * partSize

/-- Why a file cannot be looked at from the part on with the first code point
that it may not hold. -/
def badPart (t : Text) : Option Stop :=
  (t.findIdx? (!allowed ·)).map fun index =>
    ⟨.badSettings .character, partStart index⟩

def earlier (a b : Option Stop) : Option Stop :=
  match a, b with
  | some x, some y => some (if x.index ≤ y.index then x else y)
  | some x, none => some x
  | none, b => b

/-- Reads a settings file, which perhaps cannot be looked at as a whole; without
a value, it says nothing. -/
def readUpTo (room : Nat) (stop : Option Stop) (t : Text) :
    Except Fault Settings.Value := do
  match ← Node.ofText? room (earlier stop (badPart t)) t with
  | none => return .null
  | some x => x.meaning (t.length + 2)

def read (room : Nat) (t : Text) : Except Fault Settings.Value :=
  readUpTo room none (Text.unifyLineEnds t)

/-- Reads the bytes of a settings file.  They are decoded in pieces of twice the
size of a part, and a piece that is no text stops looking from the part on that
needs it. -/
def readBytes (room : Nat) (bytes : List UInt8) : Except Fault Settings.Value :=
  match Utf8.decode? bytes with
  | some t => read room t
  | none =>
      let known := Utf8.decodeStart bytes
      let pieces := (Utf8.encode known).length / (2 * partSize)
      let before := Utf8.decodeStart (bytes.take (pieces * (2 * partSize)))
      readUpTo room
        (some ⟨.notText, partStart (Text.unifyLineEnds before).length⟩)
          (Text.unifyLineEnds known)

end Yaml
end InlineCompletion
