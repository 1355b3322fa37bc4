import InlineCompletion.Json.Basic
import InlineCompletion.Text.Hex

/-!
# Reading JSON

A value is read off the front of a text, and what stands behind it is returned.
Beside the standard's values the names of the infinities and of the number that
is none are read.  Integers with too many digits, and more arrays and objects
inside one another than there is room for, are refused as such, at the place
where they stand.  Of two members with one key the later value counts, at the
earlier place.
-/

namespace InlineCompletion
namespace Json

inductive ReadError where
  | malformed
  | tooLong (digits : Nat)
  | tooDeep
  deriving DecidableEq, Repr

def isGap (c : Char) : Bool :=
  c == ' ' || c == '\n' || c == '\r' || c == '\t'

def skipGap (t : Text) : Text := t.dropWhile isGap

def unit? (a b c d : Char) : Option Nat :=
  match Hex.value? a, Hex.value? b, Hex.value? c, Hex.value? d with
  | some a, some b, some c, some d =>
      some (((a * 0x10 + b) * 0x10 + c) * 0x10 + d)
  | _, _, _, _ => none

def unescape? (c : Char) : Option Char :=
  if c = '"' ∨ c = '\\' ∨ c = '/' then some c
  else if c = 'b' then some '\x08'
  else if c = 'f' then some '\x0c'
  else if c = 'n' then some '\n'
  else if c = 'r' then some '\r'
  else if c = 't' then some '\t'
  else none

def halfOf (n : Nat) : Point := .half (Fin.ofNat 0x800 (n - 0xD800))

def loneHalf (high : Option Nat) : List Point :=
  match high with
  | some n => [halfOf n]
  | none => []

/-- Reads points up to a closing quote, behind the upper half of a surrogate
pair. -/
def readPoints (high : Option Nat) : Text → Option (List Point × Text)
  | [] => none
  | c :: rest =>
      if c = '"' then some (loneHalf high, rest)
      else if c = '\\' then
        match rest with
        | [] => none
        | e :: rest =>
            if e = 'u' then
              match rest with
              | x :: y :: z :: w :: rest =>
                  match unit? x y z w with
                  | none => none
                  | some n =>
                      if 0xDC00 ≤ n ∧ n ≤ 0xDFFF then
                        let p := match high with
                          | some h => .char (Char.ofNat
                              (0x10000 + (h - 0xD800) * 0x400 + (n - 0xDC00)))
                          | none => halfOf n
                        (readPoints none rest).map fun r => (p :: r.1, r.2)
                      else if 0xD800 ≤ n ∧ n ≤ 0xDBFF then
                        (readPoints (some n) rest).map fun r =>
                          (loneHalf high ++ r.1, r.2)
                      else
                        (readPoints none rest).map fun r =>
                          (loneHalf high ++ .char (Char.ofNat n) :: r.1, r.2)
              | _ => none
            else
              match unescape? e with
              | none => none
              | some c =>
                  (readPoints none rest).map fun r =>
                    (loneHalf high ++ .char c :: r.1, r.2)
      else if c.toNat < 0x20 then none
      else
        (readPoints none rest).map fun r =>
          (loneHalf high ++ .char c :: r.1, r.2)

def readString (t : Text) : Except ReadError (Str × Text) :=
  match readPoints none t with
  | some (ps, rest) => .ok (Str.ofPoints ps, rest)
  | none => .error .malformed

def digitsValue (ds : Text) : Nat :=
  ds.foldl (fun n c => 10 * n + (c.toNat - 0x30)) 0

def readFraction (t : Text) : Text × Text :=
  match t with
  | '.' :: rest =>
      let ds := rest.takeWhile isDigit
      if ds.isEmpty then ([], t) else (ds, rest.dropWhile isDigit)
  | _ => ([], t)

def readExponent (t : Text) : Option Int × Text :=
  match t with
  | e :: rest =>
      if e = 'e' ∨ e = 'E' then
        let (negative, rest) := match rest with
          | '-' :: rest => (true, rest)
          | '+' :: rest => (false, rest)
          | rest => (false, rest)
        let ds := rest.takeWhile isDigit
        if ds.isEmpty then (none, t)
        else
          let n : Int := digitsValue ds
          (some (if negative then -n else n), rest.dropWhile isDigit)
      else (none, t)
  | [] => (none, t)

def readWhole (t : Text) : Text × Text :=
  match t with
  | '0' :: rest => (['0'], rest)
  | _ => (t.takeWhile isDigit, t.dropWhile isDigit)

def readMagnitude (negative : Bool) (t : Text) :
    Except ReadError (Json × Text) :=
  let (whole, rest) := readWhole t
  if whole.isEmpty then .error .malformed
  else
    let (fraction, rest) := readFraction rest
    let (exponent, rest) := readExponent rest
    if fraction.isEmpty && exponent.isNone then
      if whole.length > Integer.maxDigits then .error (.tooLong whole.length)
      else
        let n : Int := digitsValue whole
        .ok (.int (if negative then -n else n), rest)
    else
      .ok (.float (Double.ofDecimal negative (digitsValue (whole ++ fraction))
        (exponent.getD 0 - fraction.length)), rest)

def readWord (word : Text) (value : Json) (t : Text) :
    Except ReadError (Json × Text) :=
  if word.isPrefixOf t then .ok (value, t.drop word.length) else
    .error .malformed

def readPlain (t : Text) : Except ReadError (Json × Text) :=
  match t with
  | 'n' :: _ => readWord "null".toList .null t
  | 't' :: _ => readWord "true".toList (.bool true) t
  | 'f' :: _ => readWord "false".toList (.bool false) t
  | 'N' :: _ => readWord "NaN".toList (.float .notANumber) t
  | 'I' :: _ => readWord "Infinity".toList (.float (.infinite false)) t
  | '-' :: 'I' :: _ => readWord "-Infinity".toList (.float (.infinite true)) t
  | '-' :: rest => readMagnitude true rest
  | _ => readMagnitude false t

mutual

/-- Reads a value in so many steps, with room for so many arrays and objects
inside one another. -/
def readValue : Nat → Nat → Text → Except ReadError (Json × Text)
  | 0, _, _ => .error .malformed
  | steps + 1, room, t =>
      match t with
      | '"' :: rest => do
          let (s, rest) ← readString rest
          return (.str s, rest)
      | '[' :: rest =>
          if room = 0 then .error .tooDeep
          else
            match skipGap rest with
            | ']' :: rest => .ok (.arr [], rest)
            | rest => do
                let (items, rest) ← readItems steps (room - 1) rest
                return (.arr items, rest)
      | '{' :: rest =>
          if room = 0 then .error .tooDeep
          else
            match skipGap rest with
            | '}' :: rest => .ok (.obj [], rest)
            | rest => do
                let (members, rest) ← readMembers steps (room - 1) [] rest
                return (.obj members, rest)
      | _ => readPlain t

def readItems : Nat → Nat → Text → Except ReadError (List Json × Text)
  | 0, _, _ => .error .malformed
  | steps + 1, room, t => do
      let (v, rest) ← readValue steps room t
      match skipGap rest with
      | ']' :: rest => return ([v], rest)
      | ',' :: rest => do
          let (vs, rest) ← readItems steps room (skipGap rest)
          return (v :: vs, rest)
      | _ => throw .malformed

/-- Reads the members of an object, beside those read before, and its closing
brace. -/
def readMembers : Nat → Nat → Members → Text → Except ReadError (Members × Text)
  | 0, _, _, _ => .error .malformed
  | steps + 1, room, before, t =>
      match t with
      | '"' :: rest => do
          let (k, rest) ← readString rest
          match skipGap rest with
          | ':' :: rest => do
              let (v, rest) ← readValue steps room (skipGap rest)
              let members := Members.set k v before
              match skipGap rest with
              | '}' :: rest => return (members, rest)
              | ',' :: rest => readMembers steps room members (skipGap rest)
              | _ => throw .malformed
          | _ => throw .malformed
      | _ => .error .malformed

end

/-- Enough steps for a text: each step but every second one takes a code
point. -/
def enoughSteps (t : Text) : Nat := 2 * t.length + 2

def read (room : Nat) (t : Text) : Except ReadError Json := do
  let (v, rest) ← readValue (enoughSteps t) room (skipGap t)
  if (skipGap rest).isEmpty then return v else throw .malformed

end Json
end InlineCompletion
