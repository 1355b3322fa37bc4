import InlineCompletion.Calendar
import InlineCompletion.Text.Digit

/-!
# Timestamps

A date is four, two and two digits.  With a time of day behind a letter or
blanks, or where a timestamp is asked for, month, day and hour may be single
digits; parts of a second and an offset may follow.  What looks like a timestamp
and names no day or time is at fault.
-/

namespace InlineCompletion
namespace Yaml

structure Clockwork where
  hour : Nat
  minute : Nat
  second : Nat
  fraction : Text
  offset : Option Int
  deriving DecidableEq, Repr

structure Timestamp where
  date : Date
  time : Option Clockwork
  deriving DecidableEq, Repr

namespace Timestamp

def valueOf (digits : Text) : Nat :=
  digits.foldl (fun n c => 10 * n + (c.toNat - 0x30)) 0

def figure (least most : Nat) (t : Text) : Option (Nat × Text) :=
  let ds := (t.takeWhile isDigit).take most
  if ds.length < least then none else some (valueOf ds, t.drop ds.length)

def mark (c : Char) : Text → Option Text
  | x :: rest => if x = c then some rest else none
  | [] => none

def offset? (t : Text) : Option (Option Int) :=
  match t, t.dropWhile (fun c => c == ' ' || c == '\t') with
  | [], _ => some none
  | _, ['Z'] => some (some 0)
  | _, s :: rest =>
      if s ≠ '+' ∧ s ≠ '-' then none
      else do
        let (hours, rest) ← figure 1 2 rest
        let (minutes, rest) ← match rest with
          | ':' :: rest => figure 2 2 rest
          | rest => some (0, rest)
        let n : Int := 60 * hours + minutes
        if rest.isEmpty then some (some (if s = '-' then -n else n)) else none
  | _, [] => none

def time? (t : Text) : Option Clockwork := do
  let (hour, rest) ← figure 1 2 t
  let (minute, rest) ← figure 2 2 (← mark ':' rest)
  let (second, rest) ← figure 2 2 (← mark ':' rest)
  let (fraction, rest) := match rest with
    | '.' :: rest => (rest.takeWhile isDigit, rest.dropWhile isDigit)
    | rest => ([], rest)
  return ⟨hour, minute, second, fraction, ← offset? rest⟩

def behindDate? (t : Text) : Option Text :=
  match t with
  | 'T' :: rest | 't' :: rest => some rest
  | c :: rest =>
      if c = ' ' ∨ c = '\t' then
        some (rest.dropWhile fun c => c == ' ' || c == '\t') else none
  | [] => none

def read? (strict : Bool) (t : Text) : Option Timestamp := do
  let (year, rest) ← figure 4 4 t
  let (month, rest') ← figure 1 2 (← mark '-' rest)
  let (day, rest'') ← figure 1 2 (← mark '-' rest')
  if rest''.isEmpty then
    if t.length = 10 || !strict then some ⟨⟨year, month, day⟩, none⟩ else none
  else return ⟨⟨year, month, day⟩, some (← time? (← behindDate? rest''))⟩

def microseconds (fraction : Text) : Nat :=
  let ds := fraction.take 6
  valueOf ds * Nat.pow 10 (6 - ds.length)

def meaning (t : Timestamp) : Except Date.Mistake (Date ⊕ Moment) :=
  match t.time with
  | none =>
      match t.date.mistake? with
      | some m => .error m
      | none => .ok (.inl t.date)
  | some c =>
      let m : Moment :=
        ⟨t.date, c.hour, c.minute, c.second, microseconds c.fraction, c.offset⟩
      match m.mistake? with
      | some m => .error m
      | none => .ok (.inr m)

end Timestamp
end Yaml
end InlineCompletion
