import InlineCompletion.Text.Blank
import InlineCompletion.Text.Digit

/-!
# Reading integers

An integer is written as an optional sign and digits of any script, with single
low lines allowed between digits and blanks allowed around the whole.  Texts
with more digits than a set number are refused for their length, before anything
behind the digits is looked at.
-/

namespace InlineCompletion
namespace Integer

inductive ReadError where
  | malformed
  | tooLong (digits : Nat)
  deriving DecidableEq, Repr

def maxDigits : Nat := 4300

/-- The blanks allowed around an integer: the information separators are none of
them. -/
def isMargin (c : Char) : Bool :=
  isBlank c && !(0x1C ≤ c.toNat && c.toNat ≤ 0x1F)

def wellSpaced : Text → Bool
  | [] => false
  | [c] => c != '_'
  | c :: d :: rest => !(c == '_' && d == '_') && wellSpaced (d :: rest)

def valueOf (digits : Text) : Nat :=
  digits.foldl
    (fun n c => match digitValue? c with | some d => 10 * n + d | none => n) 0

def readNat (t : Text) : Except ReadError Nat :=
  let digits := t.takeWhile fun c => (digitValue? c).isSome || c == '_'
  let count := (digits.filter (· != '_')).length
  if digits.head? == some '_' || !wellSpaced digits then .error .malformed
  else if count > maxDigits then .error (.tooLong count)
  else if (t.drop digits.length).all isMargin then .ok (valueOf digits)
  else .error .malformed

def read (t : Text) : Except ReadError Int :=
  match t.dropWhile isMargin with
  | '-' :: rest => (readNat rest).map fun n => -(n : Int)
  | '+' :: rest => (readNat rest).map fun n => (n : Int)
  | rest => (readNat rest).map fun n => (n : Int)

def digits (n : Nat) : Text := Nat.toDigits 10 n

def text : Int → Text
  | .ofNat n => digits n
  | .negSucc n => '-' :: digits (n + 1)

def isShowable (n : Int) : Bool := n.natAbs < Nat.pow 10 maxDigits

end Integer
end InlineCompletion
