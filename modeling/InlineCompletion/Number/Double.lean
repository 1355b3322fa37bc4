import InlineCompletion.Number.Integer

/-!
# Double-precision numbers

A double-precision number is a sign, a mantissa of at most 53 bits and a power
of two, or an infinity, or no number at all.  Reading a decimal takes the
nearest such number, an exact tie going to the even mantissa.  Writing takes the
fewest decimal digits that read back, and of those with that many digits the
nearest.  Everything is computed on natural numbers.
-/

namespace InlineCompletion

/-- A double-precision number: `finite negative m q` is `m * 2 ^ q` with its
sign. -/
inductive Double where
  | finite (negative : Bool) (mantissa : Nat) (exponent : Int)
  | infinite (negative : Bool)
  | notANumber
  deriving DecidableEq, Repr

namespace Double

def minExponent : Int := -1074

def maxExponent : Int := 971

def zero (negative : Bool) : Double := .finite negative 0 minExponent

def divNearest (num den : Nat) : Nat :=
  let q := num / den
  let r := num % den
  if 2 * r < den then q
  else if 2 * r > den then q + 1
  else if q % 2 = 0 then q else q + 1

def scale (base num den : Nat) (exponent : Int) : Nat × Nat :=
  if exponent < 0 then (num, den * Nat.pow base exponent.natAbs)
  else (num * Nat.pow base exponent.toNat, den)

def ofFraction (negative : Bool) (num den : Nat) : Double :=
  let k : Int := (Nat.log2 num : Int) - Nat.log2 den
  let unit := scale 2 num den (-k)
  let q := max minExponent (if unit.1 ≥ unit.2 then k - 52 else k - 53)
  let scaled := scale 2 num den (-q)
  let m := divNearest scaled.1 scaled.2
  let (m, q) := if m = Nat.pow 2 53 then (Nat.pow 2 52, q + 1) else (m, q)
  if q > maxExponent then .infinite negative else .finite negative m q

def ofDecimal (negative : Bool) (digits : Nat) (exponent : Int) : Double :=
  let size : Int := (Integer.digits digits).length + exponent
  if digits = 0 ∨ size < -330 then zero negative
  else if size > 330 then .infinite negative
  else
    let fraction := scale 10 digits 1 exponent
    ofFraction negative fraction.1 fraction.2

def ofInt (n : Int) : Double := ofDecimal (n < 0) n.natAbs 0

def ofScaled (m : Int) (q : Int) : Double :=
  if m = 0 then zero false
  else
    let f := scale 2 m.natAbs 1 q
    ofFraction (m < 0) f.1 f.2

def negate : Double → Double
  | .finite negative m q => .finite (!negative) m q
  | .infinite negative => .infinite (!negative)
  | .notANumber => .notANumber

def signed (negative : Bool) (m : Nat) : Int :=
  if negative then -(m : Int) else m

/-- The sum of two numbers, rounded.  A sum of zero has no sign, and opposite
infinities have no sum. -/
def plus : Double → Double → Double
  | .finite s m q, .finite s' m' q' =>
      let low := min q q'
      let part :=
        fun (s : Bool) (m : Nat) (q : Int) =>
          signed s (m * Nat.pow 2 (q - low).toNat)
      ofScaled (part s m q + part s' m' q') low
  | .infinite s, .infinite s' => if s = s' then .infinite s else .notANumber
  | .notANumber, _ | _, .notANumber => .notANumber
  | .infinite s, _ | _, .infinite s => .infinite s

def times : Double → Double → Double
  | .finite s m q, .finite s' m' q' =>
      if m = 0 ∨ m' = 0 then zero (s != s') else
        ofScaled (signed (s != s') (m * m')) (q + q')
  | .infinite s, .finite s' m _ | .finite s m _, .infinite s' =>
      if m = 0 then .notANumber else .infinite (s != s')
  | .infinite s, .infinite s' => .infinite (s != s')
  | _, _ => .notANumber

def truncate? : Double → Option Int
  | .finite negative m q =>
      let n : Nat :=
        if q < 0 then m / Nat.pow 2 q.natAbs else m * Nat.pow 2 q.toNat
      some (if negative then -(n : Int) else n)
  | _ => none

def toInt? (d : Double) : Option Int :=
  match d with
  | .finite _ m q =>
      if q < 0 ∧ m % Nat.pow 2 q.natAbs ≠ 0 then none else d.truncate?
  | _ => none

def isZero : Double → Bool
  | .finite _ m _ => m == 0
  | _ => false

/-- Four times the number and the ends of the interval that rounds to it, over
one denominator, and whether the ends belong to it. -/
structure Interval where
  low : Nat
  value : Nat
  high : Nat
  den : Nat
  closed : Bool

def interval (m : Nat) (q : Int) : Interval :=
  let below := if m = Nat.pow 2 52 ∧ q > minExponent then 1 else 2
  let f := scale 2 1 4 q
  { low := (4 * m - below) * f.1, value := 4 * m * f.1, high := (4 * m + 2) *
    f.1, den := f.2,
    closed := m % 2 == 0 }

def Interval.holds (i : Interval) (n : Nat) (e : Int) : Bool :=
  let f := scale 10 n 1 e
  let x := f.1 * i.den
  if i.closed then i.low * f.2 ≤ x && x ≤ i.high * f.2 else
    i.low * f.2 < x && x < i.high * f.2

def Interval.distance (i : Interval) (n : Nat) (e : Int) : Nat :=
  let f := scale 10 n 1 e
  let x : Int := (f.1 * i.den : Nat) - (i.value * f.2 : Nat)
  x.natAbs

def Interval.magnitude (i : Interval) : Int :=
  let guess : Int :=
    (Integer.digits i.value).length - (Integer.digits i.den).length
  let f := scale 10 1 1 guess
  if f.1 * i.den ≤ i.value * f.2 then guess else guess - 1

/-- The nearest point of the grid `10 ^ e` within the interval, if there is
one. -/
def Interval.onGrid (i : Interval) (e : Int) : Option Nat :=
  let f := scale 10 i.value i.den (-e)
  let n := f.1 / f.2
  match i.holds n e, i.holds (n + 1) e with
  | true, true =>
      let d := i.distance n e
      let d' := i.distance (n + 1) e
      some (if d < d' then n else if d' < d then n + 1 else if n % 2 = 0 then
        n else n + 1)
  | true, false => some n
  | false, true => some (n + 1)
  | false, false => none

/-- The first grid with a point in the interval, from the coarser to the finer,
at most so many. -/
def Interval.shortestFrom (i : Interval) (e : Int) : Nat → Nat × Int
  | 0 => ((i.onGrid e).getD 0, e)
  | steps + 1 =>
      match i.onGrid e with
      | some n => (n, e)
      | none => i.shortestFrom (e - 1) steps

def dropZeros : Text → Text
  | t => t.reverse.dropWhile (· == '0') |>.reverse

def shortest (m : Nat) (q : Int) : Text × Int :=
  let i := interval m q
  let (n, e) := i.shortestFrom i.magnitude 17
  let all := Integer.digits n
  (dropZeros all, all.length + e)

/-- How numbers are written out: the exponent is shown where the point lies more
than `places` digits in, or more than three zeros behind it, and it has two
digits at least. -/
def places : Int := 16

def zeros (n : Int) : Text := List.replicate n.toNat '0'

def layout (digits : Text) (point : Int) : Text :=
  if -4 < point ∧ point ≤ places then
    if point ≤ 0 then ['0', '.'] ++ zeros (-point) ++ digits
    else if (digits.length : Int) ≤ point then
      digits ++ zeros (point - digits.length) ++ ['.', '0']
    else digits.take point.toNat ++ '.' :: digits.drop point.toNat
  else
    let e := point - 1
    let mark := Integer.digits e.natAbs
    (match digits with
      | [] => []
      | [d] => [d]
      | d :: rest => d :: '.' :: rest)
      ++ ['e', if e < 0 then '-' else '+'] ++
        (if mark.length < 2 then '0' :: mark else mark)

def text : Double → Text
  | .notANumber => ['n', 'a', 'n']
  | .infinite negative => (if negative then ['-'] else []) ++ ['i', 'n', 'f']
  | .finite negative m q =>
      (if negative then ['-'] else []) ++
        if m = 0 then ['0', '.', '0']
        else
          let (digits, point) := shortest m q
          layout digits point

end Double
end InlineCompletion
