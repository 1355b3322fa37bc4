import InlineCompletion.Settings.Value
import InlineCompletion.Yaml.Timestamp
import InlineCompletion.Text.Lower

/-!
# Meanings of scalars

A tag says of what kind a value is.  A scalar without quotes gets its tag from
how it looks: nothing, a truth value in words, an integer in base two, eight,
ten, sixteen or sixty, a number with a point, a timestamp, a mark for merging or
for a default, and else a text.  What is tagged is then read, which may fail.
-/

namespace InlineCompletion
namespace Yaml

inductive Tag where
  | null
  | bool
  | int
  | float
  | timestamp
  | text
  | seq
  | map
  /-- The key under which other mappings are merged in. -/
  | merge
  /-- The key of a default. -/
  | default
  | other
  deriving DecidableEq, Repr

def Tag.usualStart : String := "tag:yaml.org,2002:"

def Tag.named : List (String × Tag) :=
  [ ("null", .null), ("bool", .bool), ("int", .int), ("float", .float),
    ("timestamp", .timestamp), ("str", .text), ("seq", .seq), ("map", .map),
    ("merge", .merge), ("value", .default) ]

def Tag.ofName (name : Text) : Tag :=
  let start := Tag.usualStart.toList
  if start.isPrefixOf name then
    (Tag.named.lookup (String.ofList (name.drop start.length))).getD .other
  else .other

namespace Scalar

def nullWords : List String := ["", "~", "null", "Null", "NULL"]

def trueWords : List String :=
  ["yes", "Yes", "YES", "true", "True", "TRUE", "on", "On", "ON"]

def falseWords : List String :=
  ["no", "No", "NO", "false", "False", "FALSE", "off", "Off", "OFF"]

def splitSign : Text → Bool × Text
  | '-' :: rest => (true, rest)
  | '+' :: rest => (false, rest)
  | t => (false, t)

def areDigits (base : Nat) (t : Text) : Bool :=
  !t.isEmpty && t.all fun c => c == '_' || (Hex.value? c).any (· < base)

def isFigure (t : Text) : Bool := t.head?.any isDigit && areDigits 10 t

def isSixtieth (t : Text) : Bool :=
  match t with
  | [a] => isDigit a
  | [a, b] => '0' ≤ a && a ≤ '5' && isDigit b
  | _ => false

def isInteger (t : Text) : Bool :=
  match (splitSign t).2 with
  | '0' :: 'b' :: rest => areDigits 2 rest
  | '0' :: 'x' :: rest => areDigits 16 rest
  | ['0'] => true
  | '0' :: rest => areDigits 8 rest
  | t =>
      match Text.splitOn ':' t with
      | whole :: parts => isFigure whole && parts.all isSixtieth
      | [] => false

def isExponent (t : Text) : Bool :=
  match t with
  | [] => true
  | e :: s :: rest =>
      (e == 'e' || e == 'E') && (s == '-' || s == '+') && !rest.isEmpty &&
        rest.all isDigit
  | _ => false

/-- Whether a text looks like a number with a point.  A number that starts with
its point has no sign, and one in base sixty has no exponent. -/
def isPointed (t : Text) : Bool :=
  let unsigned := (splitSign t).2
  let inFigure := fun c => isDigit c || c == '_'
  match unsigned.dropWhile (· != '.') with
  | '.' :: behind =>
      let before := unsigned.takeWhile (· != '.')
      let exponent := behind.dropWhile inFigure
      match Text.splitOn ':' before with
      | [[]] =>
          unsigned.length ==
          t.length && behind.head?.any isDigit && isExponent exponent
      | [whole] => isFigure whole && isExponent exponent
      | whole :: parts =>
          isFigure whole && parts.all isSixtieth && exponent.isEmpty
      | [] => false
  | _ => false

def isNumberWord (t : Text) : Bool :=
  [".inf", ".Inf", ".INF"].contains (String.ofList (splitSign t).2)
    || [".nan", ".NaN", ".NAN"].contains (String.ofList t)

def looks (t : Text) : Text :=
  if t.length > 1 && t.getLast? == some '\n' then t.dropLast else t

def tagOf (written : Text) : Tag :=
  let t := looks written
  let s := String.ofList t
  if (trueWords ++ falseWords).contains s then .bool
  else if isPointed t || isNumberWord t then .float
  else if isInteger t then .int
  else if s = "<<" then .merge
  else if nullWords.contains s then .null
  else if (Timestamp.read? true t).isSome then .timestamp
  else if s = "=" then .default
  else if ["!", "&", "*"].contains s then .other
  else .text

def digit? (c : Char) : Option Nat := Hex.value? c <|> digitValue? c

def markOf (base : Nat) : Char :=
  if base = 2 then 'b' else if base = 8 then 'o' else 'x'

def dropMark (base : Nat) : Text → Text
  | '0' :: c :: rest =>
      if c.toLower = markOf base then rest else '0' :: c :: rest
  | t => t

def valueIn (base : Nat) (t : Text) : Except Fault Int :=
  let (negative, body) := splitSign (t.trim Integer.isMargin)
  let ds := dropMark base body
  if ds.isEmpty || !(ds.all fun c => (digit? c).any (· < base)) then
    .error (.notAnInteger base t)
  else
    let n : Nat := ds.foldl (fun n c => base * n + (digit? c).getD 0) 0
    .ok (if negative then -(n : Int) else n)

def positional (base : Nat) (parts : List Int) : Int :=
  parts.foldl (fun n d => base * n + d) 0

def readInteger (t : Text) : Except Fault Int := do
  let (negative, t) := splitSign (t.filter (· != '_'))
  let n : Int ← match t with
    | ['0'] => pure 0
    | '0' :: 'b' :: rest => valueIn 2 rest
    | '0' :: 'x' :: rest => valueIn 16 rest
    | '0' :: _ => valueIn 8 t
    | [] => throw (.badSettings .figure)
    | t => (positional 60) <$> (Text.splitOn ':' t).mapM Fault.readInteger
  return if negative then -n else n

def decimal? (t : Text) : Option Double := do
  let whole := t.takeWhile isDigit
  let rest := t.drop whole.length
  let fraction := match rest with
    | '.' :: rest => rest.takeWhile isDigit
    | _ => []
  let rest :=
    if rest.head? = some '.' then rest.drop (fraction.length + 1) else rest
  let e? : Option Int := match rest with
    | [] => some 0
    | e :: rest =>
        let (negative, ds) := splitSign rest
        if (e == 'e' || e == 'E') && !ds.isEmpty && ds.all isDigit then
          let n : Int := Timestamp.valueOf ds
          some (if negative then -n else n)
        else none
  let e ← e?
  if (whole ++ fraction).isEmpty then none
  else some (Double.ofDecimal false (Timestamp.valueOf (whole ++ fraction))
    (e - fraction.length))

def plainDigit (c : Char) : Char :=
  match digitValue? c with
  | some d => Char.ofNat ('0'.toNat + d)
  | none => c

def readDecimal (t : Text) : Except Fault Double :=
  let (negative, body) := splitSign ((t.trim Integer.isMargin).map plainDigit)
  let word := String.ofList body
  let d? :=
    if word = "inf" || word = "infinity" then some (Double.infinite false)
    else if word = "nan" then some .notANumber
    else decimal? body
  match d? with
  | some d => .ok (if negative then d.negate else d)
  | none => .error (.notANumber t)

/-- The number in base sixty that parts say, the last first, each worth sixty
times the one before; every step is rounded, and the worth of a part may be
beyond all doubles. -/
def sixties (sum : Double) (worth : Nat) : List Double → Except Fault Double
  | [] => .ok sum
  | d :: rest =>
      match Double.ofInt worth with
      | .infinite _ => .error .beyondDoubles
      | w => sixties (sum.plus (d.times w)) (60 * worth) rest

def readPointed (t : Text) : Except Fault Double := do
  let all := Text.lower (t.filter (· != '_'))
  if all.isEmpty then throw (.badSettings .figure)
  let (negative, t) := splitSign all
  let d ← if t = ".inf".toList then pure (Double.infinite false)
    else if t = ".nan".toList then pure .notANumber
    else match Text.splitOn ':' t with
      | [t] => readDecimal t
      | parts => do sixties (.zero false) 1 (← parts.mapM readDecimal).reverse
  return if negative then d.negate else d

def read (tag : Tag) (t : Text) : Except Fault Settings.Atom :=
  match tag with
  | .null => .ok .null
  | .bool =>
      let word := String.ofList (Text.lower t)
      if trueWords.contains word then .ok (.bool true)
      else if falseWords.contains word then .ok (.bool false)
      else .error (.badSettings .word)
  | .int => (readInteger t).map .int
  | .float => (readPointed t).map .float
  | .timestamp =>
      match Timestamp.read? false (looks t) with
      | none => .error (.badSettings .day)
      | some s =>
          match s.meaning with
          | .error m => .error (.badDate m)
          | .ok (.inl d) => .ok (.date d)
          | .ok (.inr m) => .ok (.moment m)
  | .text => .ok (.str (String.ofList t))
  | _ => .error (.badSettings .meaning)

end Scalar
end Yaml
end InlineCompletion
