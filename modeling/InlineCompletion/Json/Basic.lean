import InlineCompletion.Number.Double

/-!
# JSON values

A JSON value keeps what its text says: integers apart from numbers with a
point or an exponent, the members of an object in their order, and in a string
also halves of surrogate pairs that stand alone.  The main statements say how
setting a member acts on the member that is looked up.
-/

namespace InlineCompletion

/-- What stands at one place of a string: a code point, or half of a surrogate
pair, counted from the first. -/
inductive Point where
  | char (c : Char)
  | half (n : Fin 0x800)
  deriving DecidableEq, Repr

/-- A string is a text, or goes on behind a text with half of a surrogate
pair. -/
inductive Str where
  | text (s : String)
  | broken (before : String) (half : Fin 0x800) (after : List Point)
  deriving DecidableEq, Repr, Inhabited

namespace Str

instance : Coe String Str := ⟨.text⟩

/-- Whether no half of a surrogate pair stands alone in a string. -/
def isText : Str → Bool
  | .text _ => true
  | .broken .. => false

def points : Str → List Point
  | .text s => s.toList.map .char
  | .broken before half after => before.toList.map .char ++ .half half :: after

def ofPointsFrom (before : Text) : List Point → Str
  | [] => .text (String.ofList before.reverse)
  | .char c :: rest => ofPointsFrom (c :: before) rest
  | .half n :: rest => .broken (String.ofList before.reverse) n rest

def ofPoints (ps : List Point) : Str := ofPointsFrom [] ps

def shown : Str → String
  | .text s => s
  | s => String.ofList (s.points.map fun
      | .char c => c
      | .half _ => '\uFFFD')

end Str

inductive Json where
  | null
  | bool (b : Bool)
  | int (n : Int)
  | float (d : Double)
  | str (s : Str)
  | arr (items : List Json)
  | obj (members : List (Str × Json))
  deriving Repr, Inhabited

namespace Json

abbrev Members := List (Str × Json)

namespace Members

def get? (key : Str) : Members → Option Json
  | [] => none
  | (k, v) :: rest => if k = key then some v else get? key rest

def set (key : Str) (value : Json) : Members → Members
  | [] => [(key, value)]
  | (k, v) :: rest =>
      if k = key then (key, value) :: rest else (k, v) :: set key value rest

theorem get?_set_self (key : Str) (value : Json) (ms : Members) :
    get? key (set key value ms) = some value := by
  induction ms with
  | nil => simp [set, get?]
  | cons m rest ih =>
      obtain ⟨k, v⟩ := m
      unfold set
      split
      · simp [get?]
      · next h => simp [get?, h, ih]

theorem get?_set_of_ne {key other : Str} (h : other ≠ key) (value : Json)
    (ms : Members) :
    get? other (set key value ms) = get? other ms := by
  induction ms with
  | nil => simp [set, get?, Ne.symm h]
  | cons m rest ih =>
      obtain ⟨k, v⟩ := m
      unfold set
      split
      · next hk => subst hk; simp [get?, Ne.symm h]
      · simp [get?, ih]

end Members

def get? (key : Str) : Json → Option Json
  | .obj members => Members.get? key members
  | _ => none

/-- Whether a value counts as true: all but null, false, zero, and what is
empty. -/
def truthy : Json → Bool
  | .null => false
  | .bool b => b
  | .int n => n != 0
  | .float d => !d.isZero
  | .str s => s != ""
  | .arr items => !items.isEmpty
  | .obj members => !members.isEmpty

/-- The value, or an empty object in place of a value that does not count as
true. -/
def orEmpty (v : Json) : Json := if v.truthy then v else .obj []

def asInt? : Json → Option Int
  | .int n => some n
  | .bool b => some (if b then 1 else 0)
  | _ => none

def numeral? : Json → Option Int
  | .float d => d.toInt?
  | v => v.asInt?

def asStr? : Json → Option Str
  | .str s => some s
  | _ => none

def asArr? : Json → Option (List Json)
  | .arr items => some items
  | _ => none

def kind : Json → String
  | .null => "NoneType"
  | .bool _ => "bool"
  | .int _ => "int"
  | .float _ => "float"
  | .str _ => "str"
  | .arr _ => "list"
  | .obj _ => "dict"

def ofText (t : Text) : Json := .str (.text (String.ofList t))

end Json
end InlineCompletion
