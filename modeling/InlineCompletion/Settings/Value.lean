import InlineCompletion.Calendar
import InlineCompletion.Fault

/-!
# Setting values

Settings hold atoms, sequences and mappings.  The keys of a mapping are atoms,
and two keys are one key when they are equal as numbers, as instants, or
otherwise: truth values count as the numbers zero and one.  A mapping keeps its
keys in order, each as it was first written.  The main statements say how
setting a member acts on the member that is looked up.
-/

namespace InlineCompletion
namespace Settings

inductive Atom where
  | null
  | bool (b : Bool)
  | int (n : Int)
  | float (d : Double)
  | str (s : String)
  | date (d : Date)
  | moment (m : Moment)
  deriving DecidableEq, Repr

/-- A value of a setting. -/
inductive Value where
  | atom (a : Atom)
  | seq (items : List Value)
  | map (members : List (Atom × Value))
  deriving Repr

namespace Atom

/-- What makes two atoms one key: the instant that an atom means, or else the
atom, a number as an integer where it is one. -/
def identity : Atom → Atom ⊕ Int
  | .bool b => .inl (.int (if b then 1 else 0))
  | .float d =>
      match d.toInt? with
      | some n => .inl (.int n)
      | none => .inl (.float d)
  | .moment m =>
      match m.instant? with
      | some n => .inr n
      | none => .inl (.moment m)
  | a => .inl a

def same (a b : Atom) : Bool := decide (a.identity = b.identity)

@[simp] theorem same_self (a : Atom) : same a a = true := by
  simp [same]

theorem same_left {a b : Atom} (h : same a b = true) (c : Atom) :
    same a c = same b c := by
  simp only [same, decide_eq_true_eq] at h ⊢
  rw [h]

/-- Whether an atom counts as true: all but nothing, false, zero, and the empty
text. -/
def truthy : Atom → Bool
  | .null => false
  | .bool b => b
  | .int n => n != 0
  | .float d => !d.isZero
  | .str s => s != ""
  | .date _ | .moment _ => true

def shown : Atom → Text
  | .null => "None".toList
  | .bool true => "True".toList
  | .bool false => "False".toList
  | .int n => Integer.text n
  | .float d => d.text
  | .str s => Text.quoted s.toList
  | .date d => d.shown
  | .moment m => m.shown

def text : Atom → Text
  | .str s => s.toList
  | .date d => d.text
  | .moment m => m.text
  | a => a.shown

def isShowable : Atom → Bool
  | .int n => Integer.isShowable n
  | _ => true

def toText (a : Atom) : Except Fault Text :=
  if a.isShowable then .ok a.text else .error .tooLongToShow

/-- The integer that an atom stands for: a number is cut towards zero, a text is
read. -/
def toInteger : Atom → Except Fault Int
  | .int n => .ok n
  | .bool b => .ok (if b then 1 else 0)
  | .float d => d.cut
  | .str s => Fault.readInteger s.toList
  | _ => .error .wrongKind

def toJson : Atom → Json
  | .null => .null
  | .bool b => .bool b
  | .int n => .int n
  | .float d => .float d
  | .str s => .str s
  | a => Json.ofText a.text

end Atom

abbrev Members := List (Atom × Value)

namespace Members

def get? (key : Atom) : Members → Option Value
  | [] => none
  | (k, v) :: rest => if k.same key then some v else get? key rest

/-- Sets the value under a key: the key keeps its place and how it is written,
or comes last. -/
def set (key : Atom) (value : Value) : Members → Members
  | [] => [(key, value)]
  | (k, v) :: rest =>
      if k.same key then (k, value) :: rest else (k, v) :: set key value rest

def named (key : String) (ms : Members) : Option Value := get? (.str key) ms

theorem get?_set_same {key other : Atom} (h : key.same other = true)
    (value : Value) (ms : Members) :
    get? other (set key value ms) = some value := by
  induction ms with
  | nil => simp [set, get?, h]
  | cons m rest ih =>
      obtain ⟨k, v⟩ := m
      unfold set
      split
      · next hk => simp [get?, Atom.same_left hk, h]
      · next hk =>
          have : k.same other = false := by
            rw [← Bool.not_eq_true]
            intro ho
            apply hk
            simp only [Atom.same, decide_eq_true_eq] at h ho ⊢
            rw [ho, h]
          simp [get?, this, ih]

theorem get?_set_other {key other : Atom} (h : key.same other = false)
    (value : Value) (ms : Members) :
    get? other (set key value ms) = get? other ms := by
  induction ms with
  | nil => simp [set, get?, h]
  | cons m rest ih =>
      obtain ⟨k, v⟩ := m
      unfold set
      split
      · next hk => simp [get?, Atom.same_left hk, h]
      · simp [get?, ih]

end Members

namespace Value

@[match_pattern] abbrev null : Value := .atom .null

@[match_pattern] abbrev bool (b : Bool) : Value := .atom (.bool b)

@[match_pattern] abbrev int (n : Int) : Value := .atom (.int n)

@[match_pattern] abbrev str (s : String) : Value := .atom (.str s)

def asKey : Value → Except Fault Atom
  | .atom a => .ok a
  | _ => .error .wrongKind

def truthy : Value → Bool
  | .atom a => a.truthy
  | .seq items => !items.isEmpty
  | .map members => !members.isEmpty

/-- The value, or an empty mapping in place of a value that does not count as
true. -/
def orEmpty (v : Value) : Value := if v.truthy then v else .map []

mutual

def shown : Value → Text
  | .atom a => a.shown
  | .seq items => '[' :: Text.join [',', ' '] (shownItems items) ++ [']']
  | .map members =>
      '\x7b' :: Text.join [',', ' '] (shownMembers members) ++ ['\x7d']

def shownItems : List Value → List Text
  | [] => []
  | v :: rest => shown v :: shownItems rest

def shownMembers : List (Atom × Value) → List Text
  | [] => []
  | (k, v) :: rest => (k.shown ++ ':' :: ' ' :: shown v) :: shownMembers rest

end

def text : Value → Text
  | .atom a => a.text
  | v => v.shown

mutual

def isShowable : Value → Bool
  | .atom a => a.isShowable
  | .seq items => areShowable items
  | .map members => membersShowable members

def areShowable : List Value → Bool
  | [] => true
  | v :: rest => isShowable v && areShowable rest

def membersShowable : List (Atom × Value) → Bool
  | [] => true
  | (k, v) :: rest => k.isShowable && isShowable v && membersShowable rest

end

def toText (v : Value) : Except Fault Text :=
  if v.isShowable then .ok v.text else .error .tooLongToShow

def toStr (v : Value) : Except Fault String := v.toText.map String.ofList

def toInteger : Value → Except Fault Int
  | .atom a => a.toInteger
  | _ => .error .wrongKind

mutual

def ofJson : Json → Value
  | .null => .null
  | .bool b => .bool b
  | .int n => .int n
  | .float d => .atom (.float d)
  | .str s => .str s.shown
  | .arr items => .seq (ofItems items)
  | .obj members => .map (ofMembers members)

def ofItems : List Json → List Value
  | [] => []
  | v :: rest => ofJson v :: ofItems rest

def ofMembers : List (Str × Json) → List (Atom × Value)
  | [] => []
  | (k, v) :: rest => (.str k.shown, ofJson v) :: ofMembers rest

end

mutual

/-- A setting as JSON: keys are given by their texts, and of two with one text
the later counts. -/
def toJson : Value → Json
  | .atom a => a.toJson
  | .seq items => .arr (toItems items)
  | .map members => .obj (toMembers [] members)

def toItems : List Value → List Json
  | [] => []
  | v :: rest => toJson v :: toItems rest

def toMembers (before : Json.Members) : List (Atom × Value) → Json.Members
  | [] => before
  | (k, v) :: rest =>
      toMembers (Json.Members.set (String.ofList k.text) (toJson v) before) rest

end

end Value
end Settings
end InlineCompletion
