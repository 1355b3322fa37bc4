import InlineCompletion.Fault
import InlineCompletion.Text.Hex

/-!
# Writing JSON

Members are written in their order, with a blank behind each colon and comma.
Strings are written in ASCII: what ASCII does not show is escaped by its UTF-16
units.  A value is not written if an integer in it has too many digits, or if
more arrays and objects stand inside one another than there is room for.
-/

namespace InlineCompletion
namespace Json

def escapeUnit (n : Nat) : Text :=
  '\\' :: 'u' :: Hex.digits 4 n

def escapeChar (c : Char) : Text :=
  if c = '"' then ['\\', '"']
  else if c = '\\' then ['\\', '\\']
  else if c = '\n' then ['\\', 'n']
  else if c = '\r' then ['\\', 'r']
  else if c = '\t' then ['\\', 't']
  else if c = '\x08' then ['\\', 'b']
  else if c = '\x0c' then ['\\', 'f']
  else if 0x20 ≤ c.toNat ∧ c.toNat < 0x7F then [c]
  else if c.toNat < 0x10000 then escapeUnit c.toNat
  else
    escapeUnit (0xD800 + (c.toNat - 0x10000) / 0x400)
      ++ escapeUnit (0xDC00 + (c.toNat - 0x10000) % 0x400)

def escapePoint : Point → Text
  | .char c => escapeChar c
  | .half n => escapeUnit (0xD800 + n)

def quote (s : Str) : Text :=
  '"' :: s.points.flatMap escapePoint ++ ['"']

def writeDouble (d : Double) : Text :=
  match d with
  | .notANumber => "NaN".toList
  | .infinite false => "Infinity".toList
  | .infinite true => "-Infinity".toList
  | d => d.text

mutual

/-- The text of a value, with room for so many arrays and objects inside one
another. -/
def write (room : Nat) : Json → Except Fault Text
  | .null => .ok "null".toList
  | .bool true => .ok "true".toList
  | .bool false => .ok "false".toList
  | .int n =>
      if Integer.isShowable n then .ok (Integer.text n) else
        .error .tooLongToShow
  | .float d => .ok (writeDouble d)
  | .str s => .ok (quote s)
  | .arr items =>
      if room = 0 then .error .tooDeep
      else do return '[' :: (← writeItems (room - 1) items) ++ [']']
  | .obj members =>
      if room = 0 then .error .tooDeep
      else do return '{' :: (← writeMembers (room - 1) members) ++ ['}']

def writeItems (room : Nat) : List Json → Except Fault Text
  | [] => .ok []
  | [v] => write room v
  | v :: rest => do
      return (← write room v) ++ ',' :: ' ' :: (← writeItems room rest)

def writeMembers (room : Nat) : List (Str × Json) → Except Fault Text
  | [] => .ok []
  | [(k, v)] => do return quote k ++ ':' :: ' ' :: (← write room v)
  | (k, v) :: rest => do
      return quote k ++ ':' :: ' ' ::
        ((← write room v) ++ ',' :: ' ' :: (← writeMembers room rest))

end

end Json
end InlineCompletion
