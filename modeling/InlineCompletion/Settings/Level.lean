import InlineCompletion.Settings.Options

/-!
# Levels of messages

Messages have levels, which are numbers with names.  A level is set by number or
by name; in the settings capitals and small letters are the same, and what is no
level leaves a default.
-/

namespace InlineCompletion
namespace Level

open Settings

def named : List (String × Int) :=
  [ ("CRITICAL", 50), ("FATAL", 50), ("ERROR", 40), ("WARN", 30),
    ("WARNING", 30), ("INFO", 20), ("DEBUG", 10), ("NOTSET", 0) ]

def ofName? (name : Text) : Option Int := named.lookup (String.ofList name)

/-- A capital, as far as it matters for the names of levels: beyond ASCII only
the dotless i and the long s have capitals among the letters of ASCII that stand
alone. -/
def capital (c : Char) : Char :=
  if c = '\u0131' then 'I' else if c = '\u017F' then 'S' else c.toUpper

def ofSettings (settings : Value) (default : Value) : Except Fault Value := do
  let logging ← Options.sectionOf "logging" settings
  match (logging.named "level").getD default with
  | .int n => return .int n
  | .bool b => return .bool b
  | v =>
      match ofName? ((← v.toText).map capital) with
      | some n => return .int n
      | none => return default

def check : Value → Except Fault Value
  | .int n => .ok (.int n)
  | .bool b => .ok (.bool b)
  | .str s =>
      match ofName? s.toList with
      | some n => .ok (.int n)
      | none => .error (.unknownLevel s.toList)
  | _ => .error .wrongKind

inductive Handler where
  | console
  | file
  | other
  deriving DecidableEq, Repr

/-- The places where messages go, once the program's own are set up: they are
added only where there are none. -/
def install (handlers : List Handler) : List Handler :=
  if handlers.isEmpty then [.console, .file] else handlers

end Level
end InlineCompletion
