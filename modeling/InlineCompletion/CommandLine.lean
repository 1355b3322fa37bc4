import InlineCompletion.Fault
import InlineCompletion.Text.Digit

/-!
# The command line

The command line names at most one path.  Options are help and nothing else, and
help may be cut short; two dashes end the options.  An argument that looks like
a negative number, that is a single dash, or that holds a blank and is no
option, is a path.
-/

namespace InlineCompletion
namespace CommandLine

inductive Kind where
  | path
  | help
  /-- Help with something attached to it. -/
  | badHelp
  | unknown
  deriving DecidableEq, Repr

def isNumber (t : Text) : Bool :=
  let t := if t.getLast? = some '\n' then t.dropLast else t
  let isFigure := fun c => (digitValue? c).isSome
  let rest := t.dropWhile isFigure
  match rest with
  | [] => !t.isEmpty
  | '.' :: more => !more.isEmpty && more.all isFigure
  | _ => false

/-- What stands behind the short option: it may come again, also behind one
equals sign, and nothing else may. -/
def shortRest : Text → Kind
  | '=' :: again =>
      if !again.isEmpty && again.all (· == 'h') then .help else .badHelp
  | again => if again.all (· == 'h') then .help else .badHelp

def kindOf (t : Text) : Kind :=
  match t with
  | '-' :: '-' :: rest =>
      let name := rest.takeWhile (· != '=')
      if name.isPrefixOf "help".toList && !name.isEmpty then
        if rest.length = name.length then .help else .badHelp
      else if name.isEmpty && rest.head? == some '=' then .badHelp
      else if t.contains ' ' then .path
      else .unknown
  | '-' :: 'h' :: rest => shortRest rest
  | '-' :: [] => .path
  | '-' :: rest => if isNumber rest || t.contains ' ' then .path else .unknown
  | _ => .path

def split : List Text → List Text × List Kind
  | [] => ([], [])
  | ['-', '-'] :: rest => (rest, [])
  | t :: rest =>
      let (paths, options) := split rest
      match kindOf t with
      | .path => (t :: paths, options)
      | k => (paths, k :: options)

def usage : String := "usage: tabbyqt [-h] [path]\n"

def help : String :=
  usage ++ "\nEditor with inline completions from a Tabby agent\n"
    ++ "\npositional arguments:\n  path        File to open\n"
    ++ "\noptions:\n  -h, --help  show this help message and exit\n"

/-- The path that a command line names.  Help ends with success; anything too
much is a mistake. -/
def path (arguments : List Text) : Except Fault (Option Text) :=
  let (paths, options) := split arguments
  match options.find? fun k => k == .help || k == .badHelp with
  | some .help => .error (.ended 0)
  | some _ => .error (.ended 2)
  | none =>
      if !options.isEmpty then .error (.ended 2)
      else
        match paths with
        | [] => .ok none
        | [p] => .ok (some p)
        | _ => .error (.ended 2)

end CommandLine
end InlineCompletion
