import InlineCompletion.Path.Basic
import InlineCompletion.Text.Utf8

/-!
# Files

The files that the program sees, by their paths from the working directory or
from the root, and what a path names among them.  A path is followed one
component after the other: every directory on the way has to be there, also one
that is left again.  Of what lies above the working directory nothing is known
but that it is there.
-/

namespace InlineCompletion

/-- Files by their paths. -/
abbrev Files := List (Text × List UInt8)

namespace Files

structure Directory where
  rooted : Bool
  up : Nat
  names : List Text
  deriving DecidableEq, Repr

inductive Entry where
  | directory (d : Directory)
  | file (content : List UInt8)
  deriving DecidableEq, Repr

def isRooted (path : Text) : Bool := path.head? == some '/'

def steps (path : Text) : List Text :=
  (Text.splitOn '/' path).filter fun p => !p.isEmpty && p != ['.']

def Directory.parent (d : Directory) : Directory :=
  if d.names.isEmpty then { d with up := if d.rooted then 0 else d.up + 1 }
  else { d with names := d.names.dropLast }

def maxName : Nat := 255

def maxPath : Nat := 4095

def lookUp (files : Files) (d : Directory) (name : Text) : Except Fault Entry :=
  let names := d.names ++ [name]
  let near :=
    files.filter fun f => isRooted f.1 ==
    d.rooted && names.isPrefixOf (steps f.1)
  if (Utf8.encode name).length > maxName then .error .nameTooLong
  else if d.up > 0 then .error .missingFile
  else
    match near.find? fun f => steps f.1 == names, near with
    | some f, _ => .ok (.file f.2)
    | none, _ :: _ => .ok (.directory { d with names := names })
    | none, [] => .error .missingFile

def step (files : Files) (e : Entry) (name : Text) : Except Fault Entry :=
  match e with
  | .file _ => .error .notDirectory
  | .directory d =>
      if name = ['.', '.'] then .ok (.directory d.parent) else
        lookUp files d name

def follow (files : Files) (path : Text) : Except Fault Entry :=
  if path.contains '\x00' then .error .nullInPath
  else if (Utf8.encode path).length > maxPath then .error .nameTooLong
  else (steps path).foldlM (step files) (.directory ⟨isRooted path, 0, []⟩)

def read (files : Files) (path : Text) : Except Fault (List UInt8) := do
  match ← follow files path with
  | .file content => return content
  | .directory _ => throw .directory

/-- What a path names, if it names anything.  Only a path that cannot be asked
about is at fault. -/
def found (files : Files) (path : Text) : Except Fault (Option Entry) :=
  match follow files path with
  | .ok e => .ok (some e)
  | .error .nameTooLong => .error .nameTooLong
  | .error _ => .ok none

def has (files : Files) (path : Text) : Except Fault Bool :=
  (found files path).map (·.isSome)

def content? (files : Files) (path : Text) :
    Except Fault (Option (List UInt8)) :=
  (found files path).map fun
    | some (.file content) => some content
    | _ => none

end Files
end InlineCompletion
