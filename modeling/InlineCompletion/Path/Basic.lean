import InlineCompletion.Fault
import InlineCompletion.Text.Blank

/-!
# Paths

A path names a place by components between slashes.  An absolute path begins
with one slash, or with exactly two.  Making a path absolute starts it at the
working directory and resolves the components that stand for "here" and "one
up".  The last component, and the extension in it, are read off a path whichever
slash it was written with.
-/

namespace InlineCompletion
namespace Path

/-- A working directory: paths start at it that do not start at the root. -/
structure Directory where
  path : Text
  rooted : path.head? = some '/'

def Directory.root : Directory := ⟨['/'], rfl⟩

def ofJson : Json → Except Fault (Option Text)
  | .null => .ok none
  | .str s => .ok (some s.shown.toList)
  | _ => .error .wrongKind

def isSlash (c : Char) : Bool := c == '/' || c == '\\'

def lastPart (t : Text) : Text :=
  (t.reverse.takeWhile fun c => !isSlash c).reverse

/-- The last component of a path; slashes at its end do not count. -/
def basename (path : Text) : Text := lastPart (path.trimEnd isSlash)

def root (path : Text) : Text :=
  match path.takeWhile (· == '/') with
  | [] => []
  | ['/', '/'] => ['/', '/']
  | _ => ['/']

def resolveStep (resolved : List Text) (component : Text) : List Text :=
  if component = [] ∨ component = ['.'] then resolved
  else if component = ['.', '.'] then resolved.tail
  else component :: resolved

def components (path : Text) : List Text :=
  ((Text.splitOn '/' path).foldl resolveStep []).reverse

def resolve (path : Text) : Text :=
  root path ++ Text.join ['/'] (components path)

def anchored (dir : Directory) (path : Text) : Text :=
  if path.head? = some '/' then path
  else if dir.path.getLast? = some '/' then dir.path ++ path
  else dir.path ++ '/' :: path

def absolute (dir : Directory) (path : Text) : Text :=
  resolve (anchored dir path)

/-- A path without what adds nothing to it: empty components and those that
stand for "here". -/
def tidy (path : Text) : Text :=
  let parts := (Text.splitOn '/' path).filter fun p => !p.isEmpty && p != ['.']
  match root path ++ Text.join ['/'] parts with
  | [] => ['.']
  | t => t

def parent (dir : Directory) (path : Text) : Text :=
  '/' :: Text.join ['/'] (components (anchored dir path)).dropLast

/-- The extension of a name, with its point: it starts at the last point, if
anything but points stands before that. -/
def extension (name : Text) : Text :=
  let tail := (name.reverse.takeWhile (· != '.')).reverse
  if tail.length = name.length then []
  else if (name.take (name.length - tail.length - 1)).all (· == '.') then []
  else '.' :: tail

theorem basename_eq (path : Text) :
    basename path = lastPart (path.trimEnd isSlash) := rfl

end Path
end InlineCompletion
