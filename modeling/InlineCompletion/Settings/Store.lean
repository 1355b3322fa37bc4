import InlineCompletion.Settings.Default
import InlineCompletion.Settings.Merge

/-!
# The settings store

The settings in force are the user's laid over those out of the box.  They can
be set one by one, and what is saved is all of them, to be laid over those out
of the box again.
-/

namespace InlineCompletion
namespace Settings

structure Store where
  current : Members

namespace Store

/-- The settings in force above given ones, when the user's file holds a value.
A value that does not count as true says nothing; any other has to be a
mapping. -/
def onTop (below : Members) (user : Value) : Except Fault Store :=
  match user.orEmpty with
  | .map members => .ok ⟨merge below members⟩
  | _ => .error .wrongShape

def ofUser (user : Value) : Except Fault Store := onTop defaults user

def get? (s : Store) (key : Atom) : Option Value := s.current.get? key

def set (s : Store) (key : Atom) (value : Value) : Store :=
  ⟨s.current.set key value⟩

def saved (s : Store) : Except Fault Value :=
  let v := Value.map s.current
  if v.isShowable then .ok v else .error .tooLongToShow

end Store
end Settings
end InlineCompletion
