import InlineCompletion.Path.Basic
import InlineCompletion.Text.Lower

/-!
# Languages

A document's language is looked up by the extension of its name, in small
letters.
-/

namespace InlineCompletion
namespace Language

def plain : String := "plaintext"

def find? {α : Type} (path : Text) (map : List (Text × α)) : Option α :=
  match Path.extension (Path.basename path) with
  | [] => none
  | ext => map.lookup ext.lower

def ofPath (path : Text) (map : List (Text × String)) : String :=
  (find? path map).getD plain

end Language
end InlineCompletion
