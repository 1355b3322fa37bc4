import InlineCompletion.Editor.Basic
import InlineCompletion.Path.Files
import InlineCompletion.Settings.Options
import InlineCompletion.Text.Blank
import InlineCompletion.Text.Utf8

/-!
# Setting up a widget

A widget takes its font from a section of the settings of its own, and its text
from a file if there is one where its path points.
-/

namespace InlineCompletion
namespace Editor

def fontOf (settings : Settings.Value) : Except Fault Event := do
  let options ← Options.sectionOf "editor" settings
  return .font
    ((options.named "font_family").getD (.str "Monospace"))
    ((options.named "font_size").getD (.int 11))

/-- Takes the bytes of a file: they are a text, and every kind of line end
becomes one.  How much was loaded is told. -/
def load (path : Text) (bytes : List UInt8) (e : Editor) :
    Except Fault (Editor × Notice) :=
  match Utf8.decode? bytes with
  | none => .error .notText
  | some t =>
      let t := t.unifyLineEnds
      .ok ({ e.setText t with path := some path }, .loaded path t.length)

/-- A widget with its font; where it has a path, the file there is loaded if
there is one. -/
def setUp (files : Files) (settings : Settings.Value) (path : Option Text) :
    Except Fault (Editor × List Event) := do
  let font ← fontOf settings
  match path.map Path.tidy with
  | none => return (widget [], [font])
  | some path =>
      if ← files.has path then
        let (e, notice) ← (widget []).load path (← files.read path)
        return (e, [font, .notice notice])
      else return ({ widget [] with path := some path }, [font])

end Editor
end InlineCompletion
