import InlineCompletion.Editor.Basic
import InlineCompletion.Text.Blank

/-!
# Painting the annotation

The annotation is painted behind the place where it belongs: its first line
where that place is, and every further line at the left margin, one line below
the other.
-/

namespace InlineCompletion
namespace Editor

structure Measures where
  margin : Int
  advance : Int
  lineHeight : Int
  ascent : Int

def measures : Measures := ⟨4, 7, 14, 9⟩

/-- The strokes of lines one below the other: the first at a place of its own,
the others at the margin. -/
def strokes (m : Measures) (x y : Int) : List Text → List Stroke
  | [] => []
  | t :: rest => .line x y t :: strokes m m.margin (y + m.lineHeight) rest

def paint (e : Editor) : List Stroke :=
  match e.ghost with
  | none => []
  | some g =>
      if g.text = [] then []
      else
        let p := Position.ofOffset e.text g.offset
        let x := measures.margin + measures.advance * p.character
        let y :=
          measures.margin + measures.lineHeight * p.line + measures.ascent
        [.start, .pen 150 150 150 160] ++
          strokes measures x y (Text.splitOn '\n' g.text) ++ [.stop]

end Editor
end InlineCompletion
