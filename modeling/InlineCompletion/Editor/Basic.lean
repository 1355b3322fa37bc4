import InlineCompletion.Editor.Report
import InlineCompletion.Event

/-!
# Editors

An editor holds a text, a caret, and an annotation that is shown and is no part
of the text.  A plain editor keeps its caret as an offset in code points and
takes signed offsets as they come.  A text widget keeps two ends of a selection
in UTF-16 units, keeps offsets within its text, and derives its edits from the
changes it reports.  Whoever listens to an editor's edits is kept by number, in
the order of listening; a widget also knows the one document that its keys go
to.
-/

namespace InlineCompletion

inductive Caret where
  | free (offset : Int)
  /-- The two ends of a selection in UTF-16 units; the second one moves. -/
  | units (anchor position : Nat)
  deriving DecidableEq, Repr

structure Annotation where
  offset : Int
  text : Text
  deriving DecidableEq, Repr

structure Editor where
  text : Text
  caret : Caret
  ghost : Option Annotation
  /-- The path of the file that was loaded. -/
  path : Option Text
  /-- The document that keys go to. -/
  attached : Option Nat
  /-- The documents that hear of edits. -/
  listeners : List Nat
  deriving Repr

namespace Editor

def plain (text : Text) (cursor : Int) : Editor :=
  ⟨text, .free cursor, none, none, none, []⟩

def widget (text : Text) : Editor := ⟨text, .units 0 0, none, none, none, []⟩

def isWidget (e : Editor) : Bool :=
  match e.caret with
  | .free _ => false
  | .units .. => true

def cursor (e : Editor) : Int :=
  match e.caret with
  | .free offset => offset
  | .units _ position => Units.indexAt e.text position

def moveCursor (offset : Int) (e : Editor) : Editor × List Event :=
  match e.caret with
  | .free _ => ({ e with caret := .free offset }, [.cursorMoved offset])
  | .units .. =>
      let p := Units.before e.text offset
      ({ e with caret := .units p p }, [])

def select (anchor position : Int) (e : Editor) : Editor :=
  match e.caret with
  | .free _ => e
  | .units .. => { e with caret := .units anchor.toNat position.toNat }

def showGhost (offset : Int) (text : Text) (e : Editor) : Editor × List Event :=
  ({ e with ghost := some ⟨offset, text⟩ },
    if e.isWidget then [.repainted] else [.ghostShown offset text])

def hideGhost (e : Editor) : Editor × List Event :=
  ({ e with ghost := none },
    if e.isWidget then (if e.ghost.isSome then [.repainted] else []) else
      [.ghostHidden])

def shift (start stop added p : Nat) : Nat :=
  if p < start then p else
    (if p < stop then start else p - (stop - start)) + added

/-- Replaces what stands between two places of a widget, in units, and reports
it.  Nothing in place of nothing is no edit. -/
def replaceUnits (start stop : Nat) (inserted : Text) (e : Editor) :
    Option Edit × Editor :=
  match e.caret with
  | .free _ => (none, e)
  | .units a p =>
      if start = stop ∧ inserted = [] then (none, e)
      else
        let new := e.text.take (Units.indexAt e.text start) ++ inserted
          ++ e.text.drop (Units.indexAt e.text stop)
        let move := shift start stop (Units.length inserted)
        (editOfReport e.text new start ((stop : Int) - start),
          { e with text := new, caret := .units (move a) (move p) })

/-- Makes an edit; the result is the edit that listeners hear of, if they hear
of one. -/
def replace (edit : Edit) (e : Editor) : Option Edit × Editor :=
  match e.caret with
  | .free offset =>
      let moved := if offset ≥ edit.stop then
          offset + ((edit.inserted.length : Int) - (edit.stop - edit.start))
        else offset
      (some edit, { e with text := edit.apply e.text, caret := .free moved })
  | .units .. =>
      let a := Units.before e.text edit.start
      let b := Units.before e.text edit.stop
      e.replaceUnits (min a b) (max a b) edit.inserted

def replaceSelection (inserted : Text) (e : Editor) : Option Edit × Editor :=
  match e.caret with
  | .free _ => (none, e)
  | .units a p => e.replaceUnits (min a p) (max a p) inserted

/-- A widget's text becomes another, and the widget reports a change, rightly or
not.  Its caret stays within the text. -/
def become (new : Text) (position removed : Int) (e : Editor) :
    Option Edit × Editor :=
  match e.caret with
  | .free _ => (none, e)
  | .units a p =>
      let most := Units.length new
      (editOfReport e.text new position removed,
        { e with text := new, caret := .units (min a most) (min p most) })

/-- A widget takes a whole text, its caret at the start; listeners do not hear
of it. -/
def setText (new : Text) (e : Editor) : Editor :=
  { e with text := new, caret := .units 0 0 }

def hears (i : Nat) (e : Editor) : Bool := e.listeners.contains i

def connect (i : Nat) (e : Editor) : Editor :=
  { e with listeners := e.listeners ++ [i] }

def disconnect (i : Nat) (e : Editor) : Editor :=
  { e with listeners := e.listeners.erase i }

def attach (i : Option Nat) (e : Editor) : Editor :=
  if e.isWidget then { e with attached := i } else e

@[simp] theorem showGhost_ghost (offset : Int) (text : Text) (e : Editor) :
    (e.showGhost offset text).1.ghost = some ⟨offset, text⟩ := rfl

@[simp] theorem showGhost_text (offset : Int) (text : Text) (e : Editor) :
    (e.showGhost offset text).1.text = e.text := rfl

@[simp] theorem hideGhost_ghost (e : Editor) : e.hideGhost.1.ghost = none := rfl

@[simp] theorem hideGhost_text (e : Editor) : e.hideGhost.1.text = e.text := rfl

@[simp] theorem moveCursor_text (offset : Int) (e : Editor) :
    (e.moveCursor offset).1.text = e.text := by
  unfold moveCursor
  split <;> rfl

end Editor
end InlineCompletion
