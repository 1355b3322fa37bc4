import InlineCompletion.Workspace.Basic
import InlineCompletion.Editor.Painting
import InlineCompletion.Editor.Setup

/-!
# Keys, files and painting

A widget's keys go to the document attached to it first: one asks for a
completion, and while one is shown, others accept it, refuse it, or show another
candidate.  Every other key is an ordinary key, and its text takes the place of
the selection.
-/

namespace InlineCompletion

inductive Key where
  | tab
  | escape
  | space
  | bracketLeft
  | bracketRight
  | other
  deriving DecidableEq, Repr

inductive Modifier where
  | none
  | shift
  | control
  | alt
  deriving DecidableEq, Repr

inductive KeyAction where
  | trigger
  | accept
  | cancel
  | cycle (places : Int)
  deriving DecidableEq, Repr

/-- What a key means to a document, and whether only while a completion is
shown. -/
def KeyAction.of? (displayed : Bool) (key : Key) (modifier : Modifier) :
    Option KeyAction :=
  if modifier = .control ∧ key = .space then some .trigger
  else if !displayed then none
  else if key = .tab then some .accept
  else if key = .escape then some .cancel
  else if modifier = .alt ∧ key = .bracketRight then some (.cycle 1)
  else if modifier = .alt ∧ key = .bracketLeft then some (.cycle (-1))
  else none

namespace Workspace

variable {τ : Type}

/-- A key that means nothing special: its text takes the place of the
selection. -/
def ordinaryKey (j : Nat) (text : Text) (w : Workspace τ) : Workspace τ :=
  let w := w.emit .ordinaryKey
  if text.isEmpty then w else w.editWith j (Editor.replaceSelection text)

def loadFile (j : Nat) (path : Text) (content : Except Fault (List UInt8))
    (w : Workspace τ) :
    Except Fault Unit × Workspace τ :=
  match content, w.editors[j]? with
  | .error f, _ => (.error f, w)
  | .ok _, none => (.ok (), w)
  | .ok bytes, some e =>
      match e.load path bytes with
      | .error f => (.error f, w)
      | .ok (e, notice) =>
          let window := w.env.window.map fun v => { v with path := some path }
          (.ok (),
            { w with
              editors := w.editors.set j e
              env := { w.env with window := window }.tell notice })

def paint (j : Nat) (w : Workspace τ) : Workspace τ :=
  w.onEditor j fun e => (e, e.paint.map Event.painted)

section Linked

variable [Link τ]

/-- A key goes to the document attached to a widget, and is an ordinary key if
it means nothing to it. -/
def key (j : Nat) (key : Key) (modifier : Modifier) (text : Text)
    (w : Workspace τ) :
    Except Fault Unit × Workspace τ :=
  let attached := (w.editors[j]?).bind (·.attached)
  let desk := attached.bind (w.desk? ·)
  match attached,
    desk.bind fun k => KeyAction.of? k.stage.isDisplayed key modifier with
  | some i, some .trigger =>
      match w.trigger i with
      | (.error f, w) => (.error f, w)
      | (.ok _, w) => (.ok (), w)
  | some i, some .accept =>
      match w.accept i with
      | (.error f, w) => (.error f, w)
      | (.ok true, w) => (.ok (), w)
      | (.ok false, w) => (.ok (), w.ordinaryKey j text)
  | some i, some .cancel =>
      match w.cancel i with
      | (true, w) => (.ok (), w)
      | (false, w) => (.ok (), w.ordinaryKey j text)
  | some i, some (.cycle places) => (.ok (), (w.cycle i places).2)
  | _, _ => (.ok (), w.ordinaryKey j text)

end Linked
end Workspace
end InlineCompletion
