import InlineCompletion.Document.Basic
import InlineCompletion.Path.Language

/-!
# The workspace

A workspace holds editors and the documents in them.  Documents are numbered in
the order in which they were opened and keep their numbers when they are closed;
those that are open are registered under their addresses, in the order of
opening.  All share one link to the agent and one clock.  What happens to a
document happens at its desk, and an edit of an editor is told to all documents
that listen to it.
-/

namespace InlineCompletion

/-- Editors, documents, and their surroundings. -/
structure Workspace (τ : Type) where
  env : Env τ
  directory : Path.Directory
  editors : List Editor
  documents : List Document
  /-- The open documents: their addresses and numbers. -/
  registry : List (Text × Nat)
  options : Options
  /-- Whether the agent's signals are seen from outside before the workspace
  acts on them. -/
  watchedFirst : Bool

namespace Workspace

variable {τ : Type}

def create (env : Env τ) (dir : Path.Directory) (editors : List Editor)
    (options : Options) :
    Workspace τ :=
  ⟨env, dir, editors, [], [], options, true⟩

/-! ## Desks -/

def desk? (i : Nat) (w : Workspace τ) : Option (Desk τ) :=
  match w.documents[i]? with
  | none => none
  | some d => (w.editors[d.editor]?).map fun e => ⟨i, d, e, w.env⟩

def withDesk (k : Desk τ) (w : Workspace τ) : Workspace τ :=
  { w with
    env := k.env
    documents := w.documents.set k.number k.document
    editors := w.editors.set k.document.editor k.editor }

def atDesk (i : Nat) (f : Desk τ → Desk τ) (w : Workspace τ) : Workspace τ :=
  match w.desk? i with
  | none => w
  | some k => w.withDesk (f k)

def run {α : Type} (i : Nat) (f : Desk τ → α × Desk τ) (w : Workspace τ) :
    Option α × Workspace τ :=
  match w.desk? i with
  | none => (none, w)
  | some k => (some (f k).1, w.withDesk (f k).2)

def emit (e : Event) (w : Workspace τ) : Workspace τ :=
  { w with env := w.env.emit e }

def tell (n : Notice) (w : Workspace τ) : Workspace τ :=
  { w with env := w.env.tell n }

/-! ## Editors -/

def onEditor (j : Nat) (f : Editor → Editor × List Event) (w : Workspace τ) :
    Workspace τ :=
  match w.editors[j]? with
  | none => w
  | some e =>
      { w with editors := w.editors.set j (f e).1, env := w.env.emits (f e).2 }

def tellEdit (edit : Edit) (listeners : List Nat) (w : Workspace τ) :
    Workspace τ :=
  listeners.foldl (fun w i => w.atDesk i (Desk.recordEdit edit)) w

/-- An editor is edited: those who listen hear of it, if there is anything to
hear. -/
def editWith (j : Nat) (f : Editor → Option Edit × Editor) (w : Workspace τ) :
    Workspace τ :=
  match w.editors[j]? with
  | none => w
  | some e =>
      let w := { w with editors := w.editors.set j (f e).2 }
      match (f e).1 with
      | none => w
      | some edit => (w.emit (.edited edit)).tellEdit edit e.listeners

def replace (j : Nat) (edit : Edit) (w : Workspace τ) : Workspace τ :=
  w.editWith j (Editor.replace edit)

def type (j : Nat) (text : Text) (w : Workspace τ) : Workspace τ :=
  match w.editors[j]? with
  | none => w
  | some e => w.replace j ⟨e.cursor, e.cursor, text⟩

def moveCursor (j : Nat) (offset : Int) (w : Workspace τ) : Workspace τ :=
  w.onEditor j (Editor.moveCursor offset)

def detach (i : Nat) (w : Workspace τ) : Except Fault Unit × Workspace τ :=
  match w.desk? i with
  | none => (.ok (), w)
  | some k =>
      if k.editor.hears i then
        (.ok (), w.onEditor k.document.editor fun e => (e.disconnect i, []))
      else (.error .notListening, w)

/-! ## Completions of a document -/

/-- Accepts what is shown: the edit is made, and the caret comes to stand behind
it.  The result is whether anything was shown. -/
def accept (i : Nat) (w : Workspace τ) : Except Fault Bool × Workspace τ :=
  match w.run i (Desk.runStage Stage.accept) with
  | (some (.error f), w) => (.error f, w)
  | (some (.ok (some edit)), w) =>
      match w.documents[i]? with
      | none => (.ok false, w)
      | some d =>
          let w := w.replace d.editor edit
          (.ok true, w.moveCursor d.editor (edit.start + edit.inserted.length))
  | (some (.ok none), w) => (.ok false, w)
  | (none, w) => (.ok false, w)

def cancel (i : Nat) (w : Workspace τ) : Bool × Workspace τ :=
  match w.run i (Desk.runStage Stage.cancel) with
  | (r, w) => (r.getD false, w)

/-- Shows another candidate, so many places on; the result is whether there is
another. -/
def cycle (i : Nat) (places : Int) (w : Workspace τ) : Bool × Workspace τ :=
  match w.run i (Desk.runStage (Stage.cycle places)) with
  | (r, w) => (r.getD false, w)

def supersede (i : Nat) (w : Workspace τ) : Workspace τ :=
  w.atDesk i (Desk.onStage Stage.supersede)

section Linked

variable [Link τ]

def openCopy (i : Nat) (w : Workspace τ) : Bool × Workspace τ :=
  match w.run i Desk.openCopy with
  | (r, w) => (r.getD false, w)

def flush (i : Nat) (w : Workspace τ) : Bool × Workspace τ :=
  match w.run i Desk.flush with
  | (r, w) => (r.getD false, w)

def trigger (i : Nat) (w : Workspace τ) :
    Except Fault (Option Nat) × Workspace τ :=
  match w.run i Desk.trigger with
  | (some r, w) => (r, w)
  | (none, w) => (.ok none, w)

def requestFor (i : Nat) (reason : Json) (w : Workspace τ) :
    Except Fault (Option Nat) × Workspace τ :=
  match w.run i (Desk.requestFor reason) with
  | (some r, w) => (r, w)
  | (none, w) => (.ok none, w)

/-- What waited for an answer receives it.  A probe shows it, and then fails if
it is to. -/
def answer (waiting : Waiting) (message : Json) (w : Workspace τ) :
    Except Fault Unit × Workspace τ :=
  match waiting with
  | .completion i ticket => (.ok (), w.atDesk i (Desk.receive ticket message))
  | .probe label fault =>
      (match fault with
        | some f => .error f
        | none => .ok (),
        w.emit (.answered label message))
  | .handshake => (.ok (), w)

/-! ## Documents -/

def registered? (uri : Text) (w : Workspace τ) : Option Nat :=
  w.registry.lookup uri

def document? (path : Option Text) (w : Workspace τ) :
    Except Fault (Option Nat) :=
  match path with
  | none => .ok none
  | some p => (Uri.ofPath w.directory p).map fun uri =>
      uri.bind (w.registered? ·)

/-- Closes the document registered under an address, if there is one: its editor
no longer reports to it, and keys of the editor go to no document. -/
def closeUri (uri : Text) (w : Workspace τ) : Workspace τ :=
  match w.registered? uri with
  | none => w
  | some i =>
      let w := { w with registry := w.registry.filter fun r => r.1 != uri }
      match w.desk? i with
      | none => w
      | some k =>
          let w :=
            if k.editor.hears i then w else
              w.tell (.alreadyDetached k.document.name)
          let w :=
            w.onEditor k.document.editor fun e =>
            ((e.disconnect i).attach none, [])
          let w := w.atDesk i Desk.close
          { w with env := w.env.signal (.documentClosed uri) }

def close (path : Option Text) (w : Workspace τ) :
    Except Fault Unit × Workspace τ :=
  match path with
  | none => (.ok (), w)
  | some p =>
      match Uri.ofPath w.directory p with
      | .error f => (.error f, w)
      | .ok none => (.ok (), w)
      | .ok (some uri) => (.ok (), w.closeUri uri)

/-- Adds a document: its editor reports to it, and keys of the editor go to
it. -/
def add (d : Document) (w : Workspace τ) : Nat × Workspace τ :=
  let i := w.documents.length
  let w := { w with documents := w.documents ++ [d] }
  (i, w.onEditor d.editor fun e => ((e.connect i).attach (some i), []))

/-- Opens a document for an editor and a path, in place of the one registered
for the path; the result is its number.  A document that the agent cannot be
told of yet is opened there later. -/
def openDocument (j : Nat) (path : Option Text) (w : Workspace τ) :
    Except Fault (Option Nat) × Workspace τ :=
  match path with
  | none => (.ok none, w)
  | some p =>
      match Uri.ofPath w.directory p with
      | .error f => (.error f, w)
      | .ok none => (.ok none, w)
      | .ok (some uri) =>
          let w := w.closeUri uri
          match Document.create w.directory uri
            (Language.ofPath p w.options.languages) j
              w.options with
          | .error f => (.error f, w)
          | .ok d =>
              let (i, w) := w.add d
              let w := { w with registry := w.registry ++ [(uri, i)] }
              let (ok, w) := w.openCopy i
              let w := if ok then w else w.tell (.openDeferred d.name)
              (.ok (some i),
                { w with env := w.env.signal (.documentOpened uri) })

def openAll (w : Workspace τ) : Workspace τ :=
  (w.registry.map (·.2)).foldl (fun w i => (w.openCopy i).2) w

def closeAll (w : Workspace τ) : Workspace τ :=
  (w.registry.map (·.2)).foldl
    (fun w i =>
      match w.documents[i]? with
      | some d => (w.close (some d.uri)).2
      | none => w)
    w

/-! ## Time -/

inductive Bell where
  | flush (i : Nat)
  | trigger (i : Nat)
  deriving DecidableEq, Repr

def alarmsOf (i : Nat) (d : Document) : List (Bell × Alarm) :=
  (d.sync.timer.alarm.map fun a => (Bell.flush i, a)).toList
    ++ (d.trigger.timer.alarm.map fun a => (Bell.trigger i, a)).toList

def alarms (w : Workspace τ) : List (Bell × Alarm) :=
  (w.documents.mapIdx alarmsOf).flatten

/-- An alarm goes off: the agent is brought up to date, or a completion is asked
for.  A fault of what an alarm does is told of. -/
def ring (bell : Bell) (a : Alarm) (w : Workspace τ) : Workspace τ :=
  let w :=
    { w with env := { w.env with clock := { w.env.clock with now := a.due } } }
  match bell with
  | .flush i =>
      let w := w.atDesk i fun k =>
        { k with document :=
          { k.document with sync := k.document.sync.unschedule } }
      ((w.emit (.fired a.due)).flush i).2
  | .trigger i =>
      let w := w.atDesk i fun k =>
        { k with document :=
          { k.document with trigger := k.document.trigger.cancel } }
      match (w.emit (.fired a.due)).run i (Desk.request .automatic) with
      | (some (.error f), w) => w.tell (.timerFailed f)
      | (_, w) => w

/-- Time goes on.  An alarm that goes off sets no others, so that at most those
that are set now go off. -/
def advance (milliseconds : Int) (w : Workspace τ) : Workspace τ :=
  let time := w.env.clock.now + milliseconds
  let w := Alarm.ring alarms ring time w.alarms.length w
  { w with env := { w.env with clock := { w.env.clock with now := time } } }

end Linked
end Workspace
end InlineCompletion
