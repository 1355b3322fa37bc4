import InlineCompletion.Agent.Message
import InlineCompletion.Editor.Basic
import InlineCompletion.Fault

/-!
# Completions and ghost text

Every completion that is asked for gets a ticket, its place in the list of all
of them.  At most one ticket is live, which is the one whose answer still
counts, and at most one is shown.  What is shown is the completion's current
candidate, as an annotation of the editor; the text is not touched.  A shown
completion ends accepted, canceled, or superseded, and is then no longer live
either.
-/

namespace InlineCompletion

/-- A completion that was asked for, with what held at that time. -/
structure Completion where
  version : Nat
  position : Position
  anchor : Int
  kind : TriggerKind
  candidates : List Candidate
  index : Int
  id : Option Int
  deriving DecidableEq, Repr

def Completion.current (c : Completion) : Option Candidate :=
  c.candidates[(c.index % c.candidates.length).toNat]?

/-- All completions that were asked for, and the tickets that are live and
shown. -/
structure Completions where
  all : List Completion
  live : Option Nat
  shown : Option Nat
  deriving DecidableEq, Repr

namespace Completions

def empty : Completions := ⟨[], none, none⟩

def get? (ticket : Nat) (c : Completions) : Option Completion := c.all[ticket]?

def modify (ticket : Nat) (f : Completion → Completion) (c : Completions) :
    Completions :=
  { c with all := c.all.modify ticket f }

def add (x : Completion) (c : Completions) : Completions :=
  { c with all := c.all ++ [x] }

def liveOne? (c : Completions) : Option Completion := c.live.bind (c.get? ·)

def shownOne? (c : Completions) : Option Completion := c.shown.bind (c.get? ·)

def invalidate (c : Completions) : Completions := { c with live := none }

def release (ticket : Nat) (c : Completions) : Completions :=
  if c.live = some ticket then c.invalidate else c

/-- What of a candidate is shown behind an anchor: if the candidate begins with
what stands between the start of its range and the anchor, only the rest. -/
def shownPart (text : Text) (anchor : Int) (c : Candidate) : Text :=
  match c.range with
  | none => c.text
  | some r =>
      let start := Position.toOffset text r.start
      let typed :=
        if (start : Int) < anchor then Slice.between text start anchor else []
      if !typed.isEmpty && typed.isPrefixOf c.text then
        c.text.drop typed.length else c.text

/-- What is shown of a completion in a text; a completion without candidates is
at fault. -/
def visiblePart (text : Text) (c : Completion) : Except Fault Text :=
  match c.current with
  | some x => .ok (shownPart text c.anchor x)
  | none => .error .wrongShape

def visible (text : Text) (c : Completions) : Except Fault Text :=
  match c.shownOne? with
  | some x => visiblePart text x
  | none => .ok []

/-- The edit that a candidate asks for: it takes the place of its range, or is
inserted at the anchor. -/
def editOf (text : Text) (anchor : Int) (c : Candidate) : Edit :=
  match c.range with
  | none => ⟨anchor, anchor, c.text⟩
  | some r =>
      let start := Position.toOffset text r.start
      ⟨start, max start (Position.toOffset text r.stop), c.text⟩

end Completions

/-- Completions in front of their editor, and what is seen of both. -/
structure Stage where
  completions : Completions
  editor : Editor
  trace : List Event

namespace Stage

def emits (s : Stage) (es : List Event) : Stage :=
  { s with trace := s.trace ++ es }

def isDisplayed (s : Stage) : Bool := s.completions.shown.isSome

def hide (s : Stage) : Stage :=
  let (editor, es) := s.editor.hideGhost
  { s with editor := editor }.emits es

def finish (outcome : Outcome) (s : Stage) : Stage :=
  match s.completions.shown with
  | none => s
  | some ticket =>
      let s := s.hide
      let completions := { s.completions with shown := none }.release ticket
      { s with completions := completions }.emits
        [ .notice (.ghost outcome),
          .resolved ((s.completions.get? ticket).bind (·.id)) outcome ]

def render (x : Completion) (s : Stage) : Stage :=
  let s := s.hide
  let text := (Completions.visiblePart s.editor.text x).toOption.getD []
  let (editor, es) := s.editor.showGhost x.anchor text
  { s with editor := editor }.emits es

/-- Shows a completion in place of the one shown before, unless it has no
candidates. -/
def display (ticket : Nat) (s : Stage) : Stage :=
  let s := s.finish .superseded
  match s.completions.get? ticket with
  | some x =>
      if x.current.isNone then s
      else
        let completions := { s.completions with shown := some ticket }
        ({ s with completions := completions } : Stage).render x
  | none => s

def supersede (s : Stage) : Stage := s.finish .superseded

/-- What is shown is dismissed by an edit, and the caret stays where the edit
left it. -/
def dismiss (s : Stage) : Stage := s.finish .canceled

def moveCursor (offset : Int) (s : Stage) : Stage :=
  let (editor, es) := s.editor.moveCursor offset
  { s with editor := editor }.emits es

def cancel (s : Stage) : Bool × Stage :=
  match s.completions.shownOne? with
  | some x => (true, (s.finish .canceled).moveCursor x.anchor)
  | none => (false, s)

def cycle (places : Int) (s : Stage) : Bool × Stage :=
  match s.completions.shown, s.completions.shownOne? with
  | some ticket, some x =>
      if x.candidates.length < 2 then (false, s)
      else
        let x := { x with index := (x.index + places) % x.candidates.length }
        (true, ({ s with completions :=
          s.completions.modify ticket fun _ => x } : Stage).render x)
  | _, _ => (false, s)

/-- What is shown is accepted; the result is the edit to be made, if anything
was shown. -/
def accept (s : Stage) : Except Fault (Option Edit) × Stage :=
  match s.completions.shownOne? with
  | none => (.ok none, s)
  | some x =>
      let s := s.finish .accepted
      match x.current with
      | some c => (.ok (some (Completions.editOf s.editor.text x.anchor c)), s)
      | none => (.error .wrongShape, s)

end Stage
end InlineCompletion
