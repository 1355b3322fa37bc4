import InlineCompletion.Document.Completions
import InlineCompletion.Document.Sync
import InlineCompletion.Document.Trigger
import InlineCompletion.Path.Uri
import InlineCompletion.Settings.Options

/-!
# Documents

A document joins the agent's copy of it, the completions asked for in it, and
the idle time behind its edits.  A desk is a document with its editor and its
surroundings; what happens to a document happens at its desk.
-/

namespace InlineCompletion

structure Document where
  uri : Text
  name : Text
  language : String
  /-- The number of its editor. -/
  editor : Nat
  sync : Sync
  completions : Completions
  trigger : Trigger
  /-- The text as the document last knew it, which the next edit is an edit
  of. -/
  snapshot : Text
  closed : Bool

namespace Document

def create (dir : Path.Directory) (uri : Text) (language : String)
    (editor : Nat) (options : Options) : Except Fault Document := do
  let path ← Uri.normalize dir uri
  return {
    uri := uri
    name := (path.map Path.basename).getD []
    language := language
    editor := editor
    sync := .fresh uri options.syncIdle
    completions := .empty
    trigger := .fresh options.triggerIdle options.automatic
    snapshot := []
    closed := false }

end Document

/-- A document with its number, its editor and its surroundings. -/
structure Desk (τ : Type) where
  number : Nat
  document : Document
  editor : Editor
  env : Env τ

namespace Desk

variable {τ : Type}

def stage (k : Desk τ) : Stage :=
  ⟨k.document.completions, k.editor, k.env.trace⟩

def withStage (s : Stage) (k : Desk τ) : Desk τ :=
  { k with
    document := { k.document with completions := s.completions }
    editor := s.editor
    env := { k.env with trace := s.trace } }

def onStage (f : Stage → Stage) (k : Desk τ) : Desk τ := k.withStage (f k.stage)

/-- Something happens to the completions in front of the editor, with a
result. -/
def runStage {α : Type} (f : Stage → α × Stage) (k : Desk τ) : α × Desk τ :=
  ((f k.stage).1, k.withStage (f k.stage).2)

def tell (n : Notice) (k : Desk τ) : Desk τ := { k with env := k.env.tell n }

def invalidate (k : Desk τ) : Desk τ :=
  { k with document :=
    { k.document with completions := k.document.completions.invalidate } }

def withSync (s : Sync) (env : Env τ) (k : Desk τ) : Desk τ :=
  { k with document := { k.document with sync := s }, env := env }

def recordEdit (e : Edit) (k : Desk τ) : Desk τ :=
  if k.document.closed then k
  else
    let old := k.document.snapshot
    let range : Range :=
      ⟨Position.ofOffset old e.start, Position.ofOffset old e.stop⟩
    let k := { k with document := { k.document with snapshot := e.apply old } }
    let k := (k.onStage Stage.dismiss).invalidate
    let (sync, env) := k.document.sync.record ⟨some range, e.inserted⟩ k.env
    let k := k.withSync sync env
    let (trigger, clock) := k.document.trigger.activity k.env.clock
    { k with
      document := { k.document with trigger := trigger }
      env := { k.env with clock := clock } }

section Linked

variable [Link τ]

def reopening (d : Document) (text : Text) : Sync.Reopening τ := fun s env =>
  if d.closed then (false, s, env)
  else
    match s.announce text d.language env with
    | (true, s, env) =>
        (true, s, env.tell (.opened d.name d.language s.version))
    | (false, s, env) => (false, s, env)

/-- Opens the document on the agent with the editor's text; the result is
whether that went well. -/
def openCopy (k : Desk τ) : Bool × Desk τ :=
  if k.document.closed then (false, k)
  else
    let (ok, sync, env) :=
      reopening k.document k.editor.text k.document.sync k.env
    let k := k.withSync sync env
    (ok, { k with document := { k.document with snapshot := k.editor.text } })

def mustReopen (k : Desk τ) : Bool :=
  !k.document.sync.opened && !k.document.closed && k.env.connected

def flush (k : Desk τ) : Bool × Desk τ :=
  let snapshot := if k.mustReopen then k.editor.text else k.document.snapshot
  let (ok, sync, env) :=
    k.document.sync.flush (some (reopening k.document k.editor.text)) k.env
  let k := k.withSync sync env
  (ok, { k with document := { k.document with snapshot := snapshot } })

/-- Closes the document: nothing is due any longer, nothing is shown, and the
agent drops its copy. -/
def close (k : Desk τ) : Desk τ :=
  let k :=
    { k with document :=
      { k.document with trigger := k.document.trigger.cancel } }
  let k := (k.onStage Stage.supersede).invalidate
  let (sync, env) := k.document.sync.close k.env
  let k := k.withSync sync env
  { k with document := { k.document with closed := true } }.tell
    (.closed k.document.name)

/-- An answer to a completion arrives.  It counts only if the completion is
live, the agent did not fail, and neither the text nor the caret moved on. -/
def receive (ticket : Nat) (message : Json) (k : Desk τ) : Desk τ :=
  match k.document.completions.get? ticket with
  | none => k
  | some x =>
      if k.document.completions.live ≠ some ticket then
        k.tell (.answerStale x.id)
      else
        match message with
        | .obj members =>
            if (Json.Members.get? "error" members).isSome then
              (k.tell (.answerFailed x.id message)).invalidate
            else if k.document.sync.version ≠ x.version ∨
              !k.document.sync.pending.isEmpty
                ∨ k.editor.cursor ≠ x.anchor then
              (k.tell .answerOutdated).invalidate
            else
              let (candidates, oddity) :=
                Candidate.ofResult
                  ((Json.Members.get? "result" members).getD .null)
              let k := match oddity with
                | some o => k.tell (.oddAnswer o)
                | none => k
              let update := fun (x : Completion) =>
                if candidates.isEmpty then { x with candidates := [] }
                else { x with candidates := candidates, index := 0 }
              let completions := k.document.completions.modify ticket update
              let k :=
                { k with document :=
                  { k.document with completions := completions } }
              if candidates.isEmpty then k.invalidate else
                k.onStage (Stage.display ticket)
        | _ => (k.tell (.answerFailed x.id message)).invalidate

/-- Whether a completion can be asked for: the agent can be reached and is up to
date. -/
def prepare (k : Desk τ) : Bool × Desk τ :=
  if !k.env.connected then (false, k.tell .requestOffline)
  else
    match k.flush with
    | (true, k) => (true, k)
    | (false, k) => (false, k.tell (.requestUnsynced k.document.uri))

def nextCompletion (kind : TriggerKind) (k : Desk τ) : Completion where
  version := k.document.sync.version
  position := Position.ofOffset k.editor.text k.editor.cursor
  anchor := k.editor.cursor
  kind := kind
  candidates := []
  index := 0
  id := none

/-- Asks for a completion; the result is its ticket, if the agent could be
asked.  It takes the place of what is shown and of what is live; on a one-way
link it stays live, as nobody says that it could not be asked for. -/
def ask (kind : TriggerKind) (k : Desk τ) :
    Except Fault (Option Nat) × Desk τ :=
  let x := k.nextCompletion kind
  let k := k.onStage Stage.supersede
  let ticket := k.document.completions.all.length
  let completions := { k.document.completions.add x with live := some ticket }
  let k := { k with document := { k.document with completions := completions } }
  match k.env.request (.completion k.document.uri x.position kind)
      (some (.completion k.number ticket)) with
  | (.error .oneWay, env) => (.error .wrongShape, { k with env := env })
  | (.error r, env) =>
      (.ok none,
        ({ k with env := env }.tell
          (.requestRefused k.document.uri r)).invalidate)
  | (.ok receipt, env) =>
      let k := { k with env := env }
      let k := match receipt.answer with
        | some message => k.receive ticket message
        | none => k
      let completions := k.document.completions.modify ticket
        fun x => { x with id := some receipt.id }
      (.ok (some ticket),
        { k with document := { k.document with completions := completions } })

def request (kind : TriggerKind) (k : Desk τ) :
    Except Fault (Option Nat) × Desk τ :=
  if k.document.closed then (.ok none, k)
  else
    match k.prepare with
    | (true, k) => k.ask kind
    | (false, k) => (.ok none, k)

/-- Asks for a completion for a reason given as a value, which is looked at
last. -/
def requestFor (reason : Json) (k : Desk τ) :
    Except Fault (Option Nat) × Desk τ :=
  if k.document.closed then (.ok none, k)
  else
    match k.prepare with
    | (false, k) => (.ok none, k)
    | (true, k) =>
        match TriggerKind.ofJson? reason with
        | none =>
            (.error (.unknownTrigger (Settings.Value.ofJson reason).shown), k)
        | some kind => k.ask kind

def trigger (k : Desk τ) : Except Fault (Option Nat) × Desk τ :=
  ({ k with document :=
    { k.document with trigger := k.document.trigger.cancel } } : Desk τ).request
    .invoked

end Linked
end Desk
end InlineCompletion
