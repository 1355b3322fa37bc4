import InlineCompletion.Proofs.Document.Outcome
import InlineCompletion.Proofs.Editor.Report
import InlineCompletion.Workspace.Basic

/-!
# Runs of a document

A run starts with a document that was just added to a workspace for the only
editor, and goes on with whatever can happen to the document, its editor, its
link and its alarms, in any order.  The main statement is that all of it happens
at the document's desk: what an action does to the workspace is what it does to
the desk.
-/

namespace InlineCompletion

inductive Action (τ : Type) where
  | edit (g : Editing)
  | moveCursor (offset : Int)
  | select (anchor position : Int)
  | openCopy
  | close
  | flush
  | trigger
  | request (reason : Json)
  | accept
  | cancel
  | cycle (places : Int)
  | supersede
  /-- What waits for an answer receives one, and the link takes note of it. -/
  | answer (ticket : Nat) (message : Json) (note : τ → τ)
  | flushAlarm (a : Alarm)
  | triggerAlarm (a : Alarm)
  | elapse (milliseconds : Int)
  /-- Something happens to the link. -/
  | disturb (f : τ → τ)

namespace Workspace

variable {τ : Type}

def relinked (f : τ → τ) (w : Workspace τ) : Workspace τ :=
  { w with env := { w.env with link := f w.env.link } }

/-- An action takes place in a workspace whose first document and editor it is
about. -/
def perform [Link τ] : Action τ → Workspace τ → Workspace τ
  | .edit g, w => w.editWith 0 g.run
  | .moveCursor offset, w => w.moveCursor 0 offset
  | .select anchor position, w => w.onEditor 0 fun e =>
      (e.select anchor position, [])
  | .openCopy, w => (w.openCopy 0).2
  | .close, w => w.atDesk 0 Desk.close
  | .flush, w => (w.flush 0).2
  | .trigger, w => (w.trigger 0).2
  | .request reason, w => (w.requestFor 0 reason).2
  | .accept, w => (w.accept 0).2
  | .cancel, w => (w.cancel 0).2
  | .cycle places, w => (w.cycle 0 places).2
  | .supersede, w => w.supersede 0
  | .answer ticket message note, w =>
      ((w.relinked note).answer (.completion 0 ticket) message).2
  | .flushAlarm a, w => w.ring (.flush 0) a
  | .triggerAlarm a, w => w.ring (.trigger 0) a
  | .elapse milliseconds, w => w.advance milliseconds
  | .disturb f, w => w.relinked f

theorem replace_eq_editWith (j : Nat) (edit : Edit) (w : Workspace τ) :
    w.replace j edit = w.editWith j (Editing.replace edit).run := rfl

theorem type_eq_editWith (j : Nat) (text : Text) (w : Workspace τ) :
    w.type j text = w.editWith j (Editing.type text).run := by
  unfold type replace editWith
  cases h : w.editors[j]? with
  | none => rfl
  | some e => rfl

/-- Whether a workspace holds a document that was just created for its only
editor, whose text it reports to nobody else. -/
def Starts (w : Workspace τ) : Prop :=
  ∃ (env : Env τ) (dir : Path.Directory) (e : Editor) (options : Options)
    (uri : Text)
    (language : String) (d : Document),
    e.listeners = [] ∧ e.ghost = none ∧
    Document.create dir uri language 0 options = .ok d ∧
      w = ((create env dir [e] options).add d).2

/-- The workspaces that a run of allowed actions comes to. -/
inductive Reachable [Link τ] (allowed : Workspace τ → Action τ → Prop)
    (start : Workspace τ) :
    Workspace τ → Prop where
  | start : Reachable allowed start start
  | step {w : Workspace τ} {a : Action τ} (h : Reachable allowed start w)
      (ha : allowed w a) :
      Reachable allowed start (w.perform a)

def performAll [Link τ] (as : List (Action τ)) (w : Workspace τ) :
    Workspace τ :=
  as.foldl (fun w a => w.perform a) w

end Workspace

theorem Document.create_eq {dir : Path.Directory} {uri : Text}
    {language : String} {editor : Nat} {options : Options} {d : Document}
    (h : Document.create dir uri language editor options = .ok d) :
    ∃ name, d =
      { uri := uri, name := name, language := language, editor := editor,
        sync := .fresh uri options.syncIdle, completions := .empty,
        trigger := .fresh options.triggerIdle options.automatic, snapshot := [],
        closed := false } := by
  unfold Document.create at h
  cases hpath : Uri.normalize dir uri with
  | error f => simp [hpath, bind, Except.bind] at h
  | ok path =>
      simp only [hpath, bind, Except.bind, pure, Except.pure, Except.ok.injEq]
        at h
      exact ⟨_, h.symm⟩

/-!
# Actions at a desk

Each action is told again for the desk alone.
-/

namespace Desk

variable {τ : Type}

def relinked (f : τ → τ) (k : Desk τ) : Desk τ :=
  { k with env := { k.env with link := f k.env.link } }

def emit (e : Event) (k : Desk τ) : Desk τ := { k with env := k.env.emit e }

def onEditor (f : Editor → Editor × List Event) (k : Desk τ) : Desk τ :=
  { k with editor := (f k.editor).1, env := k.env.emits (f k.editor).2 }

def edit (f : Editor → Option Edit × Editor) (k : Desk τ) : Desk τ :=
  let changed : Desk τ := { k with editor := (f k.editor).2 }
  match (f k.editor).1 with
  | none => changed
  | some edit => (changed.emit (.edited edit)).recordEdit edit

def accept (k : Desk τ) : Desk τ :=
  match k.runStage Stage.accept with
  | (.ok (some e), k) =>
      (k.edit (Editor.replace e)).onEditor
        (Editor.moveCursor (e.start + e.inserted.length))
  | (_, k) => k

def atTime (time : Int) (k : Desk τ) : Desk τ :=
  { k with env := { k.env with clock := { k.env.clock with now := time } } }

def withTrigger (trigger : Trigger) (k : Desk τ) : Desk τ :=
  { k with document := { k.document with trigger := trigger } }

def tellFault {α : Type} (r : Except Fault α × Desk τ) : Desk τ :=
  match r.1 with
  | .error f => r.2.tell (.timerFailed f)
  | .ok _ => r.2

section Linked

variable [Link τ]

def ringFlush (a : Alarm) (k : Desk τ) : Desk τ :=
  let k := k.atTime a.due
  ((k.withSync k.document.sync.unschedule k.env).emit (.fired a.due)).flush.2

def ringTrigger (a : Alarm) (k : Desk τ) : Desk τ :=
  let k := k.atTime a.due
  let fired := (k.withTrigger k.document.trigger.cancel).emit (.fired a.due)
  tellFault (fired.request .automatic)

def ring : Workspace.Bell → Alarm → Desk τ → Desk τ
  | .flush _ => ringFlush
  | .trigger _ => ringTrigger

def alarms (k : Desk τ) : List (Workspace.Bell × Alarm) :=
  Workspace.alarmsOf 0 k.document

def advance (milliseconds : Int) (k : Desk τ) : Desk τ :=
  let time := k.env.clock.now + milliseconds
  (Alarm.ring alarms ring time k.alarms.length k).atTime time

def perform : Action τ → Desk τ → Desk τ
  | .edit g, k => k.edit g.run
  | .moveCursor offset, k => k.onEditor (Editor.moveCursor offset)
  | .select anchor position, k => k.onEditor fun e =>
      (e.select anchor position, [])
  | .openCopy, k => k.openCopy.2
  | .close, k => k.close
  | .flush, k => k.flush.2
  | .trigger, k => k.trigger.2
  | .request reason, k => (k.requestFor reason).2
  | .accept, k => k.accept
  | .cancel, k => (k.runStage Stage.cancel).2
  | .cycle places, k => (k.runStage (Stage.cycle places)).2
  | .supersede, k => k.onStage Stage.supersede
  | .answer ticket message note, k => (k.relinked note).receive ticket message
  | .flushAlarm a, k => k.ringFlush a
  | .triggerAlarm a, k => k.ringTrigger a
  | .elapse milliseconds, k => k.advance milliseconds
  | .disturb f, k => k.relinked f

def performAll (as : List (Action τ)) (k : Desk τ) : Desk τ :=
  as.foldl (fun k a => k.perform a) k

end Linked

def reports : Action τ → Desk τ → Option Edit
  | .edit g, k => (g.run k.editor).1
  | .accept, k =>
      match k.runStage Stage.accept with
      | (.ok (some e), k) => (k.editor.replace e).1
      | _ => none
  | _, _ => none

/-- Whether the agent never heard of a desk's document, and nothing was shown in
it. -/
structure Fresh (k : Desk τ) : Prop where
  uri : k.document.sync.uri = k.document.uri
  opened : k.document.sync.opened = false
  closed : k.document.closed = false
  completions : k.document.completions = .empty
  ghost : k.editor.ghost = none

/-- Whether a desk is that of the same document, with the same editor reporting
to it. -/
structure SameSeat (k k' : Desk τ) : Prop where
  number : k'.number = k.number
  place : k'.document.editor = k.document.editor
  uri : k'.document.uri = k.document.uri
  listeners : k'.editor.listeners = k.editor.listeners

namespace SameSeat

theorem refl (k : Desk τ) : SameSeat k k := ⟨rfl, rfl, rfl, rfl⟩

theorem trans {k k' k'' : Desk τ} (h : SameSeat k k') (h' : SameSeat k' k'') :
    SameSeat k k'' :=
  ⟨h'.number.trans h.number, h'.place.trans h.place, h'.uri.trans h.uri,
    h'.listeners.trans h.listeners⟩

theorem of_quiet {k k' : Desk τ} (h : Quiet k k') : SameSeat k k' :=
  ⟨h.number, h.place, h.uri, h.listeners⟩

theorem kept [Link τ] (k : Desk τ) : Kept (SameSeat k) where
  quiet hquiet h := h.trans (of_quiet hquiet)
  announced _ _ _ h := h.trans ⟨rfl, rfl, rfl, rfl⟩
  reannounced _ _ _ h := h.trans ⟨rfl, rfl, rfl, rfl⟩
  delivered _ _ h := h.trans ⟨rfl, rfl, rfl, rfl⟩
  closing _ h := h.trans ⟨rfl, rfl, rfl, rfl⟩
  asked _ _ _ _ h := h.trans ⟨rfl, rfl, rfl, rfl⟩
  unasked _ h := h.trans ⟨rfl, rfl, rfl, rfl⟩

end SameSeat

theorem Kept.text [Link τ] (t : Text) :
    Kept fun k : Desk τ => k.editor.text = t where
  quiet hquiet h := hquiet.text.trans h
  announced _ _ _ h := h
  reannounced _ _ _ h := h
  delivered _ _ h := h
  closing _ h := h
  asked _ _ _ _ h := h
  unasked _ h := h

def recorded (e : Edit) (k : Desk τ) : Desk τ :=
  let old := k.document.snapshot
  let change : Change :=
    ⟨some ⟨Position.ofOffset old e.start, Position.ofOffset old e.stop⟩,
      e.inserted⟩
  { k with
    document := { k.document with
      snapshot := e.apply old
      sync := { k.document.sync with pending := k.document.sync.pending ++
        [change] } } }

theorem recordEdit_closed {k : Desk τ} (e : Edit)
    (hclosed : k.document.closed = true) :
    k.recordEdit e = k := by
  rw [recordEdit, if_pos hclosed]

theorem quiet_recordEdit {k : Desk τ} (e : Edit)
    (hclosed : k.document.closed = false) :
    Quiet (k.recorded e) (k.recordEdit e) := by
  have hstage := quiet_onStage (Stage.quiet_finish .canceled) (k.recorded e)
  have hopen : ¬ k.document.closed = true := by
    rw [hclosed]
    exact Bool.false_ne_true
  rw [recordEdit, if_neg hopen]
  exact { hstage with }

theorem recordEdit_stage {k : Desk τ} (e : Edit)
    (hclosed : k.document.closed = false) :
    (k.recordEdit e).document.completions =
    (k.stage.finish .canceled).completions.invalidate ∧
      (k.recordEdit e).editor = (k.stage.finish .canceled).editor := by
  have hopen : ¬ k.document.closed = true := by
    rw [hclosed]
    exact Bool.false_ne_true
  rw [recordEdit, if_neg hopen]
  exact ⟨rfl, rfl⟩

theorem recordEdit_trace {k : Desk τ} (e : Edit)
    (hclosed : k.document.closed = false) :
    (k.recordEdit e).env.trace = (k.stage.finish .canceled).trace := by
  have hopen : ¬ k.document.closed = true := by
    rw [hclosed]
    exact Bool.false_ne_true
  rw [recordEdit, if_neg hopen]
  rfl

theorem recordEdit_sameSeat (e : Edit) (k : Desk τ) :
    SameSeat k (k.recordEdit e) := by
  cases hclosed : k.document.closed with
  | true =>
      rw [recordEdit_closed e hclosed]
      exact SameSeat.refl k
  | false =>
      have hrecorded : SameSeat k (k.recorded e) := ⟨rfl, rfl, rfl, rfl⟩
      exact hrecorded.trans (.of_quiet (quiet_recordEdit e hclosed))

/-- What is accepted is either no edit, or an edit in the editor that nothing is
shown in any longer. -/
theorem accept_cases (k : Desk τ) :
    (k.accept = k.withStage k.stage.accept.2 ∧ k.reports .accept = none) ∨
      ∃ e : Edit, k.stage.accept.1 = .ok (some e) ∧
        k.reports .accept =
          ((k.withStage k.stage.accept.2).editor.replace e).1 ∧
        k.accept =
          ((k.withStage k.stage.accept.2).edit (Editor.replace e)).onEditor
          (Editor.moveCursor (e.start + e.inserted.length)) := by
  cases hstage : k.stage.accept with
  | mk r s =>
      cases r with
      | error f => exact Or.inl (by simp [accept, reports, runStage, hstage])
      | ok edit? =>
          cases edit? with
          | none => exact Or.inl (by simp [accept, reports, runStage, hstage])
          | some e =>
              exact Or.inr ⟨e, by simp [accept, reports, runStage, hstage]⟩

theorem quiet_moveCursor (offset : Int) (k : Desk τ) :
    Quiet k (k.onEditor (Editor.moveCursor offset)) :=
  quiet_withStage (Stage.quiet_moveCursor offset k.stage)

theorem quiet_select (anchor position : Int) (k : Desk τ) :
    Quiet k (k.onEditor fun e => (e.select anchor position, [])) := by
  have hselect : (k.editor.select anchor position).text = k.editor.text ∧
      (k.editor.select anchor position).listeners = k.editor.listeners ∧
      (k.editor.select anchor position).attached = k.editor.attached := by
    unfold Editor.select
    cases k.editor.caret with
    | free _ => simp
    | units _ _ => simp
  exact { Quiet.refl k with
    text := hselect.1
    listeners := hselect.2.1
    attached := hselect.2.2
    events := Quietly.append _ rfl }

theorem quiet_atTime (time : Int) (k : Desk τ) : Quiet k (k.atTime time) :=
  { Quiet.refl k with }

theorem quiet_tellFault {α : Type} (r : Except Fault α × Desk τ) :
    Quiet r.2 (tellFault r) := by
  unfold tellFault
  cases r.1 with
  | error f => exact quiet_tell rfl r.2
  | ok _ => exact Quiet.refl r.2

theorem quiet_fired (time : Int) (k : Desk τ) :
    Quiet k (k.emit (.fired time)) :=
  { Quiet.refl k with events := Quietly.append _ rfl }

end Desk

/-!
# Alarms

Alarms that go off one after the other keep what each of them keeps.
-/

theorem Alarm.ring_rel {κ σ ρ : Type} {R : σ → ρ → Prop}
    {alarms : σ → List (κ × Alarm)} {alarms' : ρ → List (κ × Alarm)}
    {goOff : κ → Alarm → σ → σ} {goOff' : κ → Alarm → ρ → ρ} {time : Int}
    (halarms : ∀ s r, R s r → alarms s = alarms' r)
    (hgo : ∀ s r key a, R s r → (key, a) ∈ alarms' r →
    R (goOff key a s) (goOff' key a r))
    (most : Nat) {s : σ} {r : ρ} (h : R s r) :
    R (ring alarms goOff time most s) (ring alarms' goOff' time most r) := by
  induction most generalizing s r with
  | zero => exact h
  | succ most ih =>
      unfold ring
      rw [halarms s r h]
      cases hnext : nextBy time (alarms' r) with
      | none => exact h
      | some next => exact ih (hgo s r next.1 next.2 h (nextBy_due hnext).1)

theorem Alarm.ring_keeps_of_mem {κ σ : Type} {P : σ → Prop}
    {alarms : σ → List (κ × Alarm)} {goOff : κ → Alarm → σ → σ} {time : Int}
    (hgo : ∀ s key a, P s → (key, a) ∈ alarms s → P (goOff key a s))
    (most : Nat) {s : σ} (h : P s) : P (ring alarms goOff time most s) := by
  induction most generalizing s with
  | zero => exact h
  | succ most ih =>
      unfold ring
      cases hnext : nextBy time (alarms s) with
      | none => exact h
      | some next => exact ih (hgo s next.1 next.2 h (nextBy_due hnext).1)

theorem Alarm.ring_keeps {κ σ : Type} {P : σ → Prop}
    {alarms : σ → List (κ × Alarm)} {goOff : κ → Alarm → σ → σ} {time : Int}
    (hgo : ∀ s key a, P s → P (goOff key a s)) (most : Nat) {s : σ} (h : P s) :
    P (ring alarms goOff time most s) :=
  ring_keeps_of_mem (fun s key a hs _ => hgo s key a hs) most h

namespace Desk

variable {τ : Type} [Link τ]

namespace KeptByTalk

variable {P : Desk τ → Prop}

theorem ringFlush (hP : KeptByTalk P) (a : Alarm) {k : Desk τ} (h : P k) :
    P (k.ringFlush a) :=
  hP.flush (hP.quiet (((quiet_atTime a.due k).trans (quiet_unschedule _)).trans
    (quiet_fired _ _)) h)

theorem ringTrigger (hP : KeptByTalk P) (a : Alarm) {k : Desk τ} (h : P k) :
    P (k.ringTrigger a) := by
  have hquiet :=
    ((quiet_atTime a.due k).trans
      (quiet_trigger _ k.document.trigger.cancel)).trans
    (quiet_fired a.due _)
  have hrequest := request_requesting .automatic
    (((k.atTime a.due).withTrigger k.document.trigger.cancel).emit
      (.fired a.due))
  exact hP.quiet (quiet_tellFault _)
    (hP.requesting hrequest (hP.quiet hquiet h))

theorem advance (hP : KeptByTalk P) (milliseconds : Int) {k : Desk τ}
    (h : P k) :
    P (k.advance milliseconds) := by
  refine hP.quiet (quiet_atTime _ _) (Alarm.ring_keeps ?_ _ h)
  intro k bell a h
  cases bell with
  | flush _ => exact hP.ringFlush a h
  | trigger _ => exact hP.ringTrigger a h

end KeptByTalk

/-- What is kept besides by edits and by the link is kept by every action, if
the edits that it reports are of a kind that keeps it. -/
theorem Kept.perform {P : Desk τ → Prop} {F : Edit → Text → Prop} (hP : Kept P)
    (hedit : ∀ {k : Desk τ} {f : Editor → Option Edit × Editor},
    (∀ e : Editor, e.Reported (f e)) →
      (∀ e : Editor, e.SameView (f e).2) →
        (∀ e, (f k.editor).1 = some e → F e k.editor.text) →
      P k → P (k.edit f))
    (hlink : ∀ {k : Desk τ} (f : τ → τ), P k → P (k.relinked f)) {k : Desk τ}
    {a : Action τ} (ha : ∀ e, k.reports a = some e → F e k.editor.text)
    (h : P k) : P (k.perform a) := by
  cases a with
  | edit g => exact hedit g.run_reported g.run_sameView ha h
  | moveCursor offset => exact hP.quiet (quiet_moveCursor offset k) h
  | select anchor position => exact hP.quiet (quiet_select anchor position k) h
  | openCopy => exact hP.openCopy h
  | close => exact hP.close h
  | flush => exact hP.flush h
  | trigger =>
      exact hP.requesting (request_requesting .invoked _)
        (hP.quiet (quiet_trigger k _) h)
  | request reason => exact hP.requesting (requestFor_requesting reason k) h
  | accept =>
      have hquiet := quiet_withStage (Stage.quiet_accept k.stage)
      show P k.accept
      rcases accept_cases k with ⟨haccept, _⟩ | ⟨e, _, hreports, haccept⟩
      · rw [haccept]
        exact hP.quiet hquiet h
      · rw [haccept]
        refine hP.quiet (quiet_moveCursor _ _)
          (hedit (Editor.replace_reported e) (Editor.replace_sameView e) ?_
            (hP.quiet hquiet h))
        intro reported hreported
        rw [hquiet.text]
        exact ha reported (hreports.trans hreported)
  | cancel => exact hP.quiet (quiet_withStage (Stage.quiet_cancel k.stage)) h
  | cycle places =>
      exact hP.quiet (quiet_withStage (Stage.quiet_cycle places k.stage)) h
  | supersede => exact hP.quiet (quiet_onStage (Stage.quiet_finish _) k) h
  | answer ticket message note =>
      exact hP.quiet (quiet_receive ticket message _) (hlink note h)
  | flushAlarm a => exact hP.ringFlush a h
  | triggerAlarm a => exact hP.ringTrigger a h
  | elapse milliseconds => exact hP.advance milliseconds h
  | disturb f => exact hlink f h

end Desk

/-!
# A workspace with one desk
-/

/-- Whether a desk is all there is in a workspace, and its document the only one
that hears of edits. -/
structure Hosts {τ : Type} (w : Workspace τ) (k : Desk τ) : Prop where
  documents : w.documents = [k.document]
  editors : w.editors = [k.editor]
  env : w.env = k.env
  number : k.number = 0
  place : k.document.editor = 0
  listeners : k.editor.listeners = [0]

namespace Hosts

variable {τ : Type} {w : Workspace τ} {k : Desk τ}

theorem desk? (h : Hosts w k) : w.desk? 0 = some k := by
  have hdesk : k = ⟨0, k.document, k.editor, k.env⟩ := by
    rw [← h.number]
  unfold Workspace.desk?
  rw [h.documents, h.editors, h.env]
  simp only [List.getElem?_cons_zero, h.place, Option.map_some]
  rw [← hdesk]

theorem withDesk {k' : Desk τ} (h : Hosts w k) (hseat : k.SameSeat k') :
    Hosts (w.withDesk k') k' where
  documents := by
    simp [Workspace.withDesk, h.documents, hseat.number, h.number]
  editors := by
    simp [Workspace.withDesk, h.editors, hseat.place, h.place]
  env := rfl
  number := hseat.number.trans h.number
  place := hseat.place.trans h.place
  listeners := hseat.listeners.trans h.listeners

theorem atDesk {f : Desk τ → Desk τ} (h : Hosts w k) (hf : k.SameSeat (f k)) :
    Hosts (w.atDesk 0 f) (f k) := by
  unfold Workspace.atDesk
  rw [h.desk?]
  exact h.withDesk hf

theorem run_eq {α : Type} (f : Desk τ → α × Desk τ) (h : Hosts w k) :
    w.run 0 f = (some (f k).1, w.withDesk (f k).2) := by
  unfold Workspace.run
  rw [h.desk?]

theorem run {α : Type} {f : Desk τ → α × Desk τ} (h : Hosts w k)
    (hf : k.SameSeat (f k).2) :
    Hosts (w.run 0 f).2 (f k).2 := by
  rw [h.run_eq]
  exact h.withDesk hf

theorem emit (h : Hosts w k) (e : Event) : Hosts (w.emit e) (k.emit e) :=
  ⟨h.documents, h.editors, by simp [Workspace.emit, Desk.emit, h.env], h.number,
    h.place, h.listeners⟩

theorem relinked (h : Hosts w k) (f : τ → τ) :
    Hosts (w.relinked f) (k.relinked f) :=
  ⟨h.documents, h.editors, by simp [Workspace.relinked, Desk.relinked, h.env],
    h.number, h.place, h.listeners⟩

theorem onEditor {f : Editor → Editor × List Event} (h : Hosts w k)
    (hf : (f k.editor).1.listeners = k.editor.listeners) :
    Hosts (w.onEditor 0 f) (k.onEditor f) where
  documents := by
    simp [Workspace.onEditor, h.editors, Desk.onEditor, h.documents]
  editors := by
    simp [Workspace.onEditor, h.editors, Desk.onEditor]
  env := by
    simp [Workspace.onEditor, h.editors, Desk.onEditor, h.env]
  number := h.number
  place := h.place
  listeners := hf.trans h.listeners

theorem editWith {f : Editor → Option Edit × Editor} (h : Hosts w k)
    (hf : (f k.editor).2.listeners = k.editor.listeners) :
    Hosts (w.editWith 0 f) (k.edit f) := by
  have hchanged : Hosts { w with editors := w.editors.set 0 (f k.editor).2 }
      { k with editor := (f k.editor).2 } :=
    ⟨h.documents, by simp [h.editors], h.env, h.number, h.place,
      hf.trans h.listeners⟩
  unfold Workspace.editWith Desk.edit
  simp only [h.editors, List.getElem?_cons_zero]
  rw [h.editors] at hchanged
  cases (f k.editor).1 with
  | none => exact hchanged
  | some e =>
      rw [h.listeners]
      exact (hchanged.emit (.edited e)).atDesk (Desk.recordEdit_sameSeat e _)

theorem atTime (h : Hosts w k) (time : Int) :
    Hosts { w with env :=
      { w.env with clock := { w.env.clock with now := time } } }
      (k.atTime time) :=
  ⟨h.documents, h.editors, by simp [Desk.atTime, h.env], h.number, h.place,
    h.listeners⟩

theorem accept (h : Hosts w k) : Hosts (w.accept 0).2 k.accept := by
  have hquiet := Desk.quiet_withStage (Stage.quiet_accept k.stage)
  have hstaged := h.withDesk (.of_quiet hquiet)
  unfold Workspace.accept Desk.accept
  rw [h.run_eq]
  unfold Desk.runStage
  cases k.stage.accept.1 with
  | error f => exact hstaged
  | ok edit? =>
      cases edit? with
      | none => exact hstaged
      | some e =>
          have hlisteners (x : Editor) :
              (x.replace e).2.listeners = x.listeners :=
            (Editor.replace_sameView e x).2.1
          have hedited := hstaged.editWith (hlisteners _)
          have hplace : (k.withStage k.stage.accept.2).document.editor = 0 :=
            hquiet.place.trans h.place
          simp only [hstaged.documents, List.getElem?_cons_zero, hplace]
          exact hedited.onEditor
            (Stage.quiet_moveCursor _ (Desk.stage _)).listeners

theorem alarms_eq (h : Hosts w k) : w.alarms = k.alarms := by
  simp [Workspace.alarms, Desk.alarms, h.documents]

section Linked

variable [Link τ]

theorem ringFlush (h : Hosts w k) (a : Alarm) :
    Hosts (w.ring (.flush 0) a) (k.ringFlush a) := by
  have hunscheduled := (h.atTime a.due).atDesk
    (f := fun k => k.withSync k.document.sync.unschedule k.env)
      ⟨rfl, rfl, rfl, rfl⟩
  have hfired := hunscheduled.emit (.fired a.due)
  exact hfired.run ((Desk.SameSeat.kept _).flush (.refl _))

theorem requestQuietly (h : Hosts w k) (kind : TriggerKind) :
    Hosts
      (match w.run 0 (Desk.request kind) with
        | (some (.error f), w) => w.tell (.timerFailed f)
        | (_, w) => w)
      (Desk.tellFault (k.request kind)) := by
  have hseat :=
    (Desk.SameSeat.kept k).requesting (Desk.request_requesting kind k) (.refl k)
  have hrequested := h.withDesk hseat
  rw [h.run_eq]
  cases hrequest : k.request kind with
  | mk r k' =>
      rw [hrequest] at hrequested
      cases r with
      | error f => exact hrequested.emit _
      | ok ticket => exact hrequested

theorem ringTrigger (h : Hosts w k) (a : Alarm) :
    Hosts (w.ring (.trigger 0) a) (k.ringTrigger a) := by
  have hcanceled := (h.atTime a.due).atDesk
    (f := fun k => k.withTrigger k.document.trigger.cancel) ⟨rfl, rfl, rfl, rfl⟩
  have hfired := hcanceled.emit (.fired a.due)
  exact hfired.requestQuietly .automatic

theorem ring {bell : Workspace.Bell} {a : Alarm} (h : Hosts w k)
    (ha : (bell, a) ∈ k.alarms) :
    Hosts (w.ring bell a) (k.ring bell a) := by
  have hbell : bell = .flush 0 ∨ bell = .trigger 0 := by
    simp only [Desk.alarms, Workspace.alarmsOf, List.mem_append,
      Option.mem_toList, Option.map_eq_some_iff, Prod.mk.injEq] at ha
    rcases ha with ⟨_, _, hflush, _⟩ | ⟨_, _, htrigger, _⟩
    · exact Or.inl hflush.symm
    · exact Or.inr htrigger.symm
  rcases hbell with hflush | htrigger
  · rw [hflush]
    exact h.ringFlush a
  · rw [htrigger]
    exact h.ringTrigger a

theorem advance (h : Hosts w k) (milliseconds : Int) :
    Hosts (w.advance milliseconds) (k.advance milliseconds) := by
  have hring :
      ∀ (w : Workspace τ) (k : Desk τ) (bell : Workspace.Bell) (a : Alarm),
        Hosts w k →
      (bell, a) ∈ k.alarms → Hosts (w.ring bell a) (k.ring bell a) := by
    intro w k bell a h ha
    exact h.ring ha
  unfold Workspace.advance Desk.advance
  rw [h.alarms_eq, h.env]
  exact (Alarm.ring_rel (fun _ _ h => h.alarms_eq) hring _ h).atTime _

/-- Each action does to the workspace what it does to the desk. -/
theorem perform (h : Hosts w k) (a : Action τ) :
    Hosts (w.perform a) (k.perform a) := by
  cases a with
  | edit g => exact h.editWith (g.run_sameView _).2.1
  | moveCursor offset =>
      exact h.onEditor (Stage.quiet_moveCursor offset k.stage).listeners
  | select anchor position =>
      refine h.onEditor ?_
      unfold Editor.select
      cases k.editor.caret <;> rfl
  | openCopy => exact h.run ((Desk.SameSeat.kept k).openCopy (.refl k))
  | close => exact h.atDesk ((Desk.SameSeat.kept k).close (.refl k))
  | flush => exact h.run ((Desk.SameSeat.kept k).flush (.refl k))
  | trigger =>
      have hseat := (Desk.SameSeat.kept k).requesting
        (Desk.request_requesting .invoked
          (k.withTrigger k.document.trigger.cancel))
        ⟨rfl, rfl, rfl, rfl⟩
      have hstep : w.perform .trigger = w.withDesk k.trigger.2 := by
        unfold Workspace.perform Workspace.trigger
        simp only [h.run_eq]
      rw [hstep]
      exact h.withDesk hseat
  | request reason =>
      have hseat :=
        (Desk.SameSeat.kept k).requesting (Desk.requestFor_requesting reason k)
        (.refl k)
      have hstep :
          w.perform (.request reason) = w.withDesk (k.requestFor reason).2 := by
        unfold Workspace.perform Workspace.requestFor
        simp only [h.run_eq]
      rw [hstep]
      exact h.withDesk hseat
  | accept => exact h.accept
  | cancel =>
      exact h.run
        (.of_quiet (Desk.quiet_withStage (Stage.quiet_cancel k.stage)))
  | cycle places =>
      exact h.run
        (.of_quiet (Desk.quiet_withStage (Stage.quiet_cycle places k.stage)))
  | supersede =>
      exact h.atDesk (.of_quiet (Desk.quiet_onStage (Stage.quiet_finish _) k))
  | answer ticket message note =>
      exact (h.relinked note).atDesk
        (.of_quiet (Desk.quiet_receive ticket message _))
  | flushAlarm a => exact h.ringFlush a
  | triggerAlarm a => exact h.ringTrigger a
  | elapse milliseconds => exact h.advance milliseconds
  | disturb f => exact h.relinked f

theorem performAll (h : Hosts w k) (as : List (Action τ)) :
    Hosts (w.performAll as) (k.performAll as) := by
  induction as generalizing w k with
  | nil => exact h
  | cons a rest ih => exact ih (h.perform a)

end Linked
end Hosts

namespace Workspace

variable {τ : Type}

theorem Starts.hosts {w : Workspace τ} (h : w.Starts) :
    ∃ k, Hosts w k ∧ k.Fresh := by
  rcases h with
    ⟨env, dir, e, options, uri, language, d, hlisteners, hghost, hcreate, hw⟩
  rcases Document.create_eq hcreate with ⟨name, hd⟩
  have hattach (e : Editor) :
      ((e.connect 0).attach (some 0)).listeners = e.listeners ++ [0] ∧
      ((e.connect 0).attach (some 0)).ghost = e.ghost := by
    unfold Editor.attach
    split
    · exact ⟨rfl, rfl⟩
    · exact ⟨rfl, rfl⟩
  exists ⟨0, d, (e.connect 0).attach (some 0), env⟩
  subst hd hw
  constructor
  · exact ⟨rfl, rfl, by simp [add, onEditor, create, Env.emits], rfl, rfl,
      by rw [(hattach e).1, hlisteners]; rfl⟩
  · exact ⟨rfl, rfl, rfl, rfl, (hattach e).2.trans hghost⟩

def sample (link : τ) : Workspace τ :=
  ((create (.ofLink link) .root [.plain ['a', '😀', 'c'] 3] .usual).add
    { uri := ['a', '.', 'c'], name := ['a', '.', 'c'], language := "c",
      editor := 0, sync := .fresh ['a', '.', 'c'] 200, completions :=
        .empty, trigger := .fresh 500 true,
      snapshot := [], closed := false }).2

theorem sample_starts (link : τ) : (sample link).Starts :=
  ⟨.ofLink link, .root, .plain ['a', '😀', 'c'] 3, .usual, ['a', '.', 'c'], "c",
    _, rfl, rfl, rfl, rfl⟩

end Workspace
end InlineCompletion
