import InlineCompletion.Proofs.Agent.DeskSteps
import InlineCompletion.Proofs.Document.Freshness

/-!
# Closed documents

A closed document is *inert*: the agent does not have it, nothing of it is
pending or due, and no completion of it is live or shown.  Whatever happens to
it from then on leaves it as it is, and no message to the agent is attempted.
The editor goes on without it: its text and its caret follow what is typed and
where the caret is put, and nothing else.  The main statement is that every
document is inert as soon as it is closed, however it got there, and stays so.
-/

namespace InlineCompletion

/-- What an action does to an editor for which nothing is shown and which
reports to nobody: only edits and moves of the caret are made by hand. -/
def Action.byHand {τ : Type} : Action τ → Editor → Editor
  | .edit g, e => (g.run e).2
  | .moveCursor offset, e => (e.moveCursor offset).1
  | .select anchor position, e => e.select anchor position
  | _, e => e

def Action.allByHand {τ : Type} (as : List (Action τ)) (e : Editor) : Editor :=
  as.foldl (fun e a => a.byHand e) e

theorem Timer.cancel_of_alarm_eq_none {t : Timer} (h : t.alarm = none) :
    t.cancel = t := by
  cases t with
  | mk interval alarm =>
      cases h
      rfl

theorem Sync.close_snd_of_unopened {τ : Type} [Link τ] {s : Sync}
    (h : s.opened = false) (env : Env τ) : (s.close env).2 = env := by
  have hclosing := closing s env
  revert hclosing
  generalize s.close env = r
  intro hclosing
  cases hclosing with
  | unsaid _ => rfl
  | refused hopened _ _ =>
      exact absurd (h.symm.trans hopened) Bool.false_ne_true
  | taken hopened _ _ => exact absurd (h.symm.trans hopened) Bool.false_ne_true

namespace Document

/-- Whether a document is closed and nothing of it is left to be told or
shown. -/
structure Inert (d : Document) : Prop where
  closed : d.closed = true
  opened : d.sync.opened = false
  pending : d.sync.pending = []
  batch : d.sync.timer.alarm = none
  idle : d.trigger.timer.alarm = none
  live : d.completions.live = none
  shown : d.completions.shown = none

namespace Inert

variable {d : Document}

theorem unschedule (h : d.Inert) : d.sync.unschedule = d.sync := by
  unfold Sync.unschedule
  rw [Timer.cancel_of_alarm_eq_none h.batch]

theorem cancel (h : d.Inert) : d.trigger.cancel = d.trigger := by
  unfold Trigger.cancel
  rw [Timer.cancel_of_alarm_eq_none h.idle]

theorem invalidate (h : d.Inert) :
    d.completions.invalidate = d.completions := by
  unfold Completions.invalidate
  rw [← h.live]

theorem shownOne? (h : d.Inert) : d.completions.shownOne? = none := by
  unfold Completions.shownOne?
  rw [h.shown]
  rfl

end Inert
end Document

/-!
# What happens to an inert document

Nothing becomes of the document and of its editor, but for the editor what is
done by hand.
-/

namespace Desk

variable {τ : Type}

/-- Whether a desk goes on with the same document and a given editor, and no
message was tried. -/
structure Rests (k : Desk τ) (e : Editor) (k' : Desk τ) : Prop where
  document : k'.document = k.document
  editor : k'.editor = e
  events : Plainly k.env.trace k'.env.trace

namespace Rests

variable {k k' k'' : Desk τ} {e e' : Editor}

theorem refl (k : Desk τ) : Rests k k.editor k := ⟨rfl, rfl, .refl _⟩

theorem trans (h : Rests k e k') (h' : Rests k' e' k'') : Rests k e' k'' :=
  ⟨h'.document.trans h.document, h'.editor, h.events.trans h'.events⟩

theorem tell (n : Notice) (h : Rests k e k') : Rests k e (k'.tell n) :=
  ⟨h.document, h.editor, h.events.trans (.append _ rfl)⟩

theorem ring [Link τ] (hring : ∀ k' bell a, Rests k k.editor k' →
      Rests k k.editor (Desk.ring bell a k')) (milliseconds : Int) :
    Rests k k.editor (k.advance milliseconds) := by
  have hrung : Rests k k.editor
      (Alarm.ring alarms Desk.ring (k.env.clock.now + milliseconds)
        k.alarms.length k) :=
    Alarm.ring_keeps hring _ (.refl k)
  exact ⟨hrung.document, hrung.editor, hrung.events⟩

end Rests

section Stage

variable {k : Desk τ}

theorem finish_inert (h : k.document.Inert) (outcome : Outcome) :
    k.onStage (Stage.finish outcome) = k := by
  unfold onStage
  rw [Stage.finish_of_shown_eq_none (s := k.stage) outcome h.shown]
  rfl

theorem runAccept_inert (h : k.document.Inert) :
    k.runStage Stage.accept = (.ok none, k) := by
  have hstage : k.stage.accept = (.ok none, k.stage) := by
    unfold Stage.accept
    rw [show k.stage.completions.shownOne? = none from h.shownOne?]
  unfold runStage
  rw [hstage]
  rfl

theorem accept_inert (h : k.document.Inert) : k.accept = k := by
  unfold accept
  rw [runAccept_inert h]

theorem cancel_inert (h : k.document.Inert) :
    (k.runStage Stage.cancel).2 = k := by
  have hstage : k.stage.cancel = (false, k.stage) := by
    unfold Stage.cancel
    rw [show k.stage.completions.shownOne? = none from h.shownOne?]
  unfold runStage
  rw [hstage]
  rfl

theorem cycle_inert (h : k.document.Inert) (places : Int) :
    (k.runStage (Stage.cycle places)).2 = k := by
  have hstage : k.stage.cycle places = (false, k.stage) := by
    unfold Stage.cycle
    rw [show k.stage.completions.shownOne? = none from h.shownOne?]
    cases k.stage.completions.shown <;> rfl
  unfold runStage
  rw [hstage]
  rfl

theorem receive_inert (h : k.document.Inert) (ticket : Nat) (message : Json) :
    Rests k k.editor (k.receive ticket message) := by
  unfold receive
  cases k.document.completions.get? ticket with
  | none => exact .refl k
  | some x =>
      have hlive : k.document.completions.live ≠ some ticket := by
        rw [h.live]
        exact nofun
      dsimp only
      rw [if_pos hlive]
      exact (Rests.refl k).tell _

end Stage

theorem edit_inert {k : Desk τ} (h : k.document.Inert)
    (f : Editor → Option Edit × Editor) :
    Rests k (f k.editor).2 (k.edit f) := by
  unfold edit
  cases (f k.editor).1 with
  | none => exact ⟨rfl, rfl, .refl _⟩
  | some e =>
      dsimp only
      rw [recordEdit_closed e (by exact h.closed)]
      exact ⟨rfl, rfl, .append _ rfl⟩

section Linked

variable [Link τ] {k : Desk τ}

theorem openCopy_inert (h : k.document.Inert) : k.openCopy = (false, k) := by
  unfold openCopy
  rw [if_pos h.closed]

theorem flush_inert (h : k.document.Inert) : Rests k k.editor k.flush.2 := by
  have hflushing := flushing k
  revert hflushing
  generalize k.flush = r
  intro hflushing
  cases hflushing with
  | delivered hopened _ =>
      exact absurd (h.opened.symm.trans hopened) Bool.false_ne_true
  | unopened _ _ =>
      refine Rests.tell _ ⟨?_, rfl, .refl _⟩
      show { k.document with sync := k.document.sync.unschedule } = k.document
      rw [h.unschedule]
  | failed _ hopen _ =>
      exact absurd (hopen.symm.trans h.closed) Bool.false_ne_true
  | reopened _ hopen _ =>
      exact absurd (hopen.symm.trans h.closed) Bool.false_ne_true

theorem request_inert (h : k.document.Inert) (kind : TriggerKind) :
    k.request kind = (.ok none, k) := by
  unfold request
  rw [if_pos h.closed]

theorem requestFor_inert (h : k.document.Inert) (reason : Json) :
    k.requestFor reason = (.ok none, k) := by
  unfold requestFor
  rw [if_pos h.closed]

theorem close_inert (h : k.document.Inert) : Rests k k.editor k.close := by
  have hcleared :
      ((k.withTrigger k.document.trigger.cancel).onStage
        Stage.supersede).invalidate =
      k := by
    unfold withTrigger
    rw [h.cancel]
    show (k.onStage (Stage.finish .superseded)).invalidate = k
    rw [finish_inert h]
    unfold invalidate
    rw [h.invalidate]
  have hsync : (k.document.sync.close k.env).1 = k.document.sync := by
    rw [Sync.close_fst, h.unschedule, ← h.pending, ← h.opened]
  have hsilent : (k.document.sync.close k.env).2 = k.env :=
    Sync.close_snd_of_unopened h.opened k.env
  have hended : { k.document with closed := true } = k.document := by
    rw [← h.closed]
  have hclose :
      k.close =
        (k.withSync k.document.sync k.env).ended.tell
        (.closed k.document.name) := by
    unfold close
    change (let k' :=
      ((k.withTrigger k.document.trigger.cancel).onStage
        Stage.supersede).invalidate
      ((k'.withSync (k'.document.sync.close k'.env).1
        (k'.document.sync.close k'.env).2).ended.tell
          (.closed k'.document.name))) = _
    rw [hcleared]
    dsimp only
    rw [hsync, hsilent]
  rw [hclose]
  exact Rests.tell _ ⟨hended, rfl, .refl _⟩

theorem ring_inert (h : k.document.Inert) (bell : Workspace.Bell) (a : Alarm) :
    Rests k k.editor (k.ring bell a) := by
  cases bell with
  | flush _ =>
      have hfired : Rests k k.editor
          (((k.atTime a.due).withSync k.document.sync.unschedule
            (k.atTime a.due).env).emit (.fired a.due)) := by
        refine ⟨?_, rfl, .append _ rfl⟩
        show { k.document with sync := k.document.sync.unschedule } = k.document
        rw [h.unschedule]
      exact hfired.trans (flush_inert (hfired.document ▸ h))
  | trigger _ =>
      have hfired : Rests k k.editor
          (((k.atTime a.due).withTrigger k.document.trigger.cancel).emit
            (.fired a.due)) := by
        refine ⟨?_, rfl, .append _ rfl⟩
        show { k.document with trigger := k.document.trigger.cancel } =
          k.document
        rw [h.cancel]
      show Rests k k.editor (tellFault (Desk.request .automatic _))
      rw [request_inert (hfired.document ▸ h)]
      exact hfired

/-- Whatever happens to an inert document leaves it as it is. -/
theorem perform_inert (h : k.document.Inert) (a : Action τ) :
    Rests k (a.byHand k.editor) (k.perform a) := by
  cases a with
  | edit g => exact edit_inert h g.run
  | moveCursor offset =>
      refine ⟨rfl, rfl, .append _ ?_⟩
      unfold Editor.moveCursor
      cases k.editor.caret <;> rfl
  | select anchor position => exact ⟨rfl, rfl, .append _ rfl⟩
  | openCopy =>
      show Rests k k.editor k.openCopy.2
      rw [openCopy_inert h]
      exact .refl k
  | close => exact close_inert h
  | flush => exact flush_inert h
  | trigger =>
      have hcanceled : k.withTrigger k.document.trigger.cancel = k := by
        unfold withTrigger
        rw [h.cancel]
      show Rests k k.editor
        ((k.withTrigger k.document.trigger.cancel).request .invoked).2
      rw [hcanceled, request_inert h]
      exact .refl k
  | request reason =>
      show Rests k k.editor (k.requestFor reason).2
      rw [requestFor_inert h]
      exact .refl k
  | accept =>
      show Rests k k.editor k.accept
      rw [accept_inert h]
      exact .refl k
  | cancel =>
      show Rests k k.editor (k.runStage Stage.cancel).2
      rw [cancel_inert h]
      exact .refl k
  | cycle places =>
      show Rests k k.editor (k.runStage (Stage.cycle places)).2
      rw [cycle_inert h]
      exact .refl k
  | supersede =>
      show Rests k k.editor (k.onStage (Stage.finish .superseded))
      rw [finish_inert h]
      exact .refl k
  | answer ticket message note =>
      have hrelinked : Rests k k.editor (k.relinked note) := ⟨rfl, rfl, .refl _⟩
      exact hrelinked.trans
        (receive_inert (k := k.relinked note) h ticket message)
  | flushAlarm a => exact ring_inert h (.flush 0) a
  | triggerAlarm a => exact ring_inert h (.trigger 0) a
  | elapse milliseconds =>
      refine Rests.ring ?_ milliseconds
      intro k' bell a hk'
      have hrings := ring_inert (hk'.document ▸ h) bell a
      rw [hk'.editor] at hrings
      exact hk'.trans hrings
  | disturb f => exact ⟨rfl, rfl, .refl _⟩

theorem performAll_inert (as : List (Action τ)) (h : k.document.Inert) :
    Rests k (Action.allByHand as k.editor) (k.performAll as) := by
  induction as generalizing k with
  | nil => exact .refl k
  | cons a rest ih =>
      have hfirst := perform_inert h a
      have hrest := ih (k := k.perform a) (hfirst.document ▸ h)
      rw [hfirst.editor] at hrest
      exact hfirst.trans hrest

/-- Closing leaves nothing to be told or shown. -/
theorem close_leaves_inert (k : Desk τ) : k.close.document.Inert := by
  have hsync := close_sync k
  exact ⟨rfl, by rw [hsync], by rw [hsync], by rw [hsync]; rfl, rfl, rfl,
    close_shown k⟩

end Linked
end Desk

theorem Action.byHand_ghost {τ : Type} (a : Action τ) (e : Editor) :
    (a.byHand e).ghost = e.ghost := by
  cases a with
  | edit g => exact (g.run_sameView e).1
  | moveCursor offset =>
      show (e.moveCursor offset).1.ghost = e.ghost
      unfold Editor.moveCursor
      cases e.caret <;> rfl
  | select anchor position =>
      show (e.select anchor position).ghost = e.ghost
      unfold Editor.select
      cases e.caret <;> rfl
  | _ => rfl

theorem Action.allByHand_ghost {τ : Type} (as : List (Action τ)) (e : Editor) :
    (allByHand as e).ghost = e.ghost := by
  induction as generalizing e with
  | nil => rfl
  | cons a rest ih => exact (ih (a.byHand e)).trans (a.byHand_ghost e)

/-!
# Runs
-/

namespace Workspace

variable {τ : Type} [Link τ]

theorem Reachable.bare {allowed : Workspace τ → Action τ → Prop}
    {start w : Workspace τ} (hstart : start.Starts)
    (h : Reachable allowed start w) : ∃ k, Hosts w k ∧ k.stage.Bare := by
  induction h with
  | start =>
      rcases hstart.hosts with ⟨k, hhosts, hfresh⟩
      exact ⟨k, hhosts, fun _ => hfresh.ghost⟩
  | step _ _ ih =>
      rename_i w a _ _
      rcases ih with ⟨k, hhosts, hbare⟩
      exact ⟨k.perform a, hhosts.perform a, Desk.perform_bare a hbare⟩

/-- Once a document was closed, whatever happens to it, in any order, leaves it
as closing left it: nothing is pending, due, live or shown.  No message to the
agent is tried, and the editor is what its user made of it. -/
theorem closed_inert {start w : Workspace τ} (hstart : start.Starts)
    (h : Reachable (fun _ _ => True) start w) (as : List (Action τ)) :
    ∃ d e, d.Inert ∧ (w.perform .close).documents = [d] ∧
      (w.perform .close).editors = [e] ∧
      ((w.perform .close).performAll as).documents = [d] ∧
      ((w.perform .close).performAll as).editors = [Action.allByHand as e] ∧
      (Action.allByHand as e).ghost = none ∧
      Plainly (w.perform .close).env.trace
        ((w.perform .close).performAll as).env.trace := by
  rcases h.bare hstart with ⟨k, hhosts, hbare⟩
  have hclosed := hhosts.perform .close
  have hinert := Desk.close_leaves_inert k
  have hrests := Desk.performAll_inert as hinert
  have hlater := hclosed.performAll as
  refine ⟨k.close.document, k.close.editor, hinert, hclosed.documents,
    hclosed.editors, ?_, ?_, ?_, ?_⟩
  · rw [hlater.documents]
    exact congrArg (fun d => [d]) hrests.document
  · rw [hlater.editors]
    exact congrArg (fun e => [e]) hrests.editor
  · rw [Action.allByHand_ghost]
    exact Desk.perform_bare .close hbare (Desk.close_shown k)
  · rw [hclosed.env, hlater.env]
    exact hrests.events

theorem Reachable.performAll {start w : Workspace τ}
    (h : Reachable (fun _ _ => True) start w) (as : List (Action τ)) :
    Reachable (fun _ _ => True) start (w.performAll as) := by
  induction as generalizing w with
  | nil => exact h
  | cons a rest ih => exact ih (h.step trivial)

/-- A document with ghost text shown, another completion that is due, and an
answer that is owed. -/
def busy : Workspace Scripted :=
  (sample ⟨true, false, false, none, [], false⟩).performAll
    [.openCopy, .trigger, .edit (.type ['d']), .request (.int 1),
      .answer 1 (oneCandidate "new") id]

def afterwards : List (Action Scripted) :=
  [.answer 0 (oneCandidate "late") id, .edit (.type ['e']), .openCopy, .trigger,
    .elapse 1000, .accept, .moveCursor 1, .flush, .close, .cancel, .cycle 1]

theorem closed_inert_afterwards :
    (busy.documents.map
    fun d => (d.completions.shown, d.trigger.timer.isArmed)) =
        [(some 1, true)] ∧
      (∀ d ∈ ((busy.perform .close).performAll afterwards).documents, d.Inert) ∧
      ((busy.perform .close).performAll afterwards).editors.map
        (fun e => (e.text, e.cursor)) = [(['a', '😀', 'c', 'd', 'e'], 1)] := by
  have hrun :
      Reachable (fun _ _ => True) (sample ⟨true, false, false, none, [], false⟩)
        busy :=
    Reachable.start.performAll _
  rcases closed_inert (sample_starts _) hrun afterwards with
    ⟨d, e, hinert, _, _, hdocuments, _, _, _⟩
  refine ⟨by decide +kernel, ?_, by decide +kernel⟩
  rw [hdocuments]
  intro d' hd'
  rw [List.mem_singleton.mp hd']
  exact hinert

end Workspace
end InlineCompletion
