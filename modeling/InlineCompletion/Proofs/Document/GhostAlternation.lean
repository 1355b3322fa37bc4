import InlineCompletion.Proofs.Document.CurrentCompletions

/-!
# Ghost text is shown and resolved in turn

A scene is a completion that comes to be shown, or one that is resolved.  The
scenes of a run are read off what was seen and off what is shown behind each
action.  The invariant is that they *alternate*: what comes to be shown is
resolved, once and with one outcome, before anything else comes to be shown, and
nothing else is resolved.  No completion comes to be shown twice.  The main
statement joins this to the annotation, which is there exactly while a
completion is shown and is that of its current candidate; and it says that
refusing what is shown leaves text, copy and caret as they were when it was
asked for.
-/

namespace InlineCompletion

/-- The number of the request that a completion was asked for with, if it is
known. -/
def Completions.requestId (t : Nat) (c : Completions) : Option Int :=
  (c.get? t).bind (·.id)

theorem Completions.Keeps.requestId {c c' : Completions} (h : Keeps c c')
    {t : Nat} (ht : t < c.all.length) : c'.requestId t = c.requestId t := by
  have hx : c.get? t = some (c.all[t]) := List.getElem?_eq_getElem ht
  rcases h t _ hx with ⟨x', hx', hsame⟩
  unfold Completions.requestId
  rw [hx, hx']
  exact hsame.id

inductive Scene where
  | displayed (ticket : Nat)
  | resolved (id : Option Int) (outcome : Outcome)
  deriving DecidableEq, Repr

namespace Scene

def displayed? : Scene → Option Nat
  | .displayed t => some t
  | .resolved .. => none

def resolved? : Scene → Option (Option Int × Outcome)
  | .displayed _ => none
  | .resolved id outcome => some (id, outcome)

/-- The scenes between two moments, given what was shown and seen by each: what
was resolved in between, and what is newly shown. -/
def between (shown shown' : Option Nat) (es es' : List Event) : List Scene :=
  ((es'.drop es.length).filterMap Event.resolution?).map
    (fun r => resolved r.1 r.2) ++ if shown' = shown then [] else
      shown'.toList.map displayed

theorem between_cues {lit lit' : Bool} {rs : List (Option Int × Outcome)}
    {es es' : List Event} (h : Cues lit rs lit' es es')
    (shown shown' : Option Nat) :
    between shown shown' es es' = rs.map (fun r => resolved r.1 r.2)
      ++ if shown' = shown then [] else shown'.toList.map displayed := by
  rcases h with ⟨more, rfl, hrs, _⟩
  unfold between
  rw [List.drop_left, hrs]

theorem resolved_between {lit lit' : Bool} {rs : List (Option Int × Outcome)}
    {es es' : List Event} (h : Cues lit rs lit' es es')
    (shown shown' : Option Nat) :
    (between shown shown' es es').filterMap resolved? = rs := by
  have hresolved :
      (rs.map fun r => resolved r.1 r.2).filterMap resolved? = rs := by
    rw [List.filterMap_map]
    exact List.filterMap_some
  rw [between_cues h, List.filterMap_append, hresolved]
  split
  · exact List.append_nil rs
  · cases shown' with
    | none => exact List.append_nil rs
    | some _ => exact List.append_nil rs

theorem displayed_between (shown shown' : Option Nat) (es es' : List Event) :
    (between shown shown' es es').filterMap displayed? =
      if shown' = shown then [] else shown'.toList := by
  have hresolved (rs : List (Option Int × Outcome)) :
      (rs.map fun r => resolved r.1 r.2).filterMap displayed? = [] := by
    rw [List.filterMap_map, List.filterMap_eq_nil_iff]
    exact fun _ _ => rfl
  unfold between
  rw [List.filterMap_append, hresolved, List.nil_append]
  split
  · rfl
  · cases shown' <;> rfl

/-- Whether scenes lead from what is shown at first to what is shown at last: a
completion comes to be shown where none is, and what is shown is resolved under
the number of its request. -/
inductive Plays (c : Completions) :
    Option Nat → List Scene → Option Nat → Prop where
  | still (shown : Option Nat) : Plays c shown [] shown
  | displayed {t : Nat} {ss : List Scene} {last : Option Nat}
      (h : Plays c (some t) ss last) :
      Plays c none (.displayed t :: ss) last
  | resolved {t : Nat} {outcome : Outcome} {ss : List Scene} {last : Option Nat}
      (h : Plays c none ss last) :
      Plays c (some t) (.resolved (c.requestId t) outcome :: ss) last

namespace Plays

variable {c c' : Completions} {first middle last : Option Nat}
    {ss ss' : List Scene}

theorem append (h : Plays c first ss middle) (h' : Plays c middle ss' last) :
    Plays c first (ss ++ ss') last := by
  induction h with
  | still _ => exact h'
  | displayed _ ih => exact .displayed (ih h')
  | resolved _ ih => exact .resolved (ih h')

theorem congr (h : Plays c first ss last)
    (hid : ∀ t, first = some t ∨ t ∈ ss.filterMap displayed? →
    c'.requestId t = c.requestId t) :
    Plays c' first ss last := by
  induction h with
  | still shown => exact .still shown
  | displayed _ ih =>
      rename_i t ss last _
      refine .displayed (ih ?_)
      intro t' ht'
      refine hid t' (Or.inr ?_)
      rcases ht' with heq | hmem
      · cases heq
        exact List.mem_cons_self
      · exact List.mem_cons_of_mem _ hmem
  | resolved _ ih =>
      rename_i t outcome ss last _
      rw [← hid t (Or.inl rfl)]
      refine .resolved (ih ?_)
      intro t' ht'
      exact hid t' (Or.inr (ht'.resolve_left nofun))

end Plays
end Scene

/-!
# Turns

Every action takes at most one turn: what is shown may end, and behind that
another completion may come to be shown.
-/

namespace Desk

variable {τ : Type}

inductive Takes (k k' : Desk τ) : Prop where
  | kept (hshown : k'.document.completions.shown = k.document.completions.shown)
      (hcues : Cues k.stage.isDisplayed [] k.stage.isDisplayed k.env.trace
        k'.env.trace)
  | ended {t : Nat} {outcome : Outcome}
      (hshown : k.document.completions.shown = some t)
      (hnone : k'.document.completions.shown = none)
      (hcues : Cues true [(k.document.completions.requestId t, outcome)] false
        k.env.trace k'.env.trace)
  | begun {t : Nat} (hnone : k.document.completions.shown = none)
      (hshown : k'.document.completions.shown = some t)
      (hcues : Cues false [] true k.env.trace k'.env.trace)
  | replaced {t t' : Nat} {outcome : Outcome}
      (hshown : k.document.completions.shown = some t)
      (hnew : k.document.completions.all.length ≤ t')
      (hshown' : k'.document.completions.shown = some t')
      (hcues : Cues true [(k.document.completions.requestId t, outcome)] true
        k.env.trace k'.env.trace)

namespace Takes

variable {k k' k'' : Desk τ}

theorem of_uncued
    (hshown : k'.document.completions.shown = k.document.completions.shown)
    (huncued : Uncued k.env.trace k'.env.trace) : Takes k k' :=
  .kept hshown (huncued _)

theorem behind (h : Takes k k')
    (hshown : k''.document.completions.shown = k'.document.completions.shown)
    (huncued : Uncued k'.env.trace k''.env.trace) : Takes k k'' := by
  cases h with
  | kept hsame hcues => exact .kept (hshown.trans hsame) (huncued.behind hcues)
  | ended ht hnone hcues =>
      exact .ended ht (hshown.trans hnone) (huncued.behind hcues)
  | begun hnone ht hcues =>
      exact .begun hnone (hshown.trans ht) (huncued.behind hcues)
  | replaced ht hnew ht' hcues =>
      exact .replaced ht hnew (hshown.trans ht') (huncued.behind hcues)

theorem after (h : Takes k' k'')
    (hcompletions : k'.document.completions = k.document.completions)
    (huncued : Uncued k.env.trace k'.env.trace) : Takes k k'' := by
  have hdisplayed : k'.stage.isDisplayed = k.stage.isDisplayed :=
    congrArg (fun c : Completions => c.shown.isSome) hcompletions
  cases h with
  | kept hsame hcues =>
      rw [hdisplayed] at hcues
      rw [hcompletions] at hsame
      exact .kept hsame (huncued.before hcues)
  | ended ht hnone hcues =>
      rw [hcompletions] at ht hcues
      exact .ended ht hnone (huncued.before hcues)
  | begun hnone ht hcues =>
      rw [hcompletions] at hnone
      exact .begun hnone ht (huncued.before hcues)
  | replaced ht hnew ht' hcues =>
      rw [hcompletions] at ht hnew hcues
      exact .replaced ht hnew ht' (huncued.before hcues)

theorem thenBegun (h : Takes k k')
    (hnone : k'.document.completions.shown = none) {t : Nat}
    (hnew : k.document.completions.all.length ≤ t)
    (ht : k''.document.completions.shown = some t)
    (hbegun : Cues false [] true k'.env.trace k''.env.trace) : Takes k k'' := by
  cases h with
  | kept hsame hcues =>
      have hfirst := hsame.symm.trans hnone
      have hdark : k.stage.isDisplayed = false := congrArg Option.isSome hfirst
      rw [hdark] at hcues
      exact .begun hfirst ht (hcues.trans hbegun)
  | ended hshown _ hcues => exact .replaced hshown hnew ht (hcues.trans hbegun)
  | begun _ hshown _ => exact absurd (hnone.symm.trans hshown) (by simp)
  | replaced _ _ hshown _ => exact absurd (hnone.symm.trans hshown) (by simp)

theorem finish (outcome : Outcome) (k : Desk τ) :
    Takes k (k.onStage (Stage.finish outcome)) := by
  have hnone := Stage.finish_shown outcome k.stage
  cases hshown : k.document.completions.shown with
  | none =>
      have hsame := Stage.finish_of_shown_eq_none (s := k.stage) outcome hshown
      refine of_uncued (hnone.trans hshown.symm) ?_
      show Uncued k.env.trace (k.stage.finish outcome).trace
      rw [hsame]
      exact .refl _
  | some t =>
      exact .ended hshown hnone
        (Stage.finish_cues (s := k.stage) hshown outcome true)

theorem cycle (places : Int) (k : Desk τ) :
    Takes k (k.runStage (Stage.cycle places)).2 := by
  show Takes k (k.withStage (k.stage.cycle places).2)
  rcases Stage.cycle_cases places k.stage with
    hsame | ⟨t, x, i, ht, hx, hrendered⟩
  · rw [hsame]
    exact of_uncued rfl (.refl _)
  · rw [hrendered]
    have hlit : k.stage.isDisplayed = true := congrArg Option.isSome ht
    refine .kept rfl ?_
    rw [hlit]
    exact Stage.render_cues _ true _

theorem receive (ticket : Nat) (message : Json) {k : Desk τ}
    (hshown : k.document.completions.live = some ticket →
    k.document.completions.shown = none) :
    Takes k (k.receive ticket message) := by
  cases receive_answered ticket message k hshown with
  | ignored hcompletions _ huncued =>
      exact of_uncued (congrArg Completions.shown hcompletions) huncued
  | dropped _ _ hsame _ _ _ huncued => exact of_uncued hsame huncued
  | displayed hlive _ _ _ hcompletions _ _ hcues =>
      exact .begun (hshown hlive) (congrArg Completions.shown hcompletions)
        hcues

end Takes
/-!
# Edits, and what is accepted
-/

theorem edit_uncued {f : Editor → Option Edit × Editor} {k : Desk τ}
    (hnone : k.document.completions.shown = none) :
    (k.edit f).document.completions.shown = none ∧ Uncued k.env.trace
    (k.edit f).env.trace := by
  have hedited (e : Edit) : Uncued k.env.trace (k.env.trace ++ [.edited e]) :=
    .append _ rfl fun _ => rfl
  unfold edit
  cases (f k.editor).1 with
  | none => exact ⟨hnone, .refl _⟩
  | some e =>
      dsimp only
      cases hclosed : k.document.closed with
      | true =>
          rw [recordEdit_closed e (by exact hclosed)]
          exact ⟨hnone, hedited e⟩
      | false =>
          let k₁ : Desk τ :=
            { k with editor := (f k.editor).2 }.emit (.edited e)
          have hsame :=
            Stage.finish_of_shown_eq_none (s := k₁.stage) .canceled hnone
          constructor
          · rw [(recordEdit_stage e (by exact hclosed)).1]
            exact Stage.finish_shown .canceled k₁.stage
          · rw [recordEdit_trace e (by exact hclosed)]
            show Uncued k.env.trace (k₁.stage.finish .canceled).trace
            rw [hsame]
            exact hedited e

theorem Takes.recordEdit (e : Edit) (k : Desk τ) :
    Takes k (k.recordEdit e) := by
  cases hclosed : k.document.closed with
  | true =>
      rw [recordEdit_closed e hclosed]
      exact of_uncued rfl (.refl _)
  | false =>
      refine (finish .canceled k).behind ?_ ?_
      · rw [(recordEdit_stage e hclosed).1]
        rfl
      · rw [recordEdit_trace e hclosed]
        exact .refl _

theorem Takes.edit (f : Editor → Option Edit × Editor) (k : Desk τ) :
    Takes k (k.edit f) := by
  unfold Desk.edit
  cases (f k.editor).1 with
  | none => exact of_uncued rfl (.refl _)
  | some e =>
      let edited : Desk τ :=
        ({ k with editor := (f k.editor).2 } : Desk τ).emit (.edited e)
      have huncued : Uncued k.env.trace edited.env.trace :=
        .append _ rfl fun _ => rfl
      exact (recordEdit e edited).after rfl huncued

theorem Takes.moveCursor (offset : Int) (k : Desk τ) :
    Takes k (k.onEditor (Editor.moveCursor offset)) :=
  of_uncued rfl (Stage.moveCursor_uncued offset k.stage)

theorem Takes.accept (k : Desk τ) : Takes k k.accept := by
  have hstaged : Takes k (k.withStage k.stage.accept.2) := by
    rcases Stage.accept_stage k.stage with hstage | hstage
    · rw [hstage]
      exact of_uncued rfl (.refl _)
    · rw [hstage]
      exact finish .accepted k
  rcases accept_cases k with ⟨haccept, _⟩ | ⟨e, hedit, _, haccept⟩
  · rw [haccept]
    exact hstaged
  · rw [haccept]
    have hnone :
        (k.withStage k.stage.accept.2).document.completions.shown = none := by
      rw [Stage.accept_of_edit hedit]
      exact Stage.finish_shown .accepted k.stage
    rcases edit_uncued (f := Editor.replace e) hnone with ⟨hnone', huncued⟩
    have hedited := hstaged.behind (hnone'.trans hnone.symm) huncued
    exact hedited.behind rfl (Stage.moveCursor_uncued _ (Desk.stage _))

theorem Takes.cancel (k : Desk τ) : Takes k (k.runStage Stage.cancel).2 := by
  show Takes k (k.withStage k.stage.cancel.2)
  unfold Stage.cancel
  split
  · exact (finish .canceled k).behind rfl
      (Stage.moveCursor_uncued _ (k.stage.finish .canceled))
  · exact of_uncued rfl (.refl _)

end Desk

theorem Desk.tell_uncued {τ : Type} (n : Notice) (k : Desk τ) :
    Uncued k.env.trace (k.tell n).env.trace :=
  .append _ rfl fun _ => rfl

theorem Desk.tellFault_uncued {τ α : Type} (r : Except Fault α × Desk τ) :
    Uncued r.2.env.trace (Desk.tellFault r).env.trace := by
  unfold Desk.tellFault
  cases r.1 with
  | error f => exact Desk.tell_uncued _ _
  | ok _ => exact .refl _

theorem Desk.tellFault_document {τ α : Type} (r : Except Fault α × Desk τ) :
    (Desk.tellFault r).document = r.2.document := by
  unfold Desk.tellFault
  cases r.1 <;> rfl

/-!
# What gives no cue

Whatever a document tells the agent, and whatever becomes of that, resolves
nothing and shows nothing.
-/

section Linked

variable {τ : Type} [Link τ]

theorem Sync.Announcement.uncued {text : Text} {language : String} {s s' : Sync}
    {env env' : Env τ} {ok : Bool}
    (h : Sync.Announcement text language s env (ok, s', env')) :
    Uncued env.trace env'.trace := by
  cases h with
  | offline _ => exact .refl _
  | refused _ _ => exact .append _ rfl fun _ => rfl
  | taken _ _ => exact .append _ rfl fun _ => rfl

theorem Sync.Delivery.uncued {s s' : Sync} {env env' : Env τ} {ok : Bool}
    (h : Sync.Delivery s env (ok, s', env')) : Uncued env.trace env'.trace := by
  cases h with
  | nothing _ => exact .refl _
  | offline _ _ => exact .append _ rfl fun _ => rfl
  | refused _ _ _ => exact .append _ rfl fun _ => rfl
  | taken _ _ _ => exact .append _ rfl fun _ => rfl

theorem Sync.Closing.uncued {s s' : Sync} {env env' : Env τ}
    (h : Sync.Closing s env (s', env')) : Uncued env.trace env'.trace := by
  cases h with
  | unsaid _ => exact .refl _
  | refused _ _ _ => exact .append _ rfl fun _ => rfl
  | taken _ _ _ => exact .append _ rfl fun _ => rfl

namespace Desk

variable {k k' : Desk τ}

theorem openCopy_uncued (k : Desk τ) :
    Uncued k.env.trace k.openCopy.2.env.trace := by
  have hopening := opening k
  revert hopening
  generalize k.openCopy = r
  intro hopening
  cases hopening with
  | closed _ => exact .refl _
  | failed _ h => exact h.uncued
  | done _ h => exact h.uncued.trans (tell_uncued _ _)

theorem Flushing.uncued {r : Bool × Desk τ} (h : Flushing k r) :
    Uncued k.env.trace r.2.env.trace := by
  cases h with
  | delivered _ h => exact h.uncued
  | unopened _ _ => exact tell_uncued _ _
  | failed _ _ h => exact h.uncued.trans (tell_uncued _ _)
  | reopened _ _ h => exact h.uncued.trans (tell_uncued _ _)

/-!
# Asking and alarms

Of the alarms that go off as time goes on, at most one asks for a completion, as
asking sets none.
-/

theorem Asking.takes {kind : TriggerKind}
    {r : Except Fault (Option Nat) × Desk τ} (h : Asking kind k r) :
    Takes k r.2 := by
  have hposed : Takes k (k.posed kind) :=
    (Takes.finish .superseded k).behind rfl (.refl _)
  have hnone := posed_shown kind k
  cases h with
  | oneWay _ => exact hposed.behind rfl (.append _ rfl fun _ => rfl)
  | refused _ _ =>
      exact hposed.behind rfl
        ((Uncued.append _ rfl fun _ => rfl).trans (tell_uncued _ _))
  | deferred _ => exact hposed.behind rfl (.append _ rfl fun _ => rfl)
  | answered hlink =>
      rename_i id message link
      have hsent : Uncued (k.posed kind).env.trace
          ((k.posed kind).seeing link
            [.sent (.request id (k.question kind))]).env.trace :=
        .append _ rfl fun _ => rfl
      have hasked : Takes k ((k.posed kind).seeing link
          [.sent (.request id (k.question kind))]) := hposed.behind rfl hsent
      cases receive_answered k.nextTicket message ((k.posed kind).seeing link
          [.sent (.request id (k.question kind))]) fun _ => hnone with
      | ignored hcompletions _ huncued =>
          have hsame := congrArg Completions.shown hcompletions
          exact hasked.behind hsame huncued
      | dropped _ _ hsame _ _ _ huncued => exact hasked.behind hsame huncued
      | displayed _ _ _ _ hcompletions _ _ hcues =>
          have hshown := congrArg Completions.shown hcompletions
          exact hasked.thenBegun hnone (Nat.le_of_eq (nextTicket_eq k).symm)
            hshown hcues

theorem Requesting.takes (h : Requesting k k') : Takes k k' := by
  cases h with
  | closed _ => exact .of_uncued rfl (.refl _)
  | offline _ => exact .of_uncued rfl (tell_uncued _ _)
  | unsynced hflush =>
      exact .of_uncued (congrArg Completions.shown hflush.frame.1)
        (hflush.uncued.trans (tell_uncued _ _))
  | unknown hflush =>
      exact .of_uncued (congrArg Completions.shown hflush.frame.1) hflush.uncued
  | asked _ hflush hask => exact hask.takes.after hflush.frame.1 hflush.uncued

theorem Flushing.trigger {r : Bool × Desk τ} (h : Flushing k r) :
    r.2.document.trigger = k.document.trigger := by
  cases h <;> rfl

theorem Asking.trigger {kind : TriggerKind}
    {r : Except Fault (Option Nat) × Desk τ} (h : Asking kind k r) :
    r.2.document.trigger = k.document.trigger := by
  cases h with
  | answered hlink =>
      rename_i id message link
      rcases receive_stage k.nextTicket message ((k.posed kind).seeing link
        [.sent (.request id (k.question kind))]) with ⟨s, hs, _⟩
      rw [hs]
      rfl
  | _ => rfl

theorem Requesting.trigger (h : Requesting k k') :
    k'.document.trigger = k.document.trigger := by
  cases h with
  | unsynced hflush => exact hflush.trigger
  | unknown hflush => exact hflush.trigger
  | asked _ hflush hask => exact hask.trigger.trans hflush.trigger
  | _ => rfl

theorem ringFlush_uncued (a : Alarm) (k : Desk τ) :
    Uncued k.env.trace (k.ringFlush a).env.trace ∧
      (k.ringFlush a).document.completions = k.document.completions ∧
      (k.ringFlush a).document.trigger = k.document.trigger := by
  have hflush := flushing (((k.atTime a.due).withSync k.document.sync.unschedule
    (k.atTime a.due).env).emit (.fired a.due))
  have hfired : Uncued k.env.trace (k.env.trace ++ [.fired a.due]) :=
    .append _ rfl fun _ => rfl
  exact ⟨hfired.trans hflush.uncued, hflush.frame.1, hflush.trigger⟩

theorem Takes.ringTrigger (a : Alarm) (k : Desk τ) :
    Takes k (k.ringTrigger a) := by
  let fired : Desk τ :=
    ((k.atTime a.due).withTrigger k.document.trigger.cancel).emit (.fired a.due)
  have huncued : Uncued k.env.trace fired.env.trace :=
    .append _ rfl fun _ => rfl
  have hrequested : Takes fired (fired.request .automatic).2 :=
    (request_requesting .automatic fired).takes
  have htakes : Takes k (fired.request .automatic).2 :=
    hrequested.after rfl huncued
  exact htakes.behind (congrArg (·.completions.shown) (tellFault_document _))
    (tellFault_uncued _)

theorem ringTrigger_alarm (a : Alarm) (k : Desk τ) :
    (k.ringTrigger a).document.trigger.timer.alarm = none := by
  have hrequested := (request_requesting .automatic
    (((k.atTime a.due).withTrigger k.document.trigger.cancel).emit
      (.fired a.due))).trigger
  have hdocument : (k.ringTrigger a).document = (Desk.request .automatic
      (((k.atTime a.due).withTrigger k.document.trigger.cancel).emit
        (.fired a.due))).2.document :=
    tellFault_document _
  rw [hdocument, hrequested]
  rfl

theorem Takes.advance (milliseconds : Int) (k : Desk τ) :
    Takes k (k.advance milliseconds) := by
  -- Either nothing was asked yet, or the alarm that asks is no longer set.
  let P (k' : Desk τ) : Prop :=
    (k'.document.completions = k.document.completions ∧
      Uncued k.env.trace k'.env.trace) ∨
      (k'.document.trigger.timer.alarm = none ∧ Takes k k')
  have hrung : P (Alarm.ring alarms Desk.ring (k.env.clock.now + milliseconds)
      k.alarms.length k) := by
    refine Alarm.ring_keeps_of_mem ?_ _ (Or.inl ⟨rfl, .refl _⟩)
    intro k' bell a hk' ha
    cases bell with
    | flush _ =>
        rcases ringFlush_uncued a k' with ⟨huncued', hcompletions', htrigger'⟩
        rcases hk' with ⟨hcompletions, huncued⟩ | ⟨halarm, htakes⟩
        · exact Or.inl
            ⟨hcompletions'.trans hcompletions, huncued.trans huncued'⟩
        · refine Or.inr
            ⟨?_, htakes.behind (congrArg Completions.shown hcompletions')
              huncued'⟩
          exact (congrArg (·.timer.alarm) htrigger').trans halarm
    | trigger _ =>
        rcases hk' with ⟨hcompletions, huncued⟩ | ⟨halarm, _⟩
        · exact Or.inr
            ⟨ringTrigger_alarm a k',
              (ringTrigger a k').after hcompletions huncued⟩
        · simp [alarms, Workspace.alarmsOf, halarm] at ha
  rcases hrung with ⟨hcompletions, huncued⟩ | ⟨_, htakes⟩
  · exact of_uncued (congrArg Completions.shown hcompletions) huncued
  · exact htakes.behind rfl (.refl _)

theorem Takes.close (k : Desk τ) : Takes k k.close := by
  have hfinished :
      Takes k ((k.withTrigger k.document.trigger.cancel).onStage
        Stage.supersede) :=
    (finish .superseded (k.withTrigger k.document.trigger.cancel)).after rfl
      (.refl _)
  have hclosing := (Sync.closing k.document.sync
    ((k.withTrigger k.document.trigger.cancel).onStage
      Stage.supersede).invalidate.env).uncued
  exact hfinished.behind rfl (hclosing.trans (.append _ rfl fun _ => rfl))

end Desk
end Linked

namespace Desk

variable {τ : Type}

/-- Every action takes at most one turn. -/
theorem Takes.perform [Link τ] {k : Desk (Accounted τ)}
    {a : Action (Accounted τ)} (hk : k.Cast) (ha : k.Fair a) :
    Takes k (k.perform a) := by
  cases a with
  | edit g => exact edit g.run k
  | moveCursor offset => exact moveCursor offset k
  | select anchor position => exact of_uncued rfl (.append _ rfl fun _ => rfl)
  | openCopy =>
      exact of_uncued (congrArg Completions.shown (openCopy_frame k).1)
        (openCopy_uncued k)
  | close => exact close k
  | flush =>
      exact of_uncued (congrArg Completions.shown (Desk.flushing k).frame.1)
        (Desk.flushing k).uncued
  | trigger =>
      have hrequested := (request_requesting .invoked
        (k.withTrigger k.document.trigger.cancel)).takes
      exact hrequested.after rfl (.refl _)
  | request reason => exact (requestFor_requesting reason k).takes
  | accept => exact accept k
  | cancel => exact cancel k
  | cycle places => exact cycle places k
  | supersede => exact finish .superseded k
  | answer ticket message note =>
      have hreceived :
          Takes (k.relinked note) ((k.relinked note).receive ticket message) :=
        receive ticket message fun hlive => hk.shown_of_owed ha.1 hlive
      exact hreceived.after rfl (.refl _)
  | flushAlarm a =>
      rcases ringFlush_uncued a k with ⟨huncued, hcompletions, _⟩
      exact of_uncued (congrArg Completions.shown hcompletions) huncued
  | triggerAlarm a => exact ringTrigger a k
  | elapse milliseconds => exact advance milliseconds k
  | disturb f => exact of_uncued rfl (.refl _)

/-!
# What scenes tell

The scenes of a run tell what is shown behind it.  What was shown once does not
count any longer once it ended, so that no answer shows it again.
-/

def scenes (k k' : Desk τ) : List Scene :=
  Scene.between k.document.completions.shown k'.document.completions.shown
    k.env.trace k'.env.trace

/-- Whether scenes tell what became of the completions of a desk since a
trace. -/
structure Told (es : List Event) (ss : List Scene) (k : Desk (Accounted τ)) :
    Prop where
  plays : Scene.Plays k.document.completions none ss
    k.document.completions.shown
  once : (ss.filterMap Scene.displayed?).Nodup
  past : ∀ t ∈ ss.filterMap Scene.displayed?, t <
    k.document.completions.all.length ∧
    (k.Counts t → k.document.completions.shown = some t)
  cues : Cues false (ss.filterMap Scene.resolved?) k.stage.isDisplayed es
    k.env.trace

theorem Cast.lt_of_shown {k : Desk (Accounted τ)} (h : k.Cast) {t : Nat}
    (ht : k.document.completions.shown = some t) :
    t < k.document.completions.all.length := by
  rcases h.painted t ht with ⟨x, hx, _⟩
  exact Completions.lt_of_get? hx

namespace Takes

variable {k k' : Desk (Accounted τ)}

/-- The scenes of a turn lead from what was shown to what is shown. -/
theorem plays (h : Takes k k') (hk : k.Cast) (hgoes : Goes k k') :
    Scene.Plays k'.document.completions k.document.completions.shown
      (k.scenes k') k'.document.completions.shown := by
  have hid (t : Nat) (ht : k.document.completions.shown = some t) :
      k'.document.completions.requestId t =
        k.document.completions.requestId t :=
    hgoes.kept.requestId (hk.lt_of_shown ht)
  unfold scenes
  cases h with
  | kept hshown hcues =>
      rw [Scene.between_cues hcues, if_pos hshown, hshown]
      exact .still _
  | ended hshown hnone hcues =>
      rw [Scene.between_cues hcues, hshown, hnone,
        if_neg (by simp), ← hid _ hshown]
      exact .resolved (.still none)
  | begun hnone hshown hcues =>
      rw [Scene.between_cues hcues, hshown, hnone, if_neg (by simp)]
      exact .displayed (.still _)
  | replaced hshown hnew hshown' hcues =>
      rename_i t t' outcome
      have hlt := hk.lt_of_shown hshown
      have hother : t' ≠ t := by omega
      rw [Scene.between_cues hcues, hshown, hshown',
        if_neg (by simpa using hother), ← hid t hshown]
      exact .resolved (.displayed (.still _))

/-- The scenes of a turn have what was resolved in it, and ghost text is lit
behind it if and only if a completion is shown. -/
theorem cues (h : Takes k k') :
    Cues k.stage.isDisplayed ((k.scenes k').filterMap Scene.resolved?)
      k'.stage.isDisplayed k.env.trace k'.env.trace := by
  unfold scenes
  cases h with
  | kept hshown hcues =>
      have hsame : k'.stage.isDisplayed = k.stage.isDisplayed :=
        congrArg Option.isSome hshown
      rw [Scene.resolved_between hcues, hsame]
      exact hcues
  | ended hshown hnone hcues =>
      have hlit : k.stage.isDisplayed = true := congrArg Option.isSome hshown
      have hdark : k'.stage.isDisplayed = false := congrArg Option.isSome hnone
      rw [Scene.resolved_between hcues, hlit, hdark]
      exact hcues
  | begun hnone hshown hcues =>
      have hdark : k.stage.isDisplayed = false := congrArg Option.isSome hnone
      have hlit : k'.stage.isDisplayed = true := congrArg Option.isSome hshown
      rw [Scene.resolved_between hcues, hdark, hlit]
      exact hcues
  | replaced hshown _ hshown' hcues =>
      have hlit : k.stage.isDisplayed = true := congrArg Option.isSome hshown
      have hlit' : k'.stage.isDisplayed = true := congrArg Option.isSome hshown'
      rw [Scene.resolved_between hcues, hlit, hlit']
      exact hcues

end Takes

namespace Told

variable {k k' : Desk (Accounted τ)} {es : List Event} {ss : List Scene}

theorem past_goes (h : Told es ss k) (hk : k.Cast) (hgoes : Goes k k') {t : Nat}
    (ht : t ∈ ss.filterMap Scene.displayed?) (hcounts : k'.Counts t) :
    k.document.completions.shown = some t ∧
      k'.document.completions.shown = some t := by
  rcases h.past t ht with ⟨hlt, hshown⟩
  have hbefore := hshown (hgoes.counts t hlt hcounts).1
  have howes : ¬ k'.Owes t :=
    fun howes => (hk.shown t hbefore).2 (hgoes.owes t hlt howes)
  exact ⟨hbefore, hcounts.2.resolve_left howes⟩

/-- Scenes go on telling behind another turn. -/
theorem turn (h : Told es ss k) (hk : k.Cast) (hgoes : Goes k k')
    (htakes : Takes k k') :
    Told es (ss ++ k.scenes k') k' := by
  have hnew (t : Nat) (ht : t ∈ (k.scenes k').filterMap Scene.displayed?) :
      k'.document.completions.shown = some t ∧
        k.document.completions.shown ≠ some t := by
    unfold scenes at ht
    rw [Scene.displayed_between] at ht
    split at ht
    · cases ht
    · rename_i hother
      have hshown := Option.mem_toList.mp ht
      exact ⟨hshown, fun hsame => hother (hshown.trans hsame.symm)⟩
  refine ⟨?_, ?_, ?_, ?_⟩
  · refine .append (h.plays.congr ?_) (htakes.plays hk hgoes)
    intro t ht
    exact hgoes.kept.requestId (h.past t (ht.resolve_left nofun)).1
  · rw [List.filterMap_append, List.nodup_append]
    refine ⟨h.once, ?_, ?_⟩
    · unfold scenes
      rw [Scene.displayed_between]
      split
      · exact List.nodup_nil
      · cases k'.document.completions.shown <;> simp
    · intro t ht t' ht' heq
      subst heq
      rcases hnew t ht' with ⟨hshown', hother⟩
      exact hother (h.past_goes hk hgoes ht (hgoes.cast.counts_shown hshown')).1
  · intro t ht
    rw [List.filterMap_append, List.mem_append] at ht
    rcases ht with hpast | ht
    · exact ⟨Nat.lt_of_lt_of_le (h.past t hpast).1 hgoes.size,
        fun hcounts => (h.past_goes hk hgoes hpast hcounts).2⟩
    · have hshown := (hnew t ht).1
      exact ⟨hgoes.cast.lt_of_shown hshown, fun _ => hshown⟩
  · rw [List.filterMap_append]
    exact h.cues.trans htakes.cues

end Told
end Desk
end InlineCompletion
