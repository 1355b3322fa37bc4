import InlineCompletion.Proofs.Document.Answer

/-!
# Turning to other candidates

While a completion is shown, only turning to another candidate changes which one
is current, and it goes so many places on as it is asked to, around the list.
The main statement is that every action turns what stays shown by its own places
and no others, and that whatever comes to be shown begins with its first
candidate.
-/

namespace InlineCompletion

def Action.places {τ : Type} : Action τ → Int
  | .cycle places => places
  | _ => 0

namespace Completions

/-- Whether what stays shown is turned by some places, and what comes to be
shown is at its first candidate. -/
structure Turns (places : Int) (c c' : Completions) : Prop where
  kept : ∀ t x, c.shown = some t → c.get? t = some x → c'.shown = some t →
    ∃ x', c'.get? t = some x' ∧ x'.candidates = x.candidates ∧
      x'.index % x.candidates.length = (x.index + places) % x.candidates.length
  begun : ∀ t x', c.shown ≠ some t → c'.shown = some t → c'.get? t = some x' →
    x'.index % x'.candidates.length = 0

namespace Turns

variable {c c' : Completions} {places : Int}

theorem refl (c : Completions) : Turns 0 c c where
  kept _ x _ hx _ := ⟨x, hx, rfl, by rw [Int.add_zero]⟩
  begun _ _ hother hshown _ := absurd hshown hother

theorem of_none (hnone : c'.shown = none) : Turns places c c' where
  kept _ _ _ _ hshown := absurd (hnone.symm.trans hshown) (by simp)
  begun _ _ _ hshown _ := absurd (hnone.symm.trans hshown) (by simp)

theorem of_begun {ticket : Nat} {x : Completion}
    (hother : c.shown = some ticket → c.get? ticket = none)
    (hshown : c'.shown = some ticket) (hx : c'.get? ticket = some x)
    (hindex : x.index = 0) : Turns places c c' where
  kept t _ hshown' hy ht := by
    cases hshown.symm.trans ht
    cases (hother hshown').symm.trans hy
  begun t y _ ht hy := by
    cases hshown.symm.trans ht
    cases hx.symm.trans hy
    rw [hindex, Int.zero_emod]

theorem named (h : Turns places c c') (ticket : Nat) (id : Int) :
    Turns places c (c'.modify ticket fun x => { x with id := some id }) := by
  constructor
  · intro t x hshown hx hshown'
    rcases h.kept t x hshown hx hshown' with ⟨x', hx', hcandidates, hindex⟩
    rcases get?_modify ticket (fun x => { x with id := some id }) hx' with
      hsame | hnamed
    · exact ⟨x', hsame, hcandidates, hindex⟩
    · exact ⟨_, hnamed, hcandidates, hindex⟩
  · intro t x' hother hshown hx'
    have hlt : t < c'.all.length := by
      have hlength := lt_of_get? hx'
      rwa [length_modify] at hlength
    have hy := List.getElem?_eq_getElem hlt
    have hindex := h.begun t _ hother hshown hy
    rcases get?_modify ticket (fun x => { x with id := some id }) hy with
      hsame | hnamed
    · cases hsame.symm.trans hx'
      exact hindex
    · cases hnamed.symm.trans hx'
      exact hindex

end Turns
end Completions

namespace Stage

open Completions

theorem cycle_turns (places : Int) {s : Stage}
    (hcandidates : ∀ t x, s.completions.shown = some t →
    s.completions.get? t = some x →
      x.candidates ≠ []) : Turns places s.completions
        (s.cycle places).2.completions := by
  constructor
  · intro t x hshown hx _
    have hone := Completions.shownOne?_eq hshown hx
    have hsome := List.length_pos_iff.mpr (hcandidates t x hshown hx)
    unfold cycle
    rw [hshown, hone]
    dsimp only
    split
    · next hfew =>
        -- the only candidate stays current, however many places on
        have hlength : (x.candidates.length : Int) = 1 := by omega
        refine ⟨x, hx, rfl, ?_⟩
        rw [hlength, Int.emod_one, Int.emod_one]
    · exact ⟨_, get?_modify_self _ hx, rfl,
        Int.emod_emod_of_dvd _ (Int.dvd_refl _)⟩
  · intro t x' hother hshown' _
    rw [(s.cycle_shown places).1] at hshown'
    exact absurd hshown' hother

end Stage

namespace Desk

open Completions

variable {τ : Type}

theorem receive_turns {k : Desk τ} (ticket : Nat) (message : Json)
    (hshown : k.document.completions.live = some ticket →
    k.document.completions.shown = none) :
    Turns 0 k.document.completions
      (k.receive ticket message).document.completions := by
  cases receive_answered ticket message k hshown with
  | ignored hcompletions _ _ =>
      rw [hcompletions]
      exact .refl _
  | dropped hlive _ hsame _ _ _ _ => exact .of_none (hsame.trans (hshown hlive))
  | displayed hlive hx _ _ hcompletions _ _ _ =>
      rw [hcompletions]
      refine .of_begun ?_ rfl (get?_modify_self _ hx) rfl
      rw [hshown hlive]
      exact fun hshown => nomatch hshown

/-- Where an edit is reported, nothing is shown behind it; where none is, the
completions stay. -/
theorem edit_turns (f : Editor → Option Edit × Editor) (k : Desk τ) :
    Turns 0 k.document.completions (k.edit f).document.completions := by
  unfold edit
  cases (f k.editor).1 with
  | none => exact .refl _
  | some e =>
      let edited : Desk τ :=
        ({ k with editor := (f k.editor).2 } : Desk τ).emit (.edited e)
      show Turns 0 k.document.completions
        (edited.recordEdit e).document.completions
      cases hclosed : edited.document.closed with
      | true =>
          rw [recordEdit_closed e hclosed]
          exact .refl _
      | false =>
          rw [(recordEdit_stage e hclosed).1]
          exact .of_none (Stage.finish_shown .canceled edited.stage)

theorem accept_turns (k : Desk τ) :
    Turns 0 k.document.completions k.accept.document.completions := by
  have hstaged :
      Turns 0 k.document.completions
        (k.withStage k.stage.accept.2).document.completions := by
    rcases Stage.accept_stage k.stage with hstage | hstage
    · rw [hstage]
      exact .refl _
    · rw [hstage]
      exact .of_none (Stage.finish_shown .accepted k.stage)
  rcases accept_cases k with ⟨haccept, _⟩ | ⟨e, hedit, _, haccept⟩
  · rw [haccept]
    exact hstaged
  · have hnone :
        (k.withStage k.stage.accept.2).document.completions.shown = none := by
      rw [Stage.accept_of_edit hedit]
      exact Stage.finish_shown .accepted k.stage
    rw [haccept]
    exact .of_none (edit_uncued hnone).1

section Linked

variable [Link τ]

theorem Asking.turns {kind : TriggerKind} {k : Desk τ}
    {r : Except Fault (Option Nat) × Desk τ} (h : Asking kind k r) :
    Turns 0 k.document.completions r.2.document.completions := by
  have hnone := posed_shown kind k
  cases h with
  | oneWay _ => exact .of_none hnone
  | refused _ _ => exact .of_none hnone
  | deferred _ => exact .of_none hnone
  | answered hlink =>
      rename_i id message link
      have hold : k.document.completions.get? k.nextTicket = none := by
        rw [nextTicket_eq]
        exact List.getElem?_eq_none (Nat.le_refl _)
      refine Turns.named ?_ _ _
      cases receive_answered k.nextTicket message ((k.posed kind).seeing link
          [.sent (.request id (k.question kind))]) fun _ => hnone with
      | ignored hcompletions _ _ =>
          rw [hcompletions]
          exact .of_none hnone
      | dropped _ _ hsame _ _ _ _ => exact .of_none (hsame.trans hnone)
      | displayed _ hx _ _ hcompletions _ _ _ =>
          rw [hcompletions]
          exact .of_begun (fun _ => hold) rfl (get?_modify_self _ hx) rfl

theorem Requesting.turns {k k' : Desk τ} (h : Requesting k k') :
    Turns 0 k.document.completions k'.document.completions := by
  have hflushed {r : Bool × Desk τ} (h : Flushing k r) :
      Turns 0 k.document.completions r.2.document.completions := by
    rw [h.frame.1]
    exact .refl _
  cases h with
  | closed _ => exact .refl _
  | offline _ => exact .refl _
  | unsynced hflush => exact hflushed hflush
  | unknown hflush => exact hflushed hflush
  | asked _ hflush hask =>
      have hturns := hask.turns
      rw [hflush.frame.1] at hturns
      exact hturns

theorem ringTrigger_turns (a : Alarm) (k : Desk τ) :
    Turns 0 k.document.completions (k.ringTrigger a).document.completions := by
  have hrequested := (request_requesting .automatic
    (((k.atTime a.due).withTrigger k.document.trigger.cancel).emit
      (.fired a.due))).turns
  show Turns 0 _ (tellFault _).document.completions
  rw [tellFault_document]
  exact hrequested

theorem advance_turns (milliseconds : Int) (k : Desk τ) :
    Turns 0 k.document.completions
      (k.advance milliseconds).document.completions := by
  -- either nothing was asked yet, or the alarm that asks is no longer set
  let P (k' : Desk τ) : Prop :=
    k'.document.completions = k.document.completions ∨
      (k'.document.trigger.timer.alarm = none ∧
        Turns 0 k.document.completions k'.document.completions)
  have hrung : P (Alarm.ring alarms Desk.ring (k.env.clock.now + milliseconds)
      k.alarms.length k) := by
    refine Alarm.ring_keeps_of_mem ?_ _ (Or.inl rfl)
    intro k' bell a hk' ha
    cases bell with
    | flush _ =>
        rcases ringFlush_uncued a k' with ⟨_, hcompletions', htrigger'⟩
        rcases hk' with hcompletions | ⟨halarm, hturns⟩
        · exact Or.inl (hcompletions'.trans hcompletions)
        · refine Or.inr ⟨(congrArg (·.timer.alarm) htrigger').trans halarm, ?_⟩
          show Turns 0 _ (k'.ringFlush a).document.completions
          rw [hcompletions']
          exact hturns
    | trigger _ =>
        rcases hk' with hcompletions | ⟨halarm, _⟩
        · exact Or.inr
            ⟨ringTrigger_alarm a k', hcompletions ▸ ringTrigger_turns a k'⟩
        · simp [alarms, Workspace.alarmsOf, halarm] at ha
  rcases hrung with hcompletions | ⟨_, hturns⟩
  · show Turns 0 _
      (Alarm.ring alarms Desk.ring _ k.alarms.length k).document.completions
    rw [hcompletions]
    exact .refl _
  · exact hturns

end Linked

/-- Every action turns what stays shown by its own places, and shows what it
shows newly at its first candidate. -/
theorem perform_turns [Link τ] {k : Desk (Accounted τ)}
    {a : Action (Accounted τ)} (hk : k.Cast) (ha : k.Fair a) :
    Turns a.places k.document.completions
      (k.perform a).document.completions := by
  cases a with
  | edit g => exact edit_turns g.run k
  | moveCursor offset => exact .refl _
  | select anchor position => exact .refl _
  | openCopy =>
      show Turns 0 _ k.openCopy.2.document.completions
      rw [(openCopy_frame k).1]
      exact .refl _
  | close => exact .of_none (close_shown k)
  | flush =>
      show Turns 0 _ k.flush.2.document.completions
      rw [(Desk.flushing k).frame.1]
      exact .refl _
  | trigger =>
      exact (request_requesting .invoked
        (k.withTrigger k.document.trigger.cancel)).turns
  | request reason => exact (requestFor_requesting reason k).turns
  | accept => exact accept_turns k
  | cancel =>
      show Turns 0 _ k.stage.cancel.2.completions
      unfold Stage.cancel
      split
      · exact .of_none (Stage.finish_shown .canceled k.stage)
      · exact .refl _
  | cycle places =>
      apply Stage.cycle_turns (s := k.stage) places
      intro t x hshown hx
      rcases hk.painted t hshown with ⟨y, hy, hcandidates, _⟩
      cases hy.symm.trans hx
      exact hcandidates
  | supersede => exact .of_none (Stage.finish_shown .superseded k.stage)
  | answer ticket message note =>
      exact receive_turns (k := k.relinked note) ticket message fun hlive =>
        hk.shown_of_owed ha.1 hlive
  | flushAlarm a =>
      show Turns 0 _ (k.ringFlush a).document.completions
      rw [(ringFlush_uncued a k).2.1]
      exact .refl _
  | triggerAlarm a => exact ringTrigger_turns a k
  | elapse milliseconds => exact advance_turns milliseconds k
  | disturb f => exact .refl _

end Desk

/-!
# Runs in which a completion stays shown
-/

namespace Workspace

variable {τ : Type}

/-- Whether a completion came to be shown in a run and is shown ever since, and
how many places on it was turned by then. -/
inductive Displayed [Link τ] (allowed : Workspace τ → Action τ → Prop)
    (start : Workspace τ) (t : Nat) : Int → Workspace τ → Prop
  | begun {w : Workspace τ} {a : Action τ} (h : Reachable allowed start w)
      (ha : allowed w a) (hother : w.completions.shown ≠ some t)
      (hshown : (w.perform a).completions.shown = some t) :
      Displayed allowed start t 0 (w.perform a)
  | kept {w : Workspace τ} {a : Action τ} {places : Int}
      (h : Displayed allowed start t places w) (ha : allowed w a)
      (hshown : (w.perform a).completions.shown = some t) :
      Displayed allowed start t (places + a.places) (w.perform a)

namespace Displayed

variable [Link τ]
    {allowed : Workspace (Accounted τ) → Action (Accounted τ) → Prop}
  {start w : Workspace (Accounted τ)} {t : Nat} {places : Int}

theorem reachable (h : Displayed allowed start t places w) :
    Reachable allowed start w := by
  induction h with
  | begun h ha _ _ => exact h.step ha
  | kept _ ha _ ih => exact ih.step ha

theorem shown (h : Displayed allowed start t places w) :
    w.completions.shown = some t := by
  cases h with
  | begun _ _ _ hshown => exact hshown
  | kept _ _ hshown => exact hshown

theorem turned (hstart : start.Starts) (howed : start.env.link.owed = [])
    (hallowed : ∀ w a, allowed w a → w.Fair a)
    (h : Displayed allowed start t places w) :
    ∃ x, w.completions.get? t = some x ∧ x.candidates ≠ [] ∧
      x.index % x.candidates.length = places % x.candidates.length := by
  have hturns {w : Workspace (Accounted τ)} {a : Action (Accounted τ)}
      (h : Reachable allowed start w) (ha : allowed w a) :
      w.completions.Turns a.places (w.perform a).completions ∧
        ∀ t, (w.perform a).completions.shown = some t →
          ∃ x, (w.perform a).completions.get? t = some x ∧
            x.candidates ≠ [] := by
    rcases (h.weaken hallowed).chronicle with ⟨ss, hss⟩
    rcases hss.staged hstart howed with ⟨k, hhosts, hk⟩
    have hfair := hallowed w a ha k hhosts.desk?
    have hgoes := Desk.Goes.perform hk.cast hk.knows hfair
    rw [hhosts.completions_eq, (hhosts.perform a).completions_eq]
    constructor
    · exact Desk.perform_turns hk.cast hfair
    · intro t ht
      rcases hgoes.cast.painted t ht with ⟨x, hx, hcandidates, _⟩
      exact ⟨x, hx, hcandidates⟩
  induction h with
  | begun h ha hother hshown =>
      rcases hturns h ha with ⟨hturned, hpainted⟩
      rcases hpainted t hshown with ⟨x, hx, hcandidates⟩
      exists x, hx, hcandidates
      rw [hturned.begun t x hother hshown hx, Int.zero_emod]
  | kept h ha hshown ih =>
      rcases ih with ⟨x, hx, hcandidates, hindex⟩
      rcases (hturns h.reachable ha).1.kept t x h.shown hx hshown with
        ⟨x', hx', hsame, hindex'⟩
      exists x', hx', hsame ▸ hcandidates
      rw [hsame, hindex', Int.add_emod, hindex, ← Int.add_emod]

end Displayed
end Workspace
end InlineCompletion
