import InlineCompletion.Proofs.Document.Caret
import InlineCompletion.Proofs.Document.GhostAlternation

/-!
# Runs with ghost text

A *chronicle* is a run together with its scenes.  The main statement joins what
is known of every chronicle.  The annotation is there exactly while a completion
is shown, and is that of its current candidate.  The scenes alternate: what
comes to be shown is resolved, once and with one outcome, before anything else
comes to be shown; nothing else is resolved, and nothing comes to be shown
twice.  Refusing what is shown brings text, copy and caret back to where they
were when it was asked for.
-/

namespace InlineCompletion

theorem Completions.shownOne?_eq {c : Completions} {t : Nat} {x : Completion}
    (hshown : c.shown = some t) (hx : c.get? t = some x) :
    c.shownOne? = some x := by
  rw [shownOne?, hshown]
  exact hx

theorem Completion.exists_current {x : Completion} (h : x.candidates ≠ []) :
    ∃ c, x.current = some c := by
  have hlength : 0 < x.candidates.length := List.length_pos_iff.mpr h
  have hlow : 0 ≤ x.index % x.candidates.length := Int.emod_nonneg _ (by omega)
  have hhigh : x.index % x.candidates.length < x.candidates.length :=
    Int.emod_lt_of_pos _ (by omega)
  exact ⟨_, List.getElem?_eq_getElem (by omega)⟩

theorem Completion.visiblePart_eq_ok (text : Text) {x : Completion}
    (h : x.candidates ≠ []) :
    ∃ visible, Completions.visiblePart text x = .ok visible := by
  rcases x.exists_current h with ⟨c, hc⟩
  unfold Completions.visiblePart
  rw [hc]
  exact ⟨_, rfl⟩

namespace Desk

variable {τ : Type}

/-!
# What is asked for

Whatever an action asks for has its anchor at the caret, and the caret stays of
its kind.
-/

/-- Whether what is newly asked for is asked for where the caret is, which stays
of its kind. -/
structure Poised (k k' : Desk τ) : Prop where
  kind : k'.editor.isWidget = k.editor.isWidget
  asked : ∀ t x, k.document.completions.all.length ≤ t →
    k'.document.completions.get? t = some x → x.anchor = k'.editor.cursor

namespace Poised

variable {k k' : Desk τ}

theorem of_steady (h : Steady k k') : Poised k k' :=
  ⟨Editor.isWidget_of_caret h.caret, h.asked⟩

theorem of_level (h : Level k k') : Poised k k' :=
  ⟨h.kind, asked_of_size h.size⟩

theorem perform [Link τ] {a : Action (Accounted τ)} {k : Desk (Accounted τ)}
    (hk : k.Cast) (ha : k.Fair a) : Poised k (k.perform a) := by
  cases a with
  | edit g => exact of_level (.edit g.run_sameView k)
  | moveCursor offset => exact of_level (.moveCursor offset k)
  | select anchor position => exact of_level (.select anchor position k)
  | openCopy => exact of_steady (.openCopy k)
  | close => exact of_level (.close k)
  | flush => exact of_steady (.flush k)
  | trigger =>
      have hrequested := of_steady (.requesting (request_requesting .invoked
        (k.withTrigger k.document.trigger.cancel)))
      exact ⟨hrequested.kind, hrequested.asked⟩
  | request reason =>
      exact of_steady (.requesting (requestFor_requesting reason k))
  | accept => exact of_level (.accept k)
  | cancel => exact of_level (.cancel k)
  | cycle places => exact of_level (.cycle places k)
  | supersede => exact of_level (.finish .superseded k)
  | answer ticket message note =>
      have hreceived :=
        of_steady (.receive (k := k.relinked note) ticket message fun hlive =>
        hk.shown_of_owed ha.1 hlive)
      exact ⟨hreceived.kind, hreceived.asked⟩
  | flushAlarm a => exact of_steady (.ringFlush a k)
  | triggerAlarm a => exact of_steady (.ringTrigger a k)
  | elapse milliseconds => exact of_steady (.advance milliseconds k)
  | disturb f => exact of_level ⟨rfl, rfl⟩

end Poised

/-!
# What refusing brings back
-/

structure Standing where
  text : Text
  snapshot : Text
  version : Nat
  pending : List Change
  cursor : Int
  deriving DecidableEq, Repr

def standing (k : Desk τ) : Standing where
  text := k.editor.text
  snapshot := k.document.snapshot
  version := k.document.sync.version
  pending := k.document.sync.pending
  cursor := k.editor.cursor

theorem cancel_standing {k : Desk τ} {e : Editor} {t : Nat} {x : Completion}
    (hshown : k.document.completions.shown = some t)
    (hx : k.document.completions.get? t = some x)
    (hanchor : x.anchor = e.cursor) (htext : k.editor.text = e.text)
    (hkind : k.editor.isWidget = e.isWidget) :
    (k.runStage Stage.cancel).1 = true ∧
      (k.runStage Stage.cancel).2.standing =
        { k.standing with cursor := e.cursor } := by
  have hone : k.stage.completions.shownOne? = some x :=
    Completions.shownOne?_eq hshown hx
  have hcancel :
      k.stage.cancel =
        (true, (k.stage.finish .canceled).moveCursor e.cursor) := by
    rw [Stage.cancel, hone, ← hanchor]
  have hquiet := quiet_withStage (Stage.quiet_cancel k.stage)
  have hlevel := Level.finish .canceled k
  have hcursor :
      ((k.stage.finish .canceled).editor.moveCursor e.cursor).1.cursor =
        e.cursor := by
    refine Editor.cursor_moveCursor ?_ (hlevel.kind.trans hkind)
    exact (Stage.quiet_finish .canceled k.stage).text.trans htext
  refine ⟨congrArg Prod.fst hcancel, ?_⟩
  show standing (k.withStage k.stage.cancel.2) = _
  simp only [standing, Standing.mk.injEq]
  refine ⟨hquiet.text, hquiet.snapshot, hquiet.version, hquiet.pending, ?_⟩
  rw [hcancel]
  exact hcursor

theorem Goes.cancel_standing {k k' : Desk (Accounted τ)} (h : Goes k k')
    (hk : k.Cast) (hknows : k.Knows) (hknows' : k'.Knows)
    (hkind : k'.editor.isWidget = k.editor.isWidget) {t : Nat} {x : Completion}
    (hx : k.document.completions.get? t = some x)
    (hanchor : x.anchor = k.editor.cursor)
    (hshown : k'.document.completions.shown = some t) :
    (k'.runStage Stage.cancel).1 = true ∧
      (k'.runStage Stage.cancel).2.standing = k.standing := by
  have hcounts' := h.cast.counts_shown hshown
  rcases h.counts t (Completions.lt_of_get? hx) hcounts' with ⟨hcounts, htext⟩
  rcases h.kept t x hx with ⟨x', hx', hsame⟩
  rcases hk.ready t hcounts with ⟨hopened, hpending, y, hy, hversion⟩
  rcases h.cast.ready t hcounts' with ⟨hopened', hpending', y', hy', hversion'⟩
  cases hx.symm.trans hy
  cases hx'.symm.trans hy'
  rcases Desk.cancel_standing hshown hx' (hsame.anchor.trans hanchor) htext
    hkind with
    ⟨hcanceled, hstanding⟩
  refine ⟨hcanceled, hstanding.trans ?_⟩
  simp only [standing, Standing.mk.injEq, and_true]
  refine ⟨htext, ?_, ?_, hpending'.trans hpending.symm⟩
  · rw [hknows'.snapshot hopened', hknows.snapshot hopened, htext]
  · rw [hversion', hversion, hsame.version]

end Desk

/-!
# Chronicles
-/

namespace Workspace

variable {τ : Type}

def completions (w : Workspace τ) : Completions :=
  match w.documents with
  | [] => .empty
  | d :: _ => d.completions

def standing? (w : Workspace τ) : Option Desk.Standing :=
  (w.desk? 0).map Desk.standing

def scenes (w w' : Workspace τ) : List Scene :=
  Scene.between w.completions.shown w'.completions.shown w.env.trace
    w'.env.trace

/-- The scenes and the workspaces that a run of allowed actions comes to. -/
inductive Chronicle [Link τ] (allowed : Workspace τ → Action τ → Prop)
    (start : Workspace τ) :
    List Scene → Workspace τ → Prop where
  | start : Chronicle allowed start [] start
  | step {ss : List Scene} {w : Workspace τ} {a : Action τ}
      (h : Chronicle allowed start ss w) (ha : allowed w a) :
          Chronicle allowed start (ss ++ w.scenes (w.perform a)) (w.perform a)

theorem Reachable.chronicle [Link τ] {allowed : Workspace τ → Action τ → Prop}
    {start w : Workspace τ} (h : Reachable allowed start w) :
    ∃ ss, Chronicle allowed start ss w := by
  induction h with
  | start => exact ⟨[], .start⟩
  | step _ ha ih =>
      rcases ih with ⟨ss, hss⟩
      exact ⟨_, hss.step ha⟩

/-- Whether each answer is given at most once. -/
def Fair (w : Workspace (Accounted τ)) (a : Action (Accounted τ)) : Prop :=
  ∀ k ∈ w.desk? 0, k.Fair a

end Workspace

namespace Hosts

variable {τ : Type} {w w' : Workspace τ} {k k' : Desk τ}

theorem completions_eq (h : Hosts w k) :
    w.completions = k.document.completions := by
  rw [Workspace.completions, h.documents]

theorem standing?_eq (h : Hosts w k) : w.standing? = some k.standing := by
  rw [Workspace.standing?, h.desk?]
  rfl

theorem scenes_eq (h : Hosts w k) (h' : Hosts w' k') :
    w.scenes w' = k.scenes k' := by
  rw [Workspace.scenes, Desk.scenes, h.completions_eq, h'.completions_eq, h.env,
    h'.env]

theorem cancel_fst (h : Hosts w k) :
    (w.cancel 0).1 = (k.runStage Stage.cancel).1 := by
  unfold Workspace.cancel
  rw [h.run_eq]
  rfl

end Hosts

namespace Workspace

variable {τ : Type}

theorem Starts.cast {start : Workspace (Accounted τ)} (hstart : start.Starts)
    (howed : start.env.link.owed = []) :
    ∃ k, Hosts start k ∧ k.Fresh ∧ k.Cast := by
  rcases hstart.hosts with ⟨k, hhosts, hfresh⟩
  have hnone : k.env.link.owed = [] := by
    rw [← hhosts.env]
    exact howed
  have hnobody (t : Nat) : ¬ k.Owes t := by
    unfold Desk.Owes
    rw [hnone]
    exact List.not_mem_nil
  refine ⟨k, hhosts, hfresh, .of_idle ?_ (fun t ht => absurd ht (hnobody t)) ?_
    (Desk.not_counts_of_live ?_) hfresh.ghost⟩
  · rw [hnone]
    exact List.nodup_nil
  · rw [hfresh.completions]
    rfl
  · rw [hfresh.completions]
    rfl

variable [Link τ]

structure Staged (es : List Event) (ss : List Scene) (k : Desk (Accounted τ)) :
    Prop where
  cast : k.Cast
  knows : k.Knows
  told : k.Told es ss

theorem Chronicle.staged {start w : Workspace (Accounted τ)} {ss : List Scene}
    (hstart : start.Starts) (howed : start.env.link.owed = [])
    (h : Chronicle Fair start ss w) :
    ∃ k, Hosts w k ∧ Staged start.env.trace ss k := by
  induction h with
  | start =>
      rcases hstart.cast howed with ⟨k, hhosts, hfresh, hcast⟩
      have hshown : k.document.completions.shown = none := by
        rw [hfresh.completions]
        rfl
      have hdark : k.stage.isDisplayed = false := congrArg Option.isSome hshown
      refine ⟨k, hhosts, hcast, ⟨?_, ?_⟩, ⟨?_, List.nodup_nil, nofun, ?_⟩⟩
      · exact fun hclosed =>
          absurd (hfresh.closed.symm.trans hclosed) Bool.false_ne_true
      · exact fun hopened =>
          absurd (hfresh.opened.symm.trans hopened) Bool.false_ne_true
      · rw [hshown]
        exact .still none
      · rw [hdark, hhosts.env]
        exact Uncued.refl _ false
  | step _ ha ih =>
      rename_i w a _
      rcases ih with ⟨k, hhosts, hk⟩
      have hfair := ha k hhosts.desk?
      have hgoes := Desk.Goes.perform hk.cast hk.knows hfair
      have hperformed := hhosts.perform a
      refine ⟨k.perform a, hperformed, hgoes.cast, hk.knows.perform a, ?_⟩
      rw [hhosts.scenes_eq hperformed]
      exact hk.told.turn hk.cast hgoes (.perform hk.cast hfair)

theorem Reachable.goes {w w' : Workspace (Accounted τ)} {k : Desk (Accounted τ)}
    (hhosts : Hosts w k) (hk : k.Cast) (hknows : k.Knows)
    (h : Reachable Fair w w') :
    ∃ k', Hosts w' k' ∧ Desk.Goes k k' ∧ k'.Knows ∧
      k'.editor.isWidget = k.editor.isWidget := by
  induction h with
  | start => exact ⟨k, hhosts, .refl hk, hknows, rfl⟩
  | step _ ha ih =>
      rename_i w' a _
      rcases ih with ⟨k', hhosts', hgoes, hknows', hkind⟩
      have hfair := ha k' hhosts'.desk?
      exact ⟨k'.perform a, hhosts'.perform a,
        hgoes.trans (Desk.Goes.perform hgoes.cast hknows' hfair),
        hknows'.perform a,
        (Desk.Poised.perform hgoes.cast hfair).kind.trans hkind⟩

/-- In every chronicle, the annotation is there exactly while a completion is
shown, and is that of its current candidate; the scenes alternate, nothing comes
to be shown twice, and what was seen resolves what the scenes resolve and is lit
while something is shown; and whatever an action asks for, refusing it while it
is shown later brings text, copy, and caret back to where they were behind that
action. -/
theorem ghost_text_staged {start w : Workspace (Accounted τ)} {ss : List Scene}
    (hstart : start.Starts) (howed : start.env.link.owed = [])
    (h : Chronicle Fair start ss w) :
    ∃ k, w.desk? 0 = some k ∧
      (k.editor.ghost ≠ none ↔ k.document.completions.shown ≠ none) ∧
      (∀ t, k.document.completions.shown = some t →
        ∃ x visible, k.document.completions.get? t = some x ∧
          Completions.visible k.editor.text k.document.completions =
            .ok visible ∧
          k.editor.ghost = some ⟨x.anchor, visible⟩) ∧
      Scene.Plays k.document.completions none ss k.document.completions.shown ∧
      (ss.filterMap Scene.displayed?).Nodup ∧
      Cues false (ss.filterMap Scene.resolved?)
        k.document.completions.shown.isSome start.env.trace w.env.trace ∧
      ∀ a, w.Fair a → ∀ w', Reachable Fair (w.perform a) w' →
        ∀ t, w.completions.all.length ≤ t →
          t < (w.perform a).completions.all.length →
          w'.completions.shown = some t →
          (w'.cancel 0).1 = true ∧
            (w'.cancel 0).2.standing? = (w.perform a).standing? := by
  rcases h.staged hstart howed with ⟨k, hhosts, hk⟩
  have hcues :
      Cues false (ss.filterMap Scene.resolved?)
        k.document.completions.shown.isSome
      start.env.trace w.env.trace := by
    rw [hhosts.env]
    exact hk.told.cues
  refine ⟨k, hhosts.desk?, ⟨?_, ?_⟩, ?_, hk.told.plays, hk.told.once, hcues, ?_⟩
  · exact fun hghost hshown => hghost (hk.cast.bare hshown)
  · intro hshown
    rcases Option.ne_none_iff_exists'.mp hshown with ⟨t, ht⟩
    rcases hk.cast.painted t ht with ⟨x, _, _, hghost⟩
    rw [hghost]
    exact Option.some_ne_none _
  · intro t ht
    rcases hk.cast.painted t ht with ⟨x, hx, hcandidates, hghost⟩
    rcases x.visiblePart_eq_ok k.editor.text hcandidates with
      ⟨visible, hvisible⟩
    refine ⟨x, visible, hx, ?_, ?_⟩
    · rw [Completions.visible, Completions.shownOne?_eq ht hx]
      exact hvisible
    · rw [hghost, Completion.annotation, hvisible]
      rfl
  · intro a ha w' hlater t hold hnew hshown
    have hfair := ha k hhosts.desk?
    have hperformed := hhosts.perform a
    have hgoes := Desk.Goes.perform hk.cast hk.knows hfair
    have hknows := hk.knows.perform a
    rcases hlater.goes hperformed hgoes.cast hknows with
      ⟨k', hhosts', hgoes', hknows', hkind⟩
    rw [hhosts.completions_eq] at hold
    rw [hperformed.completions_eq] at hnew
    rw [hhosts'.completions_eq] at hshown
    have hx := List.getElem?_eq_getElem hnew
    have hanchor := (Desk.Poised.perform hk.cast hfair).asked t _ hold hx
    rcases hgoes'.cancel_standing hgoes.cast hknows hknows' hkind hx hanchor
      hshown with
      ⟨hcanceled, hstanding⟩
    refine ⟨hhosts'.cancel_fst.trans hcanceled, ?_⟩
    have hcancel : Hosts (w'.cancel 0).2 (k'.runStage Stage.cancel).2 :=
      hhosts'.perform .cancel
    rw [hcancel.standing?_eq, hperformed.standing?_eq, hstanding]

def firstShown : Workspace (Accounted Scripted) :=
  (((sample ⟨⟨true, false, false, none, [], false⟩, []⟩).perform
    .openCopy).perform .trigger).perform (settle 0 "old")

def secondShown : Workspace (Accounted Scripted) :=
  ((firstShown.perform .trigger).perform (settle 1 "new")).perform
    (.moveCursor 0)

theorem ghost_text_staged_twice :
    ∃ ss, Chronicle Fair (sample ⟨⟨true, false, false, none, [], false⟩, []⟩) ss
      firstShown ∧
      Scene.Plays firstShown.completions none ss (some 0) ∧
      firstShown.editors.map (·.ghost) = [some ⟨3, ['o', 'l', 'd']⟩] ∧
      firstShown.scenes (firstShown.perform .trigger) =
        [.resolved (some 1) .superseded] ∧
      secondShown.completions.shown = some 1 ∧ (secondShown.cancel 0).1 = true ∧
      (secondShown.cancel 0).2.standing? =
        some ⟨['a', '😀', 'c'], ['a', '😀', 'c'], 0, [], 3⟩ := by
  have hrun :
      ∃ ss, Chronicle Fair
        (sample ⟨⟨true, false, false, none, [], false⟩, []⟩) ss firstShown := by
    refine ⟨_, .step (.step (.step .start ?_) ?_) ?_⟩
    · exact fun k _ => trivial
    · exact fun k _ => trivial
    · intro k hk
      cases hk
      exact ⟨by decide, rfl⟩
  have hlater : Reachable Fair (firstShown.perform .trigger) secondShown := by
    refine .step (.step .start ?_) ?_
    · intro k hk
      cases hk
      exact ⟨by decide, rfl⟩
    · exact fun k _ => trivial
  rcases hrun with ⟨ss, hss⟩
  rcases ghost_text_staged (sample_starts _) rfl hss with
    ⟨k, hk, _, _, hplays, _, _, hcancel⟩
  have hsecond :=
    hcancel .trigger (fun _ _ => trivial) secondShown hlater 1 (by decide)
    (by decide) (by decide +kernel)
  refine ⟨ss, hss, ?_, by decide +kernel, by decide +kernel, by decide +kernel,
    hsecond.1, ?_⟩
  · cases hk
    exact hplays
  · rw [hsecond.2]
    decide +kernel

end Workspace
end InlineCompletion
