import InlineCompletion.Proofs.Document.Cycling
import InlineCompletion.Proofs.Editor.Sheet

/-!
# Accepting

What is shown is accepted by one edit: the current candidate takes the place of
its range, held within the text, or is inserted where the completion was asked
for.  The document hears of the edit as of any other.  The main statements are
what accepting comes to in every run, for whatever range the agent gave and
however often another candidate was turned to; and that it puts just what is
shown where it is shown, if the candidate continues what stands before the
caret.
-/

namespace InlineCompletion

/-!
# Edits in front of a caret
-/

namespace Editor

theorem replace_text {edit : Edit} {e : Editor}
    (h : e.isWidget = true → edit.Within e.text) :
    (e.replace edit).2.text = edit.apply e.text := by
  cases hcaret : e.caret with
  | free _ => simp [replace, hcaret]
  | units _ _ =>
      have hwidget : e.isWidget = true := by simp [isWidget, hcaret]
      rcases (h hwidget).exists_natCast with
        ⟨start, stop, horder, hlength, hedit⟩
      rw [hedit, Edit.apply_natCast]
      exact (handle_answered hwidget (g := .replace start stop edit.inserted)
        ⟨horder, hlength⟩).1

theorem replace_reports {edit : Edit} {e : Editor}
    (h : e.isWidget = false ∨ (e.replace edit).2.text ≠ e.text) :
    ∃ reported, (e.replace edit).1 = some reported := by
  have hreported := e.replace_reported edit
  unfold Reported at hreported
  cases hedit : (e.replace edit).1 with
  | some reported => exact ⟨reported, rfl⟩
  | none =>
      rw [hedit] at hreported
      rcases h with hplain | hother
      · cases hcaret : e.caret with
        | free _ => simp [replace, hcaret] at hedit
        | units _ _ => simp [isWidget, hcaret] at hplain
      · exact absurd hreported hother

theorem cursor_moveCursor_within {e : Editor} {offset : Int}
    (h : e.isWidget = true → 0 ≤ offset ∧ offset ≤ e.text.length) :
    (e.moveCursor offset).1.cursor = offset := by
  cases hcaret : e.caret with
  | free _ => simp [moveCursor, hcaret, cursor]
  | units _ _ =>
      have hwidget : e.isWidget = true := by simp [isWidget, hcaret]
      rcases h hwidget with ⟨hlow, hhigh⟩
      have hmoved :=
        (handle_answered hwidget (g := .moveCursor offset) trivial).2.1
      rw [Int.min_eq_left hhigh, Int.max_eq_right hlow] at hmoved
      exact hmoved

end Editor

theorem Edit.Within.end_le {e : Edit} {t : Text} (h : e.Within t) :
    0 ≤ e.start + e.inserted.length ∧
      e.start + e.inserted.length ≤ (e.apply t).length := by
  rcases h.exists_natCast with ⟨start, stop, horder, hlength, he⟩
  rw [he, Edit.apply_natCast, List.length_append, List.length_append,
    List.length_take]
  dsimp only
  omega

/-!
# What a candidate asks for
-/

theorem Slice.between_natCast {α : Type} {xs : List α} {start stop : Nat}
    (horder : start ≤ stop) (hstop : stop ≤ xs.length) :
    between xs start stop = (xs.take stop).drop start := by
  unfold between
  rw [before_natCast, place_natCast,
    Nat.min_eq_left (Nat.le_trans horder hstop)]

namespace Candidate

/-- Whether a candidate takes the place of what stands between two offsets: of
its range within the text, and of nothing at the anchor if it has none. -/
def Replaces (text : Text) (anchor : Int) (c : Candidate) (start stop : Nat) :
    Prop :=
  match c.range with
  | none => (start : Int) = anchor ∧ stop = start
  | some r =>
      start = Position.toOffset text r.start ∧
        stop = max start (Position.toOffset text r.stop)

theorem exists_replaces {text : Text} {anchor : Int} {c : Candidate}
    (h : c.range = none → 0 ≤ anchor ∧ anchor ≤ text.length) :
    ∃ start stop : Nat, c.Replaces text anchor start stop ∧ start ≤ stop ∧
      stop ≤ text.length ∧
      Completions.editOf text anchor c = ⟨start, stop, c.text⟩ := by
  unfold Replaces Completions.editOf
  cases hrange : c.range with
  | none =>
      rcases h hrange with ⟨hlow, hhigh⟩
      have hanchor := Int.toNat_of_nonneg hlow
      refine ⟨anchor.toNat, anchor.toNat, ⟨hanchor, rfl⟩, Nat.le_refl _,
        by omega, ?_⟩
      rw [hanchor]
  | some r =>
      have hstart := Position.toOffset_le_length text r.start
      have hstop := Position.toOffset_le_length text r.stop
      refine ⟨_, _, ⟨rfl, rfl⟩, Nat.le_max_left _ _,
        Nat.max_le.mpr ⟨hstart, hstop⟩, ?_⟩
      simp only [Edit.mk.injEq, true_and, and_true]
      omega

/-- Whether a candidate continues a text behind an anchor: it takes the place of
what stands between the start of its range and the anchor, and begins with
that. -/
def Continues (text : Text) (anchor : Int) (c : Candidate) : Prop :=
  ∀ r, c.range = some r → (Position.toOffset text r.stop : Int) = anchor ∧
    (Position.toOffset text r.start : Int) ≤ anchor ∧
    Slice.between text (Position.toOffset text r.start) anchor <+: c.text

theorem shownPart_typed {text typed rest : Text} {r : Range} {n : Nat}
    (horder : Position.toOffset text r.start ≤ n)
    (htyped : Slice.between text (Position.toOffset text r.start) n = typed)
    (hlength : typed.length = n - Position.toOffset text r.start) :
    Completions.shownPart text n ⟨typed ++ rest, some r⟩ = rest := by
  unfold Completions.shownPart
  dsimp only
  rw [htyped]
  by_cases hlt : Position.toOffset text r.start < n
  · have hne : typed ≠ [] := List.ne_nil_of_length_pos (by omega)
    have hprefix : typed.isPrefixOf (typed ++ rest) = true :=
      List.isPrefixOf_iff_prefix.mpr (List.prefix_append typed rest)
    rw [if_pos (Int.ofNat_lt.mpr hlt), hprefix]
    simp [hne]
  · have hnil : typed = [] := List.eq_nil_of_length_eq_zero (by omega)
    rw [hnil]
    simp

theorem Continues.editOf {text : Text} {anchor : Int} {c : Candidate}
    (h : c.Continues text anchor) :
    (Completions.editOf text anchor c).apply text =
        Slice.before text anchor ++ Completions.shownPart text anchor c ++
          Slice.after text anchor ∧
      (Completions.editOf text anchor c).start +
        (Completions.editOf text anchor c).inserted.length =
        anchor + (Completions.shownPart text anchor c).length := by
  obtain ⟨inserted, range⟩ := c
  cases range with
  | none => exact ⟨rfl, rfl⟩
  | some r =>
      rcases h r rfl with ⟨rfl, hstart, rest, hrest⟩
      have horder :
          Position.toOffset text r.start ≤ Position.toOffset text r.stop := by
            omega
      have hlength := Position.toOffset_le_length text r.stop
      have htyped := Slice.between_natCast horder hlength
      have hsize : (Slice.between text (Position.toOffset text r.start)
          (Position.toOffset text r.stop)).length =
            Position.toOffset text r.stop - Position.toOffset text r.start := by
        rw [htyped, List.length_drop, List.length_take, Nat.min_eq_left hlength]
      subst hrest
      rw [shownPart_typed horder rfl hsize]
      unfold Completions.editOf
      dsimp only
      rw [Int.max_eq_right hstart]
      constructor
      · -- what stands before the range and was typed in it stands before the anchor
        have hbefore : text.take (Position.toOffset text r.start) ++
            Slice.between text (Position.toOffset text r.start)
            (Position.toOffset text r.stop) =
              text.take (Position.toOffset text r.stop) := by
          calc
            _ = (text.take (Position.toOffset text r.stop)).take
              (Position.toOffset text r.start) ++
                  (text.take (Position.toOffset text r.stop)).drop
                    (Position.toOffset text r.start) := by
              rw [htyped, List.take_take, Nat.min_eq_left horder]
            _ = _ := List.take_append_drop _ _
        rw [Edit.apply_natCast, Slice.before_natCast,
          Slice.after_natCast, ← hbefore]
        simp only [List.append_assoc]
      · rw [List.length_append, hsize]
        omega

end Candidate

namespace Adapter

variable {σ : Type} [Sheet σ]

/-- Accepts a candidate on a sheet, as in an editor of a workspace: the edit
that it asks for is made, and the caret comes to stand behind it. -/
def accept (anchor : Int) (c : Candidate) (a : Adapter σ) : Adapter σ :=
  let e := Completions.editOf a.snapshot anchor c
  (a.replace e.start e.stop e.inserted).2.moveCursor
    (e.start + e.inserted.length)

theorem cursor_within (a : Adapter σ) :
    0 ≤ a.cursor ∧ a.cursor ≤ a.snapshot.length :=
  ⟨Int.natCast_nonneg _, Int.ofNat_le.mpr (Units.indexAt_le_length _ _)⟩

theorem Synced.accept [LawfulSheet σ] {a : Adapter σ} (h : a.Synced)
    {anchor : Int} {c : Candidate} {e : Edit}
    (he : Completions.editOf a.snapshot anchor c = e)
    (hwithin : e.Within a.snapshot) :
    (a.accept anchor c).snapshot = e.apply a.snapshot ∧
      Sheet.text (a.accept anchor c).sheet = e.apply a.snapshot ∧
      (a.accept anchor c).cursor = e.start + e.inserted.length := by
  have hend := hwithin.end_le
  unfold Adapter.accept
  rw [he]
  rcases hwithin.exists_natCast with ⟨start, stop, horder, _, hedit⟩
  rw [hedit, Edit.apply_natCast] at hend ⊢
  rcases h.replace horder e.inserted with ⟨htext, _, hreplaced⟩
  rcases hreplaced.moveCursor (start + e.inserted.length) with ⟨hmoved, hcursor⟩
  refine ⟨htext, hmoved.symm.trans htext, hcursor.trans ?_⟩
  rw [htext, Int.min_eq_left hend.2, Int.max_eq_right hend.1]

end Adapter

namespace Desk

variable {τ : Type}

theorem InText.of_isWidget {e : Editor} (h : e.isWidget = true) : InText e := by
  cases hcaret : e.caret with
  | free _ => simp [Editor.isWidget, hcaret] at h
  | units _ position =>
      have hlength := Units.indexAt_le_length e.text position
      unfold InText Editor.cursor
      rw [hcaret]
      dsimp only
      omega

/-!
# The desk behind what is accepted
-/

/-- Whether an edit was made, and what is pending grew by the change that stands
for it if it was reported. -/
structure Edited (f : Editor → Option Edit × Editor) (k k' : Desk τ) :
    Prop where
  editor : k'.editor = (f k.editor).2
  live : k'.document.completions.live = none
  link : k'.env.link = k.env.link
  events : Quietly k.env.trace k'.env.trace
  pending : k'.document.sync.pending =
    k.document.sync.pending ++
      ((f k.editor).1.map (Change.ofEdit k.editor.text)).toList

theorem edit_edited (f : Editor → Option Edit × Editor) {k : Desk τ}
    (hclosed : k.document.closed = false)
    (hnone : k.document.completions.shown = none)
    (hlive : k.document.completions.live = none)
    (hsnapshot : k.document.snapshot = k.editor.text) :
    Edited f k (k.edit f) := by
  unfold edit
  cases hedit : (f k.editor).1 with
  | none =>
      constructor
      · rfl
      · exact hlive
      · rfl
      · exact .refl _
      · rw [hedit]
        exact (List.append_nil _).symm
  | some e =>
      let edited : Desk τ :=
        ({ k with editor := (f k.editor).2 } : Desk τ).emit (.edited e)
      have hquiet := quiet_recordEdit (k := edited) e hclosed
      rcases recordEdit_stage (k := edited) e hclosed with
        ⟨hcompletions, heditor⟩
      have hsame :=
        Stage.finish_of_shown_eq_none (s := edited.stage) .canceled hnone
      have hedited : Quietly k.env.trace edited.env.trace := .append _ rfl
      constructor
      · show (edited.recordEdit e).editor = _
        rw [heditor, hsame]
        rfl
      · show (edited.recordEdit e).document.completions.live = _
        rw [hcompletions]
        rfl
      · exact hquiet.link
      · exact hedited.trans hquiet.events
      · show (edited.recordEdit e).document.sync.pending = _
        rw [hquiet.pending, hedit, ← hsnapshot]
        rfl

/-- Whether what is shown ended accepted, once, with nothing annotated and
nothing live behind it, and nothing was sent. -/
structure Accepted (id : Option Int) (k k' : Desk τ) : Prop where
  shown : k'.document.completions.shown = none
  live : k'.document.completions.live = none
  ghost : k'.editor.ghost = none
  cues : Cues true [(id, .accepted)] false k.env.trace k'.env.trace
  link : k'.env.link = k.env.link
  events : Quietly k.env.trace k'.env.trace

section Accept

variable {k : Desk (Accounted τ)} {t : Nat}
    (ht : k.document.completions.shown = some t)
include ht

theorem finished_editor (outcome : Outcome) :
    (k.onStage (Stage.finish outcome)).editor =
    { k.editor with ghost := none } := by
  show (k.stage.finish outcome).editor = _
  unfold Stage.finish
  rw [show k.stage.completions.shown = some t from ht]
  rfl

/-- What is shown is shown in an open document that knows its text, and can be
edited once it has ended. -/
theorem finished_edited (hk : k.Cast) (hknows : k.Knows) (outcome : Outcome)
    (f : Editor → Option Edit × Editor) :
    Edited f (k.onStage (Stage.finish outcome))
      ((k.onStage (Stage.finish outcome)).edit f) := by
  have hquiet := quiet_onStage (Stage.quiet_finish outcome) k
  have hcounts := hk.counts_shown ht
  have hopen : k.document.closed = false := by
    cases hclosed : k.document.closed with
    | false => rfl
    | true => exact absurd hcounts (hk.not_counts_of_closed hknows hclosed t)
  apply edit_edited
  · exact hquiet.closed.trans hopen
  · exact Stage.finish_shown outcome k.stage
  · exact Stage.finish_live (s := k.stage) outcome ht hcounts.1
  · rw [hquiet.snapshot, hquiet.text]
    exact hknows.snapshot (hk.ready t hcounts).1

variable {x : Completion} {c : Candidate}
    (hx : k.document.completions.get? t = some x)
  (hc : x.current = some c)
include hx hc

theorem accept_eq :
    let e := Completions.editOf k.editor.text x.anchor c
    k.stage.accept.1 = .ok (some e) ∧
      k.accept =
        ((k.onStage (Stage.finish .accepted)).edit (Editor.replace e)).onEditor
        (Editor.moveCursor (e.start + e.inserted.length)) := by
  intro e
  have hone : k.stage.completions.shownOne? = some x :=
    Completions.shownOne?_eq ht hx
  have htext : (k.stage.finish .accepted).editor.text = k.editor.text :=
    (Stage.quiet_finish .accepted k.stage).text
  have hstage : k.stage.accept = (.ok (some e), k.stage.finish .accepted) := by
    unfold Stage.accept
    rw [hone]
    dsimp only
    rw [hc, htext]
  unfold accept runStage
  rw [hstage]
  exact ⟨rfl, rfl⟩

variable (hk : k.Cast) (hknows : k.Knows)
include hk hknows

theorem accept_accepted : Accepted x.id k k.accept := by
  have haccept := (accept_eq ht hx hc).2
  generalize Completions.editOf k.editor.text x.anchor c = e at haccept
  have hfinished := quiet_onStage (Stage.quiet_finish .accepted) k
  have hedited := finished_edited ht hk hknows .accepted (Editor.replace e)
  have hmoved := quiet_moveCursor (e.start + e.inserted.length)
    ((k.onStage (Stage.finish .accepted)).edit (Editor.replace e))
  have hcues := Stage.finish_cues (s := k.stage) ht .accepted true
  rw [show k.stage.completions.get? t = some x from hx] at hcues
  rcases edit_uncued (f := Editor.replace e)
    (k := k.onStage (Stage.finish .accepted))
      (Stage.finish_shown .accepted k.stage) with ⟨hnone, huncued⟩
  have hshown : k.accept.document.completions.shown = none := by
    rw [haccept]
    exact hnone
  constructor
  · exact hshown
  · rw [haccept]
    exact hedited.live
  · exact accept_bare hk.bare hshown
  · rw [haccept]
    exact (Stage.moveCursor_uncued _ (Desk.stage _)).behind
      (huncued.behind hcues)
  · rw [haccept]
    exact hmoved.link.trans (hedited.link.trans hfinished.link)
  · rw [haccept]
    exact (hfinished.events.trans hedited.events).trans hmoved.events

theorem accept_splices (hwithin : k.editor.isWidget = true →
    (Completions.editOf k.editor.text x.anchor c).Within k.editor.text) :
    let e := Completions.editOf k.editor.text x.anchor c
    k.accept.editor.text = e.apply k.editor.text ∧
      k.accept.editor.cursor = e.start + e.inserted.length := by
  intro e
  have hedited :=
    (finished_edited ht hk hknows .accepted (Editor.replace e)).editor
  have htext :
      ({ k.editor with ghost := none }.replace e).2.text =
        e.apply k.editor.text :=
    Editor.replace_text hwithin
  rw [← finished_editor ht .accepted, ← hedited] at htext
  have hkind :=
    (Editor.replace_sameView e
      (k.onStage (Stage.finish .accepted)).editor).2.2.2
  rw [← hedited, finished_editor ht .accepted] at hkind
  rw [(accept_eq ht hx hc).2]
  constructor
  · exact (Editor.moveCursor_text _ _).trans htext
  · apply Editor.cursor_moveCursor_within
    intro hwidget
    rw [htext]
    exact (hwithin (hkind.symm.trans hwidget)).end_le

theorem accept_records
    (hwithin : (Completions.editOf k.editor.text x.anchor c).Within
    k.editor.text)
      (hchanged : k.editor.isWidget = false ∨
        k.accept.editor.text ≠ k.editor.text) :
    ∃ change, k.accept.document.sync.pending =
      k.document.sync.pending ++ [change] ∧
      change.patch? k.editor.text = some k.accept.editor.text := by
  have haccept := (accept_eq ht hx hc).2
  generalize Completions.editOf k.editor.text x.anchor c = e at hwithin haccept
  let hidden : Editor := { k.editor with ghost := none }
  have hfinished : (k.onStage (Stage.finish .accepted)).editor = hidden :=
    finished_editor ht .accepted
  have hedited := finished_edited ht hk hknows .accepted (Editor.replace e)
  have hpending := hedited.pending
  have hsame : k.accept.editor.text = (hidden.replace e).2.text := by
    rw [haccept, ← hfinished, ← hedited.editor]
    exact Editor.moveCursor_text _ _
  rw [hsame] at hchanged
  rcases Editor.replace_reports (e := hidden) hchanged with ⟨reported, hreport⟩
  have hreported := hidden.replace_reported e
  have hlies := Editor.replace_within (e := hidden) hwithin hreport
  unfold Editor.Reported at hreported
  rw [hreport] at hreported
  rw [hfinished, hreport] at hpending
  exists Change.ofEdit k.editor.text reported
  constructor
  · rw [haccept]
    exact hpending.trans
      (congrArg (· ++ _)
        (quiet_onStage (Stage.quiet_finish .accepted) k).pending)
  · rw [Change.patch?_ofEdit hlies, hsame, hreported]

end Accept
end Desk

theorem Hosts.accept_fst {τ : Type} {w : Workspace τ} {k : Desk τ} {e : Edit}
    (h : Hosts w k) (haccept : k.stage.accept.1 = .ok (some e)) :
    (w.accept 0).1 = .ok true := by
  have hstaged :=
    h.withDesk (.of_quiet (Desk.quiet_withStage (Stage.quiet_accept k.stage)))
  unfold Workspace.accept
  rw [h.run_eq]
  unfold Desk.runStage
  dsimp only
  rw [haccept]
  dsimp only
  rw [hstaged.documents]
  rfl

/-!
# Accepting in a run
-/

namespace Workspace

variable {τ : Type}

/-- Whether each answer is given at most once, and the caret is in the text
behind an action. -/
def Fenced [Link τ] (w : Workspace (Accounted τ)) (a : Action (Accounted τ)) :
    Prop :=
  w.Fair a ∧ ∀ k ∈ (w.perform a).desk? 0, Desk.InText k.editor

variable [Link τ]

section Run

variable {start w : Workspace (Accounted τ)} (hstart : start.Starts)
  (howed : start.env.link.owed = [])
include hstart howed

theorem Reachable.shown_asked
    {allowed : Workspace (Accounted τ) → Action (Accounted τ) → Prop}
    (hallowed : ∀ w a, allowed w a → w.Fair a) (h : Reachable allowed start w)
    {t : Nat} (ht : w.completions.shown = some t) :
    ∃ k x before a, Hosts w k ∧ k.Cast ∧ k.Knows ∧
      k.document.completions.shown = some t ∧
      k.document.completions.get? t = some x ∧ allowed before a ∧
      ∃ k₀, Hosts (before.perform a) k₀ ∧ k.editor.text = k₀.editor.text ∧
        k.editor.isWidget = k₀.editor.isWidget ∧
          x.anchor = k₀.editor.cursor := by
  rcases (h.weaken hallowed).chronicle with ⟨ss, hss⟩
  rcases hss.staged hstart howed with ⟨k, hhosts, hk⟩
  have hshown := ht
  rw [hhosts.completions_eq] at hshown
  have hlt := hk.cast.lt_of_shown hshown
  rw [← hhosts.completions_eq] at hlt
  rcases h.askedAt hstart howed hlt with ⟨w₀, hasked⟩
  rcases hasked.stands hstart howed hallowed with
    ⟨k₀, k', hhosts₀, hhosts', hcast, hknows, hkind, hstands⟩
  cases hhosts.desk?.symm.trans hhosts'.desk?
  rcases hstands (hcast.counts_shown hshown) with ⟨htext, _, x, hx, _, hanchor⟩
  cases hasked with
  | mk _ ha _ _ _ =>
      exact ⟨k, x, _, _, hhosts, hcast, hknows, hshown, hx, ha, k₀, hhosts₀,
        htext, hkind, hanchor⟩

end Run

/-- Accepting what is shown replaces, within the text, what its current
candidate takes the place of.  That is the candidate so many places on as was
turned since it came to be shown, whatever its range.  What is shown ends
accepted, once, nothing is sent, and the edit is recorded as the one it is. -/
theorem accepted_as_spliced {start w : Workspace (Accounted τ)} {t : Nat}
    {places : Int} (hstart : start.Starts) (howed : start.env.link.owed = [])
    (h : Displayed Fenced start t places w) :
    ∃ k x c start stop k', w.desk? 0 = some k ∧
      k.document.completions.get? t = some x ∧
      x.candidates[(places % x.candidates.length).toNat]? = some c ∧
      c.Replaces k.editor.text x.anchor start stop ∧ start ≤ stop ∧
      stop ≤ k.editor.text.length ∧
      (w.accept 0).1 = .ok true ∧ (w.accept 0).2.desk? 0 = some k' ∧
      k'.editor.text =
        k.editor.text.take start ++ c.text ++ k.editor.text.drop stop ∧
      k'.editor.cursor = start + c.text.length ∧ Desk.Accepted x.id k k' ∧
      (k.editor.isWidget = false ∨ k'.editor.text ≠ k.editor.text →
        ∃ change, k'.document.sync.pending =
          k.document.sync.pending ++ [change] ∧
          change.patch? k.editor.text = some k'.editor.text) := by
  have hallowed (w : Workspace (Accounted τ)) (a : Action (Accounted τ))
      (ha : Fenced w a) :
      w.Fair a := ha.1
  rcases h.reachable.shown_asked hstart howed hallowed h.shown with
    ⟨k, x, before, a, hhosts, hk, hknows, hshown, hx, ha, k₀, hhosts₀, htext, _,
      hanchor⟩
  rcases h.turned hstart howed hallowed with ⟨y, hy, hcandidates, hindex⟩
  rw [hhosts.completions_eq] at hy
  cases hx.symm.trans hy
  rcases x.exists_current hcandidates with ⟨c, hc⟩
  have hcurrent :
      x.candidates[(places % x.candidates.length).toNat]? = some c := by
    rw [← hindex]
    exact hc
  have hfenced := ha.2 k₀ hhosts₀.desk?
  unfold Desk.InText at hfenced
  rw [← hanchor, ← htext] at hfenced
  have hwithin := Completions.editOf_within (c := c) fun _ => hfenced
  rcases Candidate.exists_replaces (c := c) fun _ => hfenced with
    ⟨first, last, hreplaces, horder, hlength, hedit⟩
  rcases Desk.accept_splices hshown hx hc hk hknows fun _ => hwithin with
    ⟨hspliced, hcursor⟩
  rw [hedit, Edit.apply_natCast] at hspliced
  rw [hedit] at hcursor
  exact ⟨k, x, c, first, last, k.accept, hhosts.desk?, hx, hcurrent, hreplaces,
    horder, hlength, hhosts.accept_fst (Desk.accept_eq hshown hx hc).1,
    hhosts.accept.desk?, hspliced, hcursor,
    Desk.accept_accepted hshown hx hc hk hknows,
    Desk.accept_records hshown hx hc hk hknows hwithin⟩

def replied (members : Json.Members) : Workspace (Accounted Scripted) :=
  inquiring.perform (.answer 0 (.obj members) fun a =>
    { a with owed := a.owed.erase (.completion 0 0) })

def turned : Workspace (Accounted Scripted) :=
  (replied mixed).perform (.cycle 5)

theorem displayed_turned : Displayed Fenced begun 0 5 turned := by
  refine .kept (a := .cycle 5)
    (.begun (.step (.step .start ?_) ?_) ?_ ?_ ?_) ?_ ?_
  · constructor
    · exact fun _ _ => trivial
    · intro k hk
      cases hk
      decide +kernel
  · constructor
    · exact fun _ _ => trivial
    · intro k hk
      cases hk
      decide +kernel
  · constructor
    · intro k hk
      cases hk
      exact ⟨by decide, rfl⟩
    · intro k hk
      cases hk
      decide +kernel
  · decide +kernel
  · decide +kernel
  · constructor
    · exact fun _ _ => trivial
    · intro k hk
      cases hk
      decide +kernel
  · decide +kernel

/-- The second of two candidates takes the place of a character outside the
basic plane. -/
theorem accepted_as_spliced_turned :
    ∃ k', (turned.accept 0).1 = .ok true ∧
      (turned.accept 0).2.desk? 0 = some k' ∧
      k'.editor.text = ['a', 't', 'w', 'o', 'c'] ∧ k'.editor.cursor = 4 ∧
      ∃ change, k'.document.sync.pending = [change] ∧
        change.patch? ['a', '😀', 'c'] = some ['a', 't', 'w', 'o', 'c'] := by
  rcases accepted_as_spliced (sample_starts _) rfl displayed_turned with
    ⟨k, x, c, first, last, k', hk, hx, hc, hreplaces, _, _, hok, hk', htext,
      hcursor, _, hrecorded⟩
  cases hk
  cases hx
  have hsecond : c = ⟨['t', 'w', 'o'], some ⟨⟨0, 1⟩, ⟨0, 3⟩⟩⟩ := by
    refine Option.some.inj (hc.symm.trans ?_)
    decide +kernel
  subst hsecond
  rcases hreplaces with ⟨rfl, rfl⟩
  have hspliced : k'.editor.text = ['a', 't', 'w', 'o', 'c'] := by
    rw [htext]
    decide +kernel
  rcases hrecorded (Or.inl rfl) with ⟨change, hpending, hpatch⟩
  rw [hspliced] at hpatch
  refine ⟨k', hok, hk', hspliced, ?_, change, hpending, hpatch⟩
  rw [hcursor]
  decide +kernel

/-- Where the current candidate continues the text, accepting puts what is shown
where it is shown, and the caret behind it.  Whatever sheet the text stands on,
it becomes the same text there with the caret in the same place. -/
theorem accepted_as_shown {start w : Workspace (Accounted τ)} {t : Nat}
    {x : Completion} {c : Candidate} (hstart : start.Starts)
    (howed : start.env.link.owed = []) (h : Reachable Fair start w)
    (ht : w.completions.shown = some t) (hx : w.completions.get? t = some x)
    (hc : x.current = some c) :
    ∃ k, w.desk? 0 = some k ∧ (c.Continues k.editor.text x.anchor →
      ∃ visible k', Completions.visible k.editor.text k.document.completions =
        .ok visible ∧
        k.editor.ghost = some ⟨x.anchor, visible⟩ ∧
        (w.accept 0).1 = .ok true ∧ (w.accept 0).2.desk? 0 = some k' ∧
        k'.editor.text = Slice.before k.editor.text x.anchor ++ visible ++
          Slice.after k.editor.text x.anchor ∧
        k'.editor.cursor = x.anchor + visible.length ∧
        ∀ (σ : Type) [Sheet σ] [LawfulSheet σ] (a asked : Adapter σ), a.Synced →
          a.snapshot = k.editor.text → asked.snapshot = k.editor.text →
          asked.cursor = x.anchor →
            (a.accept x.anchor c).snapshot = k'.editor.text ∧
              Sheet.text (a.accept x.anchor c).sheet = k'.editor.text ∧
              (a.accept x.anchor c).cursor = k'.editor.cursor) := by
  rcases h.shown_asked hstart howed (fun _ _ ha => ha) ht with
    ⟨k, y, before, a, hhosts, hk, hknows, hshown, hy, _, k₀, _, htext, hkind,
      hanchor⟩
  rw [hhosts.completions_eq] at hx
  cases hx.symm.trans hy
  exists k, hhosts.desk?
  intro hcontinues
  have hpart : Completions.visiblePart k.editor.text x =
      .ok (Completions.shownPart k.editor.text x.anchor c) := by
    rw [Completions.visiblePart, hc]
  have hvisible : Completions.visible k.editor.text k.document.completions =
      .ok (Completions.shownPart k.editor.text x.anchor c) := by
    rw [Completions.visible, Completions.shownOne?_eq hshown hx]
    exact hpart
  have hghost : k.editor.ghost =
      some ⟨x.anchor, Completions.shownPart k.editor.text x.anchor c⟩ := by
    rcases hk.painted t hshown with ⟨z, hz, _, hpainted⟩
    cases hx.symm.trans hz
    rw [hpainted, Completion.annotation, hpart]
    rfl
  have hwithin (hwidget : k.editor.isWidget = true) :
      (Completions.editOf k.editor.text x.anchor c).Within k.editor.text := by
    apply Completions.editOf_within
    intro _
    rw [hanchor, htext]
    exact Desk.InText.of_isWidget (hkind.symm.trans hwidget)
  rcases Desk.accept_splices hshown hx hc hk hknows hwithin with
    ⟨hspliced, hcursor⟩
  rcases hcontinues.editOf with ⟨hinserted, hbehind⟩
  refine ⟨_, k.accept, hvisible, hghost,
    hhosts.accept_fst (Desk.accept_eq hshown hx hc).1, hhosts.accept.desk?,
    hspliced.trans hinserted, hcursor.trans hbehind, ?_⟩
  intro σ _ _ b asked hsynced hsame hsameAsked hasked
  rw [hspliced, hcursor, ← hsame]
  apply hsynced.accept rfl
  apply Completions.editOf_within
  intro _
  rw [hsame, ← hsameAsked, ← hasked]
  exact asked.cursor_within

/-- A candidate that takes the place of the two characters before the caret, and
begins with them. -/
def typed : Json.Members :=
  let range : Json.Members :=
    [("start", .obj [("line", .int 0), ("character", .int 1)]),
      ("end", .obj [("line", .int 0), ("character", .int 4)])]
  [("result", .arr [.obj [("insertText", .str "😀c!"), ("range", .obj range)]])]

def continued : Candidate := ⟨['😀', 'c', '!'], some ⟨⟨0, 1⟩, ⟨0, 4⟩⟩⟩

/-- Only what was not typed yet is shown, and inserted, also in a text
widget. -/
theorem accepted_as_shown_typed :
    ∃ k k', (replied typed).desk? 0 = some k ∧
      k.editor.ghost = some ⟨3, ['!']⟩ ∧
      ((replied typed).accept 0).1 = .ok true ∧
      ((replied typed).accept 0).2.desk? 0 = some k' ∧
      k'.editor.text = ['a', '😀', 'c', '!'] ∧ k'.editor.cursor = 4 ∧
      ∃ a : Adapter TextWidget, a.snapshot = ['a', '😀', 'c'] ∧
        Sheet.text (a.accept 3 continued).sheet = k'.editor.text ∧
        (a.accept 3 continued).cursor = k'.editor.cursor := by
  have hreach : Reachable Fair begun (replied typed) := by
    refine .step (.step (.step .start ?_) ?_) ?_
    · exact fun _ _ => trivial
    · exact fun _ _ => trivial
    · intro k hk
      cases hk
      exact ⟨by decide, rfl⟩
  rcases accepted_as_shown (t := 0) (c := continued) (sample_starts _) rfl
    hreach
      (by decide +kernel) rfl (by decide +kernel) with
    ⟨k, hk, haccepted⟩
  cases hk
  have hcontinues : continued.Continues ['a', '😀', 'c'] 3 := by
    intro r hr
    cases hr
    decide +kernel
  rcases haccepted hcontinues with
    ⟨visible, k', _, hghost, hok, hk', htext, hcursor, hsheet⟩
  have hannotated :
      (replied typed).editors.map (·.ghost) = [some ⟨3, ['!']⟩] := by
    decide +kernel
  have hrest := hghost.symm.trans (List.singleton_inj.mp hannotated)
  obtain rfl : visible = ['!'] :=
    congrArg Annotation.text (Option.some.inj hrest)
  let widget : TextWidget := ⟨.widget ['a', '😀', 'c'], rfl⟩
  let a : Adapter TextWidget := (Adapter.fresh widget).moveCursor 3
  have hwidget := hsheet TextWidget a a rfl rfl rfl (by decide +kernel)
  refine ⟨_, k', rfl, hghost, hok, hk', ?_, ?_, a, rfl, hwidget.2⟩
  · rw [htext]
    decide +kernel
  · rw [hcursor]
    decide +kernel

end Workspace
end InlineCompletion
