import InlineCompletion.Proofs.Document.GhostEvents
import InlineCompletion.Proofs.Document.SyncFrame

/-!
# What is shown, and what becomes of it

Completions wane: what is live or shown may cease to be so, and of a completion
that was asked for only the candidate that is current changes.  The main
statements are that everything but showing a completion lets completions wane,
that nothing is annotated while nothing is shown, and that showing a completion
leaves the caret where it is.
-/

namespace InlineCompletion

def Completion.annotation (text : Text) (x : Completion) : Annotation :=
  ⟨x.anchor, (Completions.visiblePart text x).toOption.getD []⟩

namespace Completions

/-- Whether completions differ from others only in that less is live or shown,
and in which of its candidates is current. -/
structure Wanes (c c' : Completions) : Prop where
  live : ∀ t, c'.live = some t → c.live = some t
  shown : ∀ t, c'.shown = some t → c.shown = some t
  size : c'.all.length = c.all.length
  kept : ∀ t x, c.get? t = some x → ∃ i, c'.get? t = some { x with index := i }

namespace Wanes

theorem refl (c : Completions) : Wanes c c :=
  ⟨fun _ h => h, fun _ h => h, rfl, fun _ x h => ⟨x.index, h⟩⟩

theorem trans {c c' c'' : Completions} (h : Wanes c c') (h' : Wanes c' c'') :
    Wanes c c'' := by
  refine ⟨fun t ht => h.live t (h'.live t ht),
    fun t ht => h.shown t (h'.shown t ht), h'.size.trans h.size, ?_⟩
  intro t x hx
  rcases h.kept t x hx with ⟨i, hi⟩
  rcases h'.kept t _ hi with ⟨j, hj⟩
  exact ⟨j, hj⟩

end Wanes

theorem wanes_hide (c : Completions) : Wanes c { c with shown := none } := by
  refine ⟨fun _ h => h, ?_, rfl, fun _ x h => ⟨x.index, h⟩⟩
  intro t h
  cases h

theorem wanes_invalidate (c : Completions) : Wanes c c.invalidate := by
  refine ⟨?_, fun _ h => h, rfl, fun _ x h => ⟨x.index, h⟩⟩
  intro t h
  cases h

theorem wanes_release (ticket : Nat) (c : Completions) :
    Wanes c (c.release ticket) := by
  unfold release
  split
  · exact wanes_invalidate c
  · exact Wanes.refl c

theorem length_modify (c : Completions) (ticket : Nat)
    (f : Completion → Completion) :
    (c.modify ticket f).all.length = c.all.length := by
  simp [modify]

theorem get?_modify_self {c : Completions} {ticket : Nat} {x : Completion}
    (f : Completion → Completion) (hx : c.get? ticket = some x) :
    (c.modify ticket f).get? ticket = some (f x) := by
  unfold get? at hx
  simp [get?, modify, hx]

theorem get?_modify_other {c : Completions} {ticket t : Nat} {x : Completion}
    (f : Completion → Completion) (ht : ticket ≠ t) (hx : c.get? t = some x) :
    (c.modify ticket f).get? t = some x := by
  unfold get? at hx
  simp [get?, modify, ht, hx]

theorem get?_modify {c : Completions} (ticket : Nat)
    (f : Completion → Completion) {t : Nat} {x : Completion}
    (hx : c.get? t = some x) :
    (c.modify ticket f).get? t = some x ∨
      (c.modify ticket f).get? t = some (f x) := by
  by_cases ht : ticket = t
  · subst ht
    exact Or.inr (get?_modify_self f hx)
  · exact Or.inl (get?_modify_other f ht hx)

theorem wanes_modify {c : Completions} {ticket : Nat} {x : Completion} (i : Int)
    (hx : c.get? ticket = some x) :
    Wanes c (c.modify ticket fun _ => { x with index := i }) := by
  refine ⟨fun _ h => h, fun _ h => h, length_modify .., ?_⟩
  intro t y hy
  by_cases ht : ticket = t
  · subst ht
    cases hx.symm.trans hy
    exact ⟨i, get?_modify_self _ hx⟩
  · exact ⟨y.index, get?_modify_other _ ht hy⟩

theorem lt_of_get? {c : Completions} {t : Nat} {x : Completion}
    (h : c.get? t = some x) :
    t < c.all.length :=
  (List.getElem?_eq_some_iff.mp h).1

theorem modify_anchor {c : Completions} {ticket : Nat}
    {f : Completion → Completion} (hf : ∀ x, (f x).anchor = x.anchor) {t : Nat}
    {x : Completion} (hx : c.get? t = some x) :
    ∃ x', (c.modify ticket f).get? t = some x' ∧ x'.anchor = x.anchor := by
  rcases get?_modify ticket f hx with hsame | hmodified
  · exact ⟨x, hsame, rfl⟩
  · exact ⟨f x, hmodified, hf x⟩

theorem shown_modify {c c' : Completions} {ticket : Nat} {x : Completion}
    {f : Completion → Completion} (hx : c.get? ticket = some x)
    (h : c' = { c.modify ticket f with shown := some ticket }) :
    c'.get? ticket = some (f x) ∧ c'.all.length = c.all.length ∧
      c'.live = c.live ∧ c'.shown = some ticket := by
  subst h
  exact ⟨get?_modify_self f hx, length_modify .., rfl, rfl⟩

end Completions

namespace Stage

open Completions

/-!
# Ending what is shown
-/

theorem finish_shown (outcome : Outcome) (s : Stage) :
    (s.finish outcome).completions.shown = none := by
  unfold finish
  split
  · assumption
  · simp only [release, emits]
    split <;> rfl

theorem finish_wanes (outcome : Outcome) (s : Stage) :
    Wanes s.completions (s.finish outcome).completions := by
  unfold finish
  split
  · exact Wanes.refl s.completions
  · exact (wanes_hide s.completions).trans (wanes_release _ _)

theorem finish_of_shown_eq_none {s : Stage} (outcome : Outcome)
    (h : s.completions.shown = none) : s.finish outcome = s := by
  unfold finish
  rw [h]

/-!
# Nothing annotated unless shown
-/

def Bare (s : Stage) : Prop :=
  s.completions.shown = none → s.editor.ghost = none

theorem finish_bare {s : Stage} (outcome : Outcome) (h : s.Bare) :
    (s.finish outcome).Bare := by
  intro _
  unfold finish
  split
  · rename_i hshown
    exact h hshown
  · rfl

theorem display_bare {s : Stage} (ticket : Nat) (h : s.Bare) :
    (s.display ticket).Bare := by
  have hfinish := finish_bare .superseded h
  unfold display
  simp only
  split
  · split
    · exact hfinish
    · intro hshown
      cases hshown
  · exact hfinish

theorem moveCursor_bare {s : Stage} (offset : Int) (h : s.Bare) :
    (s.moveCursor offset).Bare := by
  have hghost : (s.editor.moveCursor offset).1.ghost = s.editor.ghost := by
    unfold Editor.moveCursor
    cases s.editor.caret <;> rfl
  intro hshown
  exact hghost.trans (h hshown)

theorem cancel_bare {s : Stage} (h : s.Bare) : s.cancel.2.Bare := by
  unfold cancel
  split
  · exact moveCursor_bare _ (finish_bare .canceled h)
  · exact h

theorem cycle_bare {s : Stage} (places : Int) (h : s.Bare) :
    (s.cycle places).2.Bare := by
  unfold cycle
  split
  · rename_i ticket x hticket hx
    split
    · exact h
    · intro hshown
      exact absurd (hticket.symm.trans hshown) (by simp)
  · exact h

/-!
# The caret
-/

theorem finish_caret (outcome : Outcome) (s : Stage) :
    (s.finish outcome).editor.caret = s.editor.caret := by
  unfold finish
  split <;> rfl

theorem display_caret (ticket : Nat) (s : Stage) :
    (s.display ticket).editor.caret = s.editor.caret := by
  have hfinish := finish_caret .superseded s
  unfold display
  simp only
  split
  · split
    · exact hfinish
    · exact hfinish
  · exact hfinish

/-!
# Showing another candidate, refusing and accepting
-/

theorem cancel_wanes (s : Stage) :
    Wanes s.completions s.cancel.2.completions := by
  unfold cancel
  split
  · exact finish_wanes .canceled s
  · exact Wanes.refl s.completions

theorem accept_edit {s : Stage} {e : Edit} (h : s.accept.1 = .ok (some e)) :
    ∃ x c, s.completions.shownOne? = some x ∧
      e = editOf s.editor.text x.anchor c := by
  unfold accept at h
  split at h
  · cases h
  · rename_i x hx
    simp only at h
    split at h
    · rename_i c hc
      cases h
      exact ⟨x, c, hx,
        congrArg (editOf · x.anchor c) (quiet_finish .accepted s).text⟩
    · cases h

theorem accept_of_edit {s : Stage} {e : Edit} (h : s.accept.1 = .ok (some e)) :
    s.accept.2 = s.finish .accepted := by
  unfold accept at h ⊢
  split at h
  · cases h
  · simp only at h ⊢
    split at h
    · rfl
    · cases h

theorem accept_stage (s : Stage) :
    s.accept.2 = s ∨ s.accept.2 = s.finish .accepted := by
  unfold accept
  split
  · exact Or.inl rfl
  · simp only
    split
    · exact Or.inr rfl
    · exact Or.inr rfl

theorem cycle_cases (places : Int) (s : Stage) :
    (s.cycle places).2 = s ∨ ∃ t x i, s.completions.shown = some t ∧
      s.completions.get? t = some x ∧
      (s.cycle places).2 =
        ({ s with completions :=
          s.completions.modify t fun _ => { x with index := i } } :
          Stage).render { x with index := i } := by
  unfold cycle
  split
  · rename_i t x ht hx
    have hx : s.completions.get? t = some x := by
      rwa [Completions.shownOne?, ht] at hx
    split
    · exact Or.inl rfl
    · exact Or.inr ⟨t, x, _, ht, hx, rfl⟩
  · exact Or.inl rfl

theorem cycle_wanes (places : Int) (s : Stage) :
    Wanes s.completions (s.cycle places).2.completions := by
  unfold cycle
  split
  · rename_i ticket x hticket hx
    have hx : s.completions.get? ticket = some x := by
      rwa [shownOne?, hticket] at hx
    split
    · exact Wanes.refl s.completions
    · exact wanes_modify _ hx
  · exact Wanes.refl s.completions

theorem cycle_shown (places : Int) (s : Stage) :
    (s.cycle places).2.completions.shown = s.completions.shown ∧
      (s.cycle places).2.completions.live = s.completions.live := by
  unfold cycle
  split
  · split
    · exact ⟨rfl, rfl⟩
    · exact ⟨rfl, rfl⟩
  · exact ⟨rfl, rfl⟩

/-!
# Showing a completion
-/

theorem current_isSome {x : Completion} (hcandidates : x.candidates ≠ [])
    (hindex : x.index = 0) :
    x.current.isNone = false := by
  cases hcases : x.candidates with
  | nil => exact absurd hcases hcandidates
  | cons c rest => simp [Completion.current, hindex, hcases]

theorem display_eq_render {s : Stage} {ticket : Nat} {x : Completion}
    (hshown : s.completions.shown = none)
    (hx : s.completions.get? ticket = some x)
    (hcurrent : x.current.isNone = false) :
    s.display ticket =
      ({ s with completions :=
        { s.completions with shown := some ticket } } : Stage).render x := by
  unfold display
  rw [finish_of_shown_eq_none .superseded hshown]
  simp only [hx, hcurrent, Bool.false_eq_true, if_false]

theorem display_completions {s : Stage} {ticket : Nat} {x : Completion}
    (hshown : s.completions.shown = none)
    (hx : s.completions.get? ticket = some x)
    (hcurrent : x.current.isNone = false) :
    (s.display ticket).completions =
    { s.completions with shown := some ticket } := by
  rw [display_eq_render hshown hx hcurrent]
  rfl

theorem display_painted {s : Stage} {ticket : Nat} {x : Completion}
    (hshown : s.completions.shown = none)
    (hx : s.completions.get? ticket = some x)
    (hcurrent : x.current.isNone = false) :
    (s.display ticket).editor.ghost = some (x.annotation s.editor.text) ∧
      Cues false [] true s.trace (s.display ticket).trace := by
  rw [display_eq_render hshown hx hcurrent]
  exact ⟨rfl, render_cues _ false _⟩

end Stage

namespace Desk

/-!
# What an answer does
-/

/-- What an answer can come to at a desk where nothing is shown in front of a
live completion. -/
inductive Answered {τ : Type} (ticket : Nat) (k k' : Desk τ) : Prop where
  | ignored (hcompletions : k'.document.completions = k.document.completions)
      (heditor : k'.editor = k.editor)
      (huncued : Uncued k.env.trace k'.env.trace)
  | dropped (hlive : k.document.completions.live = some ticket)
      (hgone : k'.document.completions.live = none)
      (hshown : k'.document.completions.shown = k.document.completions.shown)
      (hsize : k'.document.completions.all.length =
        k.document.completions.all.length)
      (hkept : ∀ t x, k.document.completions.get? t = some x →
        ∃ cs, k'.document.completions.get? t = some { x with candidates := cs })
      (heditor : k'.editor = k.editor)
      (huncued : Uncued k.env.trace k'.env.trace)
  | displayed {x : Completion} {candidates : List Candidate}
      (hlive : k.document.completions.live = some ticket)
      (hx : k.document.completions.get? ticket = some x)
      (hcursor : k.editor.cursor = x.anchor)
      (hcandidates : candidates ≠ [])
      (hcompletions : k'.document.completions =
        { k.document.completions.modify ticket
            (fun x => { x with candidates := candidates, index := 0 }) with
          shown := some ticket })
      (hcaret : k'.editor.caret = k.editor.caret)
      (hghost : k'.editor.ghost = some (Completion.annotation k.editor.text
        { x with candidates := candidates, index := 0 }))
      (hcues : Cues false [] true k.env.trace k'.env.trace)

theorem modify_candidates {c : Completions} {ticket : Nat} (cs : List Candidate)
    {t : Nat} {x : Completion} (hx : c.get? t = some x) :
    ∃ cs', (c.modify ticket fun x => { x with candidates := cs }).get? t =
      some { x with candidates := cs' } := by
  rcases Completions.get?_modify ticket
    (fun x => { x with candidates := cs }) hx with hsame | hmodified
  · exact ⟨x.candidates, hsame⟩
  · exact ⟨cs, hmodified⟩

theorem answered_of_candidates {τ : Type} {k k₀ : Desk τ} {ticket : Nat}
    {x : Completion} (candidates : List Candidate)
    (hdocument : k₀.document = k.document) (heditor : k₀.editor = k.editor)
    (huncued : Uncued k.env.trace k₀.env.trace)
    (hlive : k.document.completions.live = some ticket)
    (hx : k.document.completions.get? ticket = some x)
    (hcursor : k.editor.cursor = x.anchor)
    (hshown : k.document.completions.shown = none) :
    Answered ticket k
      (let update := fun (x : Completion) =>
          if candidates.isEmpty then { x with candidates := [] }
          else { x with candidates := candidates, index := 0 }
        let completions := k₀.document.completions.modify ticket update
        let k₁ : Desk τ :=
          { k₀ with document :=
            { k₀.document with completions := completions } }
        if candidates.isEmpty then k₁.invalidate else
          k₁.onStage (Stage.display ticket)) := by
  cases hempty : candidates.isEmpty with
  | true =>
      refine .dropped hlive rfl ?_ ?_ ?_ heditor huncued
      · exact congrArg (·.completions.shown) hdocument
      · simp [Completions.modify, Completions.invalidate, invalidate, hdocument]
      · intro t y hy
        simp only [hdocument, if_true]
        exact modify_candidates [] hy
  | false =>
      have hcandidates : candidates ≠ [] := by
        intro h
        simp [h] at hempty
      simp only [Bool.false_eq_true, if_false, hdocument]
      have hmodified := Completions.get?_modify_self
        (fun x => { x with candidates := candidates, index := 0 }) hx
      have hcurrent : Option.isNone
          (Completion.current { x with candidates := candidates, index := 0 }) =
            false :=
        Stage.current_isSome hcandidates rfl
      refine .displayed hlive hx hcursor hcandidates ?_ ?_ ?_ ?_
      · exact Stage.display_completions (by exact hshown) hmodified hcurrent
      · exact (Stage.display_caret ticket _).trans
          (congrArg Editor.caret heditor)
      · rw [← heditor]
        exact (Stage.display_painted (by exact hshown) hmodified hcurrent).1
      · exact huncued.before
          (Stage.display_painted (by exact hshown) hmodified hcurrent).2

theorem Answered.live {τ : Type} {k k' : Desk τ} {ticket t : Nat}
    (h : Answered ticket k k') (ht : k'.document.completions.live = some t) :
    k.document.completions.live = some t := by
  cases h with
  | ignored hcompletions _ => rwa [hcompletions] at ht
  | dropped _ hgone _ _ _ _ => exact absurd (hgone.symm.trans ht) (by simp)
  | displayed _ _ _ _ hcompletions _ => rwa [hcompletions] at ht

theorem receive_answered {τ : Type} (ticket : Nat) (message : Json) (k : Desk τ)
    (hshown : k.document.completions.live = some ticket →
    k.document.completions.shown = none) :
    Answered ticket k (k.receive ticket message) := by
  have htold (n : Notice) (hn : Event.resolution? (.notice n) = none) :
      Uncued k.env.trace (k.tell n).env.trace := .append _ rfl fun _ => rfl
  unfold receive
  split
  · exact .ignored rfl rfl (.refl _)
  · rename_i x hx
    split
    · exact .ignored rfl rfl (htold _ rfl)
    · rename_i hlive
      rw [Decidable.not_not] at hlive
      split
      · split
        · exact .dropped hlive rfl rfl rfl (fun _ y hy => ⟨y.candidates, hy⟩)
            rfl (htold _ rfl)
        · split
          · exact .dropped hlive rfl rfl rfl (fun _ y hy => ⟨y.candidates, hy⟩)
              rfl (htold _ rfl)
          · rename_i members _ hcounts
            rw [not_or, not_or, Decidable.not_not, Decidable.not_not] at hcounts
            rcases hcounts with ⟨_, _, hcursor⟩
            cases Candidate.ofResult
              ((Json.Members.get? "result" members).getD .null) with
            | mk candidates oddity =>
                cases oddity with
                | none =>
                    exact answered_of_candidates candidates rfl rfl (.refl _)
                      hlive hx hcursor (hshown hlive)
                | some o =>
                    have hdocument :
                        (k.tell (.oddAnswer o)).document = k.document := rfl
                    exact answered_of_candidates candidates hdocument rfl
                      (htold _ rfl) hlive hx hcursor (hshown hlive)
      · exact .dropped hlive rfl rfl rfl (fun _ y hy => ⟨y.candidates, hy⟩) rfl
          (htold _ rfl)

theorem receive_stage {τ : Type} (ticket : Nat) (message : Json) (k : Desk τ) :
    ∃ s, k.receive ticket message = k.withStage s ∧
      s.editor.caret = k.editor.caret := by
  unfold receive
  split
  · exact ⟨k.stage, rfl, rfl⟩
  · split
    · exact ⟨⟨_, _, _⟩, rfl, rfl⟩
    · split
      · split
        · exact ⟨⟨_, _, _⟩, rfl, rfl⟩
        · split
          · exact ⟨⟨_, _, _⟩, rfl, rfl⟩
          · rename_i members _ _
            cases Candidate.ofResult
              ((Json.Members.get? "result" members).getD .null) with
            | mk candidates oddity =>
                cases oddity with
                | none =>
                    dsimp only
                    split
                    · exact ⟨⟨_, _, _⟩, rfl, rfl⟩
                    · exact ⟨_, rfl, Stage.display_caret ticket _⟩
                | some o =>
                    dsimp only
                    split
                    · exact ⟨⟨_, _, _⟩, rfl, rfl⟩
                    · exact ⟨_, rfl, Stage.display_caret ticket _⟩
      · exact ⟨⟨_, _, _⟩, rfl, rfl⟩

end Desk
end InlineCompletion
