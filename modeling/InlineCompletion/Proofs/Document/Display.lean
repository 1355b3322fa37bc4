import InlineCompletion.Proofs.Document.Ghost
import InlineCompletion.Proofs.Document.Run

/-!
# How completions come to be shown

Only an answer shows a completion, and it does so only where the caret is at the
completion's anchor.  What goes on without moving the caret is *steady*:
whatever is shown behind it either was shown before or has the caret at its
anchor.  The main statements are that everything that can lead to an answer is
steady, time included, and that everything else shows nothing new.
-/

namespace InlineCompletion

theorem Editor.cursor_congr {e e' : Editor} (htext : e'.text = e.text)
    (hcaret : e'.caret = e.caret) : e'.cursor = e.cursor := by
  unfold Editor.cursor
  rw [htext, hcaret]

namespace Desk

variable {τ : Type}

/-!
# What asking does to completions
-/

theorem posed_shown (kind : TriggerKind) (k : Desk τ) :
    (k.posed kind).document.completions.shown = none :=
  Stage.finish_shown .superseded k.stage

theorem nextTicket_eq (k : Desk τ) :
    k.nextTicket = k.document.completions.all.length :=
  (Stage.finish_wanes .superseded k.stage).size

theorem posed_size (kind : TriggerKind) (k : Desk τ) :
    (k.posed kind).document.completions.all.length = k.nextTicket + 1 := by
  simp [posed, Completions.add, nextTicket]

theorem posed_ticket (kind : TriggerKind) (k : Desk τ) :
    (k.posed kind).document.completions.get? k.nextTicket = some
    (k.nextCompletion kind) := by
  simp [posed, Completions.add, Completions.get?, nextTicket]

theorem posed_kept (kind : TriggerKind) {k : Desk τ} {t : Nat} {x : Completion}
    (hx : k.document.completions.get? t = some x) :
    ∃ i, (k.posed kind).document.completions.get? t =
      some { x with index := i } := by
  rcases (Stage.finish_wanes .superseded k.stage).kept t x hx with ⟨i, hi⟩
  exists i
  show ((k.stage.finish .superseded).completions.all ++
    [k.nextCompletion kind])[t]? = _
  unfold Completions.get? at hi
  rw [List.getElem?_append_left (List.getElem?_eq_some_iff.mp hi).1]
  exact hi

/-!
# Steady steps
-/

/-- Whether the caret stays and whatever is newly asked for or shown has it at
its anchor. -/
structure Steady (k k' : Desk τ) : Prop where
  text : k'.editor.text = k.editor.text
  caret : k'.editor.caret = k.editor.caret
  kept : ∀ t x, k.document.completions.get? t = some x →
    ∃ x', k'.document.completions.get? t = some x' ∧ x'.anchor = x.anchor
  asked : ∀ t x, k.document.completions.all.length ≤ t →
    k'.document.completions.get? t = some x → x.anchor = k'.editor.cursor
  shown : ∀ t, k'.document.completions.shown = some t →
    k.document.completions.shown = some t ∨
      ∃ x, k'.document.completions.get? t = some x ∧ k'.editor.cursor = x.anchor

theorem asked_of_size {k k' : Desk τ}
    (hsize : k'.document.completions.all.length =
    k.document.completions.all.length) (t : Nat)
    (x : Completion) (ht : k.document.completions.all.length ≤ t)
    (hx : k'.document.completions.get? t = some x) :
    x.anchor = k'.editor.cursor := by
  have hlt := Completions.lt_of_get? hx
  omega

namespace Steady

theorem refl (k : Desk τ) : Steady k k :=
  ⟨rfl, rfl, fun _ x hx => ⟨x, hx, rfl⟩, asked_of_size rfl,
    fun _ ht => Or.inl ht⟩

theorem cursor {k k' : Desk τ} (h : Steady k k') :
    k'.editor.cursor = k.editor.cursor :=
  Editor.cursor_congr h.text h.caret

theorem trans {k k' k'' : Desk τ} (h : Steady k k') (h' : Steady k' k'') :
    Steady k k'' := by
  refine ⟨h'.text.trans h.text, h'.caret.trans h.caret, ?_, ?_, ?_⟩
  · intro t x hx
    rcases h.kept t x hx with ⟨x', hx', hanchor⟩
    rcases h'.kept t x' hx' with ⟨x'', hx'', hanchor'⟩
    exact ⟨x'', hx'', hanchor'.trans hanchor⟩
  · intro t x ht hx
    cases hx' : k'.document.completions.get? t with
    | none => exact h'.asked t x (List.getElem?_eq_none_iff.mp hx') hx
    | some x' =>
        rcases h'.kept t x' hx' with ⟨x'', hx'', hanchor⟩
        cases hx.symm.trans hx''
        exact hanchor.trans ((h.asked t x' ht hx').trans h'.cursor.symm)
  · intro t ht
    rcases h'.shown t ht with ht' | hnew
    · rcases h.shown t ht' with hold | ⟨x, hx, hcursor⟩
      · exact Or.inl hold
      · rcases h'.kept t x hx with ⟨x', hx', hanchor⟩
        exact Or.inr ⟨x', hx', h'.cursor.trans (hcursor.trans hanchor.symm)⟩
    · exact Or.inr hnew

theorem of_same {k k' : Desk τ}
    (hcompletions : k'.document.completions = k.document.completions)
    (heditor : k'.editor = k.editor) : Steady k k' := by
  refine ⟨by rw [heditor], by rw [heditor], ?_,
    asked_of_size (by rw [hcompletions]), ?_⟩
  · intro t x hx
    rw [hcompletions]
    exact ⟨x, hx, rfl⟩
  · intro t ht
    rw [hcompletions] at ht
    exact Or.inl ht

theorem invalidate (k : Desk τ) : Steady k k.invalidate :=
  ⟨rfl, rfl, fun _ x hx => ⟨x, hx, rfl⟩, asked_of_size rfl,
    fun _ ht => Or.inl ht⟩

theorem named (ticket : Nat) (id : Int) (k : Desk τ) :
    Steady k (k.named ticket id) :=
  ⟨rfl, rfl,
    fun _ _ hx =>
      Completions.modify_anchor (f := fun x => { x with id := some id })
        (fun _ => rfl) hx,
    asked_of_size (Completions.length_modify ..),
    fun _ ht => Or.inl ht⟩

theorem seeing (link : τ) (es : List Event) (k : Desk τ) :
    Steady k (k.seeing link es) :=
  of_same rfl rfl

theorem tell (n : Notice) (k : Desk τ) : Steady k (k.tell n) := of_same rfl rfl

theorem tellFault {α : Type} (r : Except Fault α × Desk τ) :
    Steady r.2 (tellFault r) := by
  unfold Desk.tellFault
  cases r.1 with
  | error f => exact tell _ r.2
  | ok _ => exact refl r.2

theorem posed (kind : TriggerKind) (k : Desk τ) : Steady k (k.posed kind) := by
  have htext := (quiet_posed kind k).text
  have hcaret : (k.posed kind).editor.caret = k.editor.caret :=
    Stage.finish_caret .superseded k.stage
  refine ⟨htext, hcaret, ?_, ?_, ?_⟩
  · intro t x hx
    rcases posed_kept kind hx with ⟨i, hi⟩
    exact ⟨_, hi, rfl⟩
  · intro t x ht hx
    have hlt := Completions.lt_of_get? hx
    rw [posed_size, nextTicket_eq] at hlt
    obtain rfl : t = k.nextTicket := by
      rw [nextTicket_eq]
      omega
    cases hx.symm.trans (posed_ticket kind k)
    exact (Editor.cursor_congr htext hcaret).symm
  · intro t ht
    exact absurd ((posed_shown kind k).symm.trans ht) (by simp)

theorem receive {k : Desk τ} (ticket : Nat) (message : Json)
    (hshown : k.document.completions.live = some ticket →
    k.document.completions.shown = none) :
    Steady k (k.receive ticket message) := by
  have hanswered := receive_answered ticket message k hshown
  have htext := (quiet_receive ticket message k).text
  cases hanswered with
  | ignored hcompletions heditor huncued => exact of_same hcompletions heditor
  | dropped hlive hgone hsame hsize hkept heditor huncued =>
      refine ⟨htext, by rw [heditor], ?_, asked_of_size hsize, ?_⟩
      · intro t x hx
        rcases hkept t x hx with ⟨cs, hcs⟩
        exact ⟨_, hcs, rfl⟩
      · intro t ht
        exact Or.inl (hsame.symm.trans ht)
  | displayed hlive hx hcursor hcandidates hcompletions hcaret hghost hcues =>
      rename_i x candidates
      have hkept (t : Nat) (y : Completion)
          (hy : k.document.completions.get? t = some y) :
          ∃ y', (k.receive ticket message).document.completions.get? t =
            some y' ∧
            y'.anchor = y.anchor := by
        rw [hcompletions]
        exact Completions.modify_anchor
          (f := fun x => { x with candidates := candidates, index := 0 })
            (fun _ => rfl) hy
      refine ⟨htext, hcaret, hkept, asked_of_size ?_, ?_⟩
      · rw [hcompletions]
        exact Completions.length_modify ..
      · intro t ht
        rw [hcompletions] at ht
        cases ht
        rcases hkept ticket x hx with ⟨y, hy, hanchor⟩
        exact Or.inr
          ⟨y, hy, (Editor.cursor_congr htext hcaret).trans
            (hcursor.trans hanchor.symm)⟩

end Steady

theorem Flushing.frame [Link τ] {k : Desk τ} {r : Bool × Desk τ}
    (h : Flushing k r) :
    r.2.document.completions = k.document.completions ∧
      r.2.editor = k.editor := by
  cases h <;> exact ⟨rfl, rfl⟩

theorem openCopy_frame [Link τ] (k : Desk τ) :
    k.openCopy.2.document.completions = k.document.completions ∧
      k.openCopy.2.editor = k.editor := by
  have hopening := opening k
  revert hopening
  generalize k.openCopy = r
  intro hopening
  cases hopening <;> exact ⟨rfl, rfl⟩

/-!
# What can lead to an answer

Asking clears what is shown before the agent is asked, so that an answer at once
finds nothing shown.
-/

namespace Steady

variable [Link τ]

theorem openCopy (k : Desk τ) : Steady k k.openCopy.2 :=
  of_same (openCopy_frame k).1 (openCopy_frame k).2

theorem flush (k : Desk τ) : Steady k k.flush.2 :=
  of_same (Desk.flushing k).frame.1 (Desk.flushing k).frame.2

theorem requesting {k k' : Desk τ} (h : Requesting k k') : Steady k k' := by
  cases h with
  | closed _ => exact .refl k
  | offline _ => exact of_same rfl rfl
  | unsynced hflush => exact of_same hflush.frame.1 hflush.frame.2
  | unknown hflush => exact of_same hflush.frame.1 hflush.frame.2
  | asked hconnected hflush hask =>
      rename_i kind k₁ r
      have hposed :=
        (of_same hflush.frame.1 hflush.frame.2).trans (posed kind k₁)
      cases hask with
      | oneWay _ => exact hposed.trans (seeing _ _ _)
      | refused _ _ =>
          exact ((hposed.trans (seeing _ _ _)).trans (tell _ _)).trans
            (invalidate _)
      | deferred _ => exact (hposed.trans (seeing _ _ _)).trans (named _ _ _)
      | answered _ =>
          exact ((hposed.trans (seeing _ _ _)).trans
            (receive _ _ fun _ => posed_shown kind k₁)).trans (named _ _ _)

theorem ringFlush (a : Alarm) (k : Desk τ) : Steady k (k.ringFlush a) := by
  have hfired : Steady k
      (((k.atTime a.due).withSync k.document.sync.unschedule
        (k.atTime a.due).env).emit (.fired a.due)) := of_same rfl rfl
  exact hfired.trans (flush _)

theorem ringTrigger (a : Alarm) (k : Desk τ) : Steady k (k.ringTrigger a) := by
  have hfired : Steady k
      (((k.atTime a.due).withTrigger k.document.trigger.cancel).emit
        (.fired a.due)) :=
    of_same rfl rfl
  exact (hfired.trans (requesting (request_requesting .automatic _))).trans
    (tellFault _)

theorem advance (milliseconds : Int) (k : Desk τ) :
    Steady k (k.advance milliseconds) := by
  have hrung : Steady k (Alarm.ring alarms ring (k.env.clock.now + milliseconds)
      k.alarms.length k) := by
    refine Alarm.ring_keeps ?_ _ (.refl k)
    intro k' bell a h
    cases bell with
    | flush _ => exact h.trans (ringFlush a k')
    | trigger _ => exact h.trans (ringTrigger a k')
  exact hrung.trans (of_same rfl rfl)

end Steady

/-!
# What shows nothing new
-/

theorem recordEdit_shown {k : Desk τ} {e : Edit} {t : Nat}
    (ht : (k.recordEdit e).document.completions.shown = some t) :
    k.document.completions.shown = some t := by
  cases hclosed : k.document.closed with
  | true => rwa [recordEdit_closed e hclosed] at ht
  | false =>
      rw [(recordEdit_stage e hclosed).1] at ht
      exact (Stage.finish_wanes .canceled k.stage).shown t ht

theorem edit_shown {k : Desk τ} {f : Editor → Option Edit × Editor} {t : Nat}
    (ht : (k.edit f).document.completions.shown = some t) :
    k.document.completions.shown = some t := by
  unfold edit at ht
  cases hedit : (f k.editor).1 with
  | none =>
      rw [hedit] at ht
      exact ht
  | some e =>
      rw [hedit] at ht
      exact recordEdit_shown
        (k := ({ k with editor := (f k.editor).2 } : Desk τ).emit (.edited e))
          ht

theorem accept_shown {k : Desk τ} {t : Nat}
    (ht : k.accept.document.completions.shown = some t) :
    k.document.completions.shown = some t := by
  have hstaged
      (h : (k.withStage k.stage.accept.2).document.completions.shown = some t) :
      k.document.completions.shown = some t := by
    rcases Stage.accept_stage k.stage with hstage | hstage
    · rw [hstage] at h
      exact h
    · rw [hstage] at h
      exact absurd ((Stage.finish_shown .accepted k.stage).symm.trans h)
        (by simp)
  rcases accept_cases k with ⟨haccept, _⟩ | ⟨e, _, _, haccept⟩
  · rw [haccept] at ht
    exact hstaged ht
  · rw [haccept] at ht
    exact hstaged (edit_shown ht)

theorem close_shown [Link τ] (k : Desk τ) :
    k.close.document.completions.shown = none :=
  Stage.finish_shown .superseded k.stage

/-- Whatever an action newly shows has the caret at its anchor. -/
theorem perform_shown [Link τ] {k : Desk τ} {a : Action τ} {t : Nat}
    (hanswer : ∀ ticket message note, a = .answer ticket message note →
      k.document.completions.live = some ticket →
        k.document.completions.shown = none)
    (ht : (k.perform a).document.completions.shown = some t) :
    k.document.completions.shown = some t ∨
      ∃ x, (k.perform a).document.completions.get? t = some x ∧
        (k.perform a).editor.cursor = x.anchor := by
  cases a with
  | edit g => exact Or.inl (edit_shown ht)
  | moveCursor offset => exact Or.inl ht
  | select anchor position => exact Or.inl ht
  | openCopy => exact (Steady.openCopy k).shown t ht
  | close => exact absurd ((close_shown k).symm.trans ht) (by simp)
  | flush => exact (Steady.flush k).shown t ht
  | trigger =>
      exact (Steady.requesting (request_requesting .invoked _)).shown t ht
  | request reason =>
      exact (Steady.requesting (requestFor_requesting reason k)).shown t ht
  | accept => exact Or.inl (accept_shown ht)
  | cancel => exact Or.inl ((Stage.cancel_wanes k.stage).shown t ht)
  | cycle places => exact Or.inl ((Stage.cycle_wanes places k.stage).shown t ht)
  | supersede =>
      exact Or.inl ((Stage.finish_wanes .superseded k.stage).shown t ht)
  | answer ticket message note =>
      exact (Steady.receive (k := k.relinked note) ticket message
        (hanswer ticket message note rfl)).shown t ht
  | flushAlarm a => exact (Steady.ringFlush a k).shown t ht
  | triggerAlarm a => exact (Steady.ringTrigger a k).shown t ht
  | elapse milliseconds => exact (Steady.advance milliseconds k).shown t ht
  | disturb f => exact Or.inl ht

/-!
# Nothing annotated unless shown

Whatever happens at a desk, its editor shows no annotation while no completion
is shown, be answers given as often as one likes.
-/

theorem bare_of_same {k k' : Desk τ}
    (hshown : k'.document.completions.shown = k.document.completions.shown)
    (hghost : k'.editor.ghost = k.editor.ghost) (h : k.stage.Bare) :
    k'.stage.Bare := by
  intro hnone
  exact hghost.trans (h (hshown.symm.trans hnone))

theorem receive_bare (ticket : Nat) (message : Json) {k : Desk τ}
    (h : k.stage.Bare) :
    (k.receive ticket message).stage.Bare := by
  unfold receive
  split
  · exact h
  · split
    · exact h
    · split
      · split
        · exact h
        · split
          · exact h
          · rename_i members _ _
            cases Candidate.ofResult
              ((Json.Members.get? "result" members).getD .null) with
            | mk candidates oddity =>
                cases oddity with
                | none =>
                    dsimp only
                    split
                    · exact h
                    · exact Stage.display_bare ticket (by exact h)
                | some o =>
                    dsimp only
                    split
                    · exact h
                    · exact Stage.display_bare ticket (by exact h)
      · exact h

theorem recordEdit_bare (e : Edit) {k : Desk τ} (h : k.stage.Bare) :
    (k.recordEdit e).stage.Bare := by
  cases hclosed : k.document.closed with
  | true =>
      rw [recordEdit_closed e hclosed]
      exact h
  | false =>
      rcases recordEdit_stage e hclosed with ⟨hcompletions, heditor⟩
      intro _
      show (k.recordEdit e).editor.ghost = none
      rw [heditor]
      exact Stage.finish_bare .canceled h (Stage.finish_shown .canceled k.stage)

theorem edit_bare {f : Editor → Option Edit × Editor}
    (hview : ∀ e : Editor, e.SameView (f e).2) {k : Desk τ} (h : k.stage.Bare) :
    (k.edit f).stage.Bare := by
  have hghost : (f k.editor).2.ghost = k.editor.ghost := (hview k.editor).1
  have hchanged : ({ k with editor := (f k.editor).2 } : Desk τ).stage.Bare :=
    bare_of_same (k := k) rfl hghost h
  unfold edit
  cases (f k.editor).1 with
  | none => exact hchanged
  | some e => exact recordEdit_bare e (by exact hchanged)

theorem accept_bare {k : Desk τ} (h : k.stage.Bare) : k.accept.stage.Bare := by
  have hstaged : (k.withStage k.stage.accept.2).stage.Bare := by
    rcases Stage.accept_stage k.stage with hstage | hstage
    · rw [hstage]
      exact h
    · rw [hstage]
      exact Stage.finish_bare .accepted h
  rcases accept_cases k with ⟨haccept, _⟩ | ⟨e, _, _, haccept⟩
  · rw [haccept]
    exact hstaged
  · rw [haccept]
    exact Stage.moveCursor_bare _
      (edit_bare (Editor.replace_sameView e) hstaged)

theorem tellFault_bare {α : Type} {r : Except Fault α × Desk τ}
    (h : r.2.stage.Bare) :
    (tellFault r).stage.Bare := by
  unfold tellFault
  cases r.1 with
  | error f => exact h
  | ok _ => exact h

section Linked

variable [Link τ]

theorem Flushing.bare {k : Desk τ} {r : Bool × Desk τ} (hflush : Flushing k r)
    (h : k.stage.Bare) : r.2.stage.Bare :=
  bare_of_same (congrArg Completions.shown hflush.frame.1)
    (congrArg Editor.ghost hflush.frame.2) h

theorem Asking.bare {kind : TriggerKind} {k : Desk τ}
    {r : Except Fault (Option Nat) × Desk τ} (hask : Asking kind k r)
    (h : k.stage.Bare) : r.2.stage.Bare := by
  have hposed : (k.posed kind).stage.Bare := fun _ =>
    Stage.finish_bare .superseded h (Stage.finish_shown .superseded k.stage)
  cases hask with
  | oneWay _ => exact hposed
  | refused _ _ => exact hposed
  | deferred _ => exact hposed
  | answered _ => exact receive_bare _ _ (by exact hposed)

theorem Requesting.bare {k k' : Desk τ} (hrequest : Requesting k k')
    (h : k.stage.Bare) :
    k'.stage.Bare := by
  cases hrequest with
  | closed _ => exact h
  | offline _ => exact h
  | unsynced hflush => exact hflush.bare h
  | unknown hflush => exact hflush.bare h
  | asked _ hflush hask => exact hask.bare (hflush.bare h)

theorem ring_bare (bell : Workspace.Bell) (a : Alarm) {k : Desk τ}
    (h : k.stage.Bare) :
    (k.ring bell a).stage.Bare := by
  cases bell with
  | flush _ => exact (Desk.flushing _).bare (by exact h)
  | trigger _ =>
      exact tellFault_bare ((request_requesting .automatic _).bare (by exact h))

theorem perform_bare (a : Action τ) {k : Desk τ} (h : k.stage.Bare) :
    (k.perform a).stage.Bare := by
  cases a with
  | edit g => exact edit_bare g.run_sameView h
  | moveCursor offset => exact Stage.moveCursor_bare offset h
  | select anchor position =>
      refine bare_of_same (k := k) rfl ?_ h
      show (k.editor.select anchor position).ghost = k.editor.ghost
      unfold Editor.select
      cases k.editor.caret <;> rfl
  | openCopy =>
      exact bare_of_same (congrArg Completions.shown (openCopy_frame k).1)
        (congrArg Editor.ghost (openCopy_frame k).2) h
  | close =>
      intro _
      exact Stage.finish_bare .superseded h
        (Stage.finish_shown .superseded k.stage)
  | flush => exact (Desk.flushing k).bare h
  | trigger => exact (request_requesting .invoked _).bare (by exact h)
  | request reason => exact (requestFor_requesting reason k).bare h
  | accept => exact accept_bare h
  | cancel => exact Stage.cancel_bare h
  | cycle places => exact Stage.cycle_bare places h
  | supersede => exact Stage.finish_bare .superseded h
  | answer ticket message note => exact receive_bare ticket message (by exact h)
  | flushAlarm a => exact ring_bare (.flush 0) a h
  | triggerAlarm a => exact ring_bare (.trigger 0) a h
  | elapse milliseconds =>
      exact Alarm.ring_keeps (P := fun k : Desk τ => k.stage.Bare)
        (fun _ bell a h => ring_bare bell a h) _ h
  | disturb f => exact h

end Linked

end Desk
end InlineCompletion
