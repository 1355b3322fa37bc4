import InlineCompletion.Document.Basic

/-!
# Steps that leave the agent's copy

Much of what happens at a desk concerns the ghost text, the caret, or the time
only.  It is *quiet*: it touches neither the text nor the agent's copy, and no
message to the agent is seen.  The main statements are that whatever happens to
the ghost text, and whatever answer arrives, is quiet.
-/

namespace InlineCompletion

theorem split_concat {α : Type} {l before after : List α} {x y : α}
    (h : l ++ [y] = before ++ x :: after) :
    (l = before ∧ y = x ∧ after = []) ∨
    ∃ rest, after = rest ++ [y] ∧ l = before ++ x :: rest := by
  rcases List.eq_nil_or_concat after with hnil | ⟨rest, last, hrest⟩
  · rw [hnil] at h
    rcases List.append_inj' h rfl with ⟨hl, hlast⟩
    exact Or.inl ⟨hl, List.singleton_inj.mp hlast, hnil⟩
  · rw [List.concat_eq_append] at hrest
    rw [hrest, ← List.cons_append, ← List.append_assoc] at h
    rcases List.append_inj' h rfl with ⟨hl, hlast⟩
    refine Or.inr ⟨rest, ?_, hl⟩
    rw [hrest, hlast]

/-!
# Quiet events

Most events are no message to the agent and no news of what it took or refused
of a document.
-/

def Event.isQuiet : Event → Bool
  | .sent _ => false
  | .process (.started ..) => false
  | .notice (.openRefused ..) => false
  | .notice (.closeRefused ..) => false
  | .notice (.agentReady _) => false
  | _ => true

def Quietly (es es' : List Event) : Prop :=
  ∃ more, es' = es ++ more ∧ ∀ e ∈ more, e.isQuiet = true

namespace Quietly

theorem refl (es : List Event) : Quietly es es :=
  ⟨[], by simp, by simp⟩

theorem trans {es es' es'' : List Event} (h : Quietly es es')
    (h' : Quietly es' es'') :
    Quietly es es'' := by
  rcases h with ⟨more, heq, hmore⟩
  rcases h' with ⟨more', heq', hmore'⟩
  refine ⟨more ++ more', by rw [heq', heq, List.append_assoc], ?_⟩
  intro e he
  rcases List.mem_append.mp he with he | he
  · exact hmore e he
  · exact hmore' e he

theorem append (es : List Event) {more : List Event}
    (h : more.all Event.isQuiet = true) :
    Quietly es (es ++ more) :=
  ⟨more, rfl, List.all_eq_true.mp h⟩

end Quietly

/-!
# Ghost text

Whatever happens to the completions in front of an editor, its text and its
listeners stay, and so does what its keys go to.
-/

namespace Stage

/-- Whether a stage differs from another in completions, annotation and caret
only, with quiet events seen. -/
structure Quiet (s s' : Stage) : Prop where
  text : s'.editor.text = s.editor.text
  listeners : s'.editor.listeners = s.editor.listeners
  attached : s'.editor.attached = s.editor.attached
  events : Quietly s.trace s'.trace

namespace Quiet

theorem refl (s : Stage) : Quiet s s := ⟨rfl, rfl, rfl, Quietly.refl _⟩

theorem trans {s s' s'' : Stage} (h : Quiet s s') (h' : Quiet s' s'') :
    Quiet s s'' :=
  ⟨h'.text.trans h.text, h'.listeners.trans h.listeners,
    h'.attached.trans h.attached, h.events.trans h'.events⟩

end Quiet

theorem quiet_completions (s : Stage) (completions : Completions) :
    Quiet s { s with completions := completions } :=
  ⟨rfl, rfl, rfl, Quietly.refl _⟩

theorem quiet_hide (s : Stage) : Quiet s s.hide := by
  refine ⟨rfl, rfl, rfl, Quietly.append _ ?_⟩
  split
  · split <;> rfl
  · rfl

theorem quiet_finish (outcome : Outcome) (s : Stage) :
    Quiet s (s.finish outcome) := by
  unfold finish
  split
  · exact Quiet.refl s
  · have hhide := quiet_hide s
    exact ⟨hhide.text, hhide.listeners, hhide.attached,
      hhide.events.trans (Quietly.append _ rfl)⟩

theorem quiet_render (x : Completion) (s : Stage) : Quiet s (s.render x) := by
  have hhide := quiet_hide s
  refine ⟨hhide.text, hhide.listeners, hhide.attached,
    hhide.events.trans (Quietly.append _ ?_)⟩
  split <;> rfl

theorem quiet_display (ticket : Nat) (s : Stage) :
    Quiet s (s.display ticket) := by
  have hfinish := quiet_finish .superseded s
  unfold display
  simp only
  split
  · split
    · exact hfinish
    · exact (hfinish.trans (quiet_completions _ _)).trans (quiet_render _ _)
  · exact hfinish

theorem quiet_moveCursor (offset : Int) (s : Stage) :
    Quiet s (s.moveCursor offset) := by
  refine ⟨Editor.moveCursor_text offset s.editor, ?_, ?_, Quietly.append _ ?_⟩
  · unfold moveCursor Editor.moveCursor
    cases s.editor.caret <;> rfl
  · unfold moveCursor Editor.moveCursor
    cases s.editor.caret <;> rfl
  · cases s.editor.caret <;> rfl

theorem quiet_cancel (s : Stage) : Quiet s s.cancel.2 := by
  unfold cancel
  split
  · exact (quiet_finish .canceled s).trans (quiet_moveCursor _ _)
  · exact Quiet.refl s

theorem quiet_cycle (places : Int) (s : Stage) :
    Quiet s (s.cycle places).2 := by
  unfold cycle
  split
  · split
    · exact Quiet.refl s
    · exact (quiet_completions s _).trans (quiet_render _ _)
  · exact Quiet.refl s

theorem quiet_accept (s : Stage) : Quiet s s.accept.2 := by
  unfold accept
  split
  · exact Quiet.refl s
  · have hfinish := quiet_finish .accepted s
    simp only
    split
    · exact hfinish
    · exact hfinish

end Stage

namespace Desk

variable {τ : Type}

/-- Whether a desk differs from another in nothing that the agent's copy depends
on, with quiet events seen. -/
structure Quiet (k k' : Desk τ) : Prop where
  number : k'.number = k.number
  place : k'.document.editor = k.document.editor
  uri : k'.document.uri = k.document.uri
  closed : k'.document.closed = k.document.closed
  snapshot : k'.document.snapshot = k.document.snapshot
  syncUri : k'.document.sync.uri = k.document.sync.uri
  version : k'.document.sync.version = k.document.sync.version
  opened : k'.document.sync.opened = k.document.sync.opened
  pending : k'.document.sync.pending = k.document.sync.pending
  text : k'.editor.text = k.editor.text
  listeners : k'.editor.listeners = k.editor.listeners
  attached : k'.editor.attached = k.editor.attached
  link : k'.env.link = k.env.link
  events : Quietly k.env.trace k'.env.trace

namespace Quiet

theorem refl (k : Desk τ) : Quiet k k :=
  ⟨rfl, rfl, rfl, rfl, rfl, rfl, rfl, rfl, rfl, rfl, rfl, rfl, rfl,
    Quietly.refl _⟩

theorem trans {k k' k'' : Desk τ} (h : Quiet k k') (h' : Quiet k' k'') :
    Quiet k k'' where
  number := h'.number.trans h.number
  place := h'.place.trans h.place
  uri := h'.uri.trans h.uri
  closed := h'.closed.trans h.closed
  snapshot := h'.snapshot.trans h.snapshot
  syncUri := h'.syncUri.trans h.syncUri
  version := h'.version.trans h.version
  opened := h'.opened.trans h.opened
  pending := h'.pending.trans h.pending
  text := h'.text.trans h.text
  listeners := h'.listeners.trans h.listeners
  attached := h'.attached.trans h.attached
  link := h'.link.trans h.link
  events := h.events.trans h'.events

end Quiet

theorem quiet_withStage {k : Desk τ} {s : Stage} (h : Stage.Quiet k.stage s) :
    Quiet k (k.withStage s) :=
  { Quiet.refl k with
    text := h.text
    listeners := h.listeners
    attached := h.attached
    events := h.events }

theorem quiet_tell {n : Notice} (hn : (Event.notice n).isQuiet = true)
    (k : Desk τ) :
    Quiet k (k.tell n) :=
  { Quiet.refl k with events := Quietly.append _ (by simpa using hn) }

theorem quiet_completions (k : Desk τ) (completions : Completions) :
    Quiet k { k with document :=
      { k.document with completions := completions } } :=
  { Quiet.refl k with }

theorem quiet_trigger (k : Desk τ) (trigger : Trigger) :
    Quiet k { k with document := { k.document with trigger := trigger } } :=
  { Quiet.refl k with }

theorem quiet_receive (ticket : Nat) (message : Json) (k : Desk τ) :
    Quiet k (k.receive ticket message) := by
  unfold receive
  split
  · exact Quiet.refl k
  · split
    · exact quiet_tell rfl k
    · split
      · split
        · exact (quiet_tell rfl k).trans (quiet_completions _ _)
        · split
          · exact (quiet_tell rfl k).trans (quiet_completions _ _)
          · rename_i members _ _
            cases Candidate.ofResult
              ((Json.Members.get? "result" members).getD .null) with
            | mk candidates oddity =>
                cases oddity with
                | none =>
                    dsimp only
                    split
                    · exact (quiet_completions k _).trans
                        (quiet_completions _ _)
                    · exact (quiet_completions k _).trans
                        (quiet_withStage (Stage.quiet_display _ _))
                | some o =>
                    have htell := quiet_tell (n := .oddAnswer o) rfl k
                    dsimp only
                    split
                    · exact (htell.trans (quiet_completions _ _)).trans
                        (quiet_completions _ _)
                    · exact (htell.trans (quiet_completions _ _)).trans
                        (quiet_withStage (Stage.quiet_display _ _))
      · exact (quiet_tell rfl k).trans (quiet_completions _ _)

theorem quiet_onStage {f : Stage → Stage} (hf : ∀ s, Stage.Quiet s (f s))
    (k : Desk τ) :
    Quiet k (k.onStage f) :=
  quiet_withStage (hf k.stage)

end Desk
end InlineCompletion
