import InlineCompletion.Proofs.Document.Display

/-!
# Carets

What happens at a desk may move the caret, and never turns a plain editor into a
widget or the other way round.  Most of it asks for nothing either: it is
*level*.  The main statements are that a caret that is put where another one
stood stands there, and which steps are level.
-/

namespace InlineCompletion

/-!
# The caret

A caret that is put where another one stood, in the same text, stands where it
stood.
-/

theorem Editor.cursor_moveCursor {e e' : Editor} (htext : e'.text = e.text)
    (hkind : e'.isWidget = e.isWidget) :
    (e'.moveCursor e.cursor).1.cursor = e.cursor := by
  unfold isWidget at hkind
  cases hcaret' : e'.caret with
  | free _ => simp [moveCursor, hcaret', cursor]
  | units _ _ =>
      cases hcaret : e.caret with
      | free _ => simp [hcaret, hcaret'] at hkind
      | units _ position =>
          have hwithin :=
            Units.indexAt_before e.text
            (Units.indexAt_le_length e.text position)
          simp [moveCursor, hcaret', cursor, hcaret, htext, hwithin]

theorem Editor.isWidget_of_caret {e e' : Editor} (h : e'.caret = e.caret) :
    e'.isWidget = e.isWidget := by
  unfold isWidget
  rw [h]

theorem Editor.moveCursor_isWidget (offset : Int) (e : Editor) :
    (e.moveCursor offset).1.isWidget = e.isWidget := by
  unfold moveCursor isWidget
  cases e.caret <;> rfl

/-!
# Level steps
-/

namespace Desk

variable {τ : Type}

structure Level (k k' : Desk τ) : Prop where
  kind : k'.editor.isWidget = k.editor.isWidget
  size : k'.document.completions.all.length = k.document.completions.all.length

namespace Level

variable {k k' k'' : Desk τ}

theorem refl (k : Desk τ) : Level k k := ⟨rfl, rfl⟩

theorem trans (h : Level k k') (h' : Level k' k'') : Level k k'' :=
  ⟨h'.kind.trans h.kind, h'.size.trans h.size⟩

theorem finish (outcome : Outcome) (k : Desk τ) :
    Level k (k.onStage (Stage.finish outcome)) :=
  ⟨Editor.isWidget_of_caret (Stage.finish_caret outcome k.stage),
    (Stage.finish_wanes outcome k.stage).size⟩

theorem moveCursor (offset : Int) (k : Desk τ) :
    Level k (k.onEditor (Editor.moveCursor offset)) :=
  ⟨k.editor.moveCursor_isWidget offset, rfl⟩

theorem select (anchor position : Int) (k : Desk τ) :
    Level k (k.onEditor fun e => (e.select anchor position, [])) := by
  refine ⟨?_, rfl⟩
  show (k.editor.select anchor position).isWidget = k.editor.isWidget
  unfold Editor.select Editor.isWidget
  cases hcaret : k.editor.caret with
  | free _ => simp [hcaret]
  | units _ _ => rfl

theorem recordEdit (e : Edit) (k : Desk τ) : Level k (k.recordEdit e) := by
  cases hclosed : k.document.closed with
  | true =>
      rw [recordEdit_closed e hclosed]
      exact refl k
  | false =>
      rcases recordEdit_stage e hclosed with ⟨hcompletions, heditor⟩
      have hfinish := finish .canceled k
      constructor
      · rw [heditor]
        exact hfinish.kind
      · rw [hcompletions]
        exact hfinish.size

theorem edit {f : Editor → Option Edit × Editor}
    (hview : ∀ e : Editor, e.SameView (f e).2) (k : Desk τ) :
    Level k (k.edit f) := by
  have hchanged : Level k { k with editor := (f k.editor).2 } :=
    ⟨(hview k.editor).2.2.2, rfl⟩
  unfold Desk.edit
  cases (f k.editor).1 with
  | none => exact hchanged
  | some e =>
      have hemitted :
          Level k (({ k with editor := (f k.editor).2 } : Desk τ).emit
            (.edited e)) :=
        hchanged.trans ⟨rfl, rfl⟩
      exact hemitted.trans (recordEdit e _)

theorem accept (k : Desk τ) : Level k k.accept := by
  have hstaged : Level k (k.withStage k.stage.accept.2) := by
    rcases Stage.accept_stage k.stage with hstage | hstage
    · rw [hstage]
      exact refl k
    · rw [hstage]
      exact finish .accepted k
  rcases accept_cases k with ⟨haccept, _⟩ | ⟨e, _, _, haccept⟩
  · rw [haccept]
    exact hstaged
  · rw [haccept]
    exact (hstaged.trans (edit (Editor.replace_sameView e) _)).trans
      (moveCursor _ _)

theorem cancel (k : Desk τ) : Level k (k.runStage Stage.cancel).2 := by
  show Level k (k.withStage k.stage.cancel.2)
  unfold Stage.cancel
  split
  · exact (finish .canceled k).trans (moveCursor _ _)
  · exact refl k

theorem cycle (places : Int) (k : Desk τ) :
    Level k (k.runStage (Stage.cycle places)).2 := by
  show Level k (k.withStage (k.stage.cycle places).2)
  refine ⟨?_, (Stage.cycle_wanes places k.stage).size⟩
  rcases Stage.cycle_cases places k.stage with
    hsame | ⟨t, x, i, _, _, hrendered⟩
  · rw [hsame]
    rfl
  · rw [hrendered]
    rfl

theorem close [Link τ] (k : Desk τ) : Level k k.close :=
  (finish .superseded k).trans ⟨rfl, rfl⟩

end Level

end Desk
end InlineCompletion
