import InlineCompletion.Proofs.Editor.Report
import InlineCompletion.Proofs.Workspace.Domain

/-!
# Edits that are seen

An editor's edit is seen before its listeners hear of it, and hearing of it
changes no text.  The main statements are that of an editor that is edited
nothing is seen but what it reports, and that whatever a widget reports of a
change, one edit is seen, which makes the new text of the old one.
-/

namespace InlineCompletion

def Event.edit? : Event → Option Edit
  | .edited e => some e
  | _ => none

/-- The edits among what was seen. -/
def edits (es : List Event) : List Edit := es.filterMap Event.edit?

theorem edits_append (es es' : List Event) :
    edits (es ++ es') = edits es ++ edits es' :=
  List.filterMap_append

namespace Stage

theorem hide_edits (s : Stage) : edits s.hide.trace = edits s.trace := by
  have hnone : edits s.editor.hideGhost.2 = [] := by
    unfold Editor.hideGhost
    dsimp only
    split
    · split <;> rfl
    · rfl
  show edits (s.trace ++ s.editor.hideGhost.2) = _
  rw [edits_append, hnone, List.append_nil]

theorem finish_edits (outcome : Outcome) (s : Stage) :
    edits (s.finish outcome).trace = edits s.trace := by
  unfold finish
  split
  · rfl
  · show edits (s.hide.trace ++ _) = _
    rw [edits_append, hide_edits]
    exact List.append_nil _

end Stage

namespace Desk

variable {τ : Type}

theorem recordEdit_unedited (e : Edit) (k : Desk τ) :
    (k.recordEdit e).editor.text = k.editor.text ∧
      edits (k.recordEdit e).env.trace = edits k.env.trace := by
  cases hclosed : k.document.closed with
  | true =>
      rw [recordEdit_closed e hclosed]
      exact ⟨rfl, rfl⟩
  | false =>
      rw [recordEdit_trace e hclosed]
      exact ⟨(quiet_recordEdit e hclosed).text,
        Stage.finish_edits .canceled k.stage⟩

end Desk

namespace Workspace

variable {τ : Type}

/-- Whether all editors have the same texts as in another workspace, and no
other edits were seen. -/
structure Unedited (w w' : Workspace τ) : Prop where
  texts (j : Nat) : (w'.editors[j]?).map (·.text) = (w.editors[j]?).map (·.text)
  seen : edits w'.env.trace = edits w.env.trace

theorem Unedited.heard {w w' : Workspace τ} (h : Unedited w w') {i : Nat}
    {k : Desk τ} (hk : w'.desk? i = some k) (e : Edit) :
    Unedited w (w'.withDesk (k.recordEdit e)) := by
  rcases Desk.recordEdit_unedited e k with ⟨htext, hseen⟩
  rcases desk?_eq_some hk with ⟨-, -, heditor, henv⟩
  constructor
  · intro j
    rw [← h.texts j, editors_withDesk hk (Desk.recordEdit_sameSeat e k).place]
    split
    · next hj => rw [← hj, heditor, Option.map_some, Option.map_some, htext]
    · rfl
  · rw [henv] at hseen
    exact hseen.trans h.seen

theorem tellEdit_unedited (e : Edit) (listeners : List Nat) (w : Workspace τ) :
    Unedited w (w.tellEdit e listeners) :=
  tellEdit_keeps (P := Unedited w) (fun _ _ _ _ hk h => h.heard hk e)
    ⟨fun _ => rfl, rfl⟩

theorem editWith_edits {w : Workspace τ} {j : Nat} {e : Editor}
    (he : w.editors[j]? = some e) (f : Editor → Option Edit × Editor) :
    ((w.editWith j f).editors[j]?).map (·.text) = some (f e).2.text ∧
      edits (w.editWith j f).env.trace =
        edits w.env.trace ++ (f e).1.toList := by
  have hlt := (List.getElem?_eq_some_iff.mp he).1
  have htext :
      ((w.editors.set j (f e).2)[j]?).map (·.text) = some (f e).2.text := by
    rw [List.getElem?_set_self hlt, Option.map_some]
  unfold editWith
  rw [he]
  dsimp only
  split
  · next hnone =>
      rw [hnone]
      exact ⟨htext, (List.append_nil _).symm⟩
  · next edit hsome =>
      have hheard := tellEdit_unedited edit e.listeners
        (({ w with editors := w.editors.set j (f e).2 } : Workspace τ).emit
          (.edited edit))
      rw [hsome]
      exact ⟨(hheard.texts j).trans htext, hheard.seen.trans (edits_append _ _)⟩

/-- A widget's text becomes another, and the widget reports a change of which
nothing needs to be right: where it was may be behind the text or between the
halves of a pair, and what went may be more than there is; how much came is not
looked at.  The widget has the new text, and one edit is seen that makes it of
the old one, or none if they are the same. -/
theorem change_seen_once {w : Workspace τ} {j : Nat} {e : Editor}
    (he : w.editors[j]? = some e) (hwidget : e.isWidget = true) (new : Text)
    (r : Report) :
    ((w.editWith j (Editor.become new r.position r.removed)).editors[j]?).map
    (·.text) =
        some new ∧
      ∃ seen, Told e.text new seen ∧
        edits (w.editWith j
          (Editor.become new r.position r.removed)).env.trace =
            edits w.env.trace ++ seen := by
  rcases Editor.exists_caret hwidget with ⟨a, p, hcaret⟩
  rcases editWith_edits he (Editor.become new r.position r.removed) with
    ⟨htext, hseen⟩
  unfold Editor.become at htext hseen ⊢
  rw [hcaret] at htext hseen
  exact ⟨htext, _, told_editOfReport e.text new r, hseen⟩

/-- An emoji gives way to another, and is reported as everything from its second
half to behind the end of the text. -/
theorem change_seen_once_within_pair :
    let old := "a😀c".toList
    let new := "a😎c".toList
    let r : Report := ⟨2, 40⟩
    let w : Workspace Unit :=
  { sample () with editors := [(Editor.widget old).connect 0] }
    let w' := w.editWith 0 (Editor.become new r.position r.removed)
    (w'.editors[0]?).map (·.text) = some new ∧ Told old new
    (edits w'.env.trace) := by
  intro old new r w w'
  have hwidget : ((Editor.widget old).connect 0).isWidget = true := rfl
  rcases change_seen_once (w := w) (j := 0) rfl hwidget new r with
    ⟨htext, seen, htold, hseen⟩
  refine ⟨htext, ?_⟩
  rw [hseen]
  exact htold

end Workspace
end InlineCompletion
