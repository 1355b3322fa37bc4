import InlineCompletion.Document.Completions

/-!
# What is seen of ghost text

Two kinds of events are cues: an annotation is drawn, or a completion that was
shown is resolved.  Behind the last cue ghost text is *lit* or not.  The main
statements say which cues each step in front of the editor gives: ending what is
shown resolves it and leaves nothing lit, and rendering a candidate lights it.
-/

namespace InlineCompletion

/-- The resolution that an event is: the number of the request, if it has one,
and the outcome. -/
def Event.resolution? : Event → Option (Option Int × Outcome)
  | .resolved id outcome => some (id, outcome)
  | _ => none

def Event.lights (lit : Bool) : Event → Bool
  | .resolved .. => false
  | .ghostShown .. => true
  | .repainted => true
  | _ => lit

/-- Whether a trace goes on from another with given resolutions, and what was
lit comes to be lit or not. -/
def Cues (lit : Bool) (rs : List (Option Int × Outcome)) (lit' : Bool)
    (es es' : List Event) :
    Prop :=
  ∃ more, es' = es ++ more ∧ more.filterMap Event.resolution? = rs ∧
    more.foldl Event.lights lit = lit'

def Uncued (es es' : List Event) : Prop := ∀ lit, Cues lit [] lit es es'

theorem Cues.trans {lit lit' lit'' : Bool}
    {rs rs' : List (Option Int × Outcome)} {es es' es'' : List Event}
    (h : Cues lit rs lit' es es') (h' : Cues lit' rs' lit'' es' es'') :
    Cues lit (rs ++ rs') lit'' es es'' := by
  rcases h with ⟨more, heq, hrs, hlit⟩
  rcases h' with ⟨more', heq', hrs', hlit'⟩
  refine ⟨more ++ more', by rw [heq', heq, List.append_assoc], ?_, ?_⟩
  · rw [List.filterMap_append, hrs, hrs']
  · rw [List.foldl_append, hlit, hlit']

namespace Uncued

variable {es es' es'' : List Event}

theorem refl (es : List Event) : Uncued es es :=
  fun _ => ⟨[], by simp, rfl, rfl⟩

theorem append (es : List Event) {more : List Event}
    (hrs : more.filterMap Event.resolution? = [])
    (hlit : ∀ lit, more.foldl Event.lights lit = lit) :
    Uncued es (es ++ more) :=
  fun lit => ⟨more, rfl, hrs, hlit lit⟩

theorem trans (h : Uncued es es') (h' : Uncued es' es'') : Uncued es es'' :=
  fun lit => (h lit).trans (h' lit)

theorem before {lit lit' : Bool} {rs : List (Option Int × Outcome)}
    (h : Uncued es es') (h' : Cues lit rs lit' es' es'') :
    Cues lit rs lit' es es'' := (h lit).trans h'

theorem behind {lit lit' : Bool} {rs : List (Option Int × Outcome)}
    (h : Uncued es' es'') (h' : Cues lit rs lit' es es') :
    Cues lit rs lit' es es'' := by
  have hboth := h'.trans (h lit')
  rwa [List.append_nil] at hboth

end Uncued

namespace Stage

theorem hide_cues (lit : Bool) (s : Stage) :
    ∃ lit', Cues lit [] lit' s.trace s.hide.trace := by
  refine ⟨_, _, rfl, ?_, rfl⟩
  split
  · split <;> rfl
  · rfl

theorem finish_cues {s : Stage} {t : Nat} (h : s.completions.shown = some t)
    (outcome : Outcome) (lit : Bool) :
    Cues lit [((s.completions.get? t).bind (·.id), outcome)] false s.trace
      (s.finish outcome).trace := by
  rcases hide_cues lit s with ⟨middle, hhide⟩
  unfold finish
  rw [h]
  have hresolved :
      Cues middle [((s.completions.get? t).bind (·.id), outcome)] false
        s.hide.trace
      (s.hide.trace ++
        [.notice (.ghost outcome),
        .resolved ((s.completions.get? t).bind (·.id)) outcome]) :=
    ⟨_, rfl, rfl, rfl⟩
  exact hhide.trans hresolved

theorem render_cues (x : Completion) (lit : Bool) (s : Stage) :
    Cues lit [] true s.trace (s.render x).trace := by
  rcases hide_cues lit s with ⟨middle, hhide⟩
  have hlit : Cues middle [] true s.hide.trace (s.render x).trace := by
    refine ⟨_, rfl, ?_, ?_⟩
    · split <;> rfl
    · split <;> rfl
  exact hhide.trans hlit

theorem moveCursor_uncued (offset : Int) (s : Stage) :
    Uncued s.trace (s.moveCursor offset).trace := by
  unfold moveCursor Editor.moveCursor
  cases s.editor.caret with
  | free _ => exact .append _ rfl fun _ => rfl
  | units _ _ => exact .append _ rfl fun _ => rfl

end Stage
end InlineCompletion
