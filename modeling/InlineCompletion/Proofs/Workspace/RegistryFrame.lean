import InlineCompletion.Proofs.Workspace.SilentSteps

/-!
# Steps that keep the registry

The registry lists documents by their addresses.  What it depends on in a
document stands on the document's *card*: its address, its editor's place, and
whether it is closed.  A workspace has the same *roll* as another if all cards
and the registry are the same.  The main statement is that only opening and
closing documents change the roll: not edits, not completions, not what the
agent is told, and not time.
-/

namespace InlineCompletion

structure Card where
  uri : Text
  editor : Nat
  named : Text
  closed : Bool

namespace Document

def card (d : Document) : Card := ⟨d.uri, d.editor, d.sync.uri, d.closed⟩

end Document

namespace Desk

variable {τ : Type}

structure SameCard (k k' : Desk τ) : Prop where
  number : k'.number = k.number
  card : k'.document.card = k.document.card

namespace SameCard

theorem refl (k : Desk τ) : SameCard k k := ⟨rfl, rfl⟩

theorem trans {k k' k'' : Desk τ} (h : SameCard k k') (h' : SameCard k' k'') :
    SameCard k k'' :=
  ⟨h'.number.trans h.number, h'.card.trans h.card⟩

theorem of_quiet {k k' : Desk τ} (h : Quiet k k') : SameCard k k' := by
  refine ⟨h.number, ?_⟩
  unfold Document.card
  rw [h.uri, h.place, h.syncUri, h.closed]

theorem kept [Link τ] (k : Desk τ) : KeptByTalk (SameCard k) where
  quiet hquiet h := h.trans (of_quiet hquiet)
  announced _ _ hannounce h := by
    cases hannounce <;> exact h.trans ⟨rfl, rfl⟩
  delivered _ hdelivery h := by
    cases hdelivery <;> exact h.trans ⟨rfl, rfl⟩
  asked _ _ _ _ h := h.trans ⟨rfl, rfl⟩
  unasked _ h := h.trans ⟨rfl, rfl⟩

end SameCard

theorem recordEdit_sameCard (e : Edit) (k : Desk τ) :
    SameCard k (k.recordEdit e) := by
  cases hclosed : k.document.closed with
  | true =>
      rw [recordEdit_closed e hclosed]
      exact .refl k
  | false =>
      have hrecorded : SameCard k (k.recorded e) := ⟨rfl, rfl⟩
      exact hrecorded.trans (.of_quiet (quiet_recordEdit e hclosed))

section Linked

variable [Link τ]

theorem openCopy_sameCard (k : Desk τ) : SameCard k k.openCopy.2 := by
  have hopening := opening k
  revert hopening
  generalize k.openCopy = r
  intro hopening
  cases hopening with
  | closed _ => exact .refl k
  | failed _ hannounce => cases hannounce <;> exact ⟨rfl, rfl⟩
  | done _ hannounce => cases hannounce; exact ⟨rfl, rfl⟩

theorem trigger_sameCard (k : Desk τ) : SameCard k k.trigger.2 :=
  (SameCard.kept k).requesting (request_requesting .invoked _)
    (.of_quiet (quiet_trigger k _))

end Linked
end Desk

namespace Workspace

variable {τ : Type}

def card? (i : Nat) (w : Workspace τ) : Option Card :=
  (w.documents[i]?).map Document.card

/-- Whether a workspace differs from another in nothing that the registry
depends on. -/
structure SameRoll (w w' : Workspace τ) : Prop where
  cards (i : Nat) : w'.card? i = w.card? i
  registry : w'.registry = w.registry
  editors : w'.editors.length = w.editors.length

namespace SameRoll

theorem refl (w : Workspace τ) : SameRoll w w := ⟨fun _ => rfl, rfl, rfl⟩

theorem trans {w w' w'' : Workspace τ} (h : SameRoll w w')
    (h' : SameRoll w' w'') :
    SameRoll w w'' :=
  ⟨fun i => (h'.cards i).trans (h.cards i), h'.registry.trans h.registry,
    h'.editors.trans h.editors⟩

theorem within (env : Env τ) (w : Workspace τ) :
    SameRoll w { w with env := env } :=
  ⟨fun _ => rfl, rfl, rfl⟩

end SameRoll

/-!
# Desks and editors
-/

theorem card?_of_desk? {w : Workspace τ} {i : Nat} {k : Desk τ}
    (h : w.desk? i = some k) :
    w.card? i = some k.document.card := by
  unfold card?
  rw [(desk?_eq_some h).2.1]
  rfl

theorem documents_withDesk {w : Workspace τ} {i : Nat} {k k' : Desk τ}
    (h : w.desk? i = some k) (hnumber : k'.number = k.number) (j : Nat) :
    (w.withDesk k').documents[j]? = if i = j then some k'.document else
    w.documents[j]? := by
  have hlt := (List.getElem?_eq_some_iff.mp (desk?_eq_some h).2.1).1
  unfold withDesk
  rw [hnumber, (desk?_eq_some h).1]
  show (w.documents.set i k'.document)[j]? = _
  rw [List.getElem?_set]
  by_cases hij : i = j
  · rw [if_pos hij, if_pos hij, if_pos hlt]
  · rw [if_neg hij, if_neg hij]

theorem map_documents_withDesk {α : Type} {w : Workspace τ} {i : Nat}
    {k k' : Desk τ} (h : w.desk? i = some k) (hnumber : k'.number = k.number)
    (f : Document → α) (hf : f k'.document = f k.document) (j : Nat) :
    ((w.withDesk k').documents[j]?).map f = (w.documents[j]?).map f := by
  rw [documents_withDesk h hnumber]
  split
  · next hij =>
      rw [← hij, (desk?_eq_some h).2.1, Option.map_some, Option.map_some, hf]
  · rfl

theorem editors_withDesk {w : Workspace τ} {i : Nat} {k k' : Desk τ}
    (h : w.desk? i = some k) (hplace : k'.document.editor = k.document.editor)
    (p : Nat) :
    (w.withDesk k').editors[p]? =
      if k.document.editor = p then some k'.editor else w.editors[p]? := by
  have hlt := editor_lt h
  unfold withDesk
  rw [hplace]
  show (w.editors.set k.document.editor k'.editor)[p]? = _
  rw [List.getElem?_set]
  by_cases hp : k.document.editor = p
  · rw [if_pos hp, if_pos hp, if_pos hlt]
  · rw [if_neg hp, if_neg hp]

theorem SameRoll.withDesk {w : Workspace τ} {i : Nat} {k k' : Desk τ}
    (h : w.desk? i = some k) (hcard : k.SameCard k') :
    SameRoll w (w.withDesk k') where
  cards j := by
    unfold card?
    rw [documents_withDesk h hcard.number]
    by_cases hij : i = j
    · rw [if_pos hij, Option.map_some, hcard.card, ← hij]
      exact (card?_of_desk? h).symm
    · rw [if_neg hij]
  registry := rfl
  editors := List.length_set ..

theorem sameRoll_atDesk {f : Desk τ → Desk τ} (hf : ∀ k, Desk.SameCard k (f k))
    (i : Nat) (w : Workspace τ) : SameRoll w (w.atDesk i f) := by
  unfold atDesk
  cases hdesk : w.desk? i with
  | none => exact .refl w
  | some k => exact .withDesk hdesk (hf k)

theorem sameRoll_run {α : Type} {f : Desk τ → α × Desk τ}
    (hf : ∀ k, Desk.SameCard k (f k).2) (i : Nat) (w : Workspace τ) :
    SameRoll w (w.run i f).2 := by
  unfold run
  cases hdesk : w.desk? i with
  | none => exact .refl w
  | some k => exact .withDesk hdesk (hf k)

theorem sameRoll_emit (e : Event) (w : Workspace τ) : SameRoll w (w.emit e) :=
  .within _ w

theorem sameRoll_atTime (time : Int) (w : Workspace τ) :
    SameRoll w
      { w with env :=
        { w.env with clock := { w.env.clock with now := time } } } :=
  .within _ w

theorem sameRoll_onEditor (j : Nat) (f : Editor → Editor × List Event)
    (w : Workspace τ) :
    SameRoll w (w.onEditor j f) := by
  unfold onEditor
  cases w.editors[j]? with
  | none => exact .refl w
  | some e => exact ⟨fun _ => rfl, rfl, List.length_set ..⟩

theorem sameRoll_tellEdit (edit : Edit) (listeners : List Nat)
    (w : Workspace τ) :
    SameRoll w (w.tellEdit edit listeners) := by
  unfold tellEdit
  induction listeners generalizing w with
  | nil => exact .refl w
  | cons i rest ih =>
      exact (sameRoll_atDesk (Desk.recordEdit_sameCard edit) i w).trans (ih _)

theorem sameRoll_editWith (j : Nat) (f : Editor → Option Edit × Editor)
    (w : Workspace τ) :
    SameRoll w (w.editWith j f) := by
  unfold editWith
  cases w.editors[j]? with
  | none => exact .refl w
  | some e =>
      have hchanged :
          SameRoll w { w with editors := w.editors.set j (f e).2 } :=
        ⟨fun _ => rfl, rfl, List.length_set ..⟩
      dsimp only
      split
      · exact hchanged
      · next edit _ =>
          exact (hchanged.trans (sameRoll_emit _ _)).trans
            (sameRoll_tellEdit edit e.listeners _)

theorem sameRoll_detach (i : Nat) (w : Workspace τ) :
    SameRoll w (w.detach i).2 := by
  unfold detach
  split
  · exact .refl w
  · split
    · exact sameRoll_onEditor _ _ w
    · exact .refl w

/-!
# Completions
-/

theorem sameRoll_runStage {α : Type} {f : Stage → α × Stage}
    (hf : ∀ s, Stage.Quiet s (f s).2) (i : Nat) (w : Workspace τ) :
    SameRoll w (w.run i (Desk.runStage f)).2 :=
  sameRoll_run (fun k => .of_quiet (Desk.quiet_withStage (hf k.stage))) i w

theorem sameRoll_accept (i : Nat) (w : Workspace τ) :
    SameRoll w (w.accept i).2 := by
  have hstaged := sameRoll_runStage Stage.quiet_accept i w
  unfold accept
  split
  · next heq =>
      rw [heq] at hstaged
      exact hstaged
  · next heq =>
      rw [heq] at hstaged
      split
      · exact hstaged
      · exact (hstaged.trans (sameRoll_editWith _ _ _)).trans
          (sameRoll_onEditor _ _ _)
  · next heq =>
      rw [heq] at hstaged
      exact hstaged
  · next heq =>
      rw [heq] at hstaged
      exact hstaged

theorem sameRoll_answer (waiting : Waiting) (message : Json) (w : Workspace τ) :
    SameRoll w (w.answer waiting message).2 := by
  cases waiting with
  | handshake => exact .refl w
  | completion i ticket =>
      exact sameRoll_atDesk
        (fun k => .of_quiet (Desk.quiet_receive ticket message k)) i w
  | probe label fault => exact sameRoll_emit _ w

section Linked

variable [Link τ]

/-!
# The agent and time
-/

theorem sameRoll_openCopy (i : Nat) (w : Workspace τ) :
    SameRoll w (w.openCopy i).2 :=
  sameRoll_run Desk.openCopy_sameCard i w

theorem sameRoll_flush (i : Nat) (w : Workspace τ) : SameRoll w (w.flush i).2 :=
  sameRoll_run (fun k => (Desk.SameCard.kept k).flush (.refl k)) i w

theorem sameRoll_trigger (i : Nat) (w : Workspace τ) :
    SameRoll w (w.trigger i).2 := by
  have hrun := sameRoll_run Desk.trigger_sameCard i w
  unfold trigger
  split
  · next heq =>
      rw [heq] at hrun
      exact hrun
  · next heq =>
      rw [heq] at hrun
      exact hrun

theorem sameRoll_requestFor (i : Nat) (reason : Json) (w : Workspace τ) :
    SameRoll w (w.requestFor i reason).2 := by
  have hrun := sameRoll_run (f := Desk.requestFor reason) (fun k =>
    (Desk.SameCard.kept k).requesting (Desk.requestFor_requesting reason k)
      (.refl k)) i w
  unfold requestFor
  split
  · next heq =>
      rw [heq] at hrun
      exact hrun
  · next heq =>
      rw [heq] at hrun
      exact hrun

theorem sameRoll_openAll (w : Workspace τ) : SameRoll w w.openAll := by
  unfold openAll
  generalize w.registry.map (·.2) = numbers
  induction numbers generalizing w with
  | nil => exact .refl w
  | cons i rest ih => exact (sameRoll_openCopy i w).trans (ih _)

theorem sameRoll_ring (bell : Bell) (a : Alarm) (w : Workspace τ) :
    SameRoll w (w.ring bell a) := by
  cases bell with
  | flush i =>
      have hfired := ((sameRoll_atTime a.due w).trans (sameRoll_atDesk
        (fun k => .of_quiet (Desk.quiet_unschedule k)) i _)).trans
          (sameRoll_emit (.fired a.due) _)
      exact hfired.trans (sameRoll_flush i _)
  | trigger i =>
      have hfired := ((sameRoll_atTime a.due w).trans (sameRoll_atDesk
        (fun k => .of_quiet (Desk.quiet_trigger k k.document.trigger.cancel)) i
          _)).trans
        (sameRoll_emit (.fired a.due) _)
      have hrun :=
        hfired.trans (sameRoll_run (f := Desk.request .automatic) (fun k =>
        (Desk.SameCard.kept k).requesting (Desk.request_requesting .automatic k)
          (.refl k)) i _)
      unfold ring
      dsimp only
      split
      · next heq =>
          rw [heq] at hrun
          exact hrun.trans (sameRoll_emit _ _)
      · next heq =>
          rw [heq] at hrun
          exact hrun

theorem sameRoll_advance (milliseconds : Int) (w : Workspace τ) :
    SameRoll w (w.advance milliseconds) :=
  (Alarm.ring_keeps (P := fun w' : Workspace τ => SameRoll w w')
    (fun w' bell a h => h.trans (sameRoll_ring bell a w')) _ (.refl w)).trans
      (sameRoll_atTime _ _)

end Linked
end Workspace
end InlineCompletion
