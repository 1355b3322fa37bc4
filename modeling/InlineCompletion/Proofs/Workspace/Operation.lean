import InlineCompletion.Proofs.Workspace.Closing

/-!
# What is done at desks

Whatever happens to a document is made of a few *operations*, each done at its
desk.  The main statements are that an operation keeps the desk where it is and
names no other address than that of the document, that it leaves a document as
it is which is closed and of which nothing is left, and that it closes a
document only so that nothing is left of it.
-/

namespace InlineCompletion

/-- Whether a trace goes on from another, and every message since then names
what it may. -/
def SaysOnly (may : Option Text → Prop) (es es' : List Event) : Prop :=
  ∃ more, es' = es ++ more ∧ ∀ m, .sent m ∈ more → may m.uri?

namespace SaysOnly

variable {may may' : Option Text → Prop} {es es' es'' : List Event}

theorem refl (es : List Event) : SaysOnly may es es :=
  ⟨[], (List.append_nil es).symm, fun _ hm => nomatch hm⟩

theorem trans (h : SaysOnly may es es') (h' : SaysOnly may es' es'') :
    SaysOnly may es es'' := by
  rcases h with ⟨more, heq, hmore⟩
  rcases h' with ⟨more', heq', hmore'⟩
  refine ⟨more ++ more', by rw [heq', heq, List.append_assoc], ?_⟩
  intro m hm
  rcases List.mem_append.mp hm with hm | hm
  · exact hmore m hm
  · exact hmore' m hm

theorem weaken (h : SaysOnly may es es') (hmay : ∀ uri?, may uri? → may' uri?) :
    SaysOnly may' es es' := by
  rcases h with ⟨more, heq, hmore⟩
  exact ⟨more, heq, fun m hm => hmay _ (hmore m hm)⟩

theorem of_quietly (h : Quietly es es') : SaysOnly may es es' := by
  rcases h with ⟨more, heq, hmore⟩
  exact ⟨more, heq, fun m hm => nomatch hmore _ hm⟩

theorem said (es : List Event) {m : Outgoing} (hm : may m.uri?) :
    SaysOnly may es (es ++ [.sent m]) := by
  refine ⟨_, rfl, ?_⟩
  intro m' hm'
  cases List.mem_singleton.mp hm'
  exact hm

theorem refused (es : List Event) (method : String) (request : Bool)
    (r : Refusal) (n : Notice) :
    SaysOnly may es (es ++ [.refused method request r, .notice n]) := by
  refine ⟨_, rfl, ?_⟩
  intro m hm
  simp at hm

end SaysOnly

/-!
# Operations
-/

inductive Operation where
  | recordEdit (e : Edit)
  | accept
  | cancel
  | cycle (places : Int)
  | supersede
  | receive (ticket : Nat) (message : Json)
  /-- The batch is no longer due. -/
  | unschedule
  /-- The idle time no longer runs. -/
  | calm
  | openCopy
  | flush
  | request (kind : TriggerKind)
  | requestFor (reason : Json)
  | trigger
  | close

namespace Desk

variable {τ : Type}

/-- Whether a desk stayed with its document: it keeps its seat, and every
message names the document's own address. -/
structure Minds (k₀ k : Desk τ) : Prop where
  seat : SameSeat k₀ k
  named : k.document.sync.uri = k.document.uri
  events : SaysOnly (· = some k₀.document.uri) k₀.env.trace k.env.trace

namespace Minds

variable {k₀ k k' : Desk τ}

theorem say (h : Minds k₀ k) (hseat : SameSeat k k')
    (hnamed : k'.document.sync.uri = k.document.sync.uri)
    (hevents : SaysOnly (· = some k.document.uri) k.env.trace k'.env.trace) :
    Minds k₀ k' := by
  refine ⟨h.seat.trans hseat, ?_, ?_⟩
  · rw [hnamed, hseat.uri, h.named]
  · rw [h.seat.uri] at hevents
    exact h.events.trans hevents

end Minds

variable [Link τ]

def operate : Operation → Desk τ → Desk τ
  | .recordEdit e, k => k.recordEdit e
  | .accept, k => (k.runStage Stage.accept).2
  | .cancel, k => (k.runStage Stage.cancel).2
  | .cycle places, k => (k.runStage (Stage.cycle places)).2
  | .supersede, k => k.onStage Stage.supersede
  | .receive ticket message, k => k.receive ticket message
  | .unschedule, k =>
      { k with document :=
        { k.document with sync := k.document.sync.unschedule } }
  | .calm, k =>
      { k with document :=
        { k.document with trigger := k.document.trigger.cancel } }
  | .openCopy, k => k.openCopy.2
  | .flush, k => k.flush.2
  | .request kind, k => (k.request kind).2
  | .requestFor reason, k => (k.requestFor reason).2
  | .trigger, k => k.trigger.2
  | .close, k => k.close

theorem Kept.operate {P : Desk τ → Prop} (hP : Kept P)
    (hrecorded : ∀ {k : Desk τ} (e : Edit), P k → P (k.recorded e))
    (o : Operation) {k : Desk τ} (h : P k) : P (k.operate o) := by
  cases o with
  | recordEdit e =>
      show P (k.recordEdit e)
      cases hclosed : k.document.closed with
      | true =>
          rw [recordEdit_closed e hclosed]
          exact h
      | false => exact hP.quiet (quiet_recordEdit e hclosed) (hrecorded e h)
  | accept => exact hP.quiet (quiet_withStage (Stage.quiet_accept k.stage)) h
  | cancel => exact hP.quiet (quiet_withStage (Stage.quiet_cancel k.stage)) h
  | cycle places =>
      exact hP.quiet (quiet_withStage (Stage.quiet_cycle places k.stage)) h
  | supersede =>
      exact hP.quiet (quiet_onStage (Stage.quiet_finish .superseded) k) h
  | receive ticket message => exact hP.quiet (quiet_receive ticket message k) h
  | unschedule => exact hP.quiet (quiet_unschedule k) h
  | calm => exact hP.quiet (quiet_trigger k _) h
  | openCopy => exact hP.openCopy h
  | flush => exact hP.flush h
  | request kind => exact hP.requesting (request_requesting kind k) h
  | requestFor reason => exact hP.requesting (requestFor_requesting reason k) h
  | trigger =>
      exact hP.requesting (request_requesting .invoked _)
        (hP.quiet (quiet_trigger k _) h)
  | close => exact hP.close h

namespace Minds

variable {k₀ k : Desk τ}

theorem announced {ok : Bool} {s : Sync} {env : Env τ} (h : Minds k₀ k)
    (hannounce : Sync.Announcement k.editor.text k.document.language
    k.document.sync k.env
      (ok, s, env)) : Minds k₀ (k.withSync s env).renewed := by
  cases hannounce with
  | offline _ => exact h.say ⟨rfl, rfl, rfl, rfl⟩ rfl (.refl _)
  | refused _ _ => exact h.say ⟨rfl, rfl, rfl, rfl⟩ rfl (.refused ..)
  | taken _ _ =>
      exact h.say ⟨rfl, rfl, rfl, rfl⟩ rfl (.said _ (congrArg some h.named))

theorem kept (k₀ : Desk τ) : Kept (Minds k₀) where
  quiet hquiet h :=
    h.say (.of_quiet hquiet) hquiet.syncUri (.of_quietly hquiet.events)
  announced _ _ hannounce h := h.announced hannounce
  reannounced _ _ hannounce h := h.announced hannounce
  delivered _ hdelivery h := by
    cases hdelivery with
    | nothing _ => exact h.say ⟨rfl, rfl, rfl, rfl⟩ rfl (.refl _)
    | offline _ _ =>
        exact h.say ⟨rfl, rfl, rfl, rfl⟩ rfl (.of_quietly (.append _ rfl))
    | refused _ _ _ => exact h.say ⟨rfl, rfl, rfl, rfl⟩ rfl (.refused ..)
    | taken _ _ _ =>
        exact h.say ⟨rfl, rfl, rfl, rfl⟩ rfl (.said _ (congrArg some h.named))
  asked _ _ _ _ h := h.say ⟨rfl, rfl, rfl, rfl⟩ rfl (.said _ rfl)
  unasked _ h := h.say ⟨rfl, rfl, rfl, rfl⟩ rfl (.of_quietly (.append _ rfl))
  closing hclosing h := by
    cases hclosing with
    | unsaid _ => exact h.say ⟨rfl, rfl, rfl, rfl⟩ rfl (.refl _)
    | refused _ _ _ => exact h.say ⟨rfl, rfl, rfl, rfl⟩ rfl (.refused ..)
    | taken _ _ _ =>
        exact h.say ⟨rfl, rfl, rfl, rfl⟩ rfl (.said _ (congrArg some h.named))

end Minds

variable {k : Desk τ}

theorem operate_minds (hnamed : k.document.sync.uri = k.document.uri)
    (o : Operation) :
    Minds k (k.operate o) :=
  (Minds.kept k).operate (fun _ h => h.say ⟨rfl, rfl, rfl, rfl⟩ rfl (.refl _)) o
    ⟨.refl k, hnamed, .refl _⟩

theorem operate_sameSeat (o : Operation) (k : Desk τ) :
    SameSeat k (k.operate o) :=
  (SameSeat.kept k).operate (fun _ h => h.trans ⟨rfl, rfl, rfl, rfl⟩) o
    (.refl k)

theorem operate_inert (h : k.document.Inert) (o : Operation) :
    Rests k k.editor (k.operate o) := by
  cases o with
  | recordEdit e =>
      show Rests k k.editor (k.recordEdit e)
      rw [recordEdit_closed e h.closed]
      exact .refl k
  | accept =>
      show Rests k k.editor (k.runStage Stage.accept).2
      rw [runAccept_inert h]
      exact .refl k
  | cancel => exact perform_inert h .cancel
  | cycle places => exact perform_inert h (.cycle places)
  | supersede => exact perform_inert h .supersede
  | receive ticket message => exact receive_inert h ticket message
  | unschedule =>
      exact ⟨congrArg ({ k.document with sync := · }) h.unschedule, rfl,
        .refl _⟩
  | calm =>
      exact ⟨congrArg ({ k.document with trigger := · }) h.cancel, rfl, .refl _⟩
  | openCopy => exact perform_inert h .openCopy
  | flush => exact perform_inert h .flush
  | request kind =>
      show Rests k k.editor (k.request kind).2
      rw [request_inert h]
      exact .refl k
  | requestFor reason => exact perform_inert h (.request reason)
  | trigger => exact perform_inert h .trigger
  | close => exact perform_inert h .close

/-- An operation closes a document with nothing left of it, or changes nothing
about its being closed. -/
theorem operate_closed (o : Operation) (k : Desk τ) :
    (k.operate o).document.Inert ∨
    (k.operate o).document.closed = k.document.closed := by
  have hkept := SameCard.kept k
  have hcard {k' : Desk τ} (h : SameCard k k') :
      k'.document.closed = k.document.closed :=
    congrArg Card.closed h.card
  cases o with
  | recordEdit e => exact Or.inr (hcard (recordEdit_sameCard e k))
  | accept => exact Or.inr rfl
  | cancel => exact Or.inr rfl
  | cycle places => exact Or.inr rfl
  | supersede => exact Or.inr rfl
  | receive ticket message =>
      exact Or.inr (quiet_receive ticket message k).closed
  | unschedule => exact Or.inr rfl
  | calm => exact Or.inr rfl
  | openCopy => exact Or.inr (hcard (openCopy_sameCard k))
  | flush => exact Or.inr (hcard (hkept.flush (.refl k)))
  | request kind =>
      exact Or.inr
        (hcard (hkept.requesting (request_requesting kind k) (.refl k)))
  | requestFor reason =>
      exact Or.inr
        (hcard (hkept.requesting (requestFor_requesting reason k) (.refl k)))
  | trigger => exact Or.inr (hcard (trigger_sameCard k))
  | close => exact Or.inl (close_leaves_inert k)

end Desk
end InlineCompletion
