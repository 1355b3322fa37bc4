import InlineCompletion.Proofs.Document.Freshness

/-!
# Completions that count

The answer to a completion *counts* while the completion is live and its answer
is owed, and after that as long as it is shown.  The invariant is that whatever
counts was asked for in the text as it is: the agent is up to date, under the
version of that time.  What is shown is live, and it is annotated as its current
candidate has it.  No assumption is made on where the caret is or on how far
edits reach.  The main statement is that every action keeps the invariant, and
that whatever counts behind it counted before, with the text left alone, or was
asked for just then.
-/

namespace InlineCompletion

structure Completion.SameAsked (x x' : Completion) : Prop where
  version : x'.version = x.version
  anchor : x'.anchor = x.anchor
  id : x'.id = x.id

namespace Completions

def Keeps (c c' : Completions) : Prop :=
  ∀ t x, c.get? t = some x → ∃ x', c'.get? t = some x' ∧ x.SameAsked x'

namespace Keeps

variable {c c' c'' : Completions}

theorem refl (c : Completions) : Keeps c c :=
  fun _ x hx => ⟨x, hx, rfl, rfl, rfl⟩

theorem trans (h : Keeps c c') (h' : Keeps c' c'') : Keeps c c'' := by
  intro t x hx
  rcases h t x hx with ⟨x', hx', hsame⟩
  rcases h' t x' hx' with ⟨x'', hx'', hsame'⟩
  exact ⟨x'', hx'', hsame'.version.trans hsame.version,
    hsame'.anchor.trans hsame.anchor, hsame'.id.trans hsame.id⟩

theorem of_wanes (h : Wanes c c') : Keeps c c' := by
  intro t x hx
  rcases h.kept t x hx with ⟨i, hi⟩
  exact ⟨_, hi, rfl, rfl, rfl⟩

theorem modify_new (h : Keeps c c') {ticket : Nat}
    (hnew : c.all.length ≤ ticket) (f : Completion → Completion) :
    Keeps c (c'.modify ticket f) := by
  intro t x hx
  have hlt := lt_of_get? hx
  rcases h t x hx with ⟨x', hx', hsame⟩
  refine ⟨x', ?_, hsame⟩
  unfold get? at hx' ⊢
  have hne : ticket ≠ t := by omega
  simp [modify, hne, hx']

theorem modify (h : Keeps c c') {f : Completion → Completion}
    (hf : ∀ x : Completion, x.SameAsked (f x)) (ticket : Nat) :
    Keeps c (c'.modify ticket f) := by
  intro t x hx
  rcases h t x hx with ⟨x', hx', hsame⟩
  rcases get?_modify ticket f hx' with hsame' | hmodified
  · exact ⟨x', hsame', hsame⟩
  · exact ⟨f x', hmodified, (hf x').version.trans hsame.version,
      (hf x').anchor.trans hsame.anchor, (hf x').id.trans hsame.id⟩

end Keeps
end Completions

namespace Desk

variable {τ : Type}

/-!
# What a document knows
-/

/-- Whether the document knows the text of the editor while it is open on the
agent, and is not open once it is closed. -/
structure Knows (k : Desk τ) : Prop where
  closed : k.document.closed = true → k.document.sync.opened = false
  snapshot : k.document.sync.opened = true → k.document.snapshot = k.editor.text

namespace Knows

theorem quiet {k k' : Desk τ} (hquiet : Quiet k k') (h : k.Knows) :
    k'.Knows := by
  constructor
  · rw [hquiet.closed, hquiet.opened]
    exact h.closed
  · rw [hquiet.opened, hquiet.snapshot, hquiet.text]
    exact h.snapshot

theorem kept [Link τ] : Kept (Knows (τ := τ)) where
  quiet hquiet h := h.quiet hquiet
  announced hclosed _ h _ :=
    ⟨fun hc => absurd (hclosed.symm.trans hc) Bool.false_ne_true,
    fun _ => rfl⟩
  reannounced hclosed _ h _ :=
    ⟨fun hc => absurd (hclosed.symm.trans hc) Bool.false_ne_true,
    fun _ => rfl⟩
  delivered hopened h hk := by
    cases h <;> exact ⟨hk.closed, hk.snapshot⟩
  closing h _ := by
    cases h <;> exact ⟨fun _ => rfl, nofun⟩
  asked _ _ _ _ h := ⟨h.closed, h.snapshot⟩
  unasked _ h := ⟨h.closed, h.snapshot⟩

theorem edit {k : Desk τ} {f : Editor → Option Edit × Editor}
    (hreported : ∀ e : Editor, e.Reported (f e)) (h : k.Knows) :
    (k.edit f).Knows := by
  have htext := hreported k.editor
  unfold Editor.Reported at htext
  unfold Desk.edit
  cases hedit : (f k.editor).1 with
  | none =>
      rw [hedit] at htext
      exact ⟨h.closed, fun hopened => (h.snapshot hopened).trans htext.symm⟩
  | some e =>
      rw [hedit] at htext
      cases hclosed : k.document.closed with
      | true =>
          dsimp only
          rw [recordEdit_closed e (by exact hclosed)]
          exact ⟨h.closed, fun hopened =>
            absurd ((h.closed hclosed).symm.trans hopened) Bool.false_ne_true⟩
      | false =>
          refine quiet (quiet_recordEdit e (by exact hclosed)) ⟨h.closed, ?_⟩
          intro hopened
          show e.apply k.document.snapshot = (f k.editor).2.text
          rw [h.snapshot hopened]
          exact htext.symm

theorem perform [Link τ] {k : Desk τ} (a : Action τ) (h : k.Knows) :
    (k.perform a).Knows :=
  kept.perform (F := fun _ _ => True)
    (fun hreported _ _ hk => hk.edit hreported)
      (fun _ hk => ⟨hk.closed, hk.snapshot⟩) (fun _ _ => trivial) h

end Knows

/-!
# What counts
-/

/-- Whether a completion is live, and either its answer is owed or it is
shown. -/
def Counts (k : Desk (Accounted τ)) (t : Nat) : Prop :=
  k.document.completions.live = some t ∧
    (k.Owes t ∨ k.document.completions.shown = some t)

/-- Whether the agent is up to date, under the version that a completion was
asked for with. -/
def Ready (k : Desk (Accounted τ)) (t : Nat) : Prop :=
  k.document.sync.opened = true ∧ k.document.sync.pending = [] ∧
    ∃ x, k.document.completions.get? t = some x ∧
      k.document.sync.version = x.version

/-- Whether what counts was asked for in the text as it is, and the annotation
is that of the completion that is shown. -/
structure Cast (k : Desk (Accounted τ)) : Prop where
  nodup : k.env.link.owed.Nodup
  known : ∀ t, k.Owes t → t < k.document.completions.all.length
  shown : ∀ t, k.document.completions.shown = some t →
    k.document.completions.live = some t ∧ ¬ k.Owes t
  painted : ∀ t, k.document.completions.shown = some t →
    ∃ x, k.document.completions.get? t = some x ∧ x.candidates ≠ [] ∧
      k.editor.ghost = some (x.annotation k.editor.text)
  ready : ∀ t, k.Counts t → k.Ready t
  bare : k.stage.Bare

/-- What becomes of the completions at a desk: what counts or is owed did so
before, in the same text, unless it was asked for since. -/
structure Goes (k k' : Desk (Accounted τ)) : Prop where
  cast : k'.Cast
  number : k'.number = k.number
  size : k.document.completions.all.length ≤ k'.document.completions.all.length
  kept : Completions.Keeps k.document.completions k'.document.completions
  owes : ∀ t, t < k.document.completions.all.length → k'.Owes t → k.Owes t
  counts : ∀ t, t < k.document.completions.all.length → k'.Counts t →
    k.Counts t ∧ k'.editor.text = k.editor.text

theorem Cast.counts_shown {k : Desk (Accounted τ)} (h : k.Cast) {t : Nat}
    (ht : k.document.completions.shown = some t) : k.Counts t :=
  ⟨(h.shown t ht).1, Or.inr ht⟩

theorem Cast.not_counts_of_closed {k : Desk (Accounted τ)} (h : k.Cast)
    (hknows : k.Knows) (hclosed : k.document.closed = true) (t : Nat) :
    ¬ k.Counts t := by
  intro ht
  exact absurd ((hknows.closed hclosed).symm.trans (h.ready t ht).1)
    Bool.false_ne_true

theorem Cast.shown_of_owed {k : Desk (Accounted τ)} (h : k.Cast) {ticket : Nat}
    (howes : k.Owes ticket)
    (hlive : k.document.completions.live = some ticket) :
    k.document.completions.shown = none := by
  cases hshown : k.document.completions.shown with
  | none => rfl
  | some t =>
      have ht := h.shown t hshown
      cases ht.1.symm.trans hlive
      exact absurd howes ht.2

theorem Cast.of_idle {k : Desk (Accounted τ)} (hnodup : k.env.link.owed.Nodup)
    (hknown : ∀ t, k.Owes t → t < k.document.completions.all.length)
    (hshown : k.document.completions.shown = none) (hcounts : ∀ t, ¬ k.Counts t)
    (hghost : k.editor.ghost = none) : k.Cast where
  nodup := hnodup
  known := hknown
  shown := fun t ht => absurd (hshown.symm.trans ht) (by simp)
  painted := fun t ht => absurd (hshown.symm.trans ht) (by simp)
  ready := fun t ht => absurd ht (hcounts t)
  bare := fun _ => hghost

namespace Goes

variable {k k' k'' : Desk (Accounted τ)}

theorem refl (h : k.Cast) : Goes k k :=
  ⟨h, rfl, Nat.le_refl _, .refl _, fun _ _ ht => ht, fun _ _ ht => ⟨ht, rfl⟩⟩

theorem trans (h : Goes k k') (h' : Goes k' k'') : Goes k k'' where
  cast := h'.cast
  number := h'.number.trans h.number
  size := Nat.le_trans h.size h'.size
  kept := h.kept.trans h'.kept
  owes t hlt ht := h.owes t hlt (h'.owes t (Nat.lt_of_lt_of_le hlt h.size) ht)
  counts t hlt ht := by
    rcases h'.counts t (Nat.lt_of_lt_of_le hlt h.size) ht with ⟨ht', htext'⟩
    rcases h.counts t hlt ht' with ⟨ht'', htext⟩
    exact ⟨ht'', htext'.trans htext⟩

theorem aside (hk : k.Cast) (honward : Onward k k')
    (hcompletions : k'.document.completions = k.document.completions)
    (hghost : k'.editor.ghost = k.editor.ghost) : Goes k k' := by
  have hcounts (t : Nat) (ht : k'.Counts t) : k.Counts t := by
    unfold Counts at ht ⊢
    rw [hcompletions] at ht
    exact ⟨ht.1, ht.2.imp_left honward.owes⟩
  refine ⟨⟨honward.owed.nodup hk.nodup, ?_, ?_, ?_, ?_, ?_⟩, honward.number, ?_,
    ?_, ?_, ?_⟩
  · intro t ht
    rw [hcompletions]
    exact hk.known t (honward.owes ht)
  · intro t ht
    rw [hcompletions] at ht ⊢
    exact ⟨(hk.shown t ht).1, fun h => (hk.shown t ht).2 (honward.owes h)⟩
  · intro t ht
    rw [hcompletions] at ht ⊢
    rw [hghost, honward.text]
    exact hk.painted t ht
  · intro t ht
    rcases hk.ready t (hcounts t ht) with ⟨hopened, hpending, x, hx, hversion⟩
    rcases honward.settled hopened hpending with ⟨hopened', hpending', hsame⟩
    refine ⟨hopened', hpending', x, ?_, hsame.trans hversion⟩
    rw [hcompletions]
    exact hx
  · intro hnone
    exact hghost.trans
      (hk.bare ((congrArg Completions.shown hcompletions).symm.trans hnone))
  · exact Nat.le_of_eq (congrArg (·.all.length) hcompletions).symm
  · rw [hcompletions]
    exact .refl _
  · exact fun t _ ht => honward.owes ht
  · exact fun t _ ht => ⟨hcounts t ht, honward.text⟩

theorem idle (hk : k.Cast) (hnumber : k'.number = k.number)
    (howed : k'.env.link.owed.Sublist k.env.link.owed)
    (hsize : k.document.completions.all.length ≤
    k'.document.completions.all.length)
    (hkept : Completions.Keeps k.document.completions k'.document.completions)
    (hshown : k'.document.completions.shown = none)
    (hcounts : ∀ t, ¬ k'.Counts t) (hghost : k'.editor.ghost = none) :
    Goes k k' := by
  have howes (t : Nat) (ht : k'.Owes t) : k.Owes t := by
    unfold Owes at ht ⊢
    rw [hnumber] at ht
    exact howed.subset ht
  refine ⟨.of_idle (howed.nodup hk.nodup) ?_ hshown hcounts hghost, hnumber,
    hsize, hkept, ?_, ?_⟩
  · exact fun t ht => Nat.lt_of_lt_of_le (hk.known t (howes t ht)) hsize
  · exact fun t _ ht => howes t ht
  · exact fun t _ ht => absurd ht (hcounts t)

end Goes

theorem not_counts_of_live {k : Desk (Accounted τ)}
    (h : k.document.completions.live = none) (t : Nat) : ¬ k.Counts t := by
  intro ht
  exact absurd (h.symm.trans ht.1) (by simp)

end Desk

/-!
# Ending, cycling, and answers
-/

namespace Stage

theorem finish_live {s : Stage} {t : Nat} (outcome : Outcome)
    (hshown : s.completions.shown = some t)
    (hlive : s.completions.live = some t) :
    (s.finish outcome).completions.live = none := by
  unfold finish
  rw [hshown]
  show (Completions.release t { s.completions with shown := none }).live = none
  rw [Completions.release, if_pos hlive]
  rfl

end Stage

namespace Desk

variable {τ : Type}

namespace Goes

variable {k k' : Desk (Accounted τ)}

theorem tell (h : Goes k k') {n : Notice}
    (hn : (Event.notice n).isQuiet = true) :
    Goes k (k'.tell n) :=
  h.trans (aside h.cast (.of_quiet (quiet_tell hn k')) rfl rfl)

theorem finish (outcome : Outcome) (hk : k.Cast) :
    Goes k (k.onStage (Stage.finish outcome)) := by
  cases hshown : k.document.completions.shown with
  | none =>
      have hsame : k.onStage (Stage.finish outcome) = k := by
        unfold onStage
        rw [Stage.finish_of_shown_eq_none (s := k.stage) outcome hshown]
        rfl
      rw [hsame]
      exact .refl hk
  | some t =>
      have hwanes := Stage.finish_wanes outcome k.stage
      have hnone := Stage.finish_shown outcome k.stage
      have hlive :=
        Stage.finish_live (s := k.stage) outcome hshown (hk.shown t hshown).1
      exact idle hk rfl (List.Sublist.refl _) (Nat.le_of_eq hwanes.size.symm)
        (.of_wanes hwanes) hnone (not_counts_of_live hlive)
          (Stage.finish_bare outcome hk.bare hnone)

theorem cycle (places : Int) (hk : k.Cast) :
    Goes k (k.runStage (Stage.cycle places)).2 := by
  show Goes k (k.withStage (k.stage.cycle places).2)
  rcases Stage.cycle_cases places k.stage with
    hsame | ⟨t, x, i, ht, hx, hrendered⟩
  · rw [hsame]
    exact .refl hk
  · rw [hrendered]
    have hwanes := Completions.wanes_modify i hx
    have hget :=
      Completions.get?_modify_self (fun _ => { x with index := i }) hx
    rcases hk.painted t ht with ⟨y, hy, hcandidates, _⟩
    cases hx.symm.trans hy
    refine ⟨⟨hk.nodup, ?_, hk.shown, ?_, ?_, ?_⟩, rfl,
      Nat.le_of_eq hwanes.size.symm, .of_wanes hwanes, fun _ _ ht => ht,
      fun _ _ ht => ⟨ht, rfl⟩⟩
    · intro t' ht'
      exact Nat.lt_of_lt_of_eq (hk.known t' ht') hwanes.size.symm
    · intro t' ht'
      cases ht.symm.trans ht'
      exact ⟨_, hget, hcandidates, rfl⟩
    · intro t' ht'
      rcases hk.ready t' ht' with ⟨hopened, hpending, z, hz, hversion⟩
      rcases hwanes.kept t' z hz with ⟨j, hj⟩
      exact ⟨hopened, hpending, _, hj, hversion⟩
    · intro hnone
      exact absurd (ht.symm.trans hnone) (by simp)

/-- An answer that is no longer owed, to a completion that was asked for in the
text as it is. -/
theorem receive {ticket : Nat} (message : Json) (h : Goes k k')
    (howes : ¬ k'.Owes ticket)
    (hready : k'.document.completions.live = some ticket →
      k'.document.completions.shown = none ∧ k'.Ready ticket)
    (hbefore : k'.document.completions.live = some ticket →
      ticket < k.document.completions.all.length →
        k.Counts ticket ∧ k'.editor.text = k.editor.text) :
    Goes k (k'.receive ticket message) := by
  have hquiet := quiet_receive ticket message k'
  have honward := Onward.of_quiet hquiet
  cases receive_answered ticket message k' fun hlive => (hready hlive).1 with
  | ignored hcompletions heditor _ =>
      exact h.trans
        (aside h.cast honward hcompletions (congrArg Editor.ghost heditor))
  | dropped hlive hgone hshown hsize hkept heditor _ =>
      have hnone := (hready hlive).1
      refine h.trans
        (idle h.cast hquiet.number honward.owed (Nat.le_of_eq hsize.symm) ?_
          (hshown.trans hnone) (not_counts_of_live hgone) ?_)
      · intro t x hx
        rcases hkept t x hx with ⟨cs, hcs⟩
        exact ⟨_, hcs, rfl, rfl, rfl⟩
      · rw [heditor]
        exact h.cast.bare hnone
  | displayed hlive hx hcursor hcandidates hcompletions hcaret hghost hcues =>
      rename_i x candidates
      rcases (hready hlive).2 with ⟨hopened, hpending, y, hy, hversion⟩
      cases hx.symm.trans hy
      rcases Completions.shown_modify hx hcompletions with
        ⟨hget, hsize, hstays, hshown'⟩
      have hlive' := hstays.trans hlive
      have hkeeps : Completions.Keeps k'.document.completions
          (k'.receive ticket message).document.completions := by
        rw [hcompletions]
        exact (Completions.Keeps.refl _).modify
          (by exact fun _ => ⟨rfl, rfl, rfl⟩) ticket
      refine ⟨⟨honward.owed.nodup h.cast.nodup, ?_, ?_, ?_, ?_, ?_⟩,
        hquiet.number.trans h.number, ?_, h.kept.trans hkeeps, ?_, ?_⟩
      · intro t ht
        rw [hsize]
        exact h.cast.known t (honward.owes ht)
      · intro t ht
        cases hshown'.symm.trans ht
        exact ⟨hlive', fun howes' => howes (honward.owes howes')⟩
      · intro t ht
        cases hshown'.symm.trans ht
        refine ⟨_, hget, hcandidates, ?_⟩
        rw [hquiet.text]
        exact hghost
      · intro t ht
        cases hlive'.symm.trans ht.1
        exact ⟨hquiet.opened.trans hopened, hquiet.pending.trans hpending, _,
          hget, hquiet.version.trans hversion⟩
      · intro hnone
        exact absurd (hshown'.symm.trans hnone) (by simp)
      · rw [hsize]
        exact h.size
      · exact fun t hlt ht => h.owes t hlt (honward.owes ht)
      · intro t hlt ht
        cases hlive'.symm.trans ht.1
        rcases hbefore hlive hlt with ⟨hcounts, htext⟩
        exact ⟨hcounts, hquiet.text.trans htext⟩

theorem named {ticket : Nat} (id : Int) (h : Goes k k')
    (hnew : k.document.completions.all.length ≤ ticket) :
    Goes k (k'.named ticket id) := by
  have hsize : (k'.named ticket id).document.completions.all.length =
      k'.document.completions.all.length := Completions.length_modify ..
  refine ⟨⟨h.cast.nodup, ?_, h.cast.shown, ?_, ?_, h.cast.bare⟩, h.number, ?_,
    h.kept.modify_new hnew _, h.owes, h.counts⟩
  · intro t ht
    rw [hsize]
    exact h.cast.known t ht
  · intro t ht
    rcases h.cast.painted t ht with ⟨x, hx, hcandidates, hghost⟩
    rcases Completions.get?_modify ticket (fun x => { x with id := some id })
      hx with hsame | hnamed
    · exact ⟨x, hsame, hcandidates, hghost⟩
    · exact ⟨_, hnamed, hcandidates, hghost⟩
  · intro t ht
    rcases h.cast.ready t ht with ⟨hopened, hpending, x, hx, hversion⟩
    rcases Completions.get?_modify ticket (fun x => { x with id := some id })
      hx with hsame | hnamed
    · exact ⟨hopened, hpending, x, hsame, hversion⟩
    · exact ⟨hopened, hpending, _, hnamed, hversion⟩
  · rw [hsize]
    exact h.size

end Goes

/-!
# Asking
-/

theorem posed_keeps (kind : TriggerKind) (k : Desk τ) :
    Completions.Keeps k.document.completions
      (k.posed kind).document.completions := by
  intro t x hx
  rcases posed_kept kind hx with ⟨i, hi⟩
  exact ⟨_, hi, rfl, rfl, rfl⟩

namespace Goes

variable {k k' : Desk (Accounted τ)}

theorem asked (hk : k.Cast) (hopened : k.document.sync.opened = true)
    (hpending : k.document.sync.pending = []) {kind : TriggerKind}
    {link : Accounted τ} {es : List Event}
    (howed : link.owed = k.env.link.owed ∨
      link.owed = k.env.link.owed ++ [.completion k.number k.nextTicket]) :
    Goes k ((k.posed kind).seeing link es) := by
  have hnext := nextTicket_eq k
  have hnew : ¬ k.Owes k.nextTicket := by
    intro h
    have hknown := hk.known _ h
    omega
  have hnone : (k.posed kind).document.completions.shown = none :=
    posed_shown kind k
  have hsize : ((k.posed kind).seeing link es).document.completions.all.length =
      k.document.completions.all.length + 1 := by
    rw [← hnext]
    exact posed_size kind k
  refine ⟨⟨nodup_owed howed hk.nodup hnew, ?_, ?_, ?_, ?_, ?_⟩, rfl, ?_,
    posed_keeps kind k, ?_, ?_⟩
  · intro t ht
    rw [hsize]
    rcases owes_or_next howed ht with hold | hticket
    · have hknown := hk.known t hold
      omega
    · omega
  · exact fun t ht => absurd (hnone.symm.trans ht) (by simp)
  · exact fun t ht => absurd (hnone.symm.trans ht) (by simp)
  · intro t ht
    cases ht.1
    exact ⟨hopened, hpending, _, posed_ticket kind k, rfl⟩
  · exact fun _ =>
      Stage.finish_bare .superseded hk.bare
      (Stage.finish_shown .superseded k.stage)
  · omega
  · intro t hlt ht
    rcases owes_or_next howed ht with hold | hticket
    · exact hold
    · omega
  · intro t hlt ht
    cases ht.1
    change k.nextTicket < _ at hlt
    omega

section Linked

variable [Link τ]

theorem asking (hk : k.Cast) (hopened : k.document.sync.opened = true)
    (hpending : k.document.sync.pending = []) {kind : TriggerKind}
    {r : Except Fault (Option Nat) × Desk (Accounted τ)}
    (hask : Asking kind k r) :
    Goes k r.2 := by
  have hnew : k.document.completions.all.length ≤ k.nextTicket :=
    Nat.le_of_eq (nextTicket_eq k).symm
  cases hask with
  | oneWay hlink =>
      refine asked hk hopened hpending (Or.inl ?_)
      simpa [Accounted.owing] using Accounted.request_owed hlink
  | refused _ hlink =>
      rename_i refusal link _
      have hasked : Goes k ((k.posed kind).seeing link
          [.refused "textDocument/inlineCompletion" true refusal]) := by
        refine asked hk hopened hpending (Or.inl ?_)
        simpa [Accounted.owing] using Accounted.request_owed hlink
      have htold :=
        hasked.tell (n := .requestRefused k.document.uri refusal) rfl
      exact htold.trans
        (idle htold.cast rfl (List.Sublist.refl _) (Nat.le_refl _) (.refl _)
          (posed_shown kind k) (not_counts_of_live rfl)
        (htold.cast.bare (posed_shown kind k)))
  | deferred hlink =>
      exact (asked hk hopened hpending
        (Or.inr (Accounted.request_owed hlink))).named _ hnew
  | answered hlink =>
      rename_i id message link
      have howed : link.owed = k.env.link.owed := by
        simpa [Accounted.owing] using Accounted.request_owed hlink
      have hasked :
          Goes k ((k.posed kind).seeing link
            [.sent (.request id (k.question kind))]) :=
        asked hk hopened hpending (Or.inl howed)
      refine (hasked.receive message ?_ ?_ ?_).named _ hnew
      · intro howes
        change Waiting.completion k.number k.nextTicket ∈ link.owed at howes
        rw [howed] at howes
        exact absurd (hk.known _ howes) (Nat.not_lt_of_le hnew)
      · intro _
        exact ⟨posed_shown kind k, hopened, hpending, _, posed_ticket kind k,
          rfl⟩
      · exact fun _ hlt => absurd hlt (Nat.not_lt_of_le hnew)

theorem flushing (hk : k.Cast) {r : Bool × Desk (Accounted τ)}
    (h : Flushing k r) : Goes k r.2 :=
  aside hk ((Onward.keptBySync k).flushing h (.refl k)) h.frame.1
    (congrArg Editor.ghost h.frame.2)

theorem requesting (hk : k.Cast) (h : Requesting k k') : Goes k k' := by
  cases h with
  | closed _ => exact .refl hk
  | offline _ => exact (Goes.refl hk).tell rfl
  | unsynced hflush => exact (flushing hk hflush).tell rfl
  | unknown hflush => exact flushing hk hflush
  | asked _ hflush hask =>
      have hflushed := flushing hk hflush
      exact hflushed.trans
        (asking hflushed.cast hflush.opened.1 hflush.opened.2 hask)

theorem ring (bell : Workspace.Bell) (a : Alarm) (hk : k.Cast) :
    Goes k (k.ring bell a) := by
  cases bell with
  | flush _ =>
      have hquiet :=
        ((quiet_atTime a.due k).trans (quiet_unschedule _)).trans
        (quiet_fired a.due _)
      have hfired := aside hk (.of_quiet hquiet) rfl rfl
      exact hfired.trans (flushing hfired.cast (Desk.flushing _))
  | trigger _ =>
      have hquiet := ((quiet_atTime a.due k).trans
        (quiet_trigger _ k.document.trigger.cancel)).trans (quiet_fired a.due _)
      have hfired := aside hk (.of_quiet hquiet) rfl rfl
      have hrequested := hfired.trans
        (requesting hfired.cast (request_requesting .automatic _))
      show Goes k (tellFault _)
      unfold tellFault
      split
      · exact hrequested.tell rfl
      · exact hrequested

end Linked

/-!
# Edits and what is accepted
-/

theorem edit {f : Editor → Option Edit × Editor}
    (hreported : ∀ e : Editor, e.Reported (f e))
    (hview : ∀ e : Editor, e.SameView (f e).2) (hk : k.Cast)
    (hknows : k.Knows) :
    Goes k (k.edit f) := by
  have htext := hreported k.editor
  have hghost : (f k.editor).2.ghost = k.editor.ghost := (hview k.editor).1
  unfold Editor.Reported at htext
  unfold Desk.edit
  cases hedit : (f k.editor).1 with
  | none =>
      rw [hedit] at htext
      have honward : Onward k { k with editor := (f k.editor).2 } :=
        ⟨rfl, rfl, htext, fun ho hp => ⟨ho, hp, rfl⟩, rfl, List.Sublist.refl _⟩
      exact aside hk honward rfl hghost
  | some e =>
      dsimp only
      cases hclosed : k.document.closed with
      | true =>
          have hcounts := hk.not_counts_of_closed hknows hclosed
          have hshown : k.document.completions.shown = none := by
            cases hshown : k.document.completions.shown with
            | none => rfl
            | some t => exact absurd (hk.counts_shown hshown) (hcounts t)
          rw [recordEdit_closed e (by exact hclosed)]
          exact idle hk rfl (List.Sublist.refl _) (Nat.le_refl _) (.refl _)
            hshown hcounts (hghost.trans (hk.bare hshown))
      | false =>
          let k₁ : Desk (Accounted τ) :=
            { k with editor := (f k.editor).2 }.emit (.edited e)
          have hquiet := quiet_recordEdit (k := k₁) e hclosed
          rcases recordEdit_stage (k := k₁) e hclosed with
            ⟨hcompletions, heditor⟩
          have hwanes := Stage.finish_wanes .canceled k₁.stage
          refine idle hk hquiet.number ?_ ?_ ?_ ?_ (not_counts_of_live ?_) ?_
          · rw [hquiet.link]
            exact List.Sublist.refl _
          · rw [hcompletions]
            exact Nat.le_of_eq hwanes.size.symm
          · rw [hcompletions]
            exact (Completions.Keeps.of_wanes hwanes).trans
              (.of_wanes (Completions.wanes_invalidate _))
          · rw [hcompletions]
            exact Stage.finish_shown .canceled k₁.stage
          · rw [hcompletions]
            rfl
          · rw [heditor]
            exact Stage.finish_bare .canceled
              (fun hshown => hghost.trans (hk.bare hshown))
                (Stage.finish_shown .canceled k₁.stage)

theorem moveCursor (offset : Int) (hk : k.Cast) :
    Goes k (k.onEditor (Editor.moveCursor offset)) := by
  refine aside hk (.of_quiet (quiet_moveCursor offset k)) rfl ?_
  show (k.editor.moveCursor offset).1.ghost = k.editor.ghost
  unfold Editor.moveCursor
  cases k.editor.caret <;> rfl

theorem accept (hk : k.Cast) (hknows : k.Knows) : Goes k k.accept := by
  have hstaged : Goes k (k.withStage k.stage.accept.2) := by
    rcases Stage.accept_stage k.stage with hstage | hstage
    · rw [hstage]
      exact .refl hk
    · rw [hstage]
      exact finish .accepted hk
  rcases accept_cases k with ⟨haccept, _⟩ | ⟨e, _, _, haccept⟩
  · rw [haccept]
    exact hstaged
  · rw [haccept]
    have hknows' := hknows.quiet (quiet_withStage (Stage.quiet_accept k.stage))
    have hedited :=
      hstaged.trans
      (edit (Editor.replace_reported e) (Editor.replace_sameView e) hstaged.cast
        hknows')
    exact hedited.trans (moveCursor _ hedited.cast)

theorem cancel (hk : k.Cast) : Goes k (k.runStage Stage.cancel).2 := by
  show Goes k (k.withStage k.stage.cancel.2)
  unfold Stage.cancel
  split
  · have hfinished := finish .canceled hk
    exact hfinished.trans (moveCursor _ hfinished.cast)
  · exact .refl hk

theorem relinked (f : Accounted τ → Accounted τ) (hk : k.Cast)
    (hf : (f k.env.link).owed.Sublist k.env.link.owed) :
    Goes k (k.relinked f) :=
  aside hk ⟨rfl, rfl, rfl, fun ho hp => ⟨ho, hp, rfl⟩, rfl, hf⟩ rfl rfl

theorem answer {ticket : Nat} (message : Json)
    (note : Accounted τ → Accounted τ) (hk : k.Cast) (howes : k.Owes ticket)
    (hnote : (note k.env.link).owed =
    k.env.link.owed.erase (.completion k.number ticket)) :
    Goes k ((k.relinked note).receive ticket message) := by
  have hrelinked := relinked note hk (by rw [hnote]; exact List.erase_sublist)
  refine hrelinked.receive message ?_ ?_ ?_
  · show Waiting.completion k.number ticket ∉ (note k.env.link).owed
    rw [hnote]
    exact hk.nodup.not_mem_erase
  · exact fun hlive =>
      ⟨hk.shown_of_owed howes hlive, hk.ready ticket ⟨hlive, Or.inl howes⟩⟩
  · exact fun hlive _ => ⟨⟨hlive, Or.inl howes⟩, rfl⟩

end Goes

/-!
# Every action
-/

/-- Whether each answer is given at most once: to a completion whose answer is
owed, and no longer owed from then on. -/
def Fair (k : Desk (Accounted τ)) : Action (Accounted τ) → Prop
  | .answer ticket _ note =>
      k.Owes ticket ∧
        (note k.env.link).owed =
          k.env.link.owed.erase (.completion k.number ticket)
  | .disturb f => (f k.env.link).owed.Sublist k.env.link.owed
  | _ => True

theorem Goes.perform [Link τ] {k : Desk (Accounted τ)}
    {a : Action (Accounted τ)} (hk : k.Cast) (hknows : k.Knows)
    (ha : k.Fair a) : Goes k (k.perform a) := by
  cases a with
  | edit g => exact edit g.run_reported g.run_sameView hk hknows
  | moveCursor offset => exact moveCursor offset hk
  | select anchor position =>
      refine aside hk (.of_quiet (quiet_select anchor position k)) rfl ?_
      show (k.editor.select anchor position).ghost = k.editor.ghost
      unfold Editor.select
      cases k.editor.caret <;> rfl
  | openCopy =>
      have honward :=
        (Onward.keptBySync k).openCopy (fun _ h => .announced h) (.refl k)
      exact aside hk honward (openCopy_frame k).1
        (congrArg Editor.ghost (openCopy_frame k).2)
  | close =>
      have hwanes := Stage.finish_wanes .superseded k.stage
      have howed : k.close.env.link.owed = k.env.link.owed :=
        (Sync.closing k.document.sync _).owed
      refine idle hk rfl (howed ▸ List.Sublist.refl _)
        (Nat.le_of_eq hwanes.size.symm)
          ((Completions.Keeps.of_wanes hwanes).trans
            (.of_wanes (Completions.wanes_invalidate _)))
        (close_shown k) (not_counts_of_live rfl) ?_
      exact Stage.finish_bare .superseded hk.bare
        (Stage.finish_shown .superseded k.stage)
  | flush => exact flushing hk (Desk.flushing k)
  | trigger =>
      have hcanceled : Goes k (k.withTrigger k.document.trigger.cancel) :=
        aside hk (.of_quiet (quiet_trigger k _)) rfl rfl
      exact hcanceled.trans
        (requesting hcanceled.cast (request_requesting .invoked _))
  | request reason => exact requesting hk (requestFor_requesting reason k)
  | accept => exact accept hk hknows
  | cancel => exact cancel hk
  | cycle places => exact cycle places hk
  | supersede => exact finish .superseded hk
  | answer ticket message note => exact answer message note hk ha.1 ha.2
  | flushAlarm a => exact ring (.flush 0) a hk
  | triggerAlarm a => exact ring (.trigger 0) a hk
  | elapse milliseconds =>
      have hrung :
          Goes k (Alarm.ring alarms Desk.ring (k.env.clock.now + milliseconds)
          k.alarms.length k) :=
        Alarm.ring_keeps (fun _ bell a h => h.trans (ring bell a h.cast)) _
          (.refl hk)
      exact hrung.trans
        (aside hrung.cast (.of_quiet (quiet_atTime _ _)) rfl rfl)
  | disturb f => exact relinked f hk ha

end Desk
end InlineCompletion
