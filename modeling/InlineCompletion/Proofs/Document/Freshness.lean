import InlineCompletion.Proofs.Document.Display
import InlineCompletion.Proofs.Document.Question

/-!
# Ghost text is never stale

A completion fits its document as long as nothing happened to the text since it
was asked for: the agent holds the editor's text, under the version that the
completion was asked for with, and the completion is the last question that the
agent took.  The invariant is that the live completion fits while its answer is
owed or while it is shown.  The main statement is that whatever is shown was
asked for last and fits, in every order of edits, failures and answers; and that
it came to be shown with the caret where it was asked for.
-/

namespace InlineCompletion

theorem Completions.editOf_within {text : Text} {anchor : Int} {c : Candidate}
    (h : c.range = none → 0 ≤ anchor ∧ anchor ≤ text.length) :
    (editOf text anchor c).Within text := by
  unfold editOf
  cases hrange : c.range with
  | none =>
      rcases h hrange with ⟨hlow, hhigh⟩
      exact ⟨hlow, Int.le_refl _, hhigh⟩
  | some r =>
      have hstart := Position.toOffset_le_length text r.start
      have hstop := Position.toOffset_le_length text r.stop
      unfold Edit.Within
      dsimp only
      omega

namespace Desk

/-!
# Fitting completions
-/

/-- Whether the answer to a completion that was asked with a question can be
shown. -/
structure Fits {τ : Type} (k : Desk τ) (x : Completion) (q : Question) :
    Prop where
  opened : k.document.sync.opened = true
  pending : k.document.sync.pending = []
  version : k.document.sync.version = x.version
  low : 0 ≤ x.anchor
  high : x.anchor ≤ k.editor.text.length
  position : x.position = Position.ofOffset k.editor.text x.anchor
  asked : lastQuestion k.document.uri k.env.trace = some q
  same : q.position = x.position
  held : q.held = some k.editor.text

/-- Whether the completion with a ticket fits; a named one knows the number of
its question. -/
def Current {τ : Type} (named : Prop) (k : Desk τ) (t : Nat) : Prop :=
  ∃ x q, k.document.completions.get? t = some x ∧ k.Fits x q ∧
    (named → x.id = some (q.id : Int))

variable {τ : Type}

def Owes (k : Desk (Accounted τ)) (t : Nat) : Prop :=
  .completion k.number t ∈ k.env.link.owed

instance (k : Desk (Accounted τ)) (t : Nat) : Decidable (k.Owes t) :=
  inferInstanceAs (Decidable (_ ∈ _))

/-- Whether what is live fits while it can still be shown or is shown, and
nothing else is shown. -/
structure Timely (named : Prop) (k : Desk (Accounted τ)) : Prop where
  nodup : k.env.link.owed.Nodup
  known : ∀ t, k.Owes t → t < k.document.completions.all.length
  shown : ∀ t, k.document.completions.shown = some t →
    k.document.completions.live = some t ∧ ¬ k.Owes t ∧
      ∃ x, k.document.completions.get? t = some x ∧ x.candidates ≠ []
  current : ∀ t, k.document.completions.live = some t →
    k.Owes t ∨ k.document.completions.shown = some t → k.Current named t
  bare : k.stage.Bare

structure Onward (k k' : Desk (Accounted τ)) : Prop where
  number : k'.number = k.number
  uri : k'.document.uri = k.document.uri
  text : k'.editor.text = k.editor.text
  settled : k.document.sync.opened = true → k.document.sync.pending = [] →
    k'.document.sync.opened = true ∧ k'.document.sync.pending = [] ∧
      k'.document.sync.version = k.document.sync.version
  question :
      lastQuestion k.document.uri k'.env.trace =
        lastQuestion k.document.uri k.env.trace
  owed : k'.env.link.owed.Sublist k.env.link.owed

namespace Onward

theorem refl (k : Desk (Accounted τ)) : Onward k k :=
  ⟨rfl, rfl, rfl, fun ho hp => ⟨ho, hp, rfl⟩, rfl, List.Sublist.refl _⟩

theorem trans {k k' k'' : Desk (Accounted τ)} (h : Onward k k')
    (h' : Onward k' k'') :
    Onward k k'' where
  number := h'.number.trans h.number
  uri := h'.uri.trans h.uri
  text := h'.text.trans h.text
  settled := by
    intro ho hp
    rcases h.settled ho hp with ⟨ho', hp', hv'⟩
    rcases h'.settled ho' hp' with ⟨ho'', hp'', hv''⟩
    exact ⟨ho'', hp'', hv''.trans hv'⟩
  question := by
    have hquestion := h'.question
    rw [h.uri] at hquestion
    exact hquestion.trans h.question
  owed := h'.owed.trans h.owed

theorem of_quiet {k k' : Desk (Accounted τ)} (h : Quiet k k') :
    Onward k k' where
  number := h.number
  uri := h.uri
  text := h.text
  settled := by
    intro ho hp
    exact ⟨h.opened.trans ho, h.pending.trans hp, h.version⟩
  question := lastQuestion_quietly _ h.events
  owed := h.link ▸ List.Sublist.refl _

theorem fits {k k' : Desk (Accounted τ)} {x : Completion} {q : Question}
    (h : Onward k k') (hx : k.Fits x q) : k'.Fits x q := by
  rcases h.settled hx.opened hx.pending with ⟨hopened, hpending, hversion⟩
  refine ⟨hopened, hpending, hversion.trans hx.version, hx.low, ?_, ?_, ?_,
    hx.same, ?_⟩
  · rw [h.text]
    exact hx.high
  · rw [h.text]
    exact hx.position
  · rw [h.uri, h.question]
    exact hx.asked
  · rw [h.text]
    exact hx.held

theorem owes {k k' : Desk (Accounted τ)} {t : Nat} (h : Onward k k')
    (ht : k'.Owes t) :
    k.Owes t := by
  unfold Owes at *
  rw [h.number] at ht
  exact h.owed.subset ht

end Onward

namespace Timely

variable {named : Prop} {k k' : Desk (Accounted τ)}

theorem wane (hk : Timely named k) (honward : Onward k k')
    (hwanes : Completions.Wanes k.document.completions k'.document.completions)
    (hshown : ∀ t, k'.document.completions.shown = some t →
      k'.document.completions.live = some t)
    (hbare : k'.stage.Bare) : Timely named k' where
  nodup := honward.owed.nodup hk.nodup
  known := by
    intro t ht
    rw [hwanes.size]
    exact hk.known t (honward.owes ht)
  shown := by
    intro t ht
    rcases hk.shown t (hwanes.shown t ht) with ⟨_, howes, x, hx, hcandidates⟩
    rcases hwanes.kept t x hx with ⟨i, hi⟩
    exact ⟨hshown t ht, fun h => howes (honward.owes h), _, hi, hcandidates⟩
  current := by
    intro t hlive hwaits
    have hwaited : k.Owes t ∨ k.document.completions.shown = some t := by
      rcases hwaits with howes | hshown
      · exact Or.inl (honward.owes howes)
      · exact Or.inr (hwanes.shown t hshown)
    rcases hk.current t (hwanes.live t hlive) hwaited with
      ⟨x, q, hx, hfits, hnamed⟩
    rcases hwanes.kept t x hx with ⟨i, hi⟩
    have hsame : k.Fits { x with index := i } q :=
      ⟨hfits.opened, hfits.pending, hfits.version, hfits.low, hfits.high,
        hfits.position, hfits.asked, hfits.same, hfits.held⟩
    exact ⟨_, q, hi, honward.fits hsame, hnamed⟩
  bare := hbare

theorem onward (hk : Timely named k) (honward : Onward k k')
    (hsame : k'.document.completions = k.document.completions)
    (hbare : k'.stage.Bare) :
    Timely named k' := by
  apply hk.wane honward
  · rw [hsame]
    exact Completions.Wanes.refl _
  · rw [hsame]
    exact fun t ht => (hk.shown t ht).1
  · exact hbare

theorem of_idle (hnodup : k.env.link.owed.Nodup)
    (hknown : ∀ t, k.Owes t → t < k.document.completions.all.length)
    (hshown : k.document.completions.shown = none)
    (hlive : ∀ t, k.document.completions.live = some t → ¬ k.Owes t)
    (hghost : k.editor.ghost = none) : Timely named k where
  nodup := hnodup
  known := hknown
  shown := by
    intro t ht
    exact absurd (hshown.symm.trans ht) (by simp)
  current := by
    intro t ht hwaits
    rcases hwaits with howes | ht'
    · exact absurd howes (hlive t ht)
    · exact absurd (hshown.symm.trans ht') (by simp)
  bare := fun _ => hghost

theorem onStage {f : Stage → Stage} (hquiet : ∀ s, Stage.Quiet s (f s))
    (hwanes : ∀ s, Completions.Wanes s.completions (f s).completions)
    (hshown : ∀ t, (f k.stage).completions.shown = some t →
      (f k.stage).completions.live = some t)
    (hbare : ∀ {s : Stage}, s.Bare → (f s).Bare) (hk : Timely named k) :
    Timely named (k.onStage f) :=
  hk.wane (.of_quiet (quiet_onStage hquiet k)) (hwanes k.stage) hshown
    (hbare hk.bare)

theorem finish (outcome : Outcome) (hk : Timely named k) :
    Timely named (k.onStage (Stage.finish outcome)) := by
  apply hk.onStage (Stage.quiet_finish outcome) (Stage.finish_wanes outcome)
  · intro t ht
    exact absurd ((Stage.finish_shown outcome k.stage).symm.trans ht) (by simp)
  · exact Stage.finish_bare outcome

theorem recordEdit (e : Edit) (hnodup : k.env.link.owed.Nodup)
    (hknown : ∀ t, k.Owes t → t < k.document.completions.all.length)
    (hbare : k.stage.Bare)
    (hclosed : k.document.closed = true → k.document.completions.shown = none ∧
      ∀ t, k.document.completions.live = some t → ¬ k.Owes t) :
    Timely named (k.recordEdit e) := by
  cases hopen : k.document.closed with
  | true =>
      rcases hclosed hopen with ⟨hshown, hlive⟩
      rw [recordEdit_closed e hopen]
      exact of_idle hnodup hknown hshown hlive (hbare hshown)
  | false =>
      rcases recordEdit_stage e hopen with ⟨hcompletions, heditor⟩
      have hquiet := quiet_recordEdit e hopen
      have hshown : (k.recordEdit e).document.completions.shown = none := by
        rw [hcompletions]
        exact Stage.finish_shown .canceled k.stage
      apply of_idle
      · rw [hquiet.link]
        exact hnodup
      · intro t ht
        unfold Owes at ht
        rw [hquiet.link, hquiet.number] at ht
        rw [hcompletions]
        show t < (k.stage.finish .canceled).completions.all.length
        rw [(Stage.finish_wanes .canceled k.stage).size]
        exact hknown t ht
      · exact hshown
      · intro t ht
        rw [hcompletions] at ht
        cases ht
      · rw [heditor]
        exact Stage.finish_bare .canceled hbare
          (Stage.finish_shown .canceled k.stage)

theorem invalidate (hk : Timely named k)
    (hshown : k.document.completions.shown = none) :
    Timely named k.invalidate := by
  apply hk.wane (.of_quiet (quiet_completions k _))
    (Completions.wanes_invalidate _)
  · intro t ht
    exact absurd (hshown.symm.trans ht) (by simp)
  · exact hk.bare

theorem tell {n : Notice} (hn : (Event.notice n).isQuiet = true)
    (hk : Timely named k) :
    Timely named (k.tell n) :=
  hk.onward (.of_quiet (quiet_tell hn k)) rfl hk.bare

theorem receive (hk : Timely named k) {ticket : Nat} (message : Json)
    (howes : ¬ k.Owes ticket)
    (hfits : k.document.completions.live = some ticket →
      k.document.completions.shown = none ∧ k.Current named ticket) :
    Timely named (k.receive ticket message) := by
  have honward := Onward.of_quiet (quiet_receive ticket message k)
  have hanswered := receive_answered ticket message k fun h => (hfits h).1
  cases hanswered with
  | ignored hcompletions heditor =>
      apply hk.onward honward hcompletions
      have hbare := hk.bare
      unfold Stage.Bare stage at *
      rwa [hcompletions, heditor]
  | dropped hlive hgone hshown hsize hkept heditor =>
      have hnone := (hfits hlive).1
      apply of_idle (honward.owed.nodup hk.nodup)
      · intro t ht
        rw [hsize]
        exact hk.known t (honward.owes ht)
      · exact hshown.trans hnone
      · intro t ht
        exact absurd (hgone.symm.trans ht) (by simp)
      · rw [heditor]
        exact hk.bare hnone
  | displayed hlive hx hcursor hcandidates hcompletions hcaret hghost hcues =>
      rename_i x candidates
      rcases (hfits hlive).2 with ⟨y, q, hy, hyfits, hynamed⟩
      cases hx.symm.trans hy
      rcases Completions.shown_modify hx hcompletions with
        ⟨hmodified, hsize, hlives, hshown⟩
      have hstays := hlives.trans hlive
      refine ⟨honward.owed.nodup hk.nodup, ?_, ?_, ?_, ?_⟩
      · intro t ht
        rw [hsize]
        exact hk.known t (honward.owes ht)
      · intro t ht
        cases hshown.symm.trans ht
        exact ⟨hstays, fun h => howes (honward.owes h), _, hmodified,
          hcandidates⟩
      · intro t ht _
        cases hstays.symm.trans ht
        have hsame : k.Fits { x with candidates := candidates, index := 0 } q :=
          ⟨hyfits.opened, hyfits.pending, hyfits.version, hyfits.low,
            hyfits.high, hyfits.position, hyfits.asked, hyfits.same,
            hyfits.held⟩
        exact ⟨_, q, hmodified, honward.fits hsame, hynamed⟩
      · intro hnone
        exact absurd (hshown.symm.trans hnone) (by simp)

end Timely

/-!
# Bringing the agent up to date

A copy that is up to date stays as it is.
-/

theorem Onward.announced [Link τ] {k : Desk (Accounted τ)} {ok : Bool}
    {s : Sync} {env : Env (Accounted τ)}
    (h : Sync.Announcement k.editor.text k.document.language k.document.sync
    k.env (ok, s, env)) :
    Onward k (k.withSync s env).renewed := by
  cases h with
  | offline _ =>
      exact ⟨rfl, rfl, rfl, fun ho hp => ⟨ho, hp, rfl⟩, rfl,
        List.Sublist.refl _⟩
  | refused _ hlink =>
      exact ⟨rfl, rfl, rfl, fun ho hp => ⟨ho, hp, rfl⟩,
        lastQuestion_append (by simp [Event.question?]) _,
        by rw [← Accounted.notify_owed hlink]; exact List.Sublist.refl _⟩
  | taken _ hlink =>
      exact ⟨rfl, rfl, rfl, fun _ _ => ⟨rfl, rfl, rfl⟩,
        lastQuestion_append (by simp [Event.question?]) _,
        by rw [← Accounted.notify_owed hlink]; exact List.Sublist.refl _⟩

theorem Onward.keptBySync [Link τ] (k : Desk (Accounted τ)) :
    KeptBySync (Onward k) where
  quiet hquiet h := h.trans (.of_quiet hquiet)
  announced _ _ h honward := honward.trans (announced h)
  delivered hopened h honward := by
    apply honward.trans
    cases h with
    | nothing _ => exact .refl _
    | offline _ _ => exact .of_quiet (quiet_tell rfl _)
    | refused _ _ hlink =>
        exact ⟨rfl, rfl, rfl, fun ho hp => ⟨ho, hp, rfl⟩,
          lastQuestion_append (by simp [Event.question?]) _,
          by rw [← Accounted.notify_owed hlink]; exact List.Sublist.refl _⟩
    | taken hpending _ hlink =>
        exact ⟨rfl, rfl, rfl, fun _ hp => absurd hp hpending,
          lastQuestion_append (by simp [Event.question?]) _,
          by rw [← Accounted.notify_owed hlink]; exact List.Sublist.refl _⟩

/-!
# Asking
-/

/-- Whether the caret is in the text. -/
def InText (e : Editor) : Prop := 0 ≤ e.cursor ∧ e.cursor ≤ e.text.length

instance (e : Editor) : Decidable (InText e) :=
  inferInstanceAs (Decidable (_ ∧ _))

theorem InText.steady {k k' : Desk τ} (h : InText k.editor)
    (hsteady : Steady k k') :
    InText k'.editor := by
  unfold InText at *
  rw [hsteady.cursor, hsteady.text]
  exact h

theorem posed_fits [Link τ] {k : Desk τ} (hfaithful : k.Faithful)
    (hopened : k.document.sync.opened = true)
    (hpending : k.document.sync.pending = []) (hcaret : InText k.editor)
    (kind : TriggerKind) (id : Nat) (link : τ) :
    ((k.posed kind).seeing link [.sent (.request id (k.question kind))]).Fits
      (k.nextCompletion kind)
      ⟨id, (k.nextCompletion kind).position, kind, some k.editor.text⟩ := by
  have hquiet := quiet_posed kind k
  have hheld : mirror k.document.uri k.env.trace = some k.editor.text := by
    have hcopy := hfaithful.copy hopened
    rw [hpending, hfaithful.uri] at hcopy
    rcases Option.bind_eq_some_iff.mp hcopy with ⟨held, hheld, hall⟩
    rw [hheld]
    exact hall
  refine ⟨hquiet.opened.trans hopened, hquiet.pending.trans hpending, rfl,
    hcaret.1, ?_, ?_, ?_, rfl, ?_⟩
  · show k.editor.cursor ≤ (k.posed kind).editor.text.length
    rw [hquiet.text]
    exact hcaret.2
  · show Position.ofOffset k.editor.text k.editor.cursor =
      Position.ofOffset (k.posed kind).editor.text k.editor.cursor
    rw [hquiet.text]
  · have hquestion := lastQuestion_completion k.document.uri id
      (k.nextCompletion kind).position kind (k.posed kind).env.trace
    rw [mirror_quietly k.document.uri hquiet.events, hheld] at hquestion
    exact hquestion
  · exact congrArg some hquiet.text.symm

section Owing

variable {k : Desk (Accounted τ)} {link : Accounted τ}
  (howed : link.owed = k.env.link.owed ∨
    link.owed = k.env.link.owed ++ [.completion k.number k.nextTicket])
include howed

theorem owes_or_next {kind : TriggerKind} {es : List Event} {t : Nat}
    (ht : ((k.posed kind).seeing link es).Owes t) :
    k.Owes t ∨ t = k.nextTicket := by
  change Waiting.completion k.number t ∈ link.owed at ht
  rcases howed with heq | heq
  · rw [heq] at ht
    exact Or.inl ht
  · rw [heq, List.mem_append, List.mem_singleton, Waiting.completion.injEq]
      at ht
    exact ht.imp_right And.right

theorem nodup_owed (hnodup : k.env.link.owed.Nodup)
    (hnew : ¬ k.Owes k.nextTicket) : link.owed.Nodup := by
  rcases howed with heq | heq
  · rw [heq]
    exact hnodup
  · rw [heq, List.nodup_append]
    refine ⟨hnodup, by simp, ?_⟩
    intro x hx y hy hxy
    rw [List.mem_singleton] at hy
    rw [hxy, hy] at hx
    exact hnew hx

end Owing

namespace Timely

variable {named : Prop} {k k' : Desk (Accounted τ)}

theorem posed (hk : Timely named k) (kind : TriggerKind) :
    Timely named (k.posed kind) := by
  have hcleared := hk.finish .superseded
  have hshown := posed_shown kind k
  apply of_idle (k := k.posed kind) hk.nodup
  · intro t ht
    have hknown : t < k.nextTicket := hcleared.known t ht
    rw [posed_size]
    omega
  · exact hshown
  · intro t ht howes
    cases ht
    exact Nat.lt_irrefl _ (hcleared.known _ howes)
  · exact hcleared.bare hshown

theorem asked (hk : Timely named k) {kind : TriggerKind} {link : Accounted τ}
    {es : List Event} {q : Question}
    (hfits : ((k.posed kind).seeing link es).Fits (k.nextCompletion kind) q)
    (howed : link.owed = k.env.link.owed ∨
      link.owed = k.env.link.owed ++ [.completion k.number k.nextTicket]) :
    Timely False ((k.posed kind).seeing link es) := by
  have hposed := hk.posed kind
  have hnew : ¬ k.Owes k.nextTicket :=
    fun h => Nat.lt_irrefl _ ((hk.finish .superseded).known _ h)
  refine ⟨nodup_owed howed hk.nodup hnew, ?_, ?_, ?_, hposed.bare⟩
  · intro t ht
    show t < (k.posed kind).document.completions.all.length
    rw [posed_size]
    rcases owes_or_next howed ht with hold | hticket
    · have hknown : t < k.nextTicket := (hk.finish .superseded).known t hold
      omega
    · omega
  · intro t ht
    exact absurd ((posed_shown kind k).symm.trans ht) (by simp)
  · intro t ht _
    cases ht
    exact ⟨_, q, posed_ticket kind k, hfits, False.elim⟩

theorem name (hk : Timely False k) {ticket id : Nat} {q : Question}
    (hlive : ∀ t, k.document.completions.live = some t → t = ticket)
    (hq : lastQuestion k.document.uri k.env.trace = some q) (hid : q.id = id) :
    Timely True (k.named ticket id) := by
  have hsize : (k.named ticket id).document.completions.all.length =
      k.document.completions.all.length := Completions.length_modify ..
  have hget (x : Completion)
      (hx : k.document.completions.get? ticket = some x) :
      (k.named ticket id).document.completions.get? ticket =
        some { x with id := some id } := Completions.get?_modify_self _ hx
  refine ⟨hk.nodup, ?_, ?_, ?_, hk.bare⟩
  · intro t ht
    rw [hsize]
    exact hk.known t ht
  · intro t ht
    rcases hk.shown t ht with ⟨ht', howes, x, hx, hcandidates⟩
    cases hlive t ht'
    exact ⟨ht', howes, _, hget x hx, hcandidates⟩
  · intro t ht hwaits
    cases hlive t ht
    rcases hk.current _ ht hwaits with ⟨x, q', hx, hfits, _⟩
    cases hq.symm.trans hfits.asked
    have hsame : (k.named ticket id).Fits { x with id := some id } q :=
      ⟨hfits.opened, hfits.pending, hfits.version, hfits.low, hfits.high,
        hfits.position, hfits.asked, hfits.same, hfits.held⟩
    refine ⟨_, q, hget x hx, hsame, fun _ => ?_⟩
    rw [hid]

section Linked

variable [Link τ]

/-- Asking keeps completions timely, however it ends. -/
theorem asking (hk : Timely True k) (hfaithful : k.Faithful)
    (hopened : k.document.sync.opened = true)
    (hpending : k.document.sync.pending = []) (hcaret : InText k.editor)
    {kind : TriggerKind} {r : Except Fault (Option Nat) × Desk (Accounted τ)}
    (hask : Asking kind k r) : Timely True r.2 := by
  have hposed := hk.posed kind
  have hrefused (link : Accounted τ) (refusal : Refusal)
      (hlink : link.owed = k.env.link.owed) :
      Timely True ((k.posed kind).seeing link
        [.refused "textDocument/inlineCompletion" true refusal]) := by
    refine hposed.onward ⟨rfl, rfl, rfl, fun ho hp => ⟨ho, hp, rfl⟩,
      lastQuestion_append (by simp [Event.question?]) _, ?_⟩ rfl hposed.bare
    show link.owed.Sublist k.env.link.owed
    exact hlink ▸ List.Sublist.refl _
  cases hask with
  | oneWay hlink =>
      exact hrefused _ _
        (by simpa [Accounted.owing] using Accounted.request_owed hlink)
  | refused hr hlink =>
      rename_i refusal link
      have hseen := hrefused link refusal
        (by simpa [Accounted.owing] using Accounted.request_owed hlink)
      exact (hseen.tell rfl).invalidate (posed_shown kind k)
  | deferred hlink =>
      rename_i id link
      have hfits := posed_fits hfaithful hopened hpending hcaret kind id link
      have howed := Accounted.request_owed hlink
      exact (hk.asked hfits (Or.inr howed)).name (fun t ht => by cases ht; rfl)
        hfits.asked rfl
  | answered hlink =>
      rename_i id message link
      have hfits := posed_fits hfaithful hopened hpending hcaret kind id link
      have howed : link.owed = k.env.link.owed := by
        simpa [Accounted.owing] using Accounted.request_owed hlink
      have hasked := hk.asked hfits (Or.inl howed)
      have hnew : ¬ ((k.posed kind).seeing link
          [.sent (.request id (k.question kind))]).Owes k.nextTicket := by
        intro h
        change Waiting.completion k.number k.nextTicket ∈ link.owed at h
        rw [howed] at h
        exact Nat.lt_irrefl _ ((hk.finish .superseded).known _ h)
      have hreceived := hasked.receive message hnew fun _ =>
        ⟨posed_shown kind k, _, _, posed_ticket kind k, hfits, False.elim⟩
      have hquiet := quiet_receive k.nextTicket message
        ((k.posed kind).seeing link [.sent (.request id (k.question kind))])
      have huri :
          (((k.posed kind).seeing link
            [.sent (.request id (k.question kind))]).receive
          k.nextTicket message).document.uri = k.document.uri := hquiet.uri
      have hquestion :=
        (lastQuestion_quietly k.document.uri hquiet.events).trans hfits.asked
      rw [← huri] at hquestion
      refine hreceived.name ?_ hquestion rfl
      intro t ht
      have hanswered := receive_answered k.nextTicket message
        ((k.posed kind).seeing link [.sent (.request id (k.question kind))])
        fun _ => posed_shown kind k
      cases hanswered.live ht
      rfl

end Linked
end Timely

/-!
# Honest desks

A desk is honest if the agent's copy is faithful and the completions are timely.
-/

structure Honest (k : Desk (Accounted τ)) : Prop where
  faithful : k.Faithful
  timely : k.Timely True

namespace Honest

variable {k k' : Desk (Accounted τ)}

theorem quiet (hk : k.Honest) (h : Quiet k k')
    (hsame : k'.document.completions = k.document.completions)
    (hbare : k'.stage.Bare) :
    k'.Honest :=
  ⟨hk.faithful.quiet h, hk.timely.onward (.of_quiet h) hsame hbare⟩

theorem accept_within (hk : k.Honest) {e : Edit}
    (h : k.stage.accept.1 = .ok (some e)) :
    e.Within k.editor.text := by
  rcases Stage.accept_edit h with ⟨x, c, hx, he⟩
  change k.document.completions.shownOne? = some x at hx
  rcases Option.bind_eq_some_iff.mp hx with ⟨t, ht, hget⟩
  have hlive := (hk.timely.shown t ht).1
  rcases hk.timely.current t hlive (Or.inr ht) with ⟨y, q, hy, hfits, _⟩
  cases hget.symm.trans hy
  change e = Completions.editOf k.editor.text x.anchor c at he
  rw [he]
  exact Completions.editOf_within fun _ => ⟨hfits.low, hfits.high⟩

theorem idle_of_closed (hk : k.Honest) (hclosed : k.document.closed = true) :
    k.document.completions.shown = none ∧
      ∀ t, k.document.completions.live = some t → ¬ k.Owes t := by
  have hnone (t : Nat) (hlive : k.document.completions.live = some t) :
      ¬ (k.Owes t ∨ k.document.completions.shown = some t) := by
    intro hwaits
    rcases hk.timely.current t hlive hwaits with ⟨x, q, _, hfits, _⟩
    exact absurd ((hk.faithful.closed hclosed).symm.trans hfits.opened)
      Bool.false_ne_true
  constructor
  · cases hshown : k.document.completions.shown with
    | none => rfl
    | some t =>
        exact absurd (Or.inr hshown) (hnone t (hk.timely.shown t hshown).1)
  · intro t hlive howes
    exact hnone t hlive (Or.inl howes)

theorem edit (hk : k.Honest) {f : Editor → Option Edit × Editor}
    (hreported : ∀ e : Editor, e.Reported (f e))
    (hview : ∀ e : Editor, e.SameView (f e).2)
    (hwithin : ∀ e, (f k.editor).1 = some e → e.Within k.editor.text) :
    (k.edit f).Honest := by
  refine ⟨hk.faithful.edit hreported hwithin, ?_⟩
  have htext := hreported k.editor
  have hghost : (f k.editor).2.ghost = k.editor.ghost := (hview k.editor).1
  unfold Editor.Reported at htext
  unfold Desk.edit
  cases hedit : (f k.editor).1 with
  | none =>
      rw [hedit] at htext
      have honward : Onward k { k with editor := (f k.editor).2 } :=
        ⟨rfl, rfl, htext, fun ho hp => ⟨ho, hp, rfl⟩, rfl, List.Sublist.refl _⟩
      exact hk.timely.onward honward rfl fun hshown =>
        hghost.trans (hk.timely.bare hshown)
  | some e =>
      exact Timely.recordEdit e hk.timely.nodup hk.timely.known
        (fun hshown => hghost.trans (hk.timely.bare hshown)) hk.idle_of_closed

theorem moveCursor (hk : k.Honest) (offset : Int) :
    (k.onEditor (Editor.moveCursor offset)).Honest :=
  hk.quiet (quiet_moveCursor offset k) rfl
    (Stage.moveCursor_bare offset hk.timely.bare)

theorem select (hk : k.Honest) (anchor position : Int) :
    (k.onEditor fun e => (e.select anchor position, [])).Honest := by
  have hghost : (k.editor.select anchor position).ghost = k.editor.ghost := by
    unfold Editor.select
    cases k.editor.caret <;> rfl
  exact hk.quiet (quiet_select anchor position k) rfl
    fun hshown => hghost.trans (hk.timely.bare hshown)

theorem finish (hk : k.Honest) (outcome : Outcome) :
    (k.onStage (Stage.finish outcome)).Honest :=
  ⟨hk.faithful.quiet (quiet_onStage (Stage.quiet_finish outcome) k),
    hk.timely.finish outcome⟩

theorem accept (hk : k.Honest) : k.accept.Honest := by
  have hstaged : (k.withStage k.stage.accept.2).Honest := by
    rcases Stage.accept_stage k.stage with hstage | hstage
    · rw [hstage]
      exact hk
    · rw [hstage]
      exact hk.finish .accepted
  rcases accept_cases k with ⟨haccept, _⟩ | ⟨e, hedit, _, haccept⟩
  · rw [haccept]
    exact hstaged
  · rw [haccept]
    refine (hstaged.edit (Editor.replace_reported e) (Editor.replace_sameView e)
      ?_).moveCursor _
    intro reported hreported
    have hwithin := hk.accept_within hedit
    have htext : k.stage.accept.2.editor.text = k.editor.text :=
      (Stage.quiet_accept k.stage).text
    rw [← htext] at hwithin
    exact Editor.replace_within hwithin hreported

theorem cancel (hk : k.Honest) : (k.runStage Stage.cancel).2.Honest := by
  show (k.withStage k.stage.cancel.2).Honest
  unfold Stage.cancel
  split
  · exact (hk.finish .canceled).moveCursor _
  · exact hk

theorem cycle (hk : k.Honest) (places : Int) :
    (k.runStage (Stage.cycle places)).2.Honest := by
  refine ⟨hk.faithful.quiet
    (quiet_withStage (Stage.quiet_cycle places k.stage)), ?_⟩
  apply hk.timely.wane
    (.of_quiet (quiet_withStage (Stage.quiet_cycle places k.stage)))
      (Stage.cycle_wanes places k.stage)
  · intro t ht
    have hsame := Stage.cycle_shown places k.stage
    exact hsame.2.trans (hk.timely.shown t (hsame.1.symm.trans ht)).1
  · exact Stage.cycle_bare places hk.timely.bare

theorem relinked (hk : k.Honest) (f : Accounted τ → Accounted τ)
    (hf : (f k.env.link).owed.Sublist k.env.link.owed) :
    (k.relinked f).Honest := by
  have honward : Onward k (k.relinked f) :=
    ⟨rfl, rfl, rfl, fun ho hp => ⟨ho, hp, rfl⟩, rfl, hf⟩
  exact ⟨hk.faithful.relinked f, hk.timely.onward honward rfl hk.timely.bare⟩

theorem shown_of_owed {ticket : Nat} (hk : k.Honest)
    (howes : k.Owes ticket)
    (hlive : k.document.completions.live = some ticket) :
    k.document.completions.shown = none := by
  cases hshown : k.document.completions.shown with
  | none => rfl
  | some t =>
      have ht := hk.timely.shown t hshown
      cases ht.1.symm.trans hlive
      exact absurd howes ht.2.1

theorem answer (hk : k.Honest) {ticket : Nat} (message : Json)
    (note : Accounted τ → Accounted τ) (howes : k.Owes ticket)
    (hnote : (note k.env.link).owed =
    k.env.link.owed.erase (.completion k.number ticket)) :
    ((k.relinked note).receive ticket message).Honest := by
  have hsettled := hk.relinked note (by rw [hnote]; exact List.erase_sublist)
  have hgone : ¬ (k.relinked note).Owes ticket := by
    show Waiting.completion k.number ticket ∉ (note k.env.link).owed
    rw [hnote]
    exact hk.timely.nodup.not_mem_erase
  refine ⟨hsettled.faithful.quiet (quiet_receive ticket message _),
    hsettled.timely.receive message hgone ?_⟩
  intro hlive
  constructor
  · exact hk.shown_of_owed howes hlive
  · rcases hk.timely.current ticket hlive (Or.inl howes) with
      ⟨x, q, hx, hfits, hnamed⟩
    have howed : (k.relinked note).env.link.owed.Sublist k.env.link.owed := by
      show (note k.env.link).owed.Sublist k.env.link.owed
      rw [hnote]
      exact List.erase_sublist
    have honward : Onward k (k.relinked note) :=
      ⟨rfl, rfl, rfl, fun ho hp => ⟨ho, hp, rfl⟩, rfl, howed⟩
    exact ⟨x, q, hx, honward.fits hfits, hnamed⟩

theorem tellFault {α : Type} {r : Except Fault α × Desk (Accounted τ)}
    (hr : r.2.Honest) :
    (tellFault r).Honest := by
  unfold Desk.tellFault
  cases r.1 with
  | error f => exact ⟨hr.faithful.quiet (quiet_tell rfl _), hr.timely.tell rfl⟩
  | ok _ => exact hr

section Linked

variable [Link τ]

theorem openCopy (hk : k.Honest) : k.openCopy.2.Honest := by
  rcases openCopy_frame k with ⟨hcompletions, heditor⟩
  have honward :=
    (Onward.keptBySync k).openCopy (fun _ h => .announced h) (.refl k)
  refine ⟨Faithful.kept.openCopy hk.faithful,
    hk.timely.onward honward hcompletions ?_⟩
  have hbare := hk.timely.bare
  unfold Stage.Bare stage at *
  rwa [hcompletions, heditor]

theorem flushing (hk : k.Honest) {r : Bool × Desk (Accounted τ)}
    (h : Flushing k r) :
    r.2.Honest := by
  rcases h.frame with ⟨hcompletions, heditor⟩
  refine ⟨Faithful.kept.flushing h hk.faithful,
    hk.timely.onward ((Onward.keptBySync k).flushing h (.refl k)) hcompletions
    ?_⟩
  have hbare := hk.timely.bare
  unfold Stage.Bare stage at *
  rwa [hcompletions, heditor]

theorem requesting (hk : k.Honest) (hcaret : InText k.editor)
    (h : Requesting k k') :
    k'.Honest := by
  refine ⟨Faithful.kept.requesting h hk.faithful, ?_⟩
  cases h with
  | closed _ => exact hk.timely
  | offline _ => exact hk.timely.tell rfl
  | unsynced hflush => exact (hk.flushing hflush).timely.tell rfl
  | unknown hflush => exact (hk.flushing hflush).timely
  | asked hconnected hflush hask =>
      rename_i kind k₁ r
      have hflushed := hk.flushing hflush
      have heditor : k₁.editor = k.editor := hflush.frame.2
      exact hflushed.timely.asking hflushed.faithful hflush.opened.1
        hflush.opened.2 (by rw [heditor]; exact hcaret) hask

theorem close (hk : k.Honest) : k.close.Honest := by
  refine ⟨Faithful.kept.close hk.faithful, ?_⟩
  have hshown : k.close.document.completions.shown = none :=
    Stage.finish_shown .superseded k.stage
  have howed : k.close.env.link.owed = k.env.link.owed :=
    (Sync.closing k.document.sync _).owed
  apply Timely.of_idle
  · rw [howed]
    exact hk.timely.nodup
  · intro t ht
    unfold Owes at ht
    rw [howed] at ht
    show t < (k.stage.finish .superseded).completions.all.length
    rw [(Stage.finish_wanes .superseded k.stage).size]
    exact hk.timely.known t ht
  · exact hshown
  · intro t ht
    cases ht
  · exact Stage.finish_bare .superseded hk.timely.bare
      (Stage.finish_shown .superseded k.stage)

theorem ringFlush (hk : k.Honest) (a : Alarm) : (k.ringFlush a).Honest := by
  have hquiet :=
    ((quiet_atTime a.due k).trans (quiet_unschedule _)).trans
    (quiet_fired a.due _)
  exact (hk.quiet hquiet rfl hk.timely.bare).flushing (Desk.flushing _)

theorem ringTrigger (hk : k.Honest) (hcaret : InText k.editor) (a : Alarm) :
    (k.ringTrigger a).Honest := by
  have hquiet :=
    ((quiet_atTime a.due k).trans
      (quiet_trigger _ k.document.trigger.cancel)).trans
    (quiet_fired a.due _)
  have hrequested :=
    (hk.quiet hquiet rfl hk.timely.bare).requesting (by exact hcaret)
    (request_requesting .automatic _)
  exact hrequested.tellFault

theorem advance (hk : k.Honest) (hcaret : InText k.editor)
    (milliseconds : Int) :
    (k.advance milliseconds).Honest := by
  have hrung :
      (Alarm.ring alarms ring (k.env.clock.now + milliseconds) k.alarms.length
        k).Honest ∧
        InText
          (Alarm.ring alarms ring (k.env.clock.now + milliseconds)
            k.alarms.length k).editor := by
    refine Alarm.ring_keeps
      (P := fun k : Desk (Accounted τ) => k.Honest ∧ InText k.editor) ?_ _
        ⟨hk, hcaret⟩
    intro k bell a ⟨hk, hcaret⟩
    cases bell with
    | flush _ => exact ⟨hk.ringFlush a, hcaret.steady (Steady.ringFlush a k)⟩
    | trigger _ =>
        exact ⟨hk.ringTrigger hcaret a, hcaret.steady (Steady.ringTrigger a k)⟩
  exact hrung.1.quiet (quiet_atTime _ _) rfl hrung.1.timely.bare

end Linked
end Honest

/-!
# Runs

Edits lie in the text, the caret is in the text whenever something happens, and
each answer is given at most once.
-/

/-- Whether an action keeps to what editors and links promise. -/
def Permits (k : Desk (Accounted τ)) : Action (Accounted τ) → Prop
  | .edit g => ∀ e, (g.run k.editor).1 = some e → e.Within k.editor.text
  | .answer ticket _ note =>
      k.Owes ticket ∧
        (note k.env.link).owed =
          k.env.link.owed.erase (.completion k.number ticket)
  | .disturb f => (f k.env.link).owed.Sublist k.env.link.owed
  | _ => True

theorem Honest.perform [Link τ] {k : Desk (Accounted τ)}
    {a : Action (Accounted τ)} (hk : k.Honest) (hcaret : InText k.editor)
    (ha : k.Permits a) : (k.perform a).Honest := by
  cases a with
  | edit g => exact hk.edit g.run_reported g.run_sameView ha
  | moveCursor offset => exact hk.moveCursor offset
  | select anchor position => exact hk.select anchor position
  | openCopy => exact hk.openCopy
  | close => exact hk.close
  | flush => exact hk.flushing (Desk.flushing k)
  | trigger =>
      have hcanceled : (k.withTrigger k.document.trigger.cancel).Honest :=
        hk.quiet (quiet_trigger k _) rfl hk.timely.bare
      exact hcanceled.requesting hcaret (request_requesting .invoked _)
  | request reason =>
      exact hk.requesting hcaret (requestFor_requesting reason k)
  | accept => exact hk.accept
  | cancel => exact hk.cancel
  | cycle places => exact hk.cycle places
  | supersede => exact hk.finish .superseded
  | answer ticket message note => exact hk.answer message note ha.1 ha.2
  | flushAlarm a => exact hk.ringFlush a
  | triggerAlarm a => exact hk.ringTrigger hcaret a
  | elapse milliseconds => exact hk.advance hcaret milliseconds
  | disturb f => exact hk.relinked f ha

end Desk

namespace Workspace

variable {τ : Type}

/-- Whether an action keeps to what editors and links promise, with the caret in
the text. -/
def Orderly (w : Workspace (Accounted τ)) (a : Action (Accounted τ)) : Prop :=
  ∀ k ∈ w.desk? 0, Desk.InText k.editor ∧ k.Permits a

variable [Link τ]

theorem Reachable.honest {start w : Workspace (Accounted τ)}
    (hstart : start.Starts) (howed : start.env.link.owed = [])
    (h : Reachable Orderly start w) :
    ∃ k, Hosts w k ∧ k.Honest := by
  induction h with
  | start =>
      rcases hstart.hosts with ⟨k, hhosts, hfresh⟩
      have hnone : k.env.link.owed = [] := by
        rw [← hhosts.env]
        exact howed
      have hnobody (t : Nat) : ¬ k.Owes t := by
        unfold Desk.Owes
        rw [hnone]
        exact List.not_mem_nil
      refine ⟨k, hhosts, .of_unopened hfresh.uri hfresh.opened,
        .of_idle ?_ ?_ ?_ ?_ hfresh.ghost⟩
      · rw [hnone]
        exact List.nodup_nil
      · intro t ht
        exact absurd ht (hnobody t)
      · rw [hfresh.completions]
        rfl
      · intro t _
        exact hnobody t
  | step _ ha ih =>
      rename_i w a _
      rcases ih with ⟨k, hhosts, hk⟩
      rcases ha k hhosts.desk? with ⟨hcaret, hpermits⟩
      exact ⟨k.perform a, hhosts.perform a, hk.perform hcaret hpermits⟩

/-- Whatever ghost text is shown belongs to the completion that was asked for
last; the text and the version are those that it was asked for with, and the
caret was at its anchor when it came to be shown. -/
theorem shown_is_current {start w : Workspace (Accounted τ)}
    (hstart : start.Starts) (howed : start.env.link.owed = [])
    (h : Reachable Orderly start w) :
    ∃ d e, w.documents[0]? = some d ∧ w.editors[0]? = some e ∧
      (e.ghost ≠ none → d.completions.shown ≠ none) ∧
      (∀ t, d.completions.shown = some t →
        d.completions.live = some t ∧
          ∃ x q, d.completions.get? t = some x ∧
            lastQuestion d.uri w.env.trace = some q ∧
            x.id = some (q.id : Int) ∧ q.position = x.position ∧
              x.candidates ≠ [] ∧
            d.sync.version = x.version ∧ d.sync.pending = [] ∧
              q.held = some e.text ∧
            (Position.toOffset e.text x.position : Int) = x.anchor) ∧
      ∀ a, Orderly w a → ∀ d' e' t, (w.perform a).documents[0]? = some d' →
        (w.perform a).editors[0]? = some e' → d'.completions.shown = some t →
        d.completions.shown = some t ∨
          ∃ x, d'.completions.get? t = some x ∧ e'.cursor = x.anchor := by
  rcases h.honest hstart howed with ⟨k, hhosts, hk⟩
  refine ⟨k.document, k.editor, by rw [hhosts.documents]; rfl,
    by rw [hhosts.editors]; rfl, ?_, ?_, ?_⟩
  · intro hghost hshown
    exact hghost (hk.timely.bare hshown)
  · intro t ht
    rcases hk.timely.shown t ht with ⟨hlive, _, y, hy, hcandidates⟩
    rcases hk.timely.current t hlive (Or.inr ht) with ⟨x, q, hx, hfits, hnamed⟩
    cases hy.symm.trans hx
    have hanchor :
        (Position.toOffset k.editor.text y.position : Int) = y.anchor := by
      have hlow := hfits.low
      have hhigh := hfits.high
      have hround :=
        Position.toOffset_ofOffset (t := k.editor.text) (o := y.anchor.toNat)
          (by omega)
      rw [Int.toNat_of_nonneg hlow] at hround
      rw [hfits.position, hround]
      omega
    rw [hhosts.env]
    exact ⟨hlive, y, q, hx, hfits.asked, hnamed trivial, hfits.same,
      hcandidates, hfits.version, hfits.pending, hfits.held, hanchor⟩
  · intro a ha d' e' t hd he ht
    have hperformed := hhosts.perform a
    rw [hperformed.documents] at hd
    rw [hperformed.editors] at he
    cases hd
    cases he
    refine Desk.perform_shown ?_ ht
    intro ticket message note heq hlive
    subst heq
    exact hk.shown_of_owed (ha k hhosts.desk?).2.1 hlive

def oneCandidate (text : String) : Json :=
  .obj [("result", .arr [.obj [("insertText", .str text)]])]

def settle (ticket : Nat) (text : String) : Action (Accounted Scripted) :=
  .answer ticket (oneCandidate text) fun a =>
    { a with owed := a.owed.erase (.completion 0 ticket) }

/-- Two completions were asked for, with an edit in between, and are answered in
the other order. -/
def crossed : Workspace (Accounted Scripted) :=
  ((((((sample ⟨⟨true, false, false, none, [], false⟩, []⟩).perform
    .openCopy).perform .trigger).perform (.edit (.type ['d', '\n']))).perform
      .trigger).perform
    (settle 1 "new")).perform (settle 0 "old")

theorem shown_is_current_crossed :
    ∃ d e, crossed.documents[0]? = some d ∧ crossed.editors[0]? = some e ∧
      ∃ x q, d.completions.get? 1 = some x ∧ d.completions.shown = some 1 ∧
        lastQuestion d.uri crossed.env.trace = some q ∧ q.held = some e.text ∧
        (Position.toOffset e.text x.position : Int) = x.anchor := by
  have hrun :
      Reachable Orderly (sample ⟨⟨true, false, false, none, [], false⟩, []⟩)
        crossed := by
    refine .step
      (.step (.step (.step (.step (.step .start ?_) ?_) ?_) ?_) ?_) ?_
    · intro k hk
      cases hk
      exact ⟨by decide, trivial⟩
    · intro k hk
      cases hk
      exact ⟨by decide, trivial⟩
    · intro k hk
      cases hk
      refine ⟨by decide, ?_⟩
      intro e he
      cases he
      decide
    · intro k hk
      cases hk
      exact ⟨by decide, trivial⟩
    · intro k hk
      cases hk
      exact ⟨by decide, by decide, rfl⟩
    · intro k hk
      cases hk
      exact ⟨by decide, by decide, rfl⟩
  rcases shown_is_current (sample_starts _) rfl hrun with
    ⟨d, e, hd, he, _, hshown, _⟩
  have ht : d.completions.shown = some 1 := by
    cases hd
    rfl
  rcases hshown 1 ht with ⟨_, x, q, hx, hq, _, _, _, _, _, hheld, hanchor⟩
  exact ⟨d, e, hd, he, x, q, hx, ht, hq, hheld, hanchor⟩

end Workspace
end InlineCompletion
