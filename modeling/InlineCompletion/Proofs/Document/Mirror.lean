import InlineCompletion.Proofs.Document.Run
import InlineCompletion.Proofs.Text.Position
import InlineCompletion.Agent.Scripted

/-!
# The agent's copy of the text

An agent that follows the protocol keeps a text for each document: opening sets
it, each batch of changes is applied to it one change after the other, and
closing drops it.  The main statement is that as long as a document is open on
the agent, the changes that were not sent yet turn the agent's text into that of
the editor, whatever was refused, sent again or opened again in between; and
that the agent's text is the editor's as soon as the agent is said to be up to
date.
-/

namespace InlineCompletion

/-!
# Changes applied by the protocol's rule
-/

namespace Change

def patch? (c : Change) (t : Text) : Option Text :=
  match c.range with
  | none => some c.text
  | some r =>
      match Position.find? t r.start, Position.find? t r.stop with
      | some start, some stop =>
          if start ≤ stop then some (t.take start ++ c.text ++ t.drop stop)
          else none
      | _, _ => none

/-- A text behind changes, each of which is one of the text behind those before
it. -/
def patchAll? : List Change → Text → Option Text
  | [], t => some t
  | c :: rest, t => (c.patch? t).bind (patchAll? rest)

theorem patchAll?_append (cs ds : List Change) (t : Text) :
    patchAll? (cs ++ ds) t = (patchAll? cs t).bind (patchAll? ds) := by
  induction cs generalizing t with
  | nil => rfl
  | cons c rest ih =>
      rw [List.cons_append, patchAll?, patchAll?]
      cases c.patch? t with
      | none => rfl
      | some t' => exact ih t'

def ofEdit (t : Text) (e : Edit) : Change :=
  ⟨some ⟨Position.ofOffset t e.start, Position.ofOffset t e.stop⟩, e.inserted⟩

/-- The change that stands for an edit does what the edit does. -/
theorem patch?_ofEdit {t : Text} {e : Edit} (h : e.Within t) :
    (ofEdit t e).patch? t = some (e.apply t) := by
  rcases h.exists_natCast with ⟨start, stop, horder, hlength, he⟩
  rw [he, Edit.apply_natCast]
  simp only [ofEdit, patch?]
  rw [Position.find?_ofOffset (by omega), Position.find?_ofOffset hlength]
  simp only [if_pos horder]

end Change

/-!
# What the agent holds
-/

def Event.mirrored (uri : Text) (held : Option Text) : Event → Option Text
  | .sent (.notification (.didOpen u _ _ text)) =>
      if u = uri then some text else held
  | .sent (.notification (.didChange u _ changes)) =>
      if u = uri then held.bind (Change.patchAll? changes) else held
  | .sent (.notification (.didClose u)) => if u = uri then none else held
  | _ => held

/-- The text that the agent holds of a document behind events. -/
def mirror (uri : Text) (es : List Event) : Option Text :=
  es.foldl (Event.mirrored uri) none

theorem mirror_append (uri : Text) (es es' : List Event) :
    mirror uri (es ++ es') =
      es'.foldl (Event.mirrored uri) (mirror uri es) := by
  unfold mirror
  rw [List.foldl_append]

theorem Event.mirrored_quiet (uri : Text) (held : Option Text) {e : Event}
    (h : e.isQuiet = true) : e.mirrored uri held = held := by
  cases e with
  | sent m => cases h
  | _ => rfl

theorem mirror_quietly {es es' : List Event} (uri : Text) (h : Quietly es es') :
    mirror uri es' = mirror uri es := by
  rcases h with ⟨more, heq, hmore⟩
  rw [heq, mirror_append]
  generalize mirror uri es = held
  clear heq
  induction more with
  | nil => rfl
  | cons e rest ih =>
      rw [List.foldl_cons,
        Event.mirrored_quiet uri held (hmore e List.mem_cons_self)]
      exact ih fun d hd => hmore d (List.mem_cons_of_mem e hd)

theorem mirror_didOpen (uri : Text) (language : String) (version : Nat)
    (text : Text) (es : List Event) :
    mirror uri
      (es ++ [.sent (.notification (.didOpen uri language version text))]) =
        some text := by
  simp [mirror_append, Event.mirrored]

theorem mirror_didChange (uri : Text) (version : Nat) (changes : List Change)
    (es : List Event) :
    mirror uri
      (es ++ [.sent (.notification (.didChange uri version changes))]) =
        (mirror uri es).bind (Change.patchAll? changes) := by
  simp [mirror_append, Event.mirrored]

theorem mirror_refused (uri : Text) (method : String) (request : Bool)
    (r : Refusal) (n : Notice) (es : List Event) :
    mirror uri (es ++ [.refused method request r, .notice n]) =
      mirror uri es := by
  simp [mirror_append, Event.mirrored]

/-!
# Faithful copies

The invariant of a desk: an open document knows the editor's text, and the agent
holds a text that the changes not sent yet turn into it.
-/

/-- Whether the changes not sent yet turn what the agent holds into the text of
the editor. -/
structure Desk.Faithful {τ : Type} (k : Desk τ) : Prop where
  uri : k.document.sync.uri = k.document.uri
  closed : k.document.closed = true → k.document.sync.opened = false
  snapshot : k.document.sync.opened = true → k.document.snapshot = k.editor.text
  copy : k.document.sync.opened = true →
    (mirror k.document.sync.uri k.env.trace).bind
      (Change.patchAll? k.document.sync.pending) = some k.editor.text

namespace Desk
namespace Faithful

variable {τ : Type}

theorem quiet {k k' : Desk τ} (h : Quiet k k') (hk : k.Faithful) :
    k'.Faithful where
  uri := by
    rw [h.uri, h.syncUri]
    exact hk.uri
  closed := by
    rw [h.closed, h.opened]
    exact hk.closed
  snapshot := by
    rw [h.opened, h.snapshot, h.text]
    exact hk.snapshot
  copy := by
    rw [h.opened, h.syncUri, h.pending, h.text, mirror_quietly _ h.events]
    exact hk.copy

theorem of_unopened {k : Desk τ} (huri : k.document.sync.uri = k.document.uri)
    (hopened : k.document.sync.opened = false) : k.Faithful := by
  refine ⟨huri, fun _ => hopened, ?_, ?_⟩
  · intro h
    exact absurd (hopened.symm.trans h) Bool.false_ne_true
  · intro h
    exact absurd (hopened.symm.trans h) Bool.false_ne_true

theorem renewed {k : Desk τ} {s : Sync} {env : Env τ} (hk : k.Faithful)
    (hopened : s.opened = k.document.sync.opened)
    (huri : s.uri = k.document.sync.uri)
    (hpending : s.pending = k.document.sync.pending)
    (hmirror : mirror s.uri env.trace = mirror s.uri k.env.trace) :
    (k.withSync s env).renewed.Faithful where
  uri := huri.trans hk.uri
  closed := by
    intro hclosed
    exact hopened.trans (hk.closed hclosed)
  snapshot := by
    intro _
    rfl
  copy := by
    intro hs
    show (mirror s.uri env.trace).bind (Change.patchAll? s.pending) =
      some k.editor.text
    rw [hmirror, huri, hpending]
    exact hk.copy (hopened.symm.trans hs)

theorem announced [Link τ] {k : Desk τ} {ok : Bool} {s : Sync} {env : Env τ}
    (hclosed : k.document.closed = false)
    (h : Sync.Announcement k.editor.text k.document.language k.document.sync
    k.env (ok, s, env))
      (hk : k.Faithful) : (k.withSync s env).renewed.Faithful := by
  cases h with
  | offline _ => exact hk.renewed rfl rfl rfl rfl
  | refused _ _ => exact hk.renewed rfl rfl rfl (mirror_refused _ _ _ _ _ _)
  | taken _ _ =>
      refine ⟨hk.uri, ?_, ?_, ?_⟩
      · intro hclosed'
        exact absurd (hclosed.symm.trans hclosed') Bool.false_ne_true
      · intro _
        rfl
      · intro _
        show (mirror k.document.sync.uri (k.env.trace ++ _)).bind
          (Change.patchAll? []) = _
        rw [mirror_didOpen]
        rfl

theorem delivered [Link τ] {k : Desk τ} {ok : Bool} {s : Sync} {env : Env τ}
    (hopened : k.document.sync.opened = true)
    (h : Sync.Delivery k.document.sync k.env (ok, s, env)) (hk : k.Faithful) :
    (k.withSync s env).Faithful := by
  cases h with
  | nothing _ => exact hk
  | offline _ _ => exact hk.quiet (quiet_tell rfl k)
  | refused _ _ _ =>
      refine ⟨hk.uri, hk.closed, hk.snapshot, ?_⟩
      intro _
      show (mirror k.document.sync.uri (k.env.trace ++ _)).bind
        (Change.patchAll? k.document.sync.pending) = _
      rw [mirror_refused]
      exact hk.copy hopened
  | taken _ _ _ =>
      refine ⟨hk.uri, hk.closed, hk.snapshot, ?_⟩
      intro _
      show (mirror k.document.sync.uri (k.env.trace ++ _)).bind
        (Change.patchAll? []) = _
      rw [mirror_didChange, hk.copy hopened]
      rfl

theorem closing [Link τ] {k : Desk τ} {s : Sync} {env : Env τ}
    (h : Sync.Closing k.document.sync k.env (s, env)) (hk : k.Faithful) :
    (k.withSync s env).ended.Faithful := by
  cases h with
  | unsaid _ => exact of_unopened hk.uri rfl
  | refused _ _ _ => exact of_unopened hk.uri rfl
  | taken _ _ _ => exact of_unopened hk.uri rfl

theorem seeing {k : Desk τ} {link : τ} {e : Event}
    (he : ∀ uri held, e.mirrored uri held = held) (hk : k.Faithful) :
    (k.seeing link [e]).Faithful := by
  refine ⟨hk.uri, hk.closed, hk.snapshot, ?_⟩
  intro hopened
  show (mirror k.document.sync.uri (k.env.trace ++ [e])).bind
    (Change.patchAll? k.document.sync.pending) = _
  rw [mirror_append, List.foldl_cons, List.foldl_nil, he]
  exact hk.copy hopened

theorem kept [Link τ] : Kept (Faithful (τ := τ)) where
  quiet h hk := hk.quiet h
  announced hclosed _ h hk := hk.announced hclosed h
  reannounced hclosed _ h hk := hk.announced hclosed h
  delivered hopened h hk := hk.delivered hopened h
  closing h hk := hk.closing h
  asked _ _ _ _ hk := hk.seeing fun _ _ => rfl
  unasked _ hk := hk.seeing fun _ _ => rfl

theorem edit {k : Desk τ} {f : Editor → Option Edit × Editor}
    (hreported : ∀ e : Editor, e.Reported (f e))
    (hwithin : ∀ e, (f k.editor).1 = some e → e.Within k.editor.text)
    (hk : k.Faithful) :
    (k.edit f).Faithful := by
  have htext := hreported k.editor
  unfold Editor.Reported at htext
  unfold Desk.edit
  cases hedit : (f k.editor).1 with
  | none =>
      rw [hedit] at htext
      refine ⟨hk.uri, hk.closed, ?_, ?_⟩
      · intro hopened
        exact (hk.snapshot hopened).trans htext.symm
      · intro hopened
        exact (hk.copy hopened).trans (congrArg some htext.symm)
  | some e =>
      rw [hedit] at htext
      cases hclosed : k.document.closed with
      | true =>
          dsimp only
          rw [recordEdit_closed e (by exact hclosed)]
          exact of_unopened hk.uri (hk.closed hclosed)
      | false =>
          refine quiet (quiet_recordEdit e (by exact hclosed))
            ⟨hk.uri, hk.closed, ?_, ?_⟩
          · intro hopened
            show e.apply k.document.snapshot = (f k.editor).2.text
            rw [hk.snapshot hopened]
            exact htext.symm
          · intro hopened
            show (mirror k.document.sync.uri (k.env.trace ++ [.edited e])).bind
              (Change.patchAll? (k.document.sync.pending ++
                [Change.ofEdit k.document.snapshot e])) =
                some (f k.editor).2.text
            have hcopy := hk.copy hopened
            rw [mirror_append, List.foldl_cons, List.foldl_nil,
              Event.mirrored_quiet _ _ rfl, hk.snapshot hopened]
            rcases Option.bind_eq_some_iff.mp hcopy with ⟨held, hheld, hpending⟩
            rw [hheld, Option.bind_some, Change.patchAll?_append, hpending,
              Option.bind_some, Change.patchAll?,
              Change.patch?_ofEdit (hwithin e hedit), htext]
            rfl

theorem relinked {k : Desk τ} (f : τ → τ) (hk : k.Faithful) :
    (k.relinked f).Faithful :=
  ⟨hk.uri, hk.closed, hk.snapshot, hk.copy⟩

/-- Once the agent is said to be up to date it holds the text of the editor. -/
theorem flush [Link τ] {k : Desk τ} (hk : k.Faithful) (hok : k.flush.1 = true) :
    mirror k.document.uri k.flush.2.env.trace = some k.editor.text := by
  have hflushed : Flushing k (true, k.flush.2) := by
    rw [← hok]
    exact Desk.flushing k
  have hfaithful := kept.flush hk
  have huri := ((SameSeat.kept k).flush (.refl k)).uri
  have htext := (Kept.text k.editor.text).flush (k := k) rfl
  have hcopy := hfaithful.copy hflushed.opened.1
  rw [hflushed.opened.2, hfaithful.uri, huri, htext] at hcopy
  rcases Option.bind_eq_some_iff.mp hcopy with ⟨held, hheld, hall⟩
  rw [hheld]
  exact hall

end Faithful
end Desk

/-!
# Runs

Every edit that a run reports lies in the text before it.
-/

namespace Workspace

variable {τ : Type}

def Careful (w : Workspace τ) (a : Action τ) : Prop :=
  ∀ k ∈ w.desk? 0, ∀ e ∈ k.reports a, e.Within k.editor.text

instance (w : Workspace τ) (a : Action τ) : Decidable (Careful w a) :=
  inferInstanceAs
    (Decidable (∀ k ∈ w.desk? 0, ∀ e ∈ k.reports a, e.Within k.editor.text))

variable [Link τ]

theorem Reachable.faithful {start w : Workspace τ} (hstart : start.Starts)
    (h : Reachable Careful start w) : ∃ k, Hosts w k ∧ k.Faithful := by
  induction h with
  | start =>
      rcases hstart.hosts with ⟨k, hhosts, hfresh⟩
      exact ⟨k, hhosts, .of_unopened hfresh.uri hfresh.opened⟩
  | step _ ha ih =>
      rename_i w a _
      rcases ih with ⟨k, hhosts, hk⟩
      have hperform :=
        Desk.Faithful.kept.perform (fun hr _ hwithin hk => hk.edit hr hwithin)
        (fun f hk => hk.relinked f) (ha k hhosts.desk?) hk
      exact ⟨k.perform a, hhosts.perform a, hperform⟩

/-- As long as a document is open on the agent, what the agent holds becomes the
editor's text by the changes not sent yet; and it is the editor's text once the
agent is up to date. -/
theorem mirror_agrees {start w : Workspace τ} (hstart : start.Starts)
    (h : Reachable Careful start w) :
    ∃ d e, w.documents[0]? = some d ∧ w.editors[0]? = some e ∧
      (d.sync.opened = true → d.closed = false →
        (mirror d.uri w.env.trace).bind (Change.patchAll? d.sync.pending) =
          some e.text) ∧
      ((w.flush 0).1 = true →
        mirror d.uri (w.flush 0).2.env.trace = some e.text) := by
  rcases h.faithful hstart with ⟨k, hhosts, hk⟩
  refine ⟨k.document, k.editor, by rw [hhosts.documents]; rfl,
    by rw [hhosts.editors]; rfl, ?_, ?_⟩
  · intro hopened _
    rw [← hk.uri, hhosts.env]
    exact hk.copy hopened
  · unfold Workspace.flush
    rw [hhosts.run_eq]
    intro hok
    change k.flush.1 = true at hok
    show mirror k.document.uri k.flush.2.env.trace = some k.editor.text
    exact hk.flush hok

/-- A document that was opened and edited, whose batch was refused, and that was
edited again. -/
def resumed : Workspace Scripted :=
  ((((((sample ⟨true, false, false, none, [], false⟩).perform .openCopy).perform
    (.edit (.replace ⟨1, 2, ['\n', 'b', '😀']⟩))).perform
    (.disturb fun s => { s with failNotifications := true })).perform
      .flush).perform
    (.edit (.replace ⟨3, 5, []⟩))).perform
      (.disturb fun s => { s with failNotifications := false })

theorem mirror_agrees_resumed :
    mirror ['a', '.', 'c'] (resumed.flush 0).2.env.trace =
      some ['a', '\n', 'b'] := by
  have hrun :
      Reachable Careful (sample ⟨true, false, false, none, [], false⟩)
        resumed :=
    .step (.step
      (.step (.step (.step (.step .start (by decide)) (by decide)) (by decide))
        (by decide)) (by decide)) (by decide)
  rcases mirror_agrees (sample_starts _) hrun with ⟨d, e, hd, he, _, hflushed⟩
  have hdocument : d.uri = ['a', '.', 'c'] := by
    cases hd
    rfl
  have htext : e.text = ['a', '\n', 'b'] := by
    cases he
    rfl
  rw [← hdocument, ← htext]
  exact hflushed rfl

end Workspace
end InlineCompletion
