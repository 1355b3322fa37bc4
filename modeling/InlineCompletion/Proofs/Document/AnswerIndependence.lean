import InlineCompletion.Agent.Connection
import InlineCompletion.Proofs.Document.Caret
import InlineCompletion.Proofs.Document.Freshness
import InlineCompletion.Proofs.Document.Ledger

/-!
# Runs that differ in answers

Two desks are *twins* if they agree in all that the agent's copy of the document
depends on: text, snapshot, copy, and both timers; and the agent was told the
same of it.  They may differ in completions, annotation and caret.  What answers
do leads to a twin, and whatever else happens to both of two twins, accepting
apart, leaves twins.  The main statement is that two runs with the same steps
are twins behind every step, however they were answered.
-/

namespace InlineCompletion

/-!
# Links

A link may keep what it was asked and what waits for answers, as long as nothing
else depends on that.
-/

/-- Whether everything but answers depends on a part of the link alone. -/
structure Governs {τ σ : Type} [Link τ] (core : τ → σ) : Prop where
  connected {l l' : τ} (h : core l' = core l) :
      Link.connected l' = Link.connected l
  notify {l l' : τ} (n : Notification) (h : core l' = core l) :
    (Link.notify n l').1 = (Link.notify n l).1 ∧
      core (Link.notify n l').2 = core (Link.notify n l).2
  request {l l' : τ} (q q' : Request) (waiting waiting' : Option Waiting)
    (h : core l' = core l) :
    core (Link.request q' waiting' l').2 = core (Link.request q waiting l).2

namespace Scripted

def core (s : Scripted) : Bool × Bool × Bool × Bool :=
  (s.isConnected, s.failNotifications, s.failRequests, s.isOneWay)

theorem core_request (q : Request) (waiting : Option Waiting) (s : Scripted) :
    (Link.request q waiting s).2.core = s.core := by
  simp only [Link.request]
  split
  · rfl
  · split
    · rfl
    · rfl

theorem core_governs : Governs core where
  connected h := congrArg Prod.fst h
  notify n h := by
    have hsame := congrArg (·.2.1) h
    simp only [core] at hsame
    simp only [Link.notify, hsame, true_and]
    exact h
  request q q' waiting waiting' h := by
    rw [core_request, core_request]
    exact h

end Scripted

namespace Connection

def core (c : Connection) : Worker × Bool := (c.process, c.initialized)

theorem core_send {c c' : Connection} (h : c'.core = c.core) :
    c'.send.1 = c.send.1 ∧ c'.send.2.core = c.send.2.core := by
  simp only [core, Prod.mk.injEq] at h
  unfold send isRunning
  rw [h.1]
  split
  · exact ⟨rfl, Prod.ext h.1 h.2⟩
  · split
    · exact ⟨rfl, Prod.ext rfl h.2⟩
    · exact ⟨rfl, Prod.ext rfl h.2⟩

theorem core_request (q : Request) (waiting : Option Waiting) (c : Connection) :
    (Link.request q waiting c).2.core = c.send.2.core := by
  have hnumbered :
      ({ c with lastId := c.lastId + 1 } : Connection).core = c.core := rfl
  have hsend := (core_send hnumbered).2
  simp only [Link.request]
  split
  · rename_i hsent
    rw [hsent] at hsend
    exact hsend
  · rename_i hsent
    rw [hsent] at hsend
    exact hsend

theorem core_governs : Governs core where
  connected h := by
    simp only [core, Prod.mk.injEq] at h
    simp only [Link.connected, isRunning, h.1, h.2]
  notify n h := core_send h
  request q q' waiting waiting' h := by
    rw [core_request, core_request]
    exact (core_send h).2

end Connection

/-!
# Surroundings
-/

namespace Env

variable {τ σ : Type}

/-- Whether surroundings differ in answers only: time and link go on alike, and
the agent was told the same. -/
structure Twin (core : τ → σ) (env env' : Env τ) : Prop where
  clock : env'.clock = env.clock
  link : core env'.link = core env.link
  told : env'.trace.filterMap Event.taken? = env.trace.filterMap Event.taken?

namespace Twin

variable {core : τ → σ} {env env' env'' : Env τ}

theorem refl (env : Env τ) : Twin core env env := ⟨rfl, rfl, rfl⟩

theorem symm (h : Twin core env env') : Twin core env' env :=
  ⟨h.clock.symm, h.link.symm, h.told.symm⟩

theorem trans (h : Twin core env env') (h' : Twin core env' env'') :
    Twin core env env'' :=
  ⟨h'.clock.trans h.clock, h'.link.trans h.link, h'.told.trans h.told⟩

theorem emits {es : List Event} (hes : es.filterMap Event.taken? = [])
    (env : Env τ) :
    Twin core env (env.emits es) := by
  refine ⟨rfl, rfl, ?_⟩
  show (env.trace ++ es).filterMap Event.taken? = _
  rw [List.filterMap_append, hes, List.append_nil]

theorem tell (n n' : Notice) (h : Twin core env env') :
    Twin core (env.tell n) (env'.tell n') := by
  have htold (n : Notice) (env : Env τ) : Twin core env (env.tell n) :=
    emits (by rfl) env
  exact ((htold n env).symm.trans h).trans (htold n' env')

variable [Link τ]

theorem connected (hcore : Governs core) (h : Twin core env env') :
    env'.connected = env.connected := hcore.connected h.link

theorem notify (hcore : Governs core) (n : Notification)
    (h : Twin core env env') :
    ∃ r env₁ env₁', env.notify n = (r, env₁) ∧ env'.notify n = (r, env₁') ∧
      Twin core env₁ env₁' := by
  rcases hcore.notify n h.link with ⟨hrefusal, hlink⟩
  unfold Env.notify
  cases htaken : Link.notify n env.link with
  | mk refusal link =>
      cases htaken' : Link.notify n env'.link with
      | mk refusal' link' =>
          rw [htaken, htaken'] at hrefusal hlink
          cases hrefusal
          cases refusal with
          | none =>
              exact ⟨none, _, _, rfl, rfl, h.clock, hlink,
                by simp [emit, h.told]⟩
          | some r =>
              exact ⟨some r, _, _, rfl, rfl, h.clock, hlink,
                by simp [emit, h.told]⟩

end Twin
end Env

/-!
# Copies

What becomes of a copy depends on the part of the link that governs, and not on
the answers.
-/

namespace Sync

variable {τ σ : Type} {core : τ → σ}

def Matches (core : τ → σ) (r r' : Bool × Sync × Env τ) : Prop :=
  ∃ ok s env env', r = (ok, s, env) ∧ r' = (ok, s, env') ∧
    Env.Twin core env env'

section Linked

variable [Link τ] {env env' : Env τ}

theorem announce_matches (hcore : Governs core) (text : Text)
    (language : String) (s : Sync) (h : Env.Twin core env env') :
    Matches core (s.announce text language env)
      (s.announce text language env') := by
  rcases h.notify hcore
    (.didOpen s.unschedule.uri language s.unschedule.version text) with
    ⟨refusal, env₁, env₁', hnotify, hnotify', htwin⟩
  unfold announce
  simp only [h.connected hcore, hnotify, hnotify']
  split
  · exact ⟨_, _, _, _, rfl, rfl, h⟩
  · cases refusal with
    | none => exact ⟨_, _, _, _, rfl, rfl, htwin⟩
    | some r => exact ⟨_, _, _, _, rfl, rfl, htwin.tell _ _⟩

theorem deliver_matches (hcore : Governs core) (s : Sync)
    (h : Env.Twin core env env') :
    Matches core (s.deliver env) (s.deliver env') := by
  rcases h.notify hcore (.didChange s.uri (s.version + 1) s.pending) with
    ⟨refusal, env₁, env₁', hnotify, hnotify', htwin⟩
  unfold deliver
  simp only [h.connected hcore, hnotify, hnotify']
  split
  · exact ⟨_, _, _, _, rfl, rfl, h⟩
  · split
    · exact ⟨_, _, _, _, rfl, rfl, h.tell _ _⟩
    · cases refusal with
      | none => exact ⟨_, _, _, _, rfl, rfl, htwin⟩
      | some r => exact ⟨_, _, _, _, rfl, rfl, htwin.tell _ _⟩

theorem retry_matches (hcore : Governs core) {f f' : Reopening τ} (s : Sync)
    (hf : Matches core (f s env) (f' s env')) (h : Env.Twin core env env') :
    Matches core (s.retry (some f) env) (s.retry (some f') env') := by
  rcases hf with ⟨ok, s₁, env₁, env₁', hr, hr', htwin⟩
  unfold retry
  simp only [h.connected hcore, hr, hr']
  split
  · exact ⟨_, _, _, _, rfl, rfl, h⟩
  · exact ⟨_, _, _, _, rfl, rfl, htwin⟩

theorem flush_matches (hcore : Governs core) {f f' : Reopening τ} (s : Sync)
    (hf : Matches core (f s.unschedule env) (f' s.unschedule env'))
    (h : Env.Twin core env env') :
    Matches core (s.flush (some f) env) (s.flush (some f') env') := by
  rcases retry_matches hcore s.unschedule hf h with
    ⟨ok, s₁, env₁, env₁', hr, hr', htwin⟩
  unfold flush
  simp only [hr, hr']
  split
  · exact deliver_matches hcore s.unschedule h
  · cases ok with
    | true => exact deliver_matches hcore s₁ htwin
    | false => exact ⟨_, _, _, _, rfl, rfl, htwin.tell _ _⟩

theorem close_matches (hcore : Governs core) (s : Sync)
    (h : Env.Twin core env env') :
    (s.close env').1 = (s.close env).1 ∧ Env.Twin core (s.close env).2
    (s.close env').2 := by
  rcases h.notify hcore (.didClose s.unschedule.uri) with
    ⟨refusal, env₁, env₁', hnotify, hnotify', htwin⟩
  unfold close
  simp only [h.connected hcore, hnotify, hnotify']
  split
  · cases refusal with
    | none => exact ⟨rfl, htwin⟩
    | some r => exact ⟨rfl, htwin.tell _ _⟩
  · exact ⟨rfl, h⟩

end Linked

theorem record_matches {env env' : Env τ} (change : Change) (s : Sync)
    (h : Env.Twin core env env') :
    (s.record change env').1 = (s.record change env).1 ∧
      Env.Twin core (s.record change env).2 (s.record change env').2 := by
  simp only [record, schedule, Timer.arm, h.clock, true_and]
  exact ⟨by simp, h.link, h.told⟩

end Sync

/-!
# Edits at offsets

An edit whose offsets are given does the same to two editors of one kind with
the same text, wherever their carets are.
-/

namespace Editor

variable {e e' : Editor}

theorem carets_of_kind (hkind : e'.isWidget = e.isWidget) :
    (∃ offset offset', e.caret = .free offset ∧ e'.caret = .free offset') ∨
      ∃ anchor position anchor' position', e.caret = .units anchor position ∧
        e'.caret = .units anchor' position' := by
  unfold isWidget at hkind
  cases hcaret : e.caret with
  | free offset =>
      cases hcaret' : e'.caret with
      | free offset' => exact Or.inl ⟨offset, offset', rfl, rfl⟩
      | units _ _ => simp [hcaret, hcaret'] at hkind
  | units anchor position =>
      cases hcaret' : e'.caret with
      | free _ => simp [hcaret, hcaret'] at hkind
      | units anchor' position' =>
          exact Or.inr ⟨anchor, position, anchor', position', rfl, rfl⟩

theorem replaceUnits_congr (start stop : Nat) (inserted : Text)
    (htext : e'.text = e.text) (hkind : e'.isWidget = e.isWidget) :
    (e'.replaceUnits start stop inserted).1 =
    (e.replaceUnits start stop inserted).1 ∧
      (e'.replaceUnits start stop inserted).2.text =
        (e.replaceUnits start stop inserted).2.text := by
  unfold replaceUnits
  rcases carets_of_kind hkind with
    ⟨_, _, hcaret, hcaret'⟩ | ⟨_, _, _, _, hcaret, hcaret'⟩
  · rw [hcaret, hcaret']
    exact ⟨rfl, htext⟩
  · rw [hcaret, hcaret']
    dsimp only
    rw [htext]
    split
    · exact ⟨rfl, htext⟩
    · exact ⟨rfl, rfl⟩

theorem replace_congr (edit : Edit) (htext : e'.text = e.text)
    (hkind : e'.isWidget = e.isWidget) :
    (e'.replace edit).1 = (e.replace edit).1 ∧
      (e'.replace edit).2.text = (e.replace edit).2.text := by
  unfold replace
  rcases carets_of_kind hkind with
    ⟨_, _, hcaret, hcaret'⟩ | ⟨_, _, _, _, hcaret, hcaret'⟩
  · rw [hcaret, hcaret']
    exact ⟨rfl, congrArg edit.apply htext⟩
  · rw [hcaret, hcaret']
    dsimp only
    rw [htext]
    exact replaceUnits_congr _ _ edit.inserted htext hkind

theorem become_congr (new : Text) (position removed : Int)
    (htext : e'.text = e.text) (hkind : e'.isWidget = e.isWidget) :
    (e'.become new position removed).1 = (e.become new position removed).1 ∧
      (e'.become new position removed).2.text =
        (e.become new position removed).2.text := by
  unfold become
  rcases carets_of_kind hkind with
    ⟨_, _, hcaret, hcaret'⟩ | ⟨_, _, _, _, hcaret, hcaret'⟩
  · rw [hcaret, hcaret']
    exact ⟨rfl, htext⟩
  · rw [hcaret, hcaret']
    dsimp only
    rw [htext]
    exact ⟨rfl, rfl⟩

end Editor

namespace Editing

/-- Whether the offsets of an edit are given, and not those of caret and
selection. -/
def Placed : Editing → Prop
  | .replace _ => True
  | .type _ => False
  | .selection _ => False
  | .change .. => True

theorem Placed.run_congr {g : Editing} (hg : g.Placed) {e e' : Editor}
    (htext : e'.text = e.text) (hkind : e'.isWidget = e.isWidget) :
    (g.run e').1 = (g.run e).1 ∧ (g.run e').2.text = (g.run e).2.text := by
  cases g with
  | replace edit => exact Editor.replace_congr edit htext hkind
  | type text => exact hg.elim
  | selection text => exact hg.elim
  | change text position removed =>
      exact Editor.become_congr text position removed htext hkind

end Editing

namespace Desk

variable {τ σ : Type}

/-!
# Twins
-/

/-- Whether desks agree in all that the agent's copy of the document depends
on. -/
structure Twin (core : τ → σ) (k k' : Desk τ) : Prop where
  language : k'.document.language = k.document.language
  sync : k'.document.sync = k.document.sync
  trigger : k'.document.trigger = k.document.trigger
  snapshot : k'.document.snapshot = k.document.snapshot
  closed : k'.document.closed = k.document.closed
  text : k'.editor.text = k.editor.text
  kind : k'.editor.isWidget = k.editor.isWidget
  env : Env.Twin core k.env k'.env

namespace Twin

variable {core : τ → σ} {k k' k'' : Desk τ}

theorem refl (k : Desk τ) : Twin core k k :=
  ⟨rfl, rfl, rfl, rfl, rfl, rfl, rfl, .refl _⟩

theorem symm (h : Twin core k k') : Twin core k' k :=
  ⟨h.language.symm, h.sync.symm, h.trigger.symm, h.snapshot.symm, h.closed.symm,
    h.text.symm, h.kind.symm, h.env.symm⟩

theorem trans (h : Twin core k k') (h' : Twin core k' k'') :
    Twin core k k'' where
  language := h'.language.trans h.language
  sync := h'.sync.trans h.sync
  trigger := h'.trigger.trans h.trigger
  snapshot := h'.snapshot.trans h.snapshot
  closed := h'.closed.trans h.closed
  text := h'.text.trans h.text
  kind := h'.kind.trans h.kind
  env := h.env.trans h'.env

theorem both {l l' : Desk τ} (h : Twin core k k') (hl : Twin core k l)
    (hl' : Twin core k' l') :
    Twin core l l' := (hl.symm.trans h).trans hl'

/-!
# What concerns ghost text and caret only
-/

theorem of_stage {s : Stage} (h : Stage.Quiet k.stage s)
    (hkind : s.editor.isWidget = k.editor.isWidget) :
    Twin core k (k.withStage s) :=
  ⟨rfl, rfl, rfl, rfl, rfl, h.text, hkind, rfl, rfl, h.events.taken⟩

theorem emit {e : Event} (he : e.taken? = none) (k : Desk τ) :
    Twin core k (k.emit e) :=
  ⟨rfl, rfl, rfl, rfl, rfl, rfl, rfl, .emits (by simpa using he) k.env⟩

theorem tell (n : Notice) (k : Desk τ) : Twin core k (k.tell n) := emit rfl k

theorem invalidate (k : Desk τ) : Twin core k k.invalidate :=
  ⟨rfl, rfl, rfl, rfl, rfl, rfl, rfl, .refl _⟩

theorem named (ticket : Nat) (id : Int) (k : Desk τ) :
    Twin core k (k.named ticket id) :=
  ⟨rfl, rfl, rfl, rfl, rfl, rfl, rfl, .refl _⟩

theorem finish (outcome : Outcome) (k : Desk τ) :
    Twin core k (k.onStage (Stage.finish outcome)) :=
  of_stage (Stage.quiet_finish outcome k.stage) (Level.finish outcome k).kind

theorem moveCursor (offset : Int) (k : Desk τ) :
    Twin core k (k.onEditor (Editor.moveCursor offset)) :=
  of_stage (Stage.quiet_moveCursor offset k.stage)
    (Level.moveCursor offset k).kind

theorem select (anchor position : Int) (k : Desk τ) :
    Twin core k (k.onEditor fun e => (e.select anchor position, [])) :=
  ⟨rfl, rfl, rfl, rfl, rfl, (quiet_select anchor position k).text,
    (Level.select anchor position k).kind, .emits rfl k.env⟩

theorem cancel (k : Desk τ) : Twin core k (k.runStage Stage.cancel).2 :=
  of_stage (Stage.quiet_cancel k.stage) (Level.cancel k).kind

theorem cycle (places : Int) (k : Desk τ) :
    Twin core k (k.runStage (Stage.cycle places)).2 :=
  of_stage (Stage.quiet_cycle places k.stage) (Level.cycle places k).kind

theorem receive (ticket : Nat) (message : Json) (k : Desk τ) :
    Twin core k (k.receive ticket message) := by
  have hquiet := quiet_receive ticket message k
  rcases receive_stage ticket message k with ⟨s, hs, hcaret⟩
  rw [hs] at hquiet ⊢
  exact of_stage ⟨hquiet.text, hquiet.listeners, hquiet.attached, hquiet.events⟩
    (Editor.isWidget_of_caret hcaret)

theorem posed (kind : TriggerKind) (k : Desk τ) :
    Twin core k (k.posed kind) := by
  have hfinish : Twin core k (k.onStage (Stage.finish .superseded)) :=
    finish .superseded k
  exact ⟨rfl, rfl, rfl, rfl, rfl, hfinish.text, hfinish.kind, hfinish.env⟩

theorem tellFault {α : Type} (r : Except Fault α × Desk τ) :
    Twin core r.2 (tellFault r) := by
  unfold Desk.tellFault
  cases r.1 with
  | error f => exact tell _ r.2
  | ok _ => exact refl r.2

theorem relinked {f f' : τ → τ} (h : Twin core k k')
    (hf : core (f' k'.env.link) = core (f k.env.link)) :
    Twin core (k.relinked f) (k'.relinked f') :=
  ⟨h.language, h.sync, h.trigger, h.snapshot, h.closed, h.text, h.kind,
    h.env.clock, hf, h.env.told⟩

theorem withTrigger (trigger : Trigger) (h : Twin core k k') :
    Twin core (k.withTrigger trigger) (k'.withTrigger trigger) :=
  ⟨h.language, h.sync, rfl, h.snapshot, h.closed, h.text, h.kind, h.env⟩

theorem atTime (time : Int) (h : Twin core k k') :
    Twin core (k.atTime time) (k'.atTime time) := by
  refine ⟨h.language, h.sync, h.trigger, h.snapshot, h.closed, h.text, h.kind,
    ?_, h.env.link, h.env.told⟩
  show { k'.env.clock with now := time } = { k.env.clock with now := time }
  rw [h.env.clock]

theorem recordEdit (e : Edit) (h : Twin core k k') :
    Twin core (k.recordEdit e) (k'.recordEdit e) := by
  have hfinished := h.both (finish .canceled k) (finish .canceled k')
  cases hclosed : k.document.closed with
  | true =>
      rw [recordEdit_closed e hclosed,
        recordEdit_closed e (h.closed.trans hclosed)]
      exact h
  | false =>
      have hclosed' := h.closed.trans hclosed
      let change (k : Desk τ) : Change :=
        ⟨some ⟨Position.ofOffset k.document.snapshot e.start,
        Position.ofOffset k.document.snapshot e.stop⟩, e.inserted⟩
      let kept (k : Desk τ) : Sync × Env τ :=
        k.document.sync.record (change k)
          (k.onStage (Stage.finish .canceled)).env
      have hkept :
          (kept k').1 = (kept k).1 ∧ Env.Twin core (kept k).2 (kept k').2 := by
        have hchange : change k' = change k := by
          simp only [change, h.snapshot]
        simp only [kept, h.sync, hchange]
        exact Sync.record_matches (change k) k.document.sync hfinished.env
      have hactivity : k'.document.trigger.activity (kept k').2.clock =
          k.document.trigger.activity (kept k).2.clock := by
        rw [h.trigger, hkept.2.clock]
      have hsnapshot :
          e.apply k'.document.snapshot = e.apply k.document.snapshot := by
        rw [h.snapshot]
      rw [Desk.recordEdit, Desk.recordEdit, if_neg (by simp [hclosed]),
        if_neg (by simp [hclosed'])]
      exact ⟨h.language, hkept.1, congrArg Prod.fst hactivity, hsnapshot,
        h.closed, hfinished.text, hfinished.kind, congrArg Prod.snd hactivity,
        hkept.2.link, hkept.2.told⟩

theorem edit {g : Editing} (hg : g.Placed) (h : Twin core k k') :
    Twin core (k.edit g.run) (k'.edit g.run) := by
  rcases hg.run_congr h.text h.kind with ⟨hreported, htext⟩
  have hkind := (g.run_sameView k'.editor).2.2.2.trans
    (h.kind.trans (g.run_sameView k.editor).2.2.2.symm)
  have hchanged : Twin core { k with editor := (g.run k.editor).2 }
      { k' with editor := (g.run k'.editor).2 } :=
    ⟨h.language, h.sync, h.trigger, h.snapshot, h.closed, htext, hkind, h.env⟩
  unfold Desk.edit
  rw [hreported]
  cases (g.run k.editor).1 with
  | none => exact hchanged
  | some e => exact (hchanged.both (emit rfl _) (emit rfl _)).recordEdit e

end Twin

/-!
# What concerns the agent
-/

section Linked

variable [Link τ] {core : τ → σ} {k k' : Desk τ}

theorem reopening_matches (hcore : Governs core) (h : Twin core k k') (s : Sync)
    {env env' : Env τ} (henv : Env.Twin core env env') :
    Sync.Matches core (reopening k.document k.editor.text s env)
      (reopening k'.document k'.editor.text s env') := by
  rcases Sync.announce_matches hcore k.editor.text k.document.language s
    henv with
    ⟨ok, s₁, env₁, env₁', hr, hr', htwin⟩
  unfold reopening
  simp only [h.closed, h.text, h.language, hr, hr']
  split
  · exact ⟨_, _, _, _, rfl, rfl, henv⟩
  · cases ok with
    | true => exact ⟨_, _, _, _, rfl, rfl, htwin.tell _ _⟩
    | false => exact ⟨_, _, _, _, rfl, rfl, htwin⟩

def Matches (core : τ → σ) (r r' : Bool × Desk τ) : Prop :=
  ∃ ok k k', r = (ok, k) ∧ r' = (ok, k') ∧ Twin core k k'

namespace Twin

theorem openCopy (hcore : Governs core) (h : Twin core k k') :
    Twin core k.openCopy.2 k'.openCopy.2 := by
  rcases reopening_matches hcore h k.document.sync h.env with
    ⟨ok, s, env, env', hr, hr', htwin⟩
  unfold Desk.openCopy
  simp only [h.closed, h.sync, hr, hr']
  split
  · exact h
  · exact ⟨h.language, rfl, h.trigger, h.text, h.closed, h.text, h.kind, htwin⟩

theorem flush (hcore : Governs core) (h : Twin core k k') :
    Matches core k.flush k'.flush := by
  have hreopening := reopening_matches hcore h k.document.sync.unschedule h.env
  rcases Sync.flush_matches hcore k.document.sync hreopening h.env with
    ⟨ok, s, env, env', hr, hr', htwin⟩
  have hmust : k'.mustReopen = k.mustReopen := by
    unfold mustReopen
    rw [h.sync, h.closed, h.env.connected hcore]
  unfold Desk.flush
  simp only [h.sync, hmust, h.text, h.snapshot, hr]
  rw [h.text] at hr'
  rw [hr']
  exact ⟨_, _, _, rfl, rfl, h.language, rfl, h.trigger, rfl, h.closed, h.text,
    h.kind, htwin⟩

theorem asking (core : τ → σ) {kind : TriggerKind}
    {r : Except Fault (Option Nat) × Desk τ} (hask : Asking kind k r) :
    ∃ q waiting,
      Twin core (k.relinked fun l => (Link.request q waiting l).2) r.2 := by
  have hseeing {link : τ} (es : List Event)
      (hes : es.filterMap Event.taken? = []) :
      Twin core (k.relinked fun _ => link) ((k.posed kind).seeing link es) := by
    have hposed : Twin core k (k.posed kind) := posed kind k
    refine ⟨rfl, rfl, rfl, rfl, rfl, hposed.text, hposed.kind, rfl, rfl, ?_⟩
    show ((k.posed kind).env.trace ++ es).filterMap Event.taken? = _
    rw [List.filterMap_append, hes, List.append_nil]
    exact hposed.env.told
  refine ⟨k.question kind, some (.completion k.number k.nextTicket), ?_⟩
  cases hask with
  | oneWay hlink =>
      simp only [hlink, Desk.relinked]
      exact hseeing _ rfl
  | refused _ hlink =>
      simp only [hlink, Desk.relinked]
      exact ((hseeing _ rfl).trans (tell _ _)).trans (invalidate _)
  | deferred hlink =>
      simp only [hlink, Desk.relinked]
      exact (hseeing _ rfl).trans (named _ _ _)
  | answered hlink =>
      simp only [hlink, Desk.relinked]
      exact ((hseeing _ rfl).trans (receive _ _ _)).trans (named _ _ _)

theorem ask (hcore : Governs core) (kind kind' : TriggerKind)
    (h : Twin core k k') :
    Twin core (k.ask kind).2 (k'.ask kind').2 := by
  rcases asking core (Desk.asking kind k) with ⟨q, waiting, hask⟩
  rcases asking core (Desk.asking kind' k') with ⟨q', waiting', hask'⟩
  exact (h.relinked (hcore.request q q' waiting waiting' h.env.link)).both hask
    hask'

theorem prepare (hcore : Governs core) (h : Twin core k k') :
    Matches core k.prepare k'.prepare := by
  rcases h.flush hcore with ⟨ok, l, l', hr, hr', htwin⟩
  unfold Desk.prepare
  simp only [h.env.connected hcore, hr, hr']
  split
  · exact ⟨_, _, _, rfl, rfl, h.both (tell _ _) (tell _ _)⟩
  · cases ok with
    | true => exact ⟨_, _, _, rfl, rfl, htwin⟩
    | false => exact ⟨_, _, _, rfl, rfl, htwin.both (tell _ _) (tell _ _)⟩

theorem request (hcore : Governs core) (kind : TriggerKind)
    (h : Twin core k k') :
    Twin core (k.request kind).2 (k'.request kind).2 := by
  rcases h.prepare hcore with ⟨ok, l, l', hr, hr', htwin⟩
  unfold Desk.request
  rw [h.closed, hr, hr']
  split
  · exact h
  · cases ok with
    | true => exact htwin.ask hcore kind kind
    | false => exact htwin

theorem requestFor (hcore : Governs core) (reason : Json) (h : Twin core k k') :
    Twin core (k.requestFor reason).2 (k'.requestFor reason).2 := by
  rcases h.prepare hcore with ⟨ok, l, l', hr, hr', htwin⟩
  unfold Desk.requestFor
  rw [h.closed, hr, hr']
  split
  · exact h
  · cases ok with
    | false => exact htwin
    | true =>
        dsimp only
        split
        · exact htwin
        · exact htwin.ask hcore _ _

theorem triggered (hcore : Governs core) (h : Twin core k k') :
    Twin core k.trigger.2 k'.trigger.2 := by
  have hcanceled := h.withTrigger k.document.trigger.cancel
  have hrequested := hcanceled.request hcore .invoked
  unfold Desk.trigger
  rw [h.trigger]
  exact hrequested

theorem close (hcore : Governs core) (h : Twin core k k') :
    Twin core k.close k'.close := by
  have hfinished := h.both (finish .superseded k) (finish .superseded k')
  let kept (k : Desk τ) : Sync × Env τ :=
    k.document.sync.close (k.onStage (Stage.finish .superseded)).env
  have hkept :
      (kept k').1 = (kept k).1 ∧ Env.Twin core (kept k).2 (kept k').2 := by
    simp only [kept, h.sync]
    exact Sync.close_matches hcore k.document.sync hfinished.env
  have htold :=
    hkept.2.tell (.closed k.document.name) (.closed k'.document.name)
  exact ⟨h.language, hkept.1, congrArg Trigger.cancel h.trigger, h.snapshot,
    rfl, hfinished.text, hfinished.kind, htold⟩

theorem ring (hcore : Governs core) (bell : Workspace.Bell) (a : Alarm)
    (h : Twin core k k') :
    Twin core (k.ring bell a) (k'.ring bell a) := by
  have htime := h.atTime a.due
  cases bell with
  | flush _ =>
      let fired (k : Desk τ) : Desk τ :=
        ((k.atTime a.due).withSync k.document.sync.unschedule
          (k.atTime a.due).env).emit (.fired a.due)
      have hfired : Twin core (fired k) (fired k') := by
        refine Twin.both ?_ (emit rfl _) (emit rfl _)
        exact ⟨h.language, congrArg Sync.unschedule h.sync, h.trigger,
          h.snapshot, h.closed, h.text, h.kind, htime.env⟩
      rcases hfired.flush hcore with ⟨ok, l, l', hr, hr', htwin⟩
      show Twin core (fired k).flush.2 (fired k').flush.2
      rw [hr, hr']
      exact htwin
  | trigger _ =>
      let fired (k : Desk τ) : Desk τ :=
        ((k.atTime a.due).withTrigger k.document.trigger.cancel).emit
          (.fired a.due)
      have hfired : Twin core (fired k) (fired k') := by
        refine Twin.both ?_ (emit rfl _) (emit rfl _)
        rw [h.trigger]
        exact htime.withTrigger _
      exact (hfired.request hcore .automatic).both (tellFault _) (tellFault _)

theorem advance (hcore : Governs core) (milliseconds : Int)
    (h : Twin core k k') :
    Twin core (k.advance milliseconds) (k'.advance milliseconds) := by
  have halarms (k k' : Desk τ) (h : Twin core k k') : k.alarms = k'.alarms := by
    simp only [alarms, Workspace.alarmsOf, h.sync, h.trigger]
  have hclock := congrArg Clock.now h.env.clock
  unfold Desk.advance
  rw [hclock, ← halarms k k' h]
  exact (Alarm.ring_rel halarms (fun _ _ bell a h _ => h.ring hcore bell a) _
    h).atTime _

end Twin
end Linked
end Desk

/-!
# Runs
-/

namespace Action

variable {τ σ : Type}

def isAnswer : Action τ → Bool
  | .answer .. => true
  | _ => false

/-- What happens in a run besides answers. -/
def steps (as : List (Action τ)) : List (Action τ) :=
  as.filter fun a => !a.isAnswer

/-- Whether an action accepts nothing, edits at given offsets if it edits, and
changes the link regardless of answers. -/
def Plain (core : τ → σ) : Action τ → Prop
  | .accept => False
  | .edit g => g.Placed
  | .answer _ _ note => ∀ l, core (note l) = core l
  | .disturb f => ∀ l l', core l' = core l → core (f l') = core (f l)
  | _ => True

end Action

namespace Desk

variable {τ σ : Type} [Link τ] {core : τ → σ} {k k' : Desk τ}

namespace Twin

theorem answer {ticket : Nat} {message : Json} {note : τ → τ}
    (hnote : ∀ l, core (note l) = core l) (k : Desk τ) :
    Twin core k (k.perform (.answer ticket message note)) := by
  have hnoted : Twin core k (k.relinked note) :=
    ⟨rfl, rfl, rfl, rfl, rfl, rfl, rfl, rfl, hnote k.env.link, rfl⟩
  exact hnoted.trans (receive ticket message (k.relinked note))

theorem perform (hcore : Governs core) {a : Action τ} (ha : a.Plain core)
    (h : Twin core k k') :
    Twin core (k.perform a) (k'.perform a) := by
  cases a with
  | edit g => exact h.edit ha
  | moveCursor offset =>
      exact h.both (moveCursor offset k) (moveCursor offset k')
  | select anchor position =>
      exact h.both (select anchor position k) (select anchor position k')
  | openCopy => exact h.openCopy hcore
  | close => exact h.close hcore
  | flush =>
      rcases h.flush hcore with ⟨ok, l, l', hr, hr', htwin⟩
      show Twin core k.flush.2 k'.flush.2
      rw [hr, hr']
      exact htwin
  | trigger => exact h.triggered hcore
  | request reason => exact h.requestFor hcore reason
  | accept => exact ha.elim
  | cancel => exact h.both (cancel k) (cancel k')
  | cycle places => exact h.both (cycle places k) (cycle places k')
  | supersede => exact h.both (finish .superseded k) (finish .superseded k')
  | answer ticket message note => exact h.both (answer ha k) (answer ha k')
  | flushAlarm a => exact h.ring hcore (.flush 0) a
  | triggerAlarm a => exact h.ring hcore (.trigger 0) a
  | elapse milliseconds => exact h.advance hcore milliseconds
  | disturb f => exact h.relinked (ha _ _ h.env.link)

/-- A run leads to a twin of what its steps lead to without answers. -/
theorem performAll_steps (hcore : Governs core) {as : List (Action τ)}
    (has : ∀ a ∈ as, a.Plain core) (h : Twin core k k') :
    Twin core (k.performAll as) (k'.performAll (Action.steps as)) := by
  induction as generalizing k k' with
  | nil => exact h
  | cons a rest ih =>
      have ha := has a List.mem_cons_self
      have hrest : ∀ a ∈ rest, a.Plain core :=
        fun a ha => has a (List.mem_cons_of_mem _ ha)
      cases a with
      | answer ticket message note =>
          exact ih hrest ((answer ha k).symm.trans h)
      | _ => exact ih hrest (h.perform hcore ha)

end Twin
end Desk

namespace Workspace

variable {τ σ : Type} [Link τ]

/-- Two runs with the same steps, whatever answers arrive in between, lead to
the same text, the same copy and the same timers, and the agent is told the same
in both.  This holds behind every step, as it holds of all runs. -/
theorem synced_regardless_of_answers {core : τ → σ} (hcore : Governs core)
    {start : Workspace τ} (hstart : start.Starts) {as bs : List (Action τ)}
    (has : ∀ a ∈ as, a.Plain core) (hbs : ∀ b ∈ bs, b.Plain core)
    (hsteps : Action.steps as = Action.steps bs) :
    ∃ d d' e e', (start.performAll as).documents = [d] ∧
      (start.performAll bs).documents = [d'] ∧
      (start.performAll as).editors = [e] ∧
        (start.performAll bs).editors = [e'] ∧
      e'.text = e.text ∧ d'.snapshot = d.snapshot ∧ d'.sync = d.sync ∧
        d'.trigger = d.trigger ∧
      d'.closed = d.closed ∧
      (start.performAll bs).env.trace.filterMap Event.taken? =
        (start.performAll as).env.trace.filterMap Event.taken? := by
  rcases hstart.hosts with ⟨k, hhosts, _⟩
  have hleft := hhosts.performAll as
  have hright := hhosts.performAll bs
  have hplain := Desk.Twin.performAll_steps hcore has (.refl k)
  have hplain' := Desk.Twin.performAll_steps hcore hbs (.refl k)
  rw [← hsteps] at hplain'
  have htwin := hplain.trans hplain'.symm
  refine ⟨_, _, _, _, hleft.documents, hright.documents, hleft.editors,
    hright.editors, htwin.text, htwin.snapshot, htwin.sync, htwin.trigger,
    htwin.closed, ?_⟩
  rw [hleft.env, hright.env]
  exact htwin.env.told

def answered : List (Action Scripted) :=
  [.openCopy, .moveCursor 1, .trigger, .answer 0 (oneCandidate "old") id,
    .moveCursor 3, .cancel, .edit (.replace ⟨0, 0, ['d']⟩),
    .disturb fun s => { s with failNotifications := true }, .flush,
    .disturb fun s => { s with failNotifications := false }, .elapse 1000,
    .answer 1 (oneCandidate "new") id]

def unanswered : List (Action Scripted) :=
  [.openCopy, .moveCursor 1, .trigger, .moveCursor 3, .cancel,
    .edit (.replace ⟨0, 0, ['d']⟩),
    .disturb fun s => { s with failNotifications := true },
    .answer 0 (oneCandidate "old") id, .flush,
    .disturb fun s => { s with failNotifications := false }, .elapse 1000]

theorem synced_regardless_of_answers_late :
    let start := sample (⟨true, false, false, none, [], false⟩ : Scripted)
    (start.performAll answered).editors.map (fun e => (e.cursor, e.ghost)) =
        [(2, some ⟨2, ['n', 'e', 'w']⟩)] ∧
      (start.performAll unanswered).editors.map (fun e => (e.cursor, e.ghost)) =
        [(4, none)] ∧
      (start.performAll unanswered).env.trace.filterMap Event.taken? =
        (start.performAll answered).env.trace.filterMap Event.taken? := by
  have hfail (fails : Bool) (l l' : Scripted) (h : l'.core = l.core) :
      ({ l' with failNotifications := fails } : Scripted).core =
        ({ l with failNotifications := fails } : Scripted).core := by
    simp only [Scripted.core, Prod.mk.injEq, true_and] at h ⊢
    exact ⟨h.1, h.2.2⟩
  have hanswered : ∀ a ∈ answered, a.Plain Scripted.core := by
    simp only [answered, List.forall_mem_cons]
    exact ⟨trivial, trivial, trivial, fun _ => rfl, trivial, trivial, trivial,
      hfail true, trivial, hfail false, trivial, fun _ => rfl, nofun⟩
  have hunanswered : ∀ a ∈ unanswered, a.Plain Scripted.core := by
    simp only [unanswered, List.forall_mem_cons]
    exact ⟨trivial, trivial, trivial, trivial, trivial, trivial, hfail true,
      fun _ => rfl, trivial, hfail false, trivial, nofun⟩
  rcases synced_regardless_of_answers Scripted.core_governs (sample_starts _)
    hanswered hunanswered rfl with
      ⟨_, _, _, _, _, _, _, _, _, _, _, _, _, htold⟩
  exact ⟨by decide +kernel, by decide +kernel, htold⟩

end Workspace
end InlineCompletion
