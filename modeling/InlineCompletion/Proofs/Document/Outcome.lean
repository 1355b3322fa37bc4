import InlineCompletion.Proofs.Document.SyncFrame

/-!
# What becomes of a desk

Each thing that a document does with the agent can come to a few ends, which
depend on whether the agent can be reached and on what its link takes.  The main
statements list the ends of opening a copy, of bringing the agent up to date, of
asking and of closing, and say that a property kept by quiet events and by
single messages is kept by all of these.
-/

namespace InlineCompletion

def Env.seeing {τ : Type} (env : Env τ) (link : τ) (es : List Event) : Env τ :=
  { env with link := link, trace := env.trace ++ es }

/-!
# The agent's copy

The ends of announcing a text, of sending a batch, and of closing a copy.
-/

namespace Sync

variable {τ : Type} [Link τ]

inductive Announcement (text : Text) (language : String) (s : Sync)
    (env : Env τ) :
    Bool × Sync × Env τ → Prop where
  | offline (hconnected : env.connected = false) :
      Announcement text language s env (false, s.unschedule, env)
  | refused {r : Refusal} {link : τ} (hconnected : env.connected = true)
      (hlink : Link.notify (.didOpen s.uri language s.version text) env.link =
        (some r, link)) :
      Announcement text language s env
        (false, s.unschedule,
          env.seeing link [.refused "textDocument/didOpen" false r,
            .notice (.openRefused s.uri r)])
  | taken {link : τ} (hconnected : env.connected = true)
      (hlink : Link.notify (.didOpen s.uri language s.version text) env.link =
        (none, link)) :
      Announcement text language s env
        (true, { s.unschedule with pending := [], opened := true },
          env.seeing link
          [.sent (.notification (.didOpen s.uri language s.version text))])

theorem announcement (text : Text) (language : String) (s : Sync)
    (env : Env τ) :
    Announcement text language s env (s.announce text language env) := by
  unfold announce
  cases hconnected : env.connected with
  | false => exact .offline hconnected
  | true =>
      cases hlink :
          Link.notify (.didOpen s.uri language s.version text) env.link with
      | mk r link =>
          cases r with
          | none =>
              simpa [Env.notify, hlink, Env.seeing, unschedule, Env.emit] using
                Announcement.taken hconnected hlink
          | some r =>
              simpa [Env.notify, hlink, Env.seeing, unschedule, Env.emit,
                Env.tell, Notification.method]
                using Announcement.refused hconnected hlink

inductive Delivery (s : Sync) (env : Env τ) : Bool × Sync × Env τ → Prop where
  | nothing (hpending : s.pending = []) : Delivery s env (true, s, env)
  | offline (hpending : s.pending ≠ []) (hconnected : env.connected = false) :
      Delivery s env
        (false, s, env.tell (.flushOffline s.uri))
  | refused {r : Refusal} {link : τ} (hpending : s.pending ≠ [])
      (hconnected : env.connected = true)
      (hlink :
        Link.notify (.didChange s.uri (s.version + 1) s.pending) env.link = (some r, link)) :
      Delivery s env
        (false, s,
          env.seeing link [.refused "textDocument/didChange" false r,
            .notice (.flushRefused s.pending.length s.uri r)])
  | taken {link : τ} (hpending : s.pending ≠ [])
      (hconnected : env.connected = true)
      (hlink :
        Link.notify (.didChange s.uri (s.version + 1) s.pending) env.link = (none, link)) :
      Delivery s env
        (true, { s with version := s.version + 1, pending := [] },
          env.seeing link
            [.sent (.notification
              (.didChange s.uri (s.version + 1) s.pending))])

theorem delivery (s : Sync) (env : Env τ) : Delivery s env (s.deliver env) := by
  unfold deliver
  cases hpending : s.pending with
  | nil => exact .nothing hpending
  | cons c rest =>
      have hne : s.pending ≠ [] := by simp [hpending]
      cases hconnected : env.connected with
      | false => simpa [hpending] using Delivery.offline hne hconnected
      | true =>
          cases hlink :
              Link.notify (.didChange s.uri (s.version + 1) s.pending)
                env.link with
          | mk r link =>
              rw [hpending] at hlink
              cases r with
              | none =>
                  simpa [Env.notify, hlink, Env.seeing, Env.emit, hpending]
                    using
                    Delivery.taken hne hconnected
                      (by rw [hpending]; exact hlink)
              | some r =>
                  simpa [Env.notify, hlink, Env.seeing, Env.emit, Env.tell,
                    Notification.method, hpending]
                    using Delivery.refused hne hconnected
                    (by rw [hpending]; exact hlink)

inductive Closing (s : Sync) (env : Env τ) : Sync × Env τ → Prop where
  | unsaid (hsilent : s.opened = false ∨ env.connected = false) :
      Closing s env ({ s.unschedule with pending := [], opened := false }, env)
  | refused {r : Refusal} {link : τ} (hopened : s.opened = true)
      (hconnected : env.connected = true)
      (hlink : Link.notify (.didClose s.uri) env.link = (some r, link)) :
      Closing s env
        ({ s.unschedule with pending := [], opened := false },
          env.seeing link [.refused "textDocument/didClose" false r,
            .notice (.closeRefused s.uri r)])
  | taken {link : τ} (hopened : s.opened = true)
      (hconnected : env.connected = true)
      (hlink : Link.notify (.didClose s.uri) env.link = (none, link)) :
      Closing s env
        ({ s.unschedule with pending := [], opened := false },
          env.seeing link [.sent (.notification (.didClose s.uri))])

theorem closing (s : Sync) (env : Env τ) : Closing s env (s.close env) := by
  unfold close
  by_cases h : s.opened = true ∧ env.connected = true
  · rcases h with ⟨hopened, hconnected⟩
    cases hlink : Link.notify (.didClose s.uri) env.link with
    | mk r link =>
        cases r with
        | none =>
            simpa [Env.notify, hlink, Env.seeing, unschedule, Env.emit, hopened,
              hconnected] using Closing.taken hopened hconnected hlink
        | some r =>
            simpa [Env.notify, hlink, Env.seeing, unschedule, Env.emit,
              Env.tell, Notification.method, hopened, hconnected]
              using Closing.refused hopened hconnected hlink
  · have hsilent : s.opened = false ∨ env.connected = false := by
      cases hopened : s.opened with
      | false => exact Or.inl rfl
      | true =>
          cases hconnected : env.connected with
          | false => exact Or.inr rfl
          | true => exact absurd ⟨hopened, hconnected⟩ h
    simpa [h, unschedule] using Closing.unsaid hsilent

/-- However a closing goes, the copy is not open afterwards, and nothing of it
is pending or due. -/
theorem close_fst (s : Sync) (env : Env τ) :
    (s.close env).1 = { s.unschedule with pending := [], opened := false } := by
  have hclosing := closing s env
  revert hclosing
  generalize s.close env = r
  intro hclosing
  cases hclosing <;> rfl

end Sync

namespace Desk

variable {τ : Type}

/-!
# Parts of what happens at a desk

A desk takes over what became of the agent's copy and of the link, and its
snapshot follows where the whole text was to be told.
-/

def renewed (k : Desk τ) : Desk τ :=
  { k with document := { k.document with snapshot := k.editor.text } }

def ended (k : Desk τ) : Desk τ :=
  { k with document := { k.document with closed := true } }

def seeing (link : τ) (es : List Event) (k : Desk τ) : Desk τ :=
  { k with env := k.env.seeing link es }

def posed (kind : TriggerKind) (k : Desk τ) : Desk τ :=
  let cleared := k.onStage Stage.supersede
  { cleared with
    document := { cleared.document with
      completions :=
        { cleared.document.completions.add (k.nextCompletion kind) with
          live := some cleared.document.completions.all.length } } }

def question (kind : TriggerKind) (k : Desk τ) : Request :=
  .completion k.document.uri (k.nextCompletion kind).position kind

def named (ticket : Nat) (id : Int) (k : Desk τ) : Desk τ :=
  { k with
    document := { k.document with
      completions :=
        k.document.completions.modify ticket fun x =>
          { x with id := some id } } }

def nextTicket (k : Desk τ) : Nat :=
  (k.onStage Stage.supersede).document.completions.all.length

theorem quiet_unschedule (k : Desk τ) :
    Quiet k (k.withSync k.document.sync.unschedule k.env) :=
  { Quiet.refl k with }

theorem quiet_renewed_tell {n : Notice} (hn : (Event.notice n).isQuiet = true)
    (k : Desk τ) :
    Quiet k.renewed (k.tell n).renewed :=
  { Quiet.refl k.renewed with events := Quietly.append _ (by simpa using hn) }

theorem quiet_posed (kind : TriggerKind) (k : Desk τ) :
    Quiet k (k.posed kind) :=
  (quiet_onStage (Stage.quiet_finish .superseded) k).trans
    (quiet_completions _ _)

theorem quiet_cleared (k : Desk τ) : Quiet k
    (({ k with document :=
    { k.document with trigger := k.document.trigger.cancel } } :
      Desk τ).onStage Stage.supersede).invalidate :=
  ((quiet_trigger k _).trans
    (quiet_onStage (Stage.quiet_finish .superseded) _)).trans
      (quiet_completions _ _)

section Linked

variable [Link τ]

/-!
# Opening and bringing up to date

A closed document is never opened again, and bringing the agent up to date may
open it.
-/

inductive Opening (k : Desk τ) : Bool × Desk τ → Prop where
  | closed (hclosed : k.document.closed = true) : Opening k (false, k)
  | failed {s : Sync} {env : Env τ} (hclosed : k.document.closed = false)
      (h : Sync.Announcement k.editor.text k.document.language k.document.sync
        k.env (false, s, env)) :
      Opening k (false, (k.withSync s env).renewed)
  | done {s : Sync} {env : Env τ} (hclosed : k.document.closed = false)
      (h : Sync.Announcement k.editor.text k.document.language k.document.sync
        k.env (true, s, env)) :
      Opening k
        (true, ((k.withSync s env).tell
          (.opened k.document.name k.document.language s.version)).renewed)

theorem opening (k : Desk τ) : Opening k k.openCopy := by
  unfold openCopy
  cases hclosed : k.document.closed with
  | true => exact .closed hclosed
  | false =>
      have h := Sync.announcement k.editor.text k.document.language
        k.document.sync k.env
      unfold reopening
      rw [hclosed]
      cases hannounce :
          k.document.sync.announce k.editor.text k.document.language k.env with
      | mk ok rest =>
          rw [hannounce] at h
          cases ok with
          | true => exact .done hclosed h
          | false => exact .failed hclosed h

inductive Flushing (k : Desk τ) : Bool × Desk τ → Prop where
  | delivered {ok : Bool} {s : Sync} {env : Env τ}
      (hopened : k.document.sync.opened = true)
      (h : Sync.Delivery k.document.sync.unschedule k.env (ok, s, env)) :
      Flushing k (ok, k.withSync s env)
  | unopened (hopened : k.document.sync.opened = false)
      (hsilent : k.document.closed = true ∨ k.env.connected = false) :
      Flushing k
        (false, (k.withSync k.document.sync.unschedule k.env).tell
          (.flushUnopened k.document.sync.uri))
  | failed {s : Sync} {env : Env τ} (hopened : k.document.sync.opened = false)
      (hclosed : k.document.closed = false)
      (h : Sync.Announcement k.editor.text k.document.language
        k.document.sync.unschedule k.env (false, s, env)) :
      Flushing k
        (false, ((k.withSync s env).tell (.flushUnopened s.uri)).renewed)
  | reopened {s : Sync} {env : Env τ} (hopened : k.document.sync.opened = false)
      (hclosed : k.document.closed = false)
      (h : Sync.Announcement k.editor.text k.document.language
        k.document.sync.unschedule k.env (true, s, env)) :
      Flushing k
        (true, ((k.withSync s env).tell
          (.opened k.document.name k.document.language s.version)).renewed)

theorem flushing (k : Desk τ) : Flushing k k.flush := by
  unfold flush Sync.flush
  have hunschedule :
      k.document.sync.unschedule.opened = k.document.sync.opened := rfl
  cases hopened : k.document.sync.opened with
  | true =>
      have h := Sync.delivery k.document.sync.unschedule k.env
      simp only [mustReopen, hunschedule, hopened]
      exact .delivered hopened h
  | false =>
      simp only [mustReopen, Sync.retry, reopening, hunschedule, hopened]
      cases hconnected : k.env.connected with
      | false =>
          simp only [Bool.and_false, Bool.false_eq_true, if_false]
          exact .unopened hopened (Or.inr hconnected)
      | true =>
          cases hclosed : k.document.closed with
          | true => exact .unopened hopened (Or.inl hclosed)
          | false =>
              have h := Sync.announcement k.editor.text k.document.language
                k.document.sync.unschedule k.env
              cases hannounce :
                  k.document.sync.unschedule.announce k.editor.text
                  k.document.language k.env with
              | mk ok rest =>
                  rw [hannounce] at h
                  cases ok with
                  | false => exact .failed hopened hclosed h
                  | true =>
                      have hreopened := Flushing.reopened hopened hclosed h
                      cases h with
                      | taken hconnected hlink => exact hreopened

/-!
# Asking

A completion that is asked for is live from then on, until the agent turns out
not to take the request.
-/

inductive Asking (kind : TriggerKind) (k : Desk τ) :
    Except Fault (Option Nat) × Desk τ → Prop where
  | oneWay {link : τ}
      (hlink : Link.request (k.question kind)
        (some (.completion k.number k.nextTicket)) k.env.link =
          (.error .oneWay, link)) :
      Asking kind k
        (.error .wrongShape,
          (k.posed kind).seeing link
          [.refused "textDocument/inlineCompletion" true .oneWay])
  | refused {r : Refusal} {link : τ} (hr : r ≠ .oneWay)
      (hlink : Link.request (k.question kind)
        (some (.completion k.number k.nextTicket)) k.env.link =
          (.error r, link)) :
      Asking kind k
        (.ok none,
          (((k.posed kind).seeing link
          [.refused "textDocument/inlineCompletion" true r]).tell
            (.requestRefused k.document.uri r)).invalidate)
  | deferred {id : Nat} {link : τ}
      (hlink : Link.request (k.question kind)
        (some (.completion k.number k.nextTicket)) k.env.link =
          (.ok ⟨id, none⟩, link)) :
      Asking kind k
        (.ok (some k.nextTicket),
          ((k.posed kind).seeing link
          [.sent (.request id (k.question kind))]).named
            k.nextTicket id)
  | answered {id : Nat} {message : Json} {link : τ}
      (hlink : Link.request (k.question kind)
        (some (.completion k.number k.nextTicket)) k.env.link =
          (.ok ⟨id, some message⟩, link)) :
      Asking kind k
        (.ok (some k.nextTicket),
          (((k.posed kind).seeing link
          [.sent (.request id (k.question kind))]).receive
            k.nextTicket message).named k.nextTicket id)

def settled (kind : TriggerKind) (k : Desk τ) :
    Except Refusal Receipt × Env τ → Except Fault (Option Nat) × Desk τ
  | (.error .oneWay, env) =>
      (.error .wrongShape, { k.posed kind with env := env })
  | (.error r, env) =>
      (.ok none,
        (({ k.posed kind with env := env } : Desk τ).tell
          (.requestRefused k.document.uri r)).invalidate)
  | (.ok receipt, env) =>
      let k' : Desk τ := { k.posed kind with env := env }
      let k' := match receipt.answer with
        | some message => k'.receive k.nextTicket message
        | none => k'
      (.ok (some k.nextTicket), k'.named k.nextTicket receipt.id)

theorem asking (kind : TriggerKind) (k : Desk τ) :
    Asking kind k (k.ask kind) := by
  have hstep :
      k.ask kind = k.settled kind ((k.posed kind).env.request (k.question kind)
      (some (.completion k.number k.nextTicket))) := rfl
  have hlinkSame : (k.posed kind).env.link = k.env.link := rfl
  rw [hstep]
  unfold Env.request
  rw [hlinkSame]
  cases hlink :
      Link.request (k.question kind) (some (.completion k.number k.nextTicket))
      k.env.link with
  | mk outcome link =>
      cases outcome with
      | error r =>
          by_cases hr : r = .oneWay
          · subst hr
            exact .oneWay hlink
          · have h := Asking.refused hr hlink
            cases r with
            | oneWay => exact absurd rfl hr
            | _ => exact h
      | ok receipt =>
          cases receipt with
          | mk id answer =>
              cases answer with
              | none => exact .deferred hlink
              | some message => exact .answered hlink

inductive Requesting (k : Desk τ) : Desk τ → Prop where
  | closed (hclosed : k.document.closed = true) : Requesting k k
  | offline (hconnected : k.env.connected = false) :
      Requesting k (k.tell .requestOffline)
  | unsynced {k' : Desk τ} (h : Flushing k (false, k')) :
      Requesting k (k'.tell (.requestUnsynced k'.document.uri))
  | unknown {k' : Desk τ} (h : Flushing k (true, k')) : Requesting k k'
  | asked {kind : TriggerKind} {k' k'' : Desk τ} {r : Except Fault (Option Nat)}
      (hconnected : k.env.connected = true) (h : Flushing k (true, k'))
      (hask : Asking kind k' (r, k'')) : Requesting k k''

theorem requestFor_requesting (reason : Json) (k : Desk τ) :
    Requesting k (k.requestFor reason).2 := by
  unfold requestFor prepare
  cases hclosed : k.document.closed with
  | true => exact .closed hclosed
  | false =>
      cases hconnected : k.env.connected with
      | false => exact .offline hconnected
      | true =>
          have hflush := flushing k
          cases hk : k.flush with
          | mk ok k' =>
              rw [hk] at hflush
              cases ok with
              | false => exact .unsynced hflush
              | true =>
                  simp only [Bool.not_true, Bool.false_eq_true, if_false]
                  split
                  · exact .unknown hflush
                  · exact .asked hconnected hflush (asking _ k')

theorem request_requesting (kind : TriggerKind) (k : Desk τ) :
    Requesting k (k.request kind).2 := by
  unfold request prepare
  cases hclosed : k.document.closed with
  | true => exact .closed hclosed
  | false =>
      cases hconnected : k.env.connected with
      | false => exact .offline hconnected
      | true =>
          have hflush := flushing k
          cases hk : k.flush with
          | mk ok k' =>
              rw [hk] at hflush
              cases ok with
              | false => exact .unsynced hflush
              | true => exact .asked hconnected hflush (asking kind k')

theorem Flushing.opened {k k' : Desk τ} (h : Flushing k (true, k')) :
    k'.document.sync.opened = true ∧ k'.document.sync.pending = [] := by
  cases h with
  | delivered hopened h =>
      cases h with
      | nothing hpending => exact ⟨hopened, hpending⟩
      | taken _ _ _ => exact ⟨hopened, rfl⟩
  | reopened _ _ h =>
      cases h with
      | taken _ _ => exact ⟨rfl, rfl⟩

/-!
# What is kept

A property of desks that quiet events keep, and that the ends of a single
message keep, is kept by everything that a document does with the agent.
-/

/-- Whether a property is kept by quiet events and by what brings the agent up
to date. -/
structure KeptBySync (P : Desk τ → Prop) : Prop where
  quiet {k k' : Desk τ} (h : Quiet k k') : P k → P k'
  announced {k : Desk τ} {ok : Bool} {s : Sync} {env : Env τ}
    (hclosed : k.document.closed = false)
    (hopened : k.document.sync.opened = false)
    (h : Sync.Announcement k.editor.text k.document.language k.document.sync
      k.env (ok, s, env)) : P k → P (k.withSync s env).renewed
  delivered {k : Desk τ} {ok : Bool} {s : Sync} {env : Env τ}
    (hopened : k.document.sync.opened = true)
    (h : Sync.Delivery k.document.sync k.env (ok, s, env)) :
        P k → P (k.withSync s env)

structure KeptByTalk (P : Desk τ → Prop) : Prop extends KeptBySync P where
  asked {k k' k'' : Desk τ} {position : Position} {kind : TriggerKind}
    {ticket : Nat} {receipt : Receipt} {link : τ}
    (hconnected : k.env.connected = true)
    (hflush : Flushing k (true, k')) (hquiet : Quiet k' k'')
    (hlink : Link.request (.completion k''.document.uri position kind)
      (some (.completion k''.number ticket)) k''.env.link =
        (.ok receipt, link)) :
    P k'' → P (k''.seeing link
      [.sent (.request receipt.id
        (.completion k''.document.uri position kind))])
  unasked {k : Desk τ} {q : Request} {waiting : Option Waiting} {r : Refusal}
    {link : τ} (hlink : Link.request q waiting k.env.link = (.error r, link)) :
    P k → P (k.seeing link [.refused "textDocument/inlineCompletion" true r])

structure Kept (P : Desk τ → Prop) : Prop extends KeptByTalk P where
  reannounced {k : Desk τ} {ok : Bool} {s : Sync} {env : Env τ}
    (hclosed : k.document.closed = false)
    (hopened : k.document.sync.opened = true)
    (h : Sync.Announcement k.editor.text k.document.language k.document.sync
      k.env (ok, s, env)) : P k → P (k.withSync s env).renewed
  closing {k : Desk τ} {s : Sync} {env : Env τ}
    (h : Sync.Closing k.document.sync k.env (s, env)) :
    P k → P (k.withSync s env).ended

namespace KeptBySync

variable {P : Desk τ → Prop}

theorem openCopy (hP : KeptBySync P) {k : Desk τ}
    (hannounced : ∀ {ok : Bool} {s : Sync} {env : Env τ}, k.document.closed =
    false →
      Sync.Announcement k.editor.text k.document.language k.document.sync k.env
        (ok, s, env) →
        P (k.withSync s env).renewed)
    (h : P k) : P k.openCopy.2 := by
  have hopening := opening k
  revert hopening
  generalize k.openCopy = r
  intro hopening
  cases hopening with
  | closed _ => exact h
  | failed hclosed hannounce => exact hannounced hclosed hannounce
  | done hclosed hannounce =>
      exact hP.quiet (quiet_renewed_tell rfl _) (hannounced hclosed hannounce)

theorem flushing (hP : KeptBySync P) {k : Desk τ} {r : Bool × Desk τ}
    (hflush : Flushing k r) (h : P k) : P r.2 := by
  have hunscheduled : P (k.withSync k.document.sync.unschedule k.env) :=
    hP.quiet (quiet_unschedule k) h
  cases hflush with
  | delivered hopened hdelivery =>
      exact hP.delivered (k := k.withSync k.document.sync.unschedule k.env)
        hopened hdelivery hunscheduled
  | unopened _ _ => exact hP.quiet (quiet_tell rfl _) hunscheduled
  | failed hopened hclosed hannounce =>
      exact hP.quiet (quiet_renewed_tell rfl _)
        (hP.announced (k := k.withSync k.document.sync.unschedule k.env) hclosed
          hopened hannounce hunscheduled)
  | reopened hopened hclosed hannounce =>
      exact hP.quiet (quiet_renewed_tell rfl _)
        (hP.announced (k := k.withSync k.document.sync.unschedule k.env) hclosed
          hopened hannounce hunscheduled)

theorem flush (hP : KeptBySync P) {k : Desk τ} (h : P k) : P k.flush.2 :=
  hP.flushing (Desk.flushing k) h

end KeptBySync

namespace KeptByTalk

variable {P : Desk τ → Prop}

theorem requesting (hP : KeptByTalk P) {k k' : Desk τ}
    (hrequest : Requesting k k') (h : P k) :
    P k' := by
  cases hrequest with
  | closed _ => exact h
  | offline _ => exact hP.quiet (quiet_tell rfl k) h
  | unsynced hflush => exact hP.quiet (quiet_tell rfl _) (hP.flushing hflush h)
  | unknown hflush => exact hP.flushing hflush h
  | asked hconnected hflush hask =>
      rename_i kind k₁ r
      have hquiet := quiet_posed kind k₁
      have hposed : P (k₁.posed kind) := hP.quiet hquiet (hP.flushing hflush h)
      cases hask with
      | oneWay hlink => exact hP.unasked (k := k₁.posed kind) hlink hposed
      | refused _ hlink =>
          exact hP.quiet ((quiet_tell rfl _).trans (quiet_completions _ _))
            (hP.unasked (k := k₁.posed kind) hlink hposed)
      | deferred hlink =>
          exact hP.quiet (quiet_completions _ _)
            (hP.asked hconnected hflush hquiet hlink hposed)
      | answered hlink =>
          exact hP.quiet ((quiet_receive _ _ _).trans (quiet_completions _ _))
            (hP.asked hconnected hflush hquiet hlink hposed)

end KeptByTalk

theorem Kept.openCopy {P : Desk τ → Prop} (hP : Kept P) {k : Desk τ} (h : P k) :
    P k.openCopy.2 := by
  refine hP.toKeptBySync.openCopy ?_ h
  intro ok s env hclosed hannounce
  cases hopened : k.document.sync.opened with
  | true => exact hP.reannounced hclosed hopened hannounce h
  | false => exact hP.announced hclosed hopened hannounce h

theorem close_sync (k : Desk τ) : k.close.document.sync =
    { k.document.sync.unschedule with pending := [], opened := false } :=
  Sync.close_fst k.document.sync _

theorem Kept.close {P : Desk τ → Prop} (hP : Kept P) {k : Desk τ} (h : P k) :
    P k.close := by
  have hclosing := hP.closing (Sync.closing _ _) (hP.quiet (quiet_cleared k) h)
  exact hP.quiet (quiet_tell rfl _) hclosing

end Linked
end Desk
end InlineCompletion
