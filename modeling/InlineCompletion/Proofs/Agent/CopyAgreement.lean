import InlineCompletion.Agent.Connection
import InlineCompletion.Proofs.Agent.MessageOrder
import InlineCompletion.Proofs.Document.Run

/-!
# Talking to the agent's process

A document talks to the process over the connection.  What is known of the
agent's copy *agrees* with what the process heard if a copy that counts as open
is held, and a copy that is held counts as open, up to messages that the process
did not take.  The main statements are that nothing that a document does with
the agent touches what the process heard of other documents, that each of its
messages is in order or astray, and that agreement is kept.
-/

namespace InlineCompletion

/-!
# The life of the process

As long as the process is neither started nor ended, the connection stays as far
as it has come.
-/

namespace Connection

def greetings (c : Connection) : List (Nat × Waiting) :=
  c.waiting.filter fun w => w.2 == .handshake

/-- Whether a connection is in the same life of the process, with no greeting
more. -/
structure SameLife (c c' : Connection) : Prop where
  phase : c'.process.phase = c.process.phase
  valid : c'.process.valid = c.process.valid
  initialized : c'.initialized = c.initialized
  greetings : c'.greetings.Sublist c.greetings

namespace SameLife

theorem refl (c : Connection) : SameLife c c :=
  ⟨rfl, rfl, rfl, List.Sublist.refl _⟩

theorem trans {c c' c'' : Connection} (h : SameLife c c')
    (h' : SameLife c' c'') :
    SameLife c c'' where
  phase := h'.phase.trans h.phase
  valid := h'.valid.trans h.valid
  initialized := h'.initialized.trans h.initialized
  greetings := h'.greetings.trans h.greetings

theorem greetings_nil {c c' : Connection} (h : SameLife c c')
    (hnone : c.greetings = []) :
    c'.greetings = [] := by
  have hsublist := h.greetings
  rw [hnone] at hsublist
  exact List.eq_nil_of_sublist_nil hsublist

theorem greetings_ne {c c' : Connection} (h : SameLife c c')
    (hne : c'.greetings ≠ []) :
    c.greetings ≠ [] := fun hnone => hne (h.greetings_nil hnone)

theorem connected {c c' : Connection} (h : SameLife c c') :
    Link.connected c' = Link.connected c := by
  show (c'.initialized && (c'.process.valid && c'.process.phase == .running)) =
    (c.initialized && (c.process.valid && c.process.phase == .running))
  rw [h.initialized, h.valid, h.phase]

end SameLife

theorem write_life (p : Worker) :
    p.write.2.phase = p.phase ∧ p.write.2.valid = p.valid ∧
    p.write.2.unread = p.unread := by
  unfold Worker.write
  split
  · exact ⟨rfl, rfl, rfl⟩
  · split
    · exact ⟨rfl, rfl, rfl⟩
    · exact ⟨rfl, rfl, rfl⟩

theorem send_sameLife (c : Connection) : SameLife c c.send.2 := by
  have hwrite := write_life c.process
  unfold send
  split
  · exact SameLife.refl c
  · cases hp : c.process.write with
    | mk taken p =>
        rw [hp] at hwrite
        cases taken with
        | true => exact ⟨hwrite.1, hwrite.2.1, rfl, List.Sublist.refl _⟩
        | false => exact ⟨hwrite.1, hwrite.2.1, rfl, List.Sublist.refl _⟩

theorem notify_sameLife {n : Notification} {c c' : Connection}
    {r : Option Refusal} (h : Link.notify n c = (r, c')) : SameLife c c' := by
  have hsend := send_sameLife c
  change c.send = (r, c') at h
  rw [h] at hsend
  exact hsend

def awaiting (id : Nat) (waiting : Option Waiting) (c : Connection) :
    Connection :=
  { c with waiting := c.waiting ++ (waiting.map fun w => (id, w)).toList }

theorem request_cases (q : Request) (waiting : Option Waiting)
    (c : Connection) :
    ∃ c', SameLife c c' ∧ ((∃ r, Link.request q waiting c = (.error r, c')) ∨
      ∃ id, Link.request q waiting c =
        (.ok ⟨id, none⟩, c'.awaiting id waiting)) := by
  have hsend := send_sameLife { c with lastId := c.lastId + 1 }
  cases hc : ({ c with lastId := c.lastId + 1 } : Connection).send with
  | mk r c' =>
      rw [hc] at hsend
      exists c'
      refine ⟨⟨hsend.phase, hsend.valid, hsend.initialized, hsend.greetings⟩,
        ?_⟩
      cases r with
      | some r =>
          refine Or.inl ⟨r, ?_⟩
          simp only [Link.request, hc]
      | none =>
          refine Or.inr ⟨c.lastId + 1, ?_⟩
          simp only [Link.request, hc]
          rfl

theorem awaiting_greetings (id : Nat) (waiting : Option Waiting)
    (c : Connection) :
    (c.awaiting id waiting).greetings =
      c.greetings ++ if waiting = some .handshake then [(id, .handshake)] else
        [] := by
  unfold greetings awaiting
  rw [List.filter_append]
  congr 1
  cases waiting with
  | none => rfl
  | some w =>
      by_cases hw : w = .handshake
      · simp [hw]
      · simp [hw]

theorem request_sameLife {q : Request} {waiting : Option Waiting}
    {c c' : Connection} {outcome : Except Refusal Receipt}
    (h : Link.request q waiting c = (outcome, c'))
    (hwaiting : waiting = some .handshake → ∃ r, outcome = .error r) :
    SameLife c c' := by
  rcases request_cases q waiting c with ⟨c'', hlife, ⟨r, herror⟩ | ⟨id, hok⟩⟩
  · cases h.symm.trans herror
    exact hlife
  · cases h.symm.trans hok
    have hgreeting : waiting ≠ some .handshake := by
      intro heq
      rcases hwaiting heq with ⟨r, hr⟩
      cases hr
    refine ⟨hlife.phase, hlife.valid, hlife.initialized, ?_⟩
    rw [awaiting_greetings, if_neg hgreeting, List.append_nil]
    exact hlife.greetings

end Connection

/-!
# Agreement
-/

/-- Whether what is known of a copy fits what the process heard of the document,
as far as the process took what it was told. -/
structure Agreed (connected opened : Bool) (h : Heard) : Prop where
  speaks (hconnected : connected = true) (hopened : opened = true) :
    h.holds = true ∨
      h.told = false ∧ (h.announced = false ∨ h.openRefused = true)
  opens (hconnected : connected = true) (hholds : h.holds = true) :
    opened = true ∨ h.closeRefused = true

namespace Agreed

theorem offline (opened : Bool) (h : Heard) : Agreed false opened h :=
  ⟨fun hconnected => absurd hconnected Bool.false_ne_true,
    fun hconnected => absurd hconnected Bool.false_ne_true⟩

theorem explains {opened : Bool} {h : Heard} (hagreed : Agreed true opened h)
    (hopened : opened = true) {m : Outgoing} (hm : m.opens = false) :
    m.InOrder h ∨ m.Astray h := by
  unfold Outgoing.InOrder Outgoing.Astray
  rw [hm]
  exact hagreed.speaks rfl hopened

theorem weaken {connected connected' opened : Bool} {h : Heard}
    (hagreed : Agreed connected opened h)
    (hconnected : connected' = true → connected = true) :
    Agreed connected' opened h :=
  ⟨fun htrue => hagreed.speaks (hconnected htrue),
    fun htrue => hagreed.opens (hconnected htrue)⟩

theorem untold {connected opened : Bool} {h : Heard} (hholds : h.holds = false)
    (htold : h.told = false)
    (hlost : connected = true → opened = true →
    h.announced = false ∨ h.openRefused = true) :
    Agreed connected opened h where
  speaks hconnected hopened := Or.inr ⟨htold, hlost hconnected hopened⟩
  opens _ hfalse := absurd (hholds.symm.trans hfalse) Bool.false_ne_true

theorem opened (connected : Bool) (h : Heard) :
    Agreed connected true
      { h with told := true, holds := true, closeRefused := false } :=
  ⟨fun _ _ => Or.inl rfl, fun _ _ => Or.inl rfl⟩

theorem openRefused {connected opened : Bool} {h : Heard}
    (hfit : h.holds = true → h.closeRefused = true)
    (hstale : opened = true → h.told = false) :
    Agreed connected opened { h with openRefused := true } :=
  ⟨fun _ hopened => Or.inr ⟨hstale hopened, Or.inr rfl⟩,
    fun _ hholds => Or.inr (hfit hholds)⟩

/-- A copy that is closed agrees with a process that holds nothing, and with one
that did not take the closing. -/
theorem closed {connected : Bool} {h : Heard}
    (hfit : connected = true → h.holds = true → h.closeRefused = true) :
    Agreed connected false h :=
  ⟨fun _ hopened => absurd hopened Bool.false_ne_true,
    fun hconnected hholds => Or.inr (hfit hconnected hholds)⟩

end Agreed

theorem Outgoing.explains_opening {h : Heard} {m : Outgoing}
    (hm : m.opens = true) (hfit : h.holds = true → h.closeRefused = true) :
    m.InOrder h ∨ m.Astray h := by
  unfold InOrder Astray
  rw [hm]
  cases hholds : h.holds with
  | true => exact Or.inr ⟨rfl, hfit hholds⟩
  | false => exact Or.inl rfl

namespace Desk

/-!
# Desks that speak

A desk that speaks of its document lets the connection live on and says nothing
of other documents, and nothing at all while the agent cannot be reached.
-/

/-- Whether a desk stayed with what concerns its document, and whatever it said
can be explained. -/
structure Speaks (k₀ k : Desk Connection) : Prop where
  seat : SameSeat k₀ k
  named : k.document.sync.uri = k.document.uri
  life : k₀.env.link.SameLife k.env.link
  apart {uri : Text} (h : uri ≠ k.document.uri ∨ k₀.env.connected = false) :
    heard uri k.env.trace = heard uri k₀.env.trace
  explained : Explained k.env.trace

structure SpeaksWell (k₀ k : Desk Connection) : Prop extends Speaks k₀ k where
  agreed :
      Agreed k.env.connected k.document.sync.opened
        (heard k.document.uri k.env.trace)

/-- Whether a desk differs from another in nothing that what it says depends on,
with silent events seen. -/
structure Idle (k k' : Desk Connection) : Prop where
  seat : SameSeat k k'
  named : k'.document.sync.uri = k.document.sync.uri
  closed : k'.document.closed = k.document.closed
  opened : k'.document.sync.opened = k.document.sync.opened
  life : k.env.link.SameLife k'.env.link
  events : Silently k.env.trace k'.env.trace

theorem Idle.trans {k k' k'' : Desk Connection} (h : Idle k k')
    (h' : Idle k' k'') :
    Idle k k'' where
  seat := h.seat.trans h'.seat
  named := h'.named.trans h.named
  closed := h'.closed.trans h.closed
  opened := h'.opened.trans h.opened
  life := h.life.trans h'.life
  events := h.events.trans h'.events

theorem Quiet.idle {k k' : Desk Connection} (h : Quiet k k') : Idle k k' where
  seat := .of_quiet h
  named := h.syncUri
  closed := h.closed
  opened := h.opened
  life := by
    rw [h.link]
    exact .refl _
  events := h.events.silently

theorem Speaks.connected {k₀ k : Desk Connection} (h : Speaks k₀ k) :
    k.env.connected = k₀.env.connected := h.life.connected

theorem Speaks.idle {k₀ k k' : Desk Connection} (h : Speaks k₀ k)
    (hidle : Idle k k') :
    Speaks k₀ k' where
  seat := h.seat.trans hidle.seat
  named := by rw [hidle.named, hidle.seat.uri, h.named]
  life := h.life.trans hidle.life
  apart hu := by
    rw [hidle.seat.uri] at hu
    rw [hidle.events.heard, h.apart hu]
  explained := h.explained.silently hidle.events

theorem SpeaksWell.idle {k₀ k k' : Desk Connection} (h : SpeaksWell k₀ k)
    (hidle : Idle k k') :
    SpeaksWell k₀ k' where
  toSpeaks := h.toSpeaks.idle hidle
  agreed := by
    have hconnected : k'.env.connected = k.env.connected := hidle.life.connected
    rw [hconnected, hidle.opened, hidle.seat.uri, hidle.events.heard]
    exact h.agreed

theorem Speaks.say {k₀ k k' : Desk Connection} (h : Speaks k₀ k)
    (hseat : SameSeat k k')
    (hnamed : k'.document.sync.uri = k.document.sync.uri)
    (hlife : k.env.link.SameLife k'.env.link)
    (hconnected : k.env.connected = true)
    (hothers : ∀ uri, uri ≠ k.document.uri →
    heard uri k'.env.trace = heard uri k.env.trace)
    (hexplained : Explained k'.env.trace) : Speaks k₀ k' where
  seat := h.seat.trans hseat
  named := by rw [hnamed, hseat.uri, h.named]
  life := h.life.trans hlife
  apart hu := by
    rw [hseat.uri] at hu
    rcases hu with hne | hoff
    · rw [hothers _ hne, h.apart (Or.inl hne)]
    · exact absurd (hoff.symm.trans (h.connected.symm.trans hconnected))
        Bool.false_ne_true
  explained := hexplained

/-!
# What opening, sending and closing say
-/

theorem announcement_life {text : Text} {language : String} {s s' : Sync}
    {env env' : Env Connection} {ok : Bool}
    (h : Sync.Announcement text language s env (ok, s', env')) :
    env.link.SameLife env'.link := by
  cases h with
  | offline _ => exact .refl _
  | refused _ hlink => exact Connection.notify_sameLife hlink
  | taken _ hlink => exact Connection.notify_sameLife hlink

theorem delivery_life {s s' : Sync} {env env' : Env Connection} {ok : Bool}
    (h : Sync.Delivery s env (ok, s', env')) : env.link.SameLife env'.link := by
  cases h with
  | nothing _ => exact .refl _
  | offline _ _ => exact .refl _
  | refused _ _ hlink => exact Connection.notify_sameLife hlink
  | taken _ _ hlink => exact Connection.notify_sameLife hlink

theorem life_kept (c : Connection) :
    KeptByTalk fun k : Desk Connection => c.SameLife k.env.link where
  quiet hquiet h := h.trans hquiet.idle.life
  announced _ _ hannounce h := h.trans (announcement_life hannounce)
  delivered _ hdelivery h := h.trans (delivery_life hdelivery)
  asked _ _ _ hlink h := h.trans (Connection.request_sameLife hlink nofun)
  unasked hlink h :=
    h.trans (Connection.request_sameLife hlink fun _ => ⟨_, rfl⟩)

/-- Opening a copy is in order or astray if the process holds no copy or did not
take its closing, and the desk agrees from then on. -/
theorem Speaks.announced {k₀ k : Desk Connection} {ok : Bool} {s : Sync}
    {env : Env Connection} (h : Speaks k₀ k)
    (hfit : k.env.connected = true →
    (heard k.document.uri k.env.trace).holds = true →
      (heard k.document.uri k.env.trace).closeRefused = true)
    (hstale : k.document.sync.opened = true →
    (heard k.document.uri k.env.trace).told = false)
    (hannounce : Sync.Announcement k.editor.text k.document.language
    k.document.sync k.env
      (ok, s, env)) : SpeaksWell k₀ (k.withSync s env).renewed := by
  cases hannounce with
  | offline hconnected =>
      refine ⟨h.idle ⟨⟨rfl, rfl, rfl, rfl⟩, rfl, rfl, rfl, .refl _, .refl _⟩,
        ?_⟩
      show Agreed k.env.connected k.document.sync.opened _
      rw [hconnected]
      exact .offline _ _
  | refused hconnected hlink =>
      rename_i r link
      have hlife := Connection.notify_sameLife hlink
      have hheard (uri : Text) :=
        heard_openRefused uri k.document.sync.uri k.env.trace
        "textDocument/didOpen" false r r
      constructor
      · refine h.say ⟨rfl, rfl, rfl, rfl⟩ rfl hlife hconnected ?_
          (h.explained.refused _ _ _ _)
        intro uri hne
        refine (hheard uri).trans (if_neg ?_)
        rw [h.named]
        exact fun heq => hne heq.symm
      · show Agreed _ k.document.sync.opened
          (heard k.document.uri (k.env.trace ++ _))
        rw [hheard, if_pos h.named]
        exact .openRefused (hfit hconnected) hstale
  | taken hconnected hlink =>
      have hlife := Connection.notify_sameLife hlink
      have huri :
          Outgoing.uri?
            (.notification (.didOpen k.document.sync.uri k.document.language
          k.document.sync.version k.editor.text)) =
            some k.document.uri := congrArg some h.named
      constructor
      · refine h.say ⟨rfl, rfl, rfl, rfl⟩ rfl hlife hconnected ?_ ?_
        · intro uri hne
          exact heard_other huri hne _
        · exact h.explained.say huri
            (Outgoing.explains_opening rfl (hfit hconnected))
      · show Agreed _ true (heard k.document.uri (k.env.trace ++
          [.sent (.notification (.didOpen k.document.sync.uri _ _ _))]))
        rw [h.named, heard_opened]
        exact .opened _ _

theorem SpeaksWell.delivered {k₀ k : Desk Connection} {ok : Bool} {s : Sync}
    {env : Env Connection} (h : SpeaksWell k₀ k)
    (hopened : k.document.sync.opened = true)
    (hdelivery : Sync.Delivery k.document.sync k.env (ok, s, env)) :
    SpeaksWell k₀ (k.withSync s env) := by
  cases hdelivery with
  | nothing _ => exact h
  | offline _ _ =>
      exact h.idle ⟨⟨rfl, rfl, rfl, rfl⟩, rfl, rfl, rfl, .refl _, .append _ rfl⟩
  | refused _ _ hlink =>
      exact h.idle
        ⟨⟨rfl, rfl, rfl, rfl⟩, rfl, rfl, rfl, Connection.notify_sameLife hlink,
          .append _ rfl⟩
  | taken hpending hconnected hlink =>
      rename_i link
      have hlife := Connection.notify_sameLife hlink
      have huri : Outgoing.uri? (.notification (.didChange k.document.sync.uri
          (k.document.sync.version + 1) k.document.sync.pending)) =
            some k.document.uri :=
        congrArg some h.named
      have hagreed := h.agreed
      rw [hconnected] at hagreed
      constructor
      · refine h.say ⟨rfl, rfl, rfl, rfl⟩ rfl hlife hconnected ?_ ?_
        · intro uri hne
          exact heard_other huri hne _
        · exact h.explained.say huri (hagreed.explains hopened rfl)
      · show Agreed (Link.connected link) k.document.sync.opened
          (heard k.document.uri (k.env.trace ++ _))
        rw [heard_concat, hlife.connected]
        exact h.agreed

theorem SpeaksWell.asked {k₀ k : Desk Connection} (h : SpeaksWell k₀ k)
    {id : Nat} {position : Position} {kind : TriggerKind} {link : Connection}
    (hopened : k.document.sync.opened = true)
    (hconnected : k.env.connected = true) (hlife : k.env.link.SameLife link) :
    SpeaksWell k₀ (k.seeing link
      [.sent (.request id (.completion k.document.uri position kind))]) := by
  have hagreed := h.agreed
  rw [hconnected] at hagreed
  constructor
  · refine h.say ⟨rfl, rfl, rfl, rfl⟩ rfl hlife hconnected ?_ ?_
    · intro uri hne
      exact heard_other rfl hne _
    · exact h.explained.say rfl (hagreed.explains hopened rfl)
  · show Agreed (Link.connected link) k.document.sync.opened
      (heard k.document.uri (k.env.trace ++ _))
    rw [heard_concat, hlife.connected]
    exact h.agreed

/-- Everything that a document says to bring the agent up to date and to ask is
in order or astray. -/
theorem speaksWell_kept (k₀ : Desk Connection) :
    KeptByTalk (SpeaksWell k₀) where
  quiet hquiet h := h.idle hquiet.idle
  announced _ hopened hannounce h := by
    refine h.announced ?_ ?_ hannounce
    · intro hconnected hholds
      rcases h.agreed.opens hconnected hholds with htrue | hrefused
      · exact absurd (hopened.symm.trans htrue) Bool.false_ne_true
      · exact hrefused
    · intro htrue
      exact absurd (hopened.symm.trans htrue) Bool.false_ne_true
  delivered hopened hdelivery h := h.delivered hopened hdelivery
  asked hconnected hflush hquiet hlink h := by
    have hopened := hquiet.opened.trans hflush.opened.1
    have hlife :=
      ((life_kept _).flushing hflush (.refl _)).trans hquiet.idle.life
    exact h.asked hopened (hlife.connected.trans hconnected)
      (Connection.request_sameLife hlink nofun)
  unasked hlink h :=
    h.idle ⟨⟨rfl, rfl, rfl, rfl⟩, rfl, rfl, rfl,
      Connection.request_sameLife hlink fun _ => ⟨_, rfl⟩, .append _ rfl⟩

theorem idle_kept {k₀ : Desk Connection} (hclosed : k₀.document.closed = true)
    (hopened : k₀.document.sync.opened = false) : KeptByTalk (Idle k₀) where
  quiet hquiet h := h.trans hquiet.idle
  announced hfalse _ _ h :=
    absurd (hfalse.symm.trans (h.closed.trans hclosed)) Bool.false_ne_true
  delivered htrue _ h :=
    absurd ((h.opened.trans hopened).symm.trans htrue) Bool.false_ne_true
  asked _ hflush hquiet _ h := by
    have htrue := hquiet.opened.trans hflush.opened.1
    exact absurd ((h.opened.trans hopened).symm.trans htrue) Bool.false_ne_true
  unasked hlink h :=
    h.trans ⟨⟨rfl, rfl, rfl, rfl⟩, rfl, rfl, rfl,
      Connection.request_sameLife hlink fun _ => ⟨_, rfl⟩, .append _ rfl⟩

theorem closed_kept (closed : Bool) :
    KeptByTalk fun k : Desk Connection => k.document.closed = closed where
  quiet hquiet h := hquiet.closed.trans h
  announced _ _ _ h := h
  delivered _ _ h := h
  asked _ _ _ _ h := h
  unasked _ h := h

/-- Opening a document is in order or astray if the process holds no copy or did
not take its closing. -/
theorem Speaks.openCopy {k₀ k : Desk Connection} (h : Speaks k₀ k)
    (hclosed : k.document.closed = false)
    (hfit : k.env.connected = true →
    (heard k.document.uri k.env.trace).holds = true →
      (heard k.document.uri k.env.trace).closeRefused = true)
    (hstale : k.document.sync.opened = true →
    (heard k.document.uri k.env.trace).told = false) :
    SpeaksWell k₀ k.openCopy.2 := by
  have hopening := opening k
  revert hopening
  generalize k.openCopy = r
  intro hopening
  cases hopening with
  | closed htrue => exact absurd (hclosed.symm.trans htrue) Bool.false_ne_true
  | failed _ hannounce => exact h.announced hfit hstale hannounce
  | done _ hannounce =>
      exact (h.announced hfit hstale hannounce).idle
        (quiet_renewed_tell rfl _).idle

theorem SpeaksWell.closing {k₀ k : Desk Connection} {s : Sync}
    {env : Env Connection} (h : SpeaksWell k₀ k)
    (hclosing : Sync.Closing k.document.sync k.env (s, env)) :
    SpeaksWell k₀ (k.withSync s env).ended := by
  cases hclosing with
  | unsaid hsilent =>
      constructor
      · exact ⟨h.seat.trans ⟨rfl, rfl, rfl, rfl⟩, h.named, h.life, h.apart,
          h.explained⟩
      · show Agreed k.env.connected false (heard k.document.uri k.env.trace)
        have hagreed := h.agreed
        rcases hsilent with hopened | hconnected
        · rw [hopened] at hagreed
          exact hagreed
        · rw [hconnected]
          exact .offline _ _
  | refused hopened hconnected hlink =>
      rename_i r link
      have hheard (uri : Text) :=
        heard_closeRefused uri k.document.sync.uri k.env.trace
        "textDocument/didClose" false r r
      constructor
      · refine h.say ⟨rfl, rfl, rfl, rfl⟩ rfl (Connection.notify_sameLife hlink)
          hconnected ?_ (h.explained.refused _ _ _ _)
        intro uri hne
        refine (hheard uri).trans (if_neg ?_)
        rw [h.named]
        exact fun heq => hne heq.symm
      · show Agreed _ false (heard k.document.uri (k.env.trace ++ _))
        rw [hheard, if_pos h.named]
        exact .closed fun _ _ => rfl
  | taken hopened hconnected hlink =>
      have huri :
          Outgoing.uri? (.notification (.didClose k.document.sync.uri)) =
          some k.document.uri := congrArg some h.named
      have hagreed := h.agreed
      rw [hconnected] at hagreed
      constructor
      · refine h.say ⟨rfl, rfl, rfl, rfl⟩ rfl (Connection.notify_sameLife hlink)
          hconnected ?_ ?_
        · intro uri hne
          exact heard_other huri hne _
        · exact h.explained.say huri (hagreed.explains hopened rfl)
      · show Agreed _ false (heard k.document.uri (k.env.trace ++
          [.sent (.notification (.didClose k.document.sync.uri))]))
        rw [h.named, heard_closed]
        exact .closed fun _ hfalse => absurd hfalse Bool.false_ne_true

theorem SpeaksWell.close {k₀ k : Desk Connection} (h : SpeaksWell k₀ k) :
    SpeaksWell k₀ k.close := by
  have hcleared := h.idle (quiet_cleared k).idle
  exact (hcleared.closing (Sync.closing _ _)).idle (quiet_tell rfl _).idle

theorem close_closed (k : Desk Connection) :
    k.close.document.closed = true ∧ k.close.document.sync.opened = false := by
  refine ⟨rfl, ?_⟩
  rw [close_sync]

end Desk

end InlineCompletion
