import InlineCompletion.Proofs.Agent.CopyAgreement

/-!
# Steps at a desk

Whatever happens at a desk is made of a few steps: something is seen, time goes
on, the window changes, and a document speaks to the agent as long as it can be
reached.  A document is *stranded* if it has edits that the agent was not told
and nothing is due that would tell them, though the agent can be reached.  The
main statements are that each operation takes its course in such steps, that
edits say nothing, that what speaks records no edit, and that a document is
stranded only where it was before or a write failed.
-/

namespace InlineCompletion

/-- What may be said in a course: nothing, what becomes of documents, or
questions as well. -/
inductive Tone where
  | mute
  | telling
  | asking
  deriving DecidableEq

/-- Whether an event is neither a message, nor news of the process, nor an
answer that is shown. -/
def Event.isPlain : Event → Bool
  | .sent _ => false
  | .refused .. => false
  | .process (.started ..) => false
  | .ready => false
  | .notification _ => false
  | .answered .. => false
  | _ => true

theorem Event.all_of_isPlain {p : Event → Bool}
    (hp : ∀ {e : Event}, e.isPlain = true → p e = true) {es : List Event}
    (h : es.all Event.isPlain = true) : es.all p = true := by
  apply List.all_eq_true.mpr
  intro e he
  exact hp (List.all_eq_true.mp h e he)

def Plainly (es es' : List Event) : Prop :=
  ∃ more, es' = es ++ more ∧ more.all Event.isPlain = true

namespace Plainly

theorem refl (es : List Event) : Plainly es es :=
  ⟨[], (List.append_nil es).symm, rfl⟩

theorem append (es : List Event) {more : List Event}
    (h : more.all Event.isPlain = true) :
    Plainly es (es ++ more) := ⟨more, rfl, h⟩

theorem trans {es es' es'' : List Event} (h : Plainly es es')
    (h' : Plainly es' es'') :
    Plainly es es'' := by
  rcases h with ⟨more, heq, hmore⟩
  rcases h' with ⟨more', heq', hmore'⟩
  refine ⟨more ++ more', ?_, ?_⟩
  · rw [heq', heq, List.append_assoc]
  · rw [List.all_append, hmore, hmore']
    rfl

end Plainly

/-!
# Failed writes
-/

def Event.isFailure : Event → Bool
  | .refused _ _ (.writeFailed _) => true
  | _ => false

def failures (es : List Event) : Nat := es.countP Event.isFailure

theorem failures_append (es es' : List Event) :
    failures (es ++ es') = failures es + failures es' := List.countP_append

theorem failures_le_append (es es' : List Event) :
    failures es ≤ failures (es ++ es') := by
  rw [failures_append]
  exact Nat.le_add_right _ _

theorem failures_plain {more : List Event} (h : more.all Event.isPlain = true)
    (es : List Event) :
    failures (es ++ more) = failures es := by
  have hnone : failures more = 0 := by
    apply List.countP_eq_zero.mpr
    intro e he hfailure
    have hplain := List.all_eq_true.mp h e he
    unfold Event.isFailure at hfailure
    split at hfailure
    · cases hplain
    · cases hfailure
  rw [failures_append, hnone]
  rfl

theorem failures_behind (es : List Event) {e : Event} (h : e.isFailure = true) :
    failures es < failures (es ++ [e]) := by
  rw [failures_append]
  have hone : failures [e] = 1 := by
    unfold failures
    rw [List.countP_singleton, if_pos h]
  omega

theorem Connection.notify_failed {n : Notification} {c c' : Connection}
    {r : Refusal} (hconnected : Link.connected c = true)
    (h : Link.notify n c = (some r, c')) :
    ∃ reason, r = .writeFailed reason := by
  have hrunning : c.isRunning = true := (Bool.and_eq_true_iff.mp hconnected).2
  change c.send = (some r, c') at h
  unfold send at h
  rw [hrunning] at h
  cases hwrite : c.process.write with
  | mk taken p =>
      rw [hwrite] at h
      cases taken with
      | true => cases h
      | false =>
          cases h
          exact ⟨_, rfl⟩

namespace Env

inductive Step (tone : Tone) (env : Env Connection) :
    Env Connection → Prop where
  | seen {es : List Event} (h : es.all Event.isPlain = true) :
      Step tone env (env.emits es)
  | timed (clock : Clock) : Step tone env { env with clock := clock }
  | displayed (window : Option Window) :
      Step tone env { env with window := window }
  | told {n : Notification} {uri : Text} {link : Connection}
      (htone : tone ≠ .mute) (huri : n.uri? = some uri)
      (hconnected : env.connected = true)
      (hlink : Link.notify n env.link = (none, link)) :
      Step tone env (env.seeing link [.sent (.notification n)])
  | untold {n : Notification} {uri : Text} {r : Refusal} {link : Connection}
      (htone : tone ≠ .mute) (huri : n.uri? = some uri)
      (hconnected : env.connected = true)
      (hlink : Link.notify n env.link = (some r, link)) :
      Step tone env (env.seeing link [.refused n.method false r])
  | asked {q : Request} {uri : Text} {i ticket : Nat} {receipt : Receipt}
      {link : Connection} (htone : tone = .asking) (huri : q.uri? = some uri)
      (hconnected : env.connected = true)
      (hlink : Link.request q (some (.completion i ticket)) env.link =
        (.ok receipt, link)) :
      Step tone env (env.seeing link [.sent (.request receipt.id q)])
  | unasked {q : Request} {uri : Text} {i ticket : Nat} {r : Refusal}
      {link : Connection} (htone : tone = .asking) (huri : q.uri? = some uri)
      (hconnected : env.connected = true)
      (hlink : Link.request q (some (.completion i ticket)) env.link =
        (.error r, link)) :
      Step tone env (env.seeing link [.refused q.method true r])

inductive Course (tone : Tone) (env : Env Connection) :
    Env Connection → Prop where
  | refl : Course tone env env
  | step {env' env'' : Env Connection} (h : Course tone env env')
      (hstep : Step tone env' env'') :
      Course tone env env''

theorem Step.course {tone : Tone} {env env' : Env Connection}
    (h : Step tone env env') :
    Course tone env env' := .step .refl h

namespace Course

variable {tone : Tone} {env env' env'' : Env Connection}

theorem trans (h : Course tone env env') (h' : Course tone env' env'') :
    Course tone env env'' := by
  induction h' with
  | refl => exact h
  | step _ hstep ih => exact ih.step hstep

theorem emits (env : Env Connection) {es : List Event}
    (h : es.all Event.isPlain = true) :
    Course tone env (env.emits es) := (Step.seen h).course

theorem emit (env : Env Connection) {e : Event} (h : e.isPlain = true) :
    Course tone env (env.emit e) := by
  apply emits
  rw [List.all_cons, h]
  rfl

theorem tell (env : Env Connection) (n : Notice) :
    Course tone env (env.tell n) := emit env rfl

theorem plainly {es : List Event} (h : Plainly env.trace es) :
    Course tone env { env with trace := es } := by
  rcases h with ⟨more, heq, hmore⟩
  rw [heq]
  exact emits env hmore

theorem refreshWindow (env : Env Connection) :
    Course tone env env.refreshWindow := by
  unfold Env.refreshWindow
  cases env.window with
  | none => exact .refl
  | some v => exact (Step.displayed _).course.trans (emits _ rfl)

theorem signal (env : Env Connection) {e : Event} (h : e.isPlain = true) :
    Course tone env (env.signal e) := (refreshWindow env).trans (emit _ h)

theorem life (h : Course tone env env') : env.link.SameLife env'.link := by
  induction h with
  | refl => exact .refl _
  | step _ hstep ih =>
      refine ih.trans ?_
      cases hstep with
      | seen _ => exact .refl _
      | timed _ => exact .refl _
      | displayed _ => exact .refl _
      | told _ _ _ hlink => exact Connection.notify_sameLife hlink
      | untold _ _ _ hlink => exact Connection.notify_sameLife hlink
      | asked _ _ _ hlink => exact Connection.request_sameLife hlink nofun
      | unasked _ _ _ hlink => exact Connection.request_sameLife hlink nofun

theorem connected (h : Course tone env env') : env'.connected = env.connected :=
  h.life.connected

theorem failures_le (h : Course tone env env') :
    failures env.trace ≤ failures env'.trace := by
  induction h with
  | refl => exact Nat.le_refl _
  | step _ hstep ih =>
      refine Nat.le_trans ih ?_
      cases hstep with
      | seen _ => exact failures_le_append _ _
      | timed _ => exact Nat.le_refl _
      | displayed _ => exact Nat.le_refl _
      | told _ _ _ _ => exact failures_le_append _ _
      | untold _ _ _ _ => exact failures_le_append _ _
      | asked _ _ _ _ => exact failures_le_append _ _
      | unasked _ _ _ _ => exact failures_le_append _ _

theorem plain (h : Course .mute env env') : Plainly env.trace env'.trace := by
  induction h with
  | refl => exact .refl _
  | step _ hstep ih =>
      refine ih.trans ?_
      cases hstep with
      | seen hplain => exact .append _ hplain
      | timed _ => exact .refl _
      | displayed _ => exact .refl _
      | told htone _ _ _ => exact absurd rfl htone
      | untold htone _ _ _ => exact absurd rfl htone
      | asked htone _ _ _ => cases htone
      | unasked htone _ _ _ => cases htone

theorem failures_eq (h : Course .mute env env') :
    failures env'.trace = failures env.trace := by
  rcases h.plain with ⟨more, heq, hmore⟩
  rw [heq]
  exact failures_plain hmore _

end Course
end Env

/-!
# Ghost text
-/

namespace Stage

theorem plainly_hide (s : Stage) : Plainly s.trace s.hide.trace := by
  refine .append _ ?_
  split
  · split <;> rfl
  · rfl

theorem plainly_finish (outcome : Outcome) (s : Stage) :
    Plainly s.trace (s.finish outcome).trace := by
  unfold finish
  split
  · exact .refl _
  · exact (plainly_hide s).trans (.append _ rfl)

theorem plainly_render (x : Completion) (s : Stage) :
    Plainly s.trace (s.render x).trace := by
  refine (plainly_hide s).trans (.append _ ?_)
  split <;> rfl

theorem plainly_display (ticket : Nat) (s : Stage) :
    Plainly s.trace (s.display ticket).trace := by
  have hfinish := plainly_finish .superseded s
  unfold display
  dsimp only
  split
  · split
    · exact hfinish
    · exact hfinish.trans (plainly_render _ _)
  · exact hfinish

theorem plainly_cancel (s : Stage) : Plainly s.trace s.cancel.2.trace := by
  unfold cancel
  split
  · refine (plainly_finish .canceled s).trans (.append _ ?_)
    split <;> rfl
  · exact .refl _

theorem plainly_cycle (places : Int) (s : Stage) :
    Plainly s.trace (s.cycle places).2.trace := by
  unfold cycle
  split
  · split
    · exact .refl _
    · exact plainly_render _ _
  · exact .refl _

theorem plainly_accept (s : Stage) : Plainly s.trace s.accept.2.trace := by
  unfold accept
  split
  · exact .refl _
  · have hfinish := plainly_finish .accepted s
    dsimp only
    split
    · exact hfinish
    · exact hfinish

end Stage

/-!
# The agent's copy
-/

namespace Sync

/-- Whether an attempt to tell the agent everything took its course: it told
everything, or could not reach the agent, or failed. -/
structure Tended (tone : Tone) (s : Sync) (env : Env Connection) (s' : Sync)
    (env' : Env Connection) : Prop where
  course : env.Course tone env'
  kept : s'.pending = s.pending ∨ s'.pending = []
  sent (hpending : s'.pending ≠ []) (hconnected : env'.connected = true) :
    failures env.trace < failures env'.trace

variable {tone : Tone} {s s' : Sync} {env env' : Env Connection}

theorem Tended.offline (hconnected : env.connected = false)
    (henv : env.Course tone env') (hpending : s'.pending = s.pending) :
    Tended tone s env s' env' where
  course := henv
  kept := Or.inl hpending
  sent _ htrue :=
    absurd (hconnected.symm.trans (henv.connected.symm.trans htrue))
    Bool.false_ne_true

theorem Tended.refused {n : Notification} {uri : Text} {r : Refusal}
    {link : Connection} (htone : tone ≠ .mute) (huri : n.uri? = some uri)
    (hconnected : env.connected = true)
    (hlink : Link.notify n env.link = (some r, link))
    (hpending : s'.pending = s.pending) (notice : Notice) :
    Tended tone s env s'
      (env.seeing link [.refused n.method false r, .notice notice]) := by
  have hstep := (Env.Step.untold htone huri hconnected hlink).course
  have htold := hstep.trans (.tell _ notice)
  have hsame : (env.seeing link [.refused n.method false r]).tell notice =
      env.seeing link [.refused n.method false r, .notice notice] := by
    unfold Env.seeing Env.tell Env.emit
    rw [List.append_assoc]
    rfl
  rw [hsame] at htold
  refine ⟨htold, Or.inl hpending, ?_⟩
  intro _ _
  rcases Connection.notify_failed hconnected hlink with ⟨reason, hreason⟩
  rw [← hsame]
  refine Nat.lt_of_lt_of_le ?_ (failures_le_append _ [.notice notice])
  apply failures_behind
  rw [hreason]
  rfl

theorem Tended.taken {n : Notification} {uri : Text} {link : Connection}
    (htone : tone ≠ .mute) (huri : n.uri? = some uri)
    (hconnected : env.connected = true)
    (hlink : Link.notify n env.link = (none, link))
    (hpending : s'.pending = []) :
    Tended tone s env s' (env.seeing link [.sent (.notification n)]) where
  course := (Env.Step.told htone huri hconnected hlink).course
  kept := Or.inr hpending
  sent hne _ := absurd hpending hne

theorem Announcement.tended {text : Text} {language : String} {ok : Bool}
    (htone : tone ≠ .mute)
    (h : Announcement text language s env (ok, s', env')) :
    Tended tone s env s' env' := by
  cases h with
  | offline hconnected => exact .offline hconnected .refl rfl
  | refused hconnected hlink =>
      have hpending : s.unschedule.pending = s.pending := rfl
      exact .refused (n := .didOpen s.uri language s.version text) htone rfl
        hconnected hlink hpending _
  | taken hconnected hlink => exact .taken htone rfl hconnected hlink rfl

theorem Delivery.tended {ok : Bool} (htone : tone ≠ .mute)
    (h : Delivery s env (ok, s', env')) : Tended tone s env s' env' := by
  cases h with
  | nothing hpending =>
      exact ⟨.refl, Or.inl rfl, fun hne _ => absurd hpending hne⟩
  | offline _ hconnected => exact .offline hconnected (.tell _ _) rfl
  | refused _ hconnected hlink =>
      exact .refused (n := .didChange s.uri (s.version + 1) s.pending) htone rfl
        hconnected hlink rfl _
  | taken _ hconnected hlink => exact .taken htone rfl hconnected hlink rfl

theorem Closing.tended (htone : tone ≠ .mute) (h : Closing s env (s', env')) :
    env.Course tone env' ∧ s'.pending = [] := by
  cases h with
  | unsaid _ => exact ⟨.refl, rfl⟩
  | refused _ hconnected hlink =>
      have hpending : s.pending = s.pending := rfl
      exact ⟨(Tended.refused (n := .didClose s.uri) htone rfl hconnected hlink
        hpending _).course, rfl⟩
  | taken _ hconnected hlink =>
      exact ⟨(Env.Step.told htone rfl hconnected hlink).course, rfl⟩

end Sync

/-!
# Desks
-/

/-- Whether a document has edits that are not told, and no time at which they
will be. -/
structure Document.Stranded (d : Document) : Prop where
  unclosed : d.closed = false
  pending : d.sync.pending ≠ []
  unarmed : d.sync.timer.alarm = none

namespace Desk

/-- Whether a desk has edits that are not told though the agent can be reached,
and no time at which they will be. -/
structure Stranded (k : Desk Connection) : Prop where
  connected : k.env.connected = true
  document : k.document.Stranded

structure Course (tone : Tone) (k k' : Desk Connection) : Prop where
  number : k'.number = k.number
  place : k'.document.editor = k.document.editor
  env : k.env.Course tone k'.env
  kept (htone : tone ≠ .mute) :
    k'.document.sync.pending = k.document.sync.pending ∨
      k'.document.sync.pending = []
  strands (h : k'.Stranded) : failures k.env.trace < failures k'.env.trace ∨
    k.Stranded ∧ k'.document.sync.pending = k.document.sync.pending

variable {tone : Tone} {k k' k'' : Desk Connection}

namespace Course

theorem trans (h : Course tone k k') (h' : Course tone k' k'') :
    Course tone k k'' where
  number := h'.number.trans h.number
  place := h'.place.trans h.place
  env := h.env.trans h'.env
  kept htone := by
    rcases h'.kept htone with hsame | hnone
    · rw [hsame]
      exact h.kept htone
    · exact Or.inr hnone
  strands hstranded := by
    rcases h'.strands hstranded with hfailed | ⟨hstranded', hsame⟩
    · exact Or.inl (Nat.lt_of_le_of_lt h.env.failures_le hfailed)
    · rcases h.strands hstranded' with hfailed | ⟨hstranded, hsame'⟩
      · exact Or.inl (Nat.lt_of_lt_of_le hfailed h'.env.failures_le)
      · exact Or.inr ⟨hstranded, hsame.trans hsame'⟩

theorem idle (hnumber : k'.number = k.number)
    (hplace : k'.document.editor = k.document.editor)
    (henv : k.env.Course tone k'.env)
    (hclosed : k'.document.closed = k.document.closed)
    (hsync : k'.document.sync = k.document.sync) : Course tone k k' where
  number := hnumber
  place := hplace
  env := henv
  kept _ := Or.inl (congrArg Sync.pending hsync)
  strands h := by
    refine Or.inr ⟨⟨?_, ?_, ?_, ?_⟩, congrArg Sync.pending hsync⟩
    · rw [← henv.connected]
      exact h.connected
    · rw [← hclosed]
      exact h.document.unclosed
    · rw [← hsync]
      exact h.document.pending
    · rw [← hsync]
      exact h.document.unarmed

theorem refl (k : Desk Connection) : Course tone k k :=
  idle rfl rfl .refl rfl rfl

theorem withStage {s : Stage} (h : Plainly k.env.trace s.trace) :
    Course tone k (k.withStage s) :=
  idle rfl rfl (.plainly h) rfl rfl

theorem tell (n : Notice) (k : Desk Connection) : Course tone k (k.tell n) :=
  idle rfl rfl (.tell _ n) rfl rfl

theorem tended {s : Sync} {env : Env Connection}
    (h : Sync.Tended tone k.document.sync k.env s env)
    (hnumber : k'.number = k.number)
    (hplace : k'.document.editor = k.document.editor)
    (hsync : k'.document.sync = s) (henv : env.Course tone k'.env) :
    Course tone k k' ∧
      (k'.Stranded → failures k.env.trace < failures k'.env.trace) := by
  have hfails (hstranded : k'.Stranded) :
      failures k.env.trace < failures k'.env.trace := by
    refine Nat.lt_of_lt_of_le (h.sent ?_ ?_) henv.failures_le
    · rw [← hsync]
      exact hstranded.document.pending
    · rw [← henv.connected]
      exact hstranded.connected
  refine ⟨⟨hnumber, hplace, h.course.trans henv, ?_,
    fun hstranded => Or.inl (hfails hstranded)⟩, hfails⟩
  intro _
  rw [hsync]
  exact h.kept

end Course

/-!
# Opening, bringing up to date and closing
-/

theorem course_openCopy (htone : tone ≠ .mute) (k : Desk Connection) :
    Course tone k k.openCopy.2 ∧
      (k.openCopy.2.Stranded →
        failures k.env.trace < failures k.openCopy.2.env.trace) := by
  have hopening := opening k
  revert hopening
  generalize k.openCopy = r
  intro hopening
  cases hopening with
  | closed hclosed =>
      refine ⟨.refl k, ?_⟩
      intro hstranded
      exact absurd (hstranded.document.unclosed.symm.trans hclosed)
        Bool.false_ne_true
  | failed _ hannounce =>
      exact Course.tended (hannounce.tended htone) rfl rfl rfl .refl
  | done _ hannounce =>
      exact Course.tended (hannounce.tended htone) rfl rfl rfl (.tell _ _)

theorem course_flushing (htone : tone ≠ .mute) {r : Bool × Desk Connection}
    (h : Flushing k r) :
    Course tone k r.2 ∧
      (r.2.Stranded → failures k.env.trace < failures r.2.env.trace) := by
  cases h with
  | delivered _ hdelivery =>
      have htended := hdelivery.tended htone
      exact Course.tended ⟨htended.course, htended.kept, htended.sent⟩ rfl rfl
        rfl .refl
  | unopened _ hsilent =>
      have hnever
        (hstranded : ((k.withSync k.document.sync.unschedule k.env).tell
          (.flushUnopened k.document.sync.uri)).Stranded) : False := by
        rcases hsilent with hclosed | hoff
        · exact absurd (hstranded.document.unclosed.symm.trans hclosed)
            Bool.false_ne_true
        · exact absurd (hoff.symm.trans hstranded.connected) Bool.false_ne_true
      refine ⟨⟨rfl, rfl, .tell _ _, fun _ => Or.inl rfl, ?_⟩, ?_⟩
      · exact fun hstranded => absurd hstranded hnever
      · exact fun hstranded => absurd hstranded hnever
  | failed _ _ hannounce =>
      have htended := hannounce.tended htone
      exact Course.tended ⟨htended.course, htended.kept, htended.sent⟩ rfl rfl
        rfl (.tell _ _)
  | reopened _ _ hannounce =>
      have htended := hannounce.tended htone
      exact Course.tended ⟨htended.course, htended.kept, htended.sent⟩ rfl rfl
        rfl (.tell _ _)

theorem course_flush (htone : tone ≠ .mute) (k : Desk Connection) :
    Course tone k k.flush.2 :=
  (course_flushing htone (flushing k)).1

theorem course_flushDue (htone : tone ≠ .mute) (e : Event)
    (h : e.isPlain = true) (k : Desk Connection) :
    Course tone k
      ((k.withSync k.document.sync.unschedule k.env).emit e).flush.2 := by
  rcases course_flushing htone
    (flushing ((k.withSync k.document.sync.unschedule k.env).emit e)) with
    ⟨hflushed, hfails⟩
  have hfired : k.env.Course tone (k.env.emit e) := .emit _ h
  refine ⟨hflushed.number, hflushed.place, hfired.trans hflushed.env,
    hflushed.kept, ?_⟩
  intro hstranded
  exact Or.inl (Nat.lt_of_le_of_lt hfired.failures_le (hfails hstranded))

theorem course_close (htone : tone ≠ .mute) (k : Desk Connection) :
    Course tone k k.close := by
  let cleared :=
    (({ k with document :=
      { k.document with trigger := k.document.trigger.cancel } } :
    Desk Connection).onStage Stage.supersede).invalidate
  have hcleared : k.env.Course tone cleared.env :=
    .plainly (Stage.plainly_finish .superseded k.stage)
  rcases (Sync.closing cleared.document.sync cleared.env).tended htone with
    ⟨hclosing, hnone⟩
  refine ⟨rfl, rfl, (hcleared.trans hclosing).trans (.tell _ _),
    fun _ => Or.inr hnone, ?_⟩
  intro hstranded
  exact absurd hstranded.document.unclosed.symm Bool.false_ne_true

/-!
# Edits and completions
-/

theorem course_recordEdit (e : Edit) (k : Desk Connection) :
    Course .mute k (k.recordEdit e) := by
  cases hclosed : k.document.closed with
  | true =>
      rw [recordEdit_closed e hclosed]
      exact .refl k
  | false =>
      have hdismissed := Stage.plainly_finish .canceled k.stage
      unfold recordEdit
      rw [hclosed]
      refine ⟨rfl, rfl, ?_, fun htone => absurd rfl htone, ?_⟩
      · exact (Env.Course.plainly hdismissed).trans (Env.Step.timed _).course
      · intro hstranded
        have hunarmed := hstranded.document.unarmed
        cases hunarmed

theorem Course.displayed (h : Course tone k k') (completions : Completions)
    (ticket : Nat) :
    Course tone k
      (({ k' with document :=
        { k'.document with completions := completions } } :
      Desk Connection).onStage (Stage.display ticket)) :=
  (h.trans (.idle rfl rfl .refl rfl rfl)).trans
    (.withStage (Stage.plainly_display ticket _))

theorem course_receive (ticket : Nat) (message : Json) (k : Desk Connection) :
    Course tone k (k.receive ticket message) := by
  unfold receive
  split
  · exact .refl _
  · split
    · exact .tell _ _
    · split
      · split
        · exact (Course.tell _ k).trans (.idle rfl rfl .refl rfl rfl)
        · split
          · exact (Course.tell _ k).trans (.idle rfl rfl .refl rfl rfl)
          · rename_i members _ _
            cases Candidate.ofResult
              ((Json.Members.get? "result" members).getD .null) with
            | mk candidates oddity =>
                cases oddity with
                | none =>
                    dsimp only
                    split
                    · exact .idle rfl rfl .refl rfl rfl
                    · exact .displayed (.refl _) _ _
                | some o =>
                    refine (Course.tell (.oddAnswer o) k).trans ?_
                    dsimp only
                    split
                    · exact .idle rfl rfl .refl rfl rfl
                    · exact .displayed (.refl _) _ _
      · exact (Course.tell _ k).trans (.idle rfl rfl .refl rfl rfl)

theorem course_asking {kind : TriggerKind}
    {r : Except Fault (Option Nat) × Desk Connection}
    (hconnected : k.env.connected = true) (h : Asking kind k r) :
    Course .asking k r.2 := by
  have hposed : Course .asking k (k.posed kind) :=
    .idle rfl rfl (.plainly (Stage.plainly_finish .superseded k.stage)) rfl rfl
  have hseen {link : Connection} {es : List Event}
      (hstep : (k.posed kind).env.Step .asking
        ((k.posed kind).env.seeing link es)) :
      Course .asking k ((k.posed kind).seeing link es) :=
    hposed.trans (.idle rfl rfl hstep.course rfl rfl)
  cases h with
  | oneWay hlink =>
      exact hseen (.unasked (q := k.question kind) rfl rfl hconnected hlink)
  | refused _ hlink =>
      have hrefused :=
        hseen (.unasked (q := k.question kind) rfl rfl hconnected hlink)
      exact (hrefused.trans (.tell _ _)).trans (.idle rfl rfl .refl rfl rfl)
  | deferred hlink =>
      exact (hseen
        (.asked (q := k.question kind) rfl rfl hconnected hlink)).trans
          (.idle rfl rfl .refl rfl rfl)
  | answered hlink =>
      have hasked :=
        hseen (.asked (q := k.question kind) rfl rfl hconnected hlink)
      exact (hasked.trans (course_receive _ _ _)).trans
        (.idle rfl rfl .refl rfl rfl)

theorem course_requesting (h : Requesting k k') : Course .asking k k' := by
  have hasking : Tone.asking ≠ .mute := nofun
  cases h with
  | closed _ => exact .refl _
  | offline _ => exact .tell _ _
  | unsynced hflush =>
      exact (course_flushing hasking hflush).1.trans (.tell _ _)
  | unknown hflush => exact (course_flushing hasking hflush).1
  | asked hconnected hflush hask =>
      have hflushed := (course_flushing hasking hflush).1
      exact hflushed.trans
        (course_asking (hflushed.env.connected.trans hconnected) hask)

end Desk

end InlineCompletion
