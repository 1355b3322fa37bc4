import InlineCompletion.Proofs.Document.GhostAlternation
import InlineCompletion.Proofs.Timer.Ringing

/-!
# The idle time behind edits

A run keeps a *diary*: when the text was edited, that a completion was asked for
by hand, that the document was closed, and when a completion was asked for by
nobody.  Nothing else restarts or ends the idle time behind an edit.  The main
statement is that the entry right before a completion that nobody asked for is
the edit that it was due behind, the idle time ago.
-/

namespace InlineCompletion

/-- Whether an event is a request for a completion that nobody asked for. -/
def Event.isAutomatic : Event → Bool
  | .sent (.request _ (.completion _ _ .automatic)) => true
  | _ => false

def automatics (es : List Event) : Nat := es.countP Event.isAutomatic

theorem automatics_append (es more : List Event) :
    automatics (es ++ more) = automatics es + automatics more :=
  List.countP_append

theorem Quietly.automatics {es es' : List Event} (h : Quietly es es') :
    automatics es' = automatics es := by
  rcases h with ⟨more, heq, hmore⟩
  have hnone : InlineCompletion.automatics more = 0 := by
    refine List.countP_eq_zero.mpr ?_
    intro e he hautomatic
    have hquiet := hmore e he
    unfold Event.isAutomatic at hautomatic
    split at hautomatic
    · cases hquiet
    · cases hautomatic
  rw [heq, automatics_append, hnone]
  rfl

inductive Entry where
  | edited (time : Int)
  | askedByHand
  | closed
  | asked (time : Int)
  deriving DecidableEq, Repr

def Entry.isAsked : Entry → Bool
  | .asked _ => true
  | _ => false

/-- The completions that were requested between two moments, and that nobody
asked for. -/
def Env.noted {τ : Type} (env env' : Env τ) : List Entry :=
  .replicate (automatics env'.trace - automatics env.trace)
    (.asked env'.clock.now)

/-- What is done by hand: asking for a completion, closing, and whatever the
editor reports. -/
def Desk.marks {τ : Type} (a : Action τ) (k : Desk τ) : List Entry :=
  match a with
  | .trigger => [.askedByHand]
  | .close => [.closed]
  | a => (k.reports a).toList.map fun _ => .edited k.env.clock.now

namespace Workspace

variable {τ : Type} [Link τ]

def written (a : Action τ) (w : Workspace τ) : List Entry :=
  match a with
  | .elapse milliseconds =>
      Alarm.record alarms ring (fun w w' => w.env.noted w'.env)
        (w.env.clock.now + milliseconds) w.alarms.length w
  | a => ((w.desk? 0).map (Desk.marks a)).getD [] ++
    w.env.noted (w.perform a).env

/-- The diary and the workspace that a run of allowed actions comes to. -/
inductive Diary (allowed : Workspace τ → Action τ → Prop)
    (start : Workspace τ) :
    List Entry → Workspace τ → Prop where
  | start : Diary allowed start [] start
  | step {es : List Entry} {w : Workspace τ} {a : Action τ}
      (h : Diary allowed start es w) (ha : allowed w a) :
          Diary allowed start (es ++ w.written a) (w.perform a)

/-- Whether nobody asks as an alarm would, and the alarm behind the last edit
goes off only as it was set. -/
def Timely (w : Workspace τ) : Action τ → Prop
  | .request _ => False
  | .triggerAlarm a => (.trigger 0, a) ∈ w.alarms
  | _ => True

end Workspace

/-!
# What leaves the idle time

Whatever speaks to the agent leaves the idle time, and only asking requests
completions.
-/

theorem automatics_behind (es : List Event) {more : List Event}
    (h : automatics more = 0) :
    automatics (es ++ more) = automatics es := by
  rw [automatics_append, h]
  rfl

namespace Sync

variable {τ : Type} [Link τ] {s s' : Sync} {env env' : Env τ} {ok : Bool}

theorem Announcement.automatics {text : Text} {language : String}
    (h : Announcement text language s env (ok, s', env')) :
    automatics env'.trace = automatics env.trace ∧ env'.clock = env.clock := by
  cases h with
  | offline _ => exact ⟨rfl, rfl⟩
  | refused _ _ => exact ⟨automatics_behind _ rfl, rfl⟩
  | taken _ _ => exact ⟨automatics_behind _ rfl, rfl⟩

theorem Delivery.automatics (h : Delivery s env (ok, s', env')) :
    automatics env'.trace = automatics env.trace ∧ env'.clock = env.clock := by
  cases h with
  | nothing _ => exact ⟨rfl, rfl⟩
  | offline _ _ => exact ⟨automatics_behind _ rfl, rfl⟩
  | refused _ _ _ => exact ⟨automatics_behind _ rfl, rfl⟩
  | taken _ _ _ => exact ⟨automatics_behind _ rfl, rfl⟩

theorem Closing.automatics (h : Closing s env (s', env')) :
    automatics env'.trace = automatics env.trace := by
  cases h with
  | unsaid _ => rfl
  | refused _ _ _ => exact automatics_behind _ rfl
  | taken _ _ _ => exact automatics_behind _ rfl

end Sync

namespace Desk

variable {τ : Type}

/-- Whether the idle time behind the last edit of a document runs on as it did
at another desk, where no completion was requested since that nobody asked
for. -/
structure Waits (k k' : Desk τ) : Prop where
  automatics : automatics k'.env.trace = automatics k.env.trace
  clock : k'.env.clock = k.env.clock
  closed : k'.document.closed = k.document.closed
  trigger : k'.document.trigger = k.document.trigger

namespace Waits

variable {k k' k'' : Desk τ}

theorem refl (k : Desk τ) : Waits k k := ⟨rfl, rfl, rfl, rfl⟩

theorem trans (h : Waits k k') (h' : Waits k' k'') : Waits k k'' :=
  ⟨h'.automatics.trans h.automatics, h'.clock.trans h.clock,
    h'.closed.trans h.closed, h'.trigger.trans h.trigger⟩

theorem withStage {s : Stage} (h : Stage.Quiet k.stage s) :
    Waits k (k.withStage s) :=
  ⟨h.events.automatics, rfl, rfl, rfl⟩

theorem tell {n : Notice} (hn : (Event.notice n).isQuiet = true) (k : Desk τ) :
    Waits k (k.tell n) :=
  ⟨(quiet_tell hn k).events.automatics, rfl, rfl, rfl⟩

theorem tellFault {α : Type} (r : Except Fault α × Desk τ) :
    Waits r.2 (tellFault r) := by
  unfold Desk.tellFault
  cases r.1 with
  | error f => exact tell rfl r.2
  | ok _ => exact refl r.2

theorem receive (ticket : Nat) (message : Json) (k : Desk τ) :
    Waits k (k.receive ticket message) := by
  have hquiet := (quiet_receive ticket message k).events.automatics
  rcases receive_stage ticket message k with ⟨s, hs, _⟩
  rw [hs] at hquiet ⊢
  exact ⟨hquiet, rfl, rfl, rfl⟩

variable [Link τ]

theorem openCopy (k : Desk τ) : Waits k k.openCopy.2 := by
  have hopening := opening k
  revert hopening
  generalize k.openCopy = r
  intro hopening
  cases hopening with
  | closed _ => exact refl k
  | failed _ hannounce =>
      exact ⟨hannounce.automatics.1, hannounce.automatics.2, rfl, rfl⟩
  | done _ hannounce =>
      exact ⟨(automatics_behind _ rfl).trans hannounce.automatics.1,
        hannounce.automatics.2, rfl, rfl⟩

theorem flushing {r : Bool × Desk τ} (h : Flushing k r) : Waits k r.2 := by
  cases h with
  | delivered _ hdelivery =>
      exact ⟨hdelivery.automatics.1, hdelivery.automatics.2, rfl, rfl⟩
  | unopened _ _ => exact ⟨automatics_behind _ rfl, rfl, rfl, rfl⟩
  | failed _ _ hannounce =>
      exact ⟨(automatics_behind _ rfl).trans hannounce.automatics.1,
        hannounce.automatics.2, rfl, rfl⟩
  | reopened _ _ hannounce =>
      exact ⟨(automatics_behind _ rfl).trans hannounce.automatics.1,
        hannounce.automatics.2, rfl, rfl⟩

/-- The alarm behind edits that were not sent leaves the other, once the clock
shows its time. -/
theorem ringFlush (a : Alarm) (k : Desk τ) :
    Waits (k.atTime a.due) (k.ringFlush a) := by
  have hfired :
      Waits (k.atTime a.due)
        (((k.atTime a.due).withSync k.document.sync.unschedule
      (k.atTime a.due).env).emit (.fired a.due)) :=
        ⟨automatics_behind _ rfl, rfl, rfl, rfl⟩
  exact hfired.trans (flushing (Desk.flushing _))

end Waits

/-!
# Asking
-/

/-- Whether a desk has asked once more than another, or not at all, by the kind
of the request. -/
structure Asks (kind : TriggerKind) (k k' : Desk τ) : Prop where
  automatics : automatics k'.env.trace = automatics k.env.trace ∨
    kind = .automatic ∧ automatics k'.env.trace = automatics k.env.trace + 1
  clock : k'.env.clock = k.env.clock
  closed : k'.document.closed = k.document.closed
  trigger : k'.document.trigger = k.document.trigger

namespace Asks

variable {kind : TriggerKind} {k k' k'' : Desk τ}

theorem of_waits (h : Waits k k') : Asks kind k k' :=
  ⟨Or.inl h.automatics, h.clock, h.closed, h.trigger⟩

theorem behind (h : Asks kind k k') (h' : Waits k' k'') : Asks kind k k'' := by
  refine ⟨?_, h'.clock.trans h.clock, h'.closed.trans h.closed,
    h'.trigger.trans h.trigger⟩
  rw [h'.automatics]
  exact h.automatics

theorem after (h : Asks kind k' k'') (h' : Waits k k') : Asks kind k k'' := by
  refine ⟨?_, h.clock.trans h'.clock, h.closed.trans h'.closed,
    h.trigger.trans h'.trigger⟩
  rw [← h'.automatics]
  exact h.automatics

theorem sent (id : Nat) (position : Position) (link : τ) (k : Desk τ) :
    Asks kind k
      (k.seeing link
        [.sent (.request id (.completion k.document.uri position kind))]) := by
  refine ⟨?_, rfl, rfl, rfl⟩
  cases kind with
  | invoked => exact Or.inl (automatics_behind _ rfl)
  | automatic => exact Or.inr ⟨rfl, automatics_append _ _⟩

variable [Link τ]

theorem asking {r : Except Fault (Option Nat) × Desk τ} (h : Asking kind k r) :
    Asks kind k r.2 := by
  have hposed : Waits k (k.posed kind) :=
    ⟨(quiet_posed kind k).events.automatics, rfl, rfl, rfl⟩
  have hrefused (link : τ) (r : Refusal) : Waits k ((k.posed kind).seeing link
      [.refused "textDocument/inlineCompletion" true r]) :=
    hposed.trans ⟨automatics_behind _ rfl, rfl, rfl, rfl⟩
  have hnamed (ticket : Nat) (id : Int) (k : Desk τ) :
      Waits k (k.named ticket id) :=
    ⟨rfl, rfl, rfl, rfl⟩
  cases h with
  | oneWay _ => exact of_waits (hrefused _ _)
  | refused _ _ =>
      exact of_waits
        ((hrefused _ _).trans ((Waits.tell rfl _).trans ⟨rfl, rfl, rfl, rfl⟩))
  | deferred _ =>
      exact ((sent _ _ _ (k.posed kind)).after hposed).behind (hnamed _ _ _)
  | answered _ =>
      exact ((sent _ _ _ (k.posed kind)).after hposed).behind
        ((Waits.receive _ _ _).trans (hnamed _ _ _))

theorem request (kind : TriggerKind) (k : Desk τ) :
    Asks kind k (k.request kind).2 := by
  unfold Desk.request prepare
  cases hclosed : k.document.closed with
  | true => exact of_waits (.refl k)
  | false =>
      cases hconnected : k.env.connected with
      | false => exact of_waits (.tell rfl k)
      | true =>
          have hflush := Waits.flushing (flushing k)
          cases hk : k.flush with
          | mk ok k' =>
              rw [hk] at hflush
              cases ok with
              | false => exact of_waits (hflush.trans (.tell rfl _))
              | true => exact (asking (Desk.asking kind k')).after hflush

end Asks

theorem close_automatics [Link τ] (k : Desk τ) :
    automatics k.close.env.trace = automatics k.env.trace := by
  have hclosing := (Sync.closing k.document.sync
    ((k.withTrigger k.document.trigger.cancel).onStage
      Stage.supersede).invalidate.env).automatics
  have htold (es : List Event) :
      automatics (es ++ [.notice (.closed k.document.name)]) = automatics es :=
    automatics_behind es rfl
  exact (htold _).trans (hclosing.trans (quiet_cleared k).events.automatics)

/-!
# Diaries
-/

theorem noted_eq_nil {k k' : Desk τ}
    (h : automatics k'.env.trace = automatics k.env.trace) :
    k.env.noted k'.env = [] := by
  unfold Env.noted
  rw [h, Nat.sub_self]
  rfl

end Desk

/-- Whether the entry right before each completion that nobody asked for is an
edit, so much time ago. -/
def Debounced (idle : Int) (es : List Entry) : Prop :=
  ∀ earlier t later, es = earlier ++ .asked t :: later →
    ∃ before, earlier = before ++ [.edited (t - idle)]

namespace Debounced

variable {idle : Int} {es : List Entry}

theorem nil : Debounced idle [] := by
  intro earlier t later h
  cases earlier <;> cases h

theorem concat (h : Debounced idle es) {n : Entry}
    (hn : ∀ t, n = .asked t → ∃ before, es = before ++ [.edited (t - idle)]) :
    Debounced idle (es ++ [n]) := by
  intro earlier t later hes
  rcases split_concat hes with ⟨hearlier, hlast, _⟩ | ⟨rest, _, hbefore⟩
  · rw [← hearlier]
    exact hn t hlast
  · exact h earlier t rest hbefore

end Debounced

namespace Desk

variable {τ : Type}

/-- What holds of a desk and its diary: the alarm behind the last edit is set
only if nothing was written down since that edit. -/
structure Watched (idle : Int) (automatic : Bool) (es : List Entry)
    (k : Desk τ) : Prop where
  interval : k.document.trigger.timer.interval = idle
  switched : k.document.trigger.automatic = automatic
  awaited : ∀ a, k.document.trigger.timer.alarm = some a →
    k.document.closed = false ∧ automatic = true ∧
      ∃ before, es = before ++ [.edited (a.due - idle)]
  debounced : Debounced idle es
  unasked (h : automatic = false) (t : Int) : .asked t ∉ es

namespace Watched

variable {idle : Int} {automatic : Bool} {es : List Entry} {k k' : Desk τ}

theorem waits (h : Watched idle automatic es k) (hwaits : Waits k k') :
    Watched idle automatic es k' where
  interval := (congrArg (·.timer.interval) hwaits.trigger).trans h.interval
  switched := (congrArg (·.automatic) hwaits.trigger).trans h.switched
  awaited a ha := by
    rw [hwaits.trigger] at ha
    rw [hwaits.closed]
    exact h.awaited a ha
  debounced := h.debounced
  unasked := h.unasked

theorem atTime (h : Watched idle automatic es k) (time : Int) :
    Watched idle automatic es (k.atTime time) :=
  ⟨h.interval, h.switched, h.awaited, h.debounced, h.unasked⟩

theorem unset (h : Watched idle automatic es k)
    (htrigger : k'.document.trigger = k.document.trigger.cancel) :
    Watched idle automatic es k' where
  interval := (congrArg (·.timer.interval) htrigger).trans h.interval
  switched := (congrArg (·.automatic) htrigger).trans h.switched
  awaited a ha := by
    rw [htrigger] at ha
    cases ha
  debounced := h.debounced
  unasked := h.unasked

theorem note (h : Watched idle automatic es k)
    (halarm : k.document.trigger.timer.alarm = none) {n : Entry}
    (hn : ∀ t, n = .asked t →
      automatic = true ∧ ∃ before, es = before ++ [.edited (t - idle)]) :
    Watched idle automatic (es ++ [n]) k where
  interval := h.interval
  switched := h.switched
  awaited a ha := nomatch ha.symm.trans halarm
  debounced := h.debounced.concat fun t ht => (hn t ht).2
  unasked hoff t ht := by
    rcases List.mem_append.mp ht with ht | ht
    · exact h.unasked hoff t ht
    · have hon := (hn t (List.mem_singleton.mp ht).symm).1
      exact Bool.false_ne_true (hoff.symm.trans hon)

end Watched

/-!
# Edits
-/

theorem recordEdit_trigger {k : Desk τ} (e : Edit)
    (hclosed : k.document.closed = false) :
    ∃ c : Clock, c.now = k.env.clock.now ∧
      (k.recordEdit e).document.trigger =
        (if k.document.trigger.automatic then
          { k.document.trigger with timer :=
            (k.document.trigger.timer.arm c).1 }
        else k.document.trigger) ∧
      (k.recordEdit e).document.closed = false := by
  have hopen : ¬ k.document.closed = true := by
    rw [hclosed]
    exact Bool.false_ne_true
  rw [recordEdit, if_neg hopen]
  refine ⟨(k.document.sync.timer.arm k.env.clock).2, rfl, ?_, hclosed⟩
  show (k.document.trigger.activity
    (k.document.sync.timer.arm k.env.clock).2).1 = _
  unfold Trigger.activity
  split <;> rfl

theorem recordEdit_automatics (e : Edit) (k : Desk τ) :
    automatics (k.recordEdit e).env.trace = automatics k.env.trace := by
  cases hclosed : k.document.closed with
  | true => rw [recordEdit_closed e hclosed]
  | false => exact (quiet_recordEdit e hclosed).events.automatics

theorem edit_automatics (f : Editor → Option Edit × Editor) (k : Desk τ) :
    automatics (k.edit f).env.trace = automatics k.env.trace := by
  unfold edit
  cases (f k.editor).1 with
  | none => rfl
  | some e => exact (recordEdit_automatics e _).trans (automatics_behind _ rfl)

namespace Waits

theorem moveCursor (offset : Int) (k : Desk τ) :
    Waits k (k.onEditor (Editor.moveCursor offset)) :=
  withStage (Stage.quiet_moveCursor offset k.stage)

end Waits

theorem accept_automatics (k : Desk τ) :
    automatics k.accept.env.trace = automatics k.env.trace := by
  have hstaged := Waits.withStage (Stage.quiet_accept k.stage)
  rcases accept_cases k with ⟨haccept, _⟩ | ⟨e, _, _, haccept⟩
  · rw [haccept]
    exact hstaged.automatics
  · rw [haccept, (Waits.moveCursor _ _).automatics, edit_automatics]
    exact hstaged.automatics

namespace Watched

variable {idle : Int} {automatic : Bool} {es : List Entry} {k : Desk τ}

theorem alarm_eq_none (h : Watched idle automatic es k)
    (hoff : k.document.closed = true ∨ automatic = false) :
    k.document.trigger.timer.alarm = none := by
  refine Option.eq_none_iff_forall_ne_some.mpr ?_
  intro a ha
  rcases h.awaited a ha with ⟨hopen, hon, _⟩
  rcases hoff with hclosed | hoff
  · exact Bool.false_ne_true (hopen.symm.trans hclosed)
  · exact Bool.false_ne_true (hoff.symm.trans hon)

theorem recordEdit (h : Watched idle automatic es k) (e : Edit) :
    Watched idle automatic (es ++ [.edited k.env.clock.now])
      (k.recordEdit e) := by
  cases hclosed : k.document.closed with
  | true =>
      rw [recordEdit_closed e hclosed]
      exact h.note (h.alarm_eq_none (Or.inl hclosed)) nofun
  | false =>
      rcases recordEdit_trigger e hclosed with ⟨c, hnow, htrigger, hopen⟩
      -- behind an edit, the alarm is that of this edit, or never set
      have hdebounced := h.debounced.concat (n := .edited k.env.clock.now) nofun
      have hunasked (hoff : automatic = false) (t : Int) :
          Entry.asked t ∉ es ++ [.edited k.env.clock.now] := by
        rw [List.mem_append, List.mem_singleton]
        rintro (ht | ht)
        · exact h.unasked hoff t ht
        · cases ht
      cases automatic with
      | false =>
          rw [if_neg (by rw [h.switched]; exact Bool.false_ne_true)] at htrigger
          have hnone := h.alarm_eq_none (Or.inr rfl)
          rw [← htrigger] at hnone
          exact ⟨(congrArg (·.timer.interval) htrigger).trans h.interval,
            (congrArg (·.automatic) htrigger).trans h.switched,
            fun a ha => (nomatch ha.symm.trans hnone), hdebounced, hunasked⟩
      | true =>
          rw [if_pos h.switched] at htrigger
          refine ⟨(congrArg (·.timer.interval) htrigger).trans h.interval,
            (congrArg (·.automatic) htrigger).trans h.switched, ?_, hdebounced,
            hunasked⟩
          intro a ha
          rw [htrigger] at ha
          cases ha
          refine ⟨hopen, rfl, es, ?_⟩
          have hdue :
              c.now + k.document.trigger.timer.interval - idle =
                k.env.clock.now := by
            rw [h.interval, hnow]
            omega
          rw [← hdue]

theorem edit (h : Watched idle automatic es k)
    (f : Editor → Option Edit × Editor) :
    Watched idle automatic
      (es ++ (f k.editor).1.toList.map fun _ => .edited k.env.clock.now)
        (k.edit f) := by
  unfold Desk.edit
  cases (f k.editor).1 with
  | none =>
      show Watched idle automatic (es ++ []) { k with editor := (f k.editor).2 }
      rw [List.append_nil]
      exact h.waits ⟨rfl, rfl, rfl, rfl⟩
  | some e =>
      have hedited : Watched idle automatic es
          (({ k with editor := (f k.editor).2 } : Desk τ).emit (.edited e)) :=
        h.waits ⟨automatics_behind _ rfl, rfl, rfl, rfl⟩
      exact hedited.recordEdit e

theorem accept (h : Watched idle automatic es k) :
    Watched idle automatic
      (es ++ (k.reports .accept).toList.map fun _ => .edited k.env.clock.now)
        k.accept := by
  have hstaged := h.waits (.withStage (Stage.quiet_accept k.stage))
  rcases accept_cases k with ⟨haccept, hreports⟩ | ⟨e, _, hreports, haccept⟩
  · rw [haccept, hreports]
    show Watched idle automatic (es ++ []) _
    rw [List.append_nil]
    exact hstaged
  · rw [haccept, hreports]
    exact (hstaged.edit (Editor.replace e)).waits (.moveCursor _ _)

/-!
# Alarms
-/

variable [Link τ]

/-- An alarm that was set asks at most once, the idle time after the edit that
it was set behind. -/
theorem ringTrigger (h : Watched idle automatic es k) {a : Alarm}
    (ha : k.document.trigger.timer.alarm = some a) :
    Watched idle automatic (es ++ k.env.noted (k.ringTrigger a).env)
      (k.ringTrigger a) := by
  let fired : Desk τ :=
    ((k.atTime a.due).withTrigger k.document.trigger.cancel).emit (.fired a.due)
  have hasks : Asks .automatic fired (k.ringTrigger a) :=
    (Asks.request .automatic fired).behind (.tellFault _)
  have hfired : automatics fired.env.trace = automatics k.env.trace :=
    automatics_behind _ rfl
  have hnow : (k.ringTrigger a).env.clock.now = a.due :=
    congrArg Clock.now hasks.clock
  have hunset : Watched idle automatic es (k.ringTrigger a) :=
    h.unset hasks.trigger
  rcases hasks.automatics with hsame | ⟨_, hmore⟩
  · rw [noted_eq_nil (hsame.trans hfired), List.append_nil]
    exact hunset
  · have hone : k.env.noted (k.ringTrigger a).env = [.asked a.due] := by
      unfold Env.noted
      rw [hmore, hfired, hnow, Nat.add_sub_cancel_left]
      rfl
    rw [hone]
    refine hunset.note (congrArg (·.timer.alarm) hasks.trigger) ?_
    intro t ht
    cases ht
    exact (h.awaited a ha).2

end Watched
end Desk

/-!
# Runs
-/

namespace Desk.Watched

variable {τ : Type} {idle : Int} {automatic : Bool} {es : List Entry}
    {k : Desk τ}

theorem silent (h : Watched idle automatic es k) {k' : Desk τ}
    (hwaits : Waits k k') :
    Watched idle automatic (es ++ k.env.noted k'.env) k' := by
  rw [noted_eq_nil hwaits.automatics, List.append_nil]
  exact h.waits hwaits

variable [Link τ]

theorem ringFlush (h : Watched idle automatic es k) (a : Alarm) :
    Watched idle automatic (es ++ k.env.noted (k.ringFlush a).env)
      (k.ringFlush a) :=
  (h.atTime a.due).silent (.ringFlush a k)

theorem perform (h : Watched idle automatic es k) {a : Action τ}
    (hrequest : ∀ reason, a ≠ .request reason)
    (halarm : ∀ b, a = .triggerAlarm b →
    k.document.trigger.timer.alarm = some b)
    (htime : ∀ milliseconds, a ≠ .elapse milliseconds) :
    Watched idle automatic (es ++ (k.marks a ++ k.env.noted (k.perform a).env))
      (k.perform a) := by
  have hmarked {k' : Desk τ} {ns : List Entry}
    (hk' : Watched idle automatic (es ++ ns) k')
      (hsame : automatics k'.env.trace = automatics k.env.trace) :
      Watched idle automatic (es ++ (ns ++ k.env.noted k'.env)) k' := by
    rw [noted_eq_nil hsame, List.append_nil]
    exact hk'
  cases a with
  | edit g => exact hmarked (h.edit g.run) (edit_automatics g.run k)
  | moveCursor offset => exact h.silent (.moveCursor offset k)
  | select anchor position =>
      exact h.silent
        ⟨(quiet_select anchor position k).events.automatics, rfl, rfl, rfl⟩
  | openCopy => exact h.silent (.openCopy k)
  | close =>
      have hunset : Watched idle automatic es k.close := h.unset rfl
      exact hmarked (hunset.note rfl nofun) (close_automatics k)
  | flush => exact h.silent (.flushing (Desk.flushing k))
  | trigger =>
      have hasks :=
        Asks.request .invoked (k.withTrigger k.document.trigger.cancel)
      have hunset : Watched idle automatic es k.trigger.2 :=
        h.unset hasks.trigger
      have hsame :
          automatics k.trigger.2.env.trace = automatics k.env.trace := by
        rcases hasks.automatics with hsame | ⟨hkind, _⟩
        · exact hsame
        · cases hkind
      exact hmarked (hunset.note (congrArg (·.timer.alarm) hasks.trigger) nofun)
        hsame
  | request reason => exact absurd rfl (hrequest reason)
  | accept => exact hmarked h.accept (accept_automatics k)
  | cancel => exact h.silent (.withStage (Stage.quiet_cancel k.stage))
  | cycle places =>
      exact h.silent (.withStage (Stage.quiet_cycle places k.stage))
  | supersede =>
      exact h.silent (.withStage (Stage.quiet_finish .superseded k.stage))
  | answer ticket message note =>
      have hrelinked : Waits k (k.relinked note) := ⟨rfl, rfl, rfl, rfl⟩
      exact h.silent (hrelinked.trans (.receive ticket message _))
  | flushAlarm a => exact h.ringFlush a
  | triggerAlarm a => exact h.ringTrigger (halarm a rfl)
  | elapse milliseconds => exact absurd rfl (htime milliseconds)
  | disturb f => exact h.silent ⟨rfl, rfl, rfl, rfl⟩

end Desk.Watched

namespace Hosts

variable {τ : Type} {w : Workspace τ} {k : Desk τ} {idle : Int}
    {automatic : Bool}
  {es : List Entry}

theorem alarm_of_mem (h : Hosts w k) {bell : Workspace.Bell} {a : Alarm}
    (ha : (bell, a) ∈ w.alarms) :
    (bell = .flush 0 ∧ k.document.sync.timer.alarm = some a) ∨
      (bell = .trigger 0 ∧ k.document.trigger.timer.alarm = some a) := by
  rw [h.alarms_eq] at ha
  simp only [Desk.alarms, Workspace.alarmsOf, List.mem_append,
    Option.mem_toList, Option.map_eq_some_iff, Prod.mk.injEq] at ha
  rcases ha with ⟨b, hb, hbell, hab⟩ | ⟨b, hb, hbell, hab⟩
  · exact Or.inl ⟨hbell.symm, by rw [hb, hab]⟩
  · exact Or.inr ⟨hbell.symm, by rw [hb, hab]⟩

variable [Link τ]

theorem watched_ring (h : Hosts w k) (hk : k.Watched idle automatic es)
    {bell : Workspace.Bell} {a : Alarm} (ha : (bell, a) ∈ w.alarms) :
    ∃ k', Hosts (w.ring bell a) k' ∧
      k'.Watched idle automatic (es ++ w.env.noted (w.ring bell a).env) := by
  rcases h.alarm_of_mem ha with ⟨hbell, _⟩ | ⟨hbell, hset⟩
  · have hring := h.ringFlush a
    rw [hbell, h.env, hring.env]
    exact ⟨_, hring, hk.ringFlush a⟩
  · have hring := h.ringTrigger a
    rw [hbell, h.env, hring.env]
    exact ⟨_, hring, hk.ringTrigger hset⟩

theorem watched_advance (h : Hosts w k) (hk : k.Watched idle automatic es)
    (milliseconds : Int) :
    ∃ k', Hosts (w.advance milliseconds) k' ∧
      k'.Watched idle automatic (es ++ w.written (.elapse milliseconds)) := by
  let time := w.env.clock.now + milliseconds
  let P (w : Workspace τ) (es : List Entry) : Prop :=
    ∃ k, Hosts w k ∧ k.Watched idle automatic es
  have hgo (w : Workspace τ) (es : List Entry) (bell : Workspace.Bell)
    (a : Alarm) (hw : P w es)
    (ha : (bell, a) ∈ w.alarms) (_ : a.due ≤ time) :
          P (w.ring bell a) (es ++ w.env.noted (w.ring bell a).env) := by
    rcases hw with ⟨k, hk, hwatched⟩
    exact hk.watched_ring hwatched ha
  have hstart : P w es := ⟨k, h, hk⟩
  rcases Alarm.ring_record (fun w w' => w.env.noted w'.env) hgo w.alarms.length
    hstart with
    ⟨k', hk', hwatched⟩
  exact ⟨_, hk'.atTime _, hwatched.atTime _⟩

theorem written_eq (h : Hosts w k) {a : Action τ}
    (htime : ∀ milliseconds, a ≠ .elapse milliseconds) :
    w.written a = k.marks a ++ k.env.noted (k.perform a).env := by
  rw [← (h.perform a).env]
  unfold Workspace.written
  rw [h.desk?, h.env]
  cases a with
  | elapse milliseconds => exact absurd rfl (htime milliseconds)
  | _ => rfl

theorem watched_perform (h : Hosts w k) (hk : k.Watched idle automatic es)
    {a : Action τ} (ha : w.Timely a) :
    ∃ k', Hosts (w.perform a) k' ∧
      k'.Watched idle automatic (es ++ w.written a) := by
  by_cases htime : ∃ milliseconds, a = .elapse milliseconds
  · rcases htime with ⟨milliseconds, htime⟩
    rw [htime]
    exact h.watched_advance hk milliseconds
  · have hnever (milliseconds : Int) : a ≠ .elapse milliseconds :=
      fun heq => htime ⟨milliseconds, heq⟩
    rw [h.written_eq hnever]
    refine ⟨k.perform a, h.perform a, hk.perform ?_ ?_ hnever⟩
    · intro reason heq
      rw [heq] at ha
      exact ha
    · intro b heq
      rw [heq] at ha
      rcases h.alarm_of_mem ha with ⟨hbell, _⟩ | ⟨_, hset⟩
      · cases hbell
      · exact hset

end Hosts

/-!
# What a diary holds

No completion is left out that nobody asked for, and no edit that changes the
text.
-/

theorem automatics_le_append (es more : List Event) :
    automatics es ≤ automatics (es ++ more) := by
  rw [automatics_append]
  exact Nat.le_add_right _ _

/-- Whether a diary holds all the completions that were requested since and that
nobody asked for. -/
def Complete (before : Nat) (es : List Entry) (seen : List Event) : Prop :=
  automatics seen = before + es.countP Entry.isAsked

theorem Complete.noted {τ : Type} {before : Nat} {es : List Entry}
    {env env' : Env τ} (h : Complete before es env.trace)
    (hgrows : automatics env.trace ≤ automatics env'.trace) :
    Complete before (es ++ env.noted env') env'.trace := by
  unfold Complete at h ⊢
  unfold Env.noted
  rw [List.countP_append, List.countP_replicate,
    if_pos (show (Entry.asked env'.clock.now).isAsked = true from rfl)]
  omega

namespace Desk

variable {τ : Type}

theorem Complete.marks {before : Nat} {es : List Entry} {k : Desk τ}
    (h : Complete before es k.env.trace) (a : Action τ) :
    Complete before (es ++ k.marks a) k.env.trace := by
  have hnone : (k.marks a).countP Entry.isAsked = 0 := by
    unfold Desk.marks
    refine List.countP_eq_zero.mpr ?_
    intro n hn hasked
    cases n with
    | asked t =>
        split at hn
        · simp at hn
        · simp at hn
        · simp at hn
    | _ => cases hasked
  unfold Complete at h ⊢
  rw [List.countP_append, hnone]
  exact h

variable [Link τ]

theorem Kept.automatics (n : Nat) :
    Kept fun k : Desk τ => n ≤ automatics k.env.trace where
  quiet hquiet h := hquiet.events.automatics ▸ h
  announced _ _ hannounce h := hannounce.automatics.1 ▸ h
  reannounced _ _ hannounce h := hannounce.automatics.1 ▸ h
  delivered _ hdelivery h := hdelivery.automatics.1 ▸ h
  closing hclosing h := hclosing.automatics ▸ h
  asked _ _ _ _ h := Nat.le_trans h (automatics_le_append _ _)
  unasked _ h := Nat.le_trans h (automatics_le_append _ _)

theorem automatics_le_perform (a : Action τ) (k : Desk τ) :
    automatics k.env.trace ≤ automatics (k.perform a).env.trace := by
  refine (Kept.automatics (automatics k.env.trace)).perform
    (F := fun _ _ => True) ?_ (fun _ h => h) (fun _ _ => trivial)
      (Nat.le_refl _)
  intro k f _ _ _ h
  rw [edit_automatics]
  exact h

theorem text_of_unreported {a : Action τ} {k : Desk τ}
    (h : k.reports a = none) :
    (k.perform a).editor.text = k.editor.text := by
  refine (Kept.text k.editor.text).perform (F := fun _ _ => False) ?_
    (fun _ h => h) ?_ rfl
  · intro k' f hreported _ hnone htext
    have htold := hreported k'.editor
    unfold Editor.Reported at htold
    unfold edit
    cases hf : (f k'.editor).1 with
    | none =>
        rw [hf] at htold
        exact htold.trans htext
    | some e => exact (hnone e hf).elim
  · intro e he
    cases h.symm.trans he

end Desk

namespace Hosts

variable {τ : Type} [Link τ] {w : Workspace τ} {k : Desk τ} {before : Nat}
    {es : List Entry}

theorem complete_ring (h : Hosts w k) (hes : Complete before es w.env.trace)
    {bell : Workspace.Bell} {a : Alarm} (ha : (bell, a) ∈ w.alarms) :
    Complete before (es ++ w.env.noted (w.ring bell a).env)
      (w.ring bell a).env.trace := by
  refine hes.noted ?_
  have hkept := Desk.Kept.automatics (τ := τ) (automatics k.env.trace)
  rcases h.alarm_of_mem ha with ⟨hbell, _⟩ | ⟨hbell, _⟩
  · rw [hbell, h.env, (h.ringFlush a).env]
    exact hkept.toKeptByTalk.ringFlush a (Nat.le_refl _)
  · rw [hbell, h.env, (h.ringTrigger a).env]
    exact hkept.toKeptByTalk.ringTrigger a (Nat.le_refl _)

theorem complete_advance (h : Hosts w k) (hes : Complete before es w.env.trace)
    (milliseconds : Int) :
    Complete before (es ++ w.written (.elapse milliseconds))
      (w.advance milliseconds).env.trace := by
  let time := w.env.clock.now + milliseconds
  let P (w : Workspace τ) (es : List Entry) : Prop :=
    (∃ k, Hosts w k) ∧ Complete before es w.env.trace
  have hgo (w : Workspace τ) (es : List Entry) (bell : Workspace.Bell)
    (a : Alarm) (hw : P w es)
    (ha : (bell, a) ∈ w.alarms) (_ : a.due ≤ time) :
          P (w.ring bell a) (es ++ w.env.noted (w.ring bell a).env) := by
    rcases hw with ⟨⟨k, hk⟩, hes⟩
    have hset := ha
    rw [hk.alarms_eq] at hset
    exact ⟨⟨_, hk.ring hset⟩, hk.complete_ring hes ha⟩
  have hstart : P w es := ⟨⟨k, h⟩, hes⟩
  exact (Alarm.ring_record (fun w w' => w.env.noted w'.env) hgo w.alarms.length
    hstart).2

theorem complete_perform (h : Hosts w k) (hes : Complete before es w.env.trace)
    (a : Action τ) :
    Complete before (es ++ w.written a) (w.perform a).env.trace := by
  by_cases htime : ∃ milliseconds, a = .elapse milliseconds
  · rcases htime with ⟨milliseconds, htime⟩
    rw [htime]
    exact h.complete_advance hes milliseconds
  · rw [h.env] at hes
    rw [h.written_eq fun milliseconds heq => htime ⟨milliseconds, heq⟩,
      (h.perform a).env, ← List.append_assoc]
    exact (Desk.Complete.marks hes a).noted (Desk.automatics_le_perform a k)

/-- Whatever changes the text is written down as an edit. -/
theorem edited_mem_written (h : Hosts w k) {a : Action τ}
    (hchanged : (k.perform a).editor.text ≠ k.editor.text) :
    .edited k.env.clock.now ∈ w.written a := by
  cases hreports : k.reports a with
  | none => exact absurd (Desk.text_of_unreported hreports) hchanged
  | some e =>
      have hmarks : k.marks a = [.edited k.env.clock.now] := by
        unfold Desk.marks
        cases a with
        | trigger => cases hreports
        | close => cases hreports
        | _ =>
            dsimp only
            rw [hreports]
            rfl
      rw [h.written_eq
        (fun milliseconds heq => by rw [heq] at hreports; cases hreports),
        hmarks]
      exact List.mem_cons_self

end Hosts

namespace Workspace

variable {τ : Type}

theorem Starts.watched {start : Workspace τ} (hstart : start.Starts) :
    ∃ k, Hosts start k ∧
      k.Watched (max 0 start.options.triggerIdle) start.options.automatic
        [] := by
  rcases hstart.hosts with ⟨k, hk, _⟩
  rcases hstart with ⟨env, _, e, options, uri, language, d, _, _, hcreate, hw⟩
  rcases Document.create_eq hcreate with ⟨name, hd⟩
  subst hd hw
  have hdocument :=
    List.singleton_inj.mp (show [_] = [k.document] from hk.documents)
  have htrigger :
      k.document.trigger = .fresh options.triggerIdle options.automatic :=
    (congrArg Document.trigger hdocument).symm
  refine ⟨k, hk, congrArg (·.timer.interval) htrigger,
    congrArg (·.automatic) htrigger, ?_, .nil, fun _ _ => List.not_mem_nil⟩
  intro a ha
  rw [htrigger] at ha
  cases ha

variable [Link τ]

theorem Diary.watched {start w : Workspace τ} {es : List Entry}
    (hstart : start.Starts) (h : Diary Timely start es w) :
    ∃ k, Hosts w k ∧
      k.Watched (max 0 start.options.triggerIdle) start.options.automatic es ∧
      Complete (automatics start.env.trace) es w.env.trace := by
  induction h with
  | start =>
      rcases hstart.watched with ⟨k, hk, hwatched⟩
      exact ⟨k, hk, hwatched, rfl⟩
  | step _ ha ih =>
      rename_i es w a _
      rcases ih with ⟨k, hk, hwatched, hcomplete⟩
      rcases hk.watched_perform hwatched ha with ⟨k', hk', hwatched'⟩
      exact ⟨k', hk', hwatched', hk.complete_perform hcomplete a⟩

/-- The entry right before each completion that nobody asked for is the edit
that it is due behind, the idle time ago, so that two of them never go back to
one edit; and there is none where this is switched off.  The diary holds all
such completions, and an edit whenever the text changes, be it by accepting a
candidate. -/
theorem automatic_completions_debounced {start w : Workspace τ}
    {es : List Entry} (hstart : start.Starts) (h : Diary Timely start es w) :
    (∀ earlier t later, es = earlier ++ .asked t :: later →
      ∃ before, earlier =
        before ++ [.edited (t - max 0 start.options.triggerIdle)]) ∧
    (∀ earlier t between t' later, es =
    earlier ++ .asked t :: between ++ .asked t' :: later →
      .edited (t' - max 0 start.options.triggerIdle) ∈ between) ∧
    (start.options.automatic = false → ∀ t, .asked t ∉ es) ∧
    automatics w.env.trace =
      automatics start.env.trace + es.countP Entry.isAsked ∧
    ∀ a e e', w.editors[0]? = some e → (w.perform a).editors[0]? = some e' →
      e'.text ≠ e.text →
      .edited w.env.clock.now ∈ w.written a := by
  rcases h.watched hstart with ⟨k, hk, hwatched, hcomplete⟩
  refine ⟨hwatched.debounced, ?_, hwatched.unasked, hcomplete, ?_⟩
  · intro earlier t between t' later hes
    rcases hwatched.debounced _ t' later hes with ⟨before, hbefore⟩
    rcases List.eq_nil_or_concat between with hnil | ⟨front, last, hlast⟩
    · rw [hnil] at hbefore
      cases (List.append_inj' hbefore rfl).2
    · rw [hlast, List.concat_eq_append, ← List.cons_append, ← List.append_assoc]
        at hbefore
      rw [hlast, List.concat_eq_append,
        List.singleton_inj.mp (List.append_inj' hbefore rfl).2]
      exact List.mem_append_right _ List.mem_cons_self
  · intro a e e' he he' hchanged
    have hperformed := hk.perform a
    rw [hk.editors] at he
    rw [hperformed.editors] at he'
    cases he
    cases he'
    rw [hk.env]
    exact hk.edited_mem_written hchanged

/-- The text was edited again before the idle time was over, what was asked for
then was accepted, and a completion was asked for by hand before the idle time
was over once more. -/
def paused : Workspace Scripted :=
  (((((((((sample ⟨true, false, false, none, [], false⟩).perform
    .openCopy).perform (.edit (.type ['x']))).perform (.elapse 300)).perform
      (.edit (.type ['y']))).perform
    (.elapse 600)).perform (.answer 0 (oneCandidate "old") id)).perform
      .accept).perform
    .trigger).perform (.elapse 1000)

theorem automatic_completions_debounced_paused :
    Diary Timely (sample ⟨true, false, false, none, [], false⟩)
        [.edited 0, .edited 300, .asked 800, .edited 900, .askedByHand] paused ∧
      (∃ before, [.edited 0, .edited 300] =
        before ++ [Entry.edited (800 - 500)]) ∧
      automatics paused.env.trace = 1 := by
  have hrun :
      ∃ es, Diary Timely (sample ⟨true, false, false, none, [], false⟩) es
        paused ∧
      es = [.edited 0, .edited 300, .asked 800, .edited 900, .askedByHand] := by
    refine ⟨_,
      .step (.step
        (.step (.step (.step (.step (.step (.step (.step .start trivial)
      trivial) trivial) trivial) trivial) trivial) trivial) trivial) trivial,
        ?_⟩
    decide +kernel
  rcases hrun with ⟨es, hdiary, hes⟩
  rw [hes] at hdiary
  rcases automatic_completions_debounced (sample_starts _) hdiary with
    ⟨hbehind, _, _, hall, _⟩
  exact ⟨hdiary,
    hbehind [.edited 0, .edited 300] 800 [.edited 900, .askedByHand] rfl, hall⟩

end Workspace
end InlineCompletion
