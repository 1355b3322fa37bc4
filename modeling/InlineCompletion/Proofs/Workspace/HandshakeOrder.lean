import InlineCompletion.Proofs.Workspace.Readiness

/-!
# The order of the handshake

A process of the agent is greeted, thanked for its answer, and told of
documents, until it is asked to shut down.  This order is kept in no single
place: whoever has something to say about a document looks whether the agent is
connected.  The main statement is that in every session each message about a
document goes to a process that took the thanks and was not asked to shut down
since; and that it was not asked at all, unless it answers its greeting while
its end is waited for.
-/

namespace InlineCompletion

/-!
# What a process took
-/

/-- The messages that the last process took, behind an event: one that is
started took none. -/
def tookBehind (ms : List Outgoing) : Event → List Outgoing
  | .process (.started ..) => []
  | .sent m => ms ++ [m]
  | _ => ms

/-- The messages that the last process that was started took. -/
def took (es : List Event) : List Outgoing := es.foldl tookBehind []

theorem took_concat (es : List Event) (e : Event) :
    took (es ++ [e]) = tookBehind (took es) e := by
  unfold took
  rw [List.foldl_append, List.foldl_cons, List.foldl_nil]

def Event.isUnsaid : Event → Bool
  | .sent _ => false
  | .process (.started ..) => false
  | _ => true

theorem Event.isUnsaid_of_isPlain {e : Event} (h : e.isPlain = true) :
    e.isUnsaid = true := by
  unfold isUnsaid
  split
  · cases h
  · cases h
  · rfl

theorem took_unsaid {more : List Event} (h : more.all Event.isUnsaid = true)
    (es : List Event) :
    took (es ++ more) = took es := by
  induction more generalizing es with
  | nil => rw [List.append_nil]
  | cons e rest ih =>
      rw [List.all_cons, Bool.and_eq_true] at h
      have hhere : took (es ++ [e]) = took es := by
        rw [took_concat]
        unfold tookBehind
        split
        · cases h.1
        · cases h.1
        · rfl
      rw [← List.singleton_append, ← List.append_assoc, ih h.2, hhere]

/-!
# What a process took before
-/

def Outgoing.ofDocument (m : Outgoing) : Bool :=
  "textDocument/".toList.isPrefixOf m.method.toList

def Event.ofDocument : Event → Bool
  | .sent m => m.ofDocument
  | _ => false

theorem Outgoing.ofDocument_greeting (id : Nat) :
    (Outgoing.request id .greeting).ofDocument = false := by
  show "textDocument/".toList.isPrefixOf "initialize".toList = false
  rfl

theorem Outgoing.ofDocument_shutdown (id : Nat) :
    (Outgoing.request id .shutdown).ofDocument = false := by
  show "textDocument/".toList.isPrefixOf "shutdown".toList = false
  rfl

def Undismissed (ms : List Outgoing) : Prop := ∀ id, .request id .shutdown ∉ ms

/-- Whether a property of what a process took before the thanks allows for
anything but that it was asked to shut down. -/
structure Terms (P : List Outgoing → Prop) : Prop where
  fresh : P []
  more {ms : List Outgoing} {m : Outgoing}
    (hm : ∀ id, m ≠ .request id .shutdown) :
    P ms → P (ms ++ [m])

theorem Terms.undismissed : Terms Undismissed where
  fresh := nofun
  more hm h id hmem := by
    rcases List.mem_append.mp hmem with hold | hnew
    · exact h id hold
    · exact hm id (List.mem_singleton.mp hnew).symm

/-- Whether a process took the thanks on such terms, and was not asked to shut
down since. -/
def Thanked (P : List Outgoing → Prop) (ms : List Outgoing) : Prop :=
  ∃ early late, ms = early ++ .notification .initialized :: late ∧ P early ∧
    Undismissed late

namespace Thanked

variable {P : List Outgoing → Prop} {ms : List Outgoing}

theorem thank (h : P ms) : Thanked P (ms ++ [.notification .initialized]) :=
  ⟨ms, [], rfl, h, nofun⟩

theorem more (h : Thanked P ms) {m : Outgoing}
    (hm : ∀ id, m ≠ .request id .shutdown) :
    Thanked P (ms ++ [m]) := by
  rcases h with ⟨early, late, rfl, hearly, hlate⟩
  exact ⟨early, late ++
    [m], List.append_assoc .., hearly, Terms.undismissed.more hm hlate⟩

theorem undismissed (h : Thanked Undismissed ms) : Undismissed ms := by
  rcases h with ⟨early, late, rfl, hearly, hlate⟩
  intro id hmem
  rcases List.mem_append.mp hmem with hmem | hmem
  · exact hearly id hmem
  · rcases List.mem_cons.mp hmem with heq | hmem
    · cases heq
    · exact hlate id hmem

end Thanked

/-- Whether each message about documents went to a process that took the
thanks. -/
def DocumentsThanked (P : List Outgoing → Prop) (es : List Event) : Prop :=
  ∀ before m after, es = before ++ .sent m :: after → m.ofDocument = true →
    Thanked P (took before)

namespace DocumentsThanked

variable {P : List Outgoing → Prop} {es : List Event}

theorem concat {e : Event} (h : DocumentsThanked P es)
    (he : ∀ m, e = .sent m → m.ofDocument = true → Thanked P (took es)) :
    DocumentsThanked P (es ++ [e]) := by
  intro before m after heq hm
  rcases split_concat heq with ⟨hes, hlast, _⟩ | ⟨rest, _, hes⟩
  · rw [← hes]
    exact he m hlast hm
  · exact h before m rest hes hm

theorem say {m : Outgoing} (h : DocumentsThanked P es)
    (hm : m.ofDocument = true → Thanked P (took es)) :
    DocumentsThanked P (es ++ [.sent m]) := by
  apply h.concat
  intro m' heq
  cases heq
  exact hm

theorem unsaid {more : List Event} (h : DocumentsThanked P es)
    (hmore : more.all Event.isUnsaid = true) :
    DocumentsThanked P (es ++ more) := by
  induction more generalizing es with
  | nil =>
      rw [List.append_nil]
      exact h
  | cons e rest ih =>
      rw [List.all_cons, Bool.and_eq_true] at hmore
      rw [← List.singleton_append, ← List.append_assoc]
      refine ih (h.concat ?_) hmore.2
      intro m heq
      rw [heq] at hmore
      cases hmore.1

end DocumentsThanked

/-- Whether the connection fits what its process took, also while the process
takes its leave. -/
structure Leaving (P : List Outgoing → Prop) (env : Env Connection) : Prop where
  starts (h : env.link.process.phase = .starting) : P (took env.trace)
  ordered : DocumentsThanked P env.trace

/-- Whether the connection fits what its process took: one that can be reached
was thanked, and one that is greeted may be. -/
structure Attending (P : List Outgoing → Prop) (env : Env Connection) : Prop
    extends Leaving P env where
  greets (h : env.link.greetings ≠ []) : P (took env.trace)
  reached (h : env.link.initialized = true) : Thanked P (took env.trace)

/-!
# Leave
-/

namespace Leaving

variable {P : List Outgoing → Prop} {env : Env Connection} {link : Connection}

theorem unsaid {es : List Event} (h : Leaving P env)
    (hphase : link.process.phase = env.link.process.phase)
    (hes : es.all Event.isUnsaid = true) : Leaving P (env.seeing link es) where
  starts hstarting := by
    show P (took (env.trace ++ es))
    rw [took_unsaid hes]
    exact h.starts (hphase.symm.trans hstarting)
  ordered := h.ordered.unsaid hes

theorem say {m : Outgoing} (h : Leaving P env)
    (hrunning : link.process.phase = .running)
    (hm : m.ofDocument = true → Thanked P (took env.trace)) :
    Leaving P (env.seeing link [.sent m]) where
  starts hstarting := nomatch hrunning.symm.trans hstarting
  ordered := h.ordered.say hm

theorem keptByLeave (P : List Outgoing → Prop) :
    Workspace.KeptByLeave (Leaving P) where
  course {env env'} h hleaving := by
    rcases h.plain with ⟨more, heq, hmore⟩
    have hsaid : Leaving P (env.seeing env'.link more) :=
      hleaving.unsaid h.life.phase
        (Event.all_of_isPlain Event.isUnsaid_of_isPlain hmore)
    refine ⟨?_, ?_⟩
    · rw [heq]
      exact hsaid.starts
    · rw [heq]
      exact hsaid.ordered
  asked {env} h := by
    unfold Env.request
    split
    · next receipt link hlink =>
        have hasked :
            Link.request .shutdown none env.link = (.ok receipt, link) := hlink
        have hphase := (Connection.request_sameLife hasked nofun).phase
        refine h.say (hphase.trans (Connection.request_running hasked)) ?_
        rw [Outgoing.ofDocument_shutdown]
        exact nofun
    · next hlink =>
        exact h.unsaid (Connection.request_sameLife hlink nofun).phase rfl
  said {env} h := by
    unfold Env.notify
    split
    · next link hlink =>
        have hphase := (Connection.notify_sameLife hlink).phase
        exact h.say (hphase.trans (Connection.send_running hlink)) nofun
    · next hlink => exact h.unsaid (Connection.notify_sameLife hlink).phase rfl
  ended h := ⟨nofun, h.ordered⟩

theorem attending (h : Leaving P env) (hgreetings : env.link.greetings = [])
    (hinitialized : env.link.initialized = false) : Attending P env where
  toLeaving := h
  greets hne := absurd hgreetings hne
  reached htrue := absurd (hinitialized.symm.trans htrue) Bool.false_ne_true

end Leaving

/-!
# Within one life of the process
-/

namespace Attending

variable {P : List Outgoing → Prop} {env : Env Connection} {link : Connection}

theorem goOn {env' : Env Connection} (h : Attending P env)
    (hlife : env.link.SameLife env'.link)
    (htook : took env'.trace = took env.trace)
    (hordered : DocumentsThanked P env'.trace) : Attending P env' where
  starts hstarting := by
    rw [htook]
    exact h.starts (hlife.phase.symm.trans hstarting)
  ordered := hordered
  greets hgreetings := by
    rw [htook]
    exact h.greets (hlife.greetings_ne hgreetings)
  reached hinitialized := by
    rw [htook]
    exact h.reached (hlife.initialized.symm.trans hinitialized)

theorem unsaid {es : List Event} (h : Attending P env)
    (hlife : env.link.SameLife link) (hes : es.all Event.isUnsaid = true) :
    Attending P (env.seeing link es) :=
  h.goOn hlife (took_unsaid hes _) (h.ordered.unsaid hes)

theorem tell (h : Attending P env) (n : Notice) : Attending P (env.tell n) :=
  h.unsaid (.refl _) rfl

theorem say (hP : Terms P) {m : Outgoing} (h : Attending P env)
    (hlife : env.link.SameLife link) (hconnected : env.connected = true)
    (hm : ∀ id, m ≠ .request id .shutdown) :
    Attending P (env.seeing link [.sent m]) := by
  rcases Bool.and_eq_true_iff.mp hconnected with ⟨hinitialized, hrunning⟩
  have hthanked := h.reached hinitialized
  have hphase : env.link.process.phase = .running :=
    beq_iff_eq.mp (Bool.and_eq_true_iff.mp hrunning).2
  have htook : took (env.trace ++ [.sent m]) = took env.trace ++ [m] :=
    took_concat ..
  refine ⟨h.toLeaving.say (hlife.phase.trans hphase) fun _ => hthanked, ?_, ?_⟩
  · intro hgreetings
    show P (took (env.trace ++ [.sent m]))
    rw [htook]
    exact hP.more hm (h.greets (hlife.greetings_ne hgreetings))
  · intro _
    show Thanked P (took (env.trace ++ [.sent m]))
    rw [htook]
    exact hthanked.more hm

theorem course (hP : Terms P) {tone : Tone} {env' : Env Connection}
    (h : Attending P env) (hcourse : env.Course tone env') :
    Attending P env' := by
  induction hcourse with
  | refl => exact h
  | step _ hstep ih =>
      cases hstep with
      | seen hplain =>
          exact ih.unsaid (.refl _)
            (Event.all_of_isPlain Event.isUnsaid_of_isPlain hplain)
      | timed _ => exact ih.goOn (.refl _) rfl ih.ordered
      | displayed _ => exact ih.goOn (.refl _) rfl ih.ordered
      | told _ _ hconnected hlink =>
          exact ih.say hP (Connection.notify_sameLife hlink) hconnected nofun
      | untold _ _ _ hlink =>
          exact ih.unsaid (Connection.notify_sameLife hlink) rfl
      | asked _ huri hconnected hlink =>
          have hlife := Connection.request_sameLife hlink nofun
          refine ih.say hP hlife hconnected ?_
          intro id heq
          cases heq
          cases huri
      | unasked _ _ _ hlink =>
          exact ih.unsaid (Connection.request_sameLife hlink nofun) rfl

/-!
# Start and end
-/

theorem start (hP : Terms P) (h : Attending P env) (hannounced : Announced env)
    (hidle : env.link.process.phase = .idle) :
    Attending P (Connection.start env).2 := by
  rcases hannounced.waits (by rw [hidle]; exact nofun) with
    ⟨hgreetings, hinitialized⟩
  have hcases := Connection.start_cases env
  revert hcases
  generalize (Connection.start env).2 = env'
  intro hcases
  cases hcases with
  | nothing => exact h
  | started program arguments directory =>
      refine Leaving.attending ⟨?_, ?_⟩ hgreetings hinitialized
      · intro _
        have hnothing :
            took (env.trace ++ [.notice (.agentStarting program arguments),
            .process (.started program arguments directory)]) = [] := by
          unfold took
          rw [List.foldl_append]
          rfl
        show P (took (env.trace ++ _))
        rw [hnothing]
        exact hP.fresh
      · have htold :
            DocumentsThanked P
              (env.trace ++ [.notice (.agentStarting program arguments)]) :=
          h.ordered.unsaid rfl
        have hstarted :=
          htold.concat (e := .process (.started program arguments directory))
          nofun
        rw [List.append_assoc] at hstarted
        exact hstarted

theorem began (hP : Terms P) (h : Attending P env) (hannounced : Announced env)
    (hstarting : env.link.process.phase = .starting) :
    Attending P (Connection.began env) := by
  rcases hannounced.waits (by rw [hstarting]; exact nofun) with
    ⟨_, hinitialized⟩
  have hfree := h.starts hstarting
  have hready {link : Connection} {es : List Event}
    (hrunning : link.process.phase = .running)
    (hfresh : link.initialized = false) (hnone : P (took (env.trace ++ es)))
    (hordered : DocumentsThanked P (env.trace ++ es)) :
          Attending P (env.seeing link es) := by
    refine ⟨⟨?_, hordered⟩, fun _ => hnone, ?_⟩
    · exact fun hfalse => nomatch hrunning.symm.trans hfalse
    · exact fun htrue => absurd (hfresh.symm.trans htrue) Bool.false_ne_true
  have hcases := Connection.began_cases env
  revert hcases
  generalize Connection.began env = env'
  intro hcases
  cases hcases with
  | refused hlink =>
      rcases Connection.request_state hlink with ⟨hphase, hfresh⟩
      refine hready hphase (hfresh.trans hinitialized) ?_ (h.ordered.unsaid rfl)
      rw [took_unsaid rfl]
      exact hfree
  | @greeted receipt link hlink =>
      rcases Connection.request_state hlink with ⟨hphase, hfresh⟩
      have htold : DocumentsThanked P (env.trace ++ [.notice .agentStarted]) :=
        h.ordered.unsaid rfl
      have hsame :
          took (env.trace ++ [.notice .agentStarted]) = took env.trace :=
        took_unsaid rfl _
      have hgreeted :
          DocumentsThanked P (env.trace ++ [.notice .agentStarted] ++
          [.sent (.request receipt.id .greeting)]) := by
        apply htold.say
        rw [Outgoing.ofDocument_greeting]
        exact nofun
      rw [List.append_assoc] at hgreeted
      refine hready hphase (hfresh.trans hinitialized) ?_ hgreeted
      show P (took (env.trace ++ ([.notice .agentStarted] ++ _)))
      rw [← List.append_assoc, took_concat, hsame]
      exact hP.more nofun hfree

theorem finished (h : Attending P env) (code : Json) :
    Attending P (Connection.finished code env) := by
  have hfinished := (Leaving.keptByLeave P).finished code h.toLeaving
  have hsignaled : Env.Course .mute _ (Connection.finished code env) :=
    .signal _ rfl
  refine hfinished.attending ?_ hsignaled.life.initialized
  exact List.eq_nil_of_sublist_nil hsignaled.life.greetings

theorem change {w : Workspace Connection} (h : Attending P w.env)
    {f : Worker → Worker} (hf : (Deed.change f).Possible w) :
    Attending P (w.onLink fun c => { c with process := f c.process }).env := by
  refine ⟨⟨?_, h.ordered⟩, h.greets, h.reached⟩
  intro hstarting
  rcases hf.1 with hsame | ⟨_, hidle⟩
  · exact h.starts (hsame.symm.trans hstarting)
  · cases hstarting.symm.trans hidle

end Attending

/-- Whether the process writes nothing while its end is waited for. -/
def Waits.silent (waits : Waits) : Bool :=
  (waits.asked.stirs ++ waits.killed.stirs).all fun
    | .wrote _ => false
    | .troubled _ => true

/-- Whether a process that is stopped before it answered its greeting writes
nothing any more. -/
def Deed.reticent (w : Workspace Connection) : Deed → Bool
  | .stop waits => w.env.link.greetings.isEmpty || waits.silent
  | _ => true

/-!
# What the process writes
-/

namespace Workspace

variable {P : List Outgoing → Prop} {w : Workspace Connection} {message : Json}

theorem attending_agentReady (hP : Terms P) (h : Attending P w.env) :
    Attending P w.agentReady.env := by
  rcases course_agentReady w with ⟨env, hbefore, hbehind⟩
  have hready : Attending P (env.emit .ready) :=
    (h.course hP hbefore).unsaid (.refl _) rfl
  exact hready.course hP hbehind

theorem attending_thanked (hP : Terms P) (h : Attending P w.env)
    (hfree : P (took w.env.trace)) {link : Connection}
    (hlink : Link.notify .initialized (w.noted message) = (none, link)) :
    Attending P (w.thanked link).env := by
  have hlife := Connection.notify_sameLife hlink
  have htook : took (w.env.trace ++ [.sent (.notification .initialized)]) =
      took w.env.trace ++ [.notification .initialized] := took_concat ..
  refine ⟨⟨?_, h.ordered.say nofun⟩, ?_, ?_⟩
  · intro hstarting
    cases (hlife.phase.trans (Connection.send_running hlink)).symm.trans
      hstarting
  · intro _
    show P (took (w.env.trace ++ [.sent (.notification .initialized)]))
    rw [htook]
    exact hP.more nofun hfree
  · intro _
    show Thanked P (took (w.env.trace ++ [.sent (.notification .initialized)]))
    rw [htook]
    exact .thank hfree

theorem attending_greeted (hP : Terms P) (h : Attending P w.env)
    (hfree : P (took w.env.trace))
    {r : Except Fault Unit × Workspace Connection}
    (hgreeted : Greeted message w r) : Attending P r.2.env := by
  have hnoted : w.env.link.SameLife (w.noted message) :=
    ⟨rfl, rfl, rfl, List.Sublist.refl _⟩
  cases hgreeted with
  | rejected e => exact h.tell _
  | unthanked hlink =>
      exact h.unsaid (hnoted.trans (Connection.notify_sameLife hlink)) rfl
  | unannounced _ hlink => exact attending_thanked hP h hfree hlink
  | announced name _ hlink =>
      have hthanked := attending_thanked hP h hfree hlink
      exact attending_agentReady hP (hthanked.tell (.agentReady name))

theorem attending_handled (hP : Terms P) (h : Attending P w.env)
    (hannounced : Announced w.env)
    {r : Except Fault Unit × Workspace Connection}
    (hhandled : Handled message w r) :
    Attending P r.2.env := by
  cases hhandled with
  | faulty _ _ _ => exact h
  | nothing _ _ => exact h
  | notified _ => exact h.unsaid (.refl _) rfl
  | greeted _ htake hgreeted =>
      rcases Connection.take_sameLife htake hannounced.once with
        ⟨hlife, hgreeting⟩
      have htaken : Attending P (w.onLink fun _ => _).env :=
        h.goOn hlife rfl h.ordered
      exact attending_greeted hP htaken (h.greets (hgreeting rfl).1) hgreeted
  | @completed id i ticket link _ htake =>
      have hlife := (Connection.take_sameLife htake hannounced.once).1
      have htaken : Attending P (w.onLink fun _ => link).env :=
        h.goOn hlife rfl h.ordered
      have hreceived : (w.onLink fun _ => link).Course .mute _ :=
        course_receive i ticket message _
      exact htaken.course hP hreceived.env
  | probed _ _ htake =>
      have hlife := (Connection.take_sameLife htake hannounced.once).1
      exact h.unsaid hlife rfl

theorem attending_keptByReading (hP : Terms P) :
    KeptByReading fun w : Workspace Connection => Announced w.env ∧
      Attending P w.env where
  handled message h := by
    have hhandled := attending_handled hP h.2 h.1 (handle_cases message _)
    exact ⟨announced_keptByReading.handled message h.1, hhandled⟩
  told n hn h := ⟨announced_keptByReading.told n hn h.1, h.2.tell n⟩
  buffered bytes h :=
    ⟨announced_keptByReading.buffered bytes h.1,
      h.2.goOn ⟨rfl, rfl, rfl, List.Sublist.refl _⟩ rfl h.2.ordered⟩
  unread bytes h :=
    ⟨announced_keptByReading.unread bytes h.1,
      h.2.goOn ⟨rfl, rfl, rfl, List.Sublist.refl _⟩ rfl h.2.ordered⟩

/-!
# While the end of the process is waited for
-/

/-- Whether nobody waits for the greeting: nothing that is read says anything of
documents then. -/
structure Overheard (P : List Outgoing → Prop) (env : Env Connection) :
    Prop extends
    Leaving P env where
  greetings : env.link.greetings = []

namespace Overheard

theorem goOn {env env' : Env Connection} (h : Overheard P env)
    (hlife : env.link.SameLife env'.link) (hleaving : Leaving P env') :
    Overheard P env' :=
  ⟨hleaving, hlife.greetings_nil h.greetings⟩

theorem unsaid {env : Env Connection} (h : Overheard P env) {link : Connection}
    (hlife : env.link.SameLife link) {es : List Event}
    (hes : es.all Event.isUnsaid = true) :
    Overheard P (env.seeing link es) :=
  h.goOn hlife (h.toLeaving.unsaid hlife.phase hes)

theorem onLink (h : Overheard P w.env) {f : Connection → Connection}
    (hlife : w.env.link.SameLife (f w.env.link)) :
    Overheard P (w.onLink f).env :=
  h.goOn hlife
    ⟨fun hstarting => h.starts (hlife.phase.symm.trans hstarting), h.ordered⟩

theorem keptByLeave (P : List Outgoing → Prop) : KeptByLeave (Overheard P) where
  course hcourse h :=
    h.goOn hcourse.life ((Leaving.keptByLeave P).course hcourse h.toLeaving)
  asked {env} h := by
    have hnobody : (none : Option Waiting) ≠ some .handshake := nofun
    have haside := Env.Aside.request hnobody .shutdown env
    exact h.goOn haside.link.life ((Leaving.keptByLeave P).asked h.toLeaving)
  said {env} h :=
    h.goOn (Env.Aside.notify .exit env).link.life
      ((Leaving.keptByLeave P).said h.toLeaving)
  ended h := ⟨(Leaving.keptByLeave P).ended h.toLeaving, rfl⟩

theorem handled (h : Overheard P w.env)
    {r : Except Fault Unit × Workspace Connection}
    (hhandled : Handled message w r) : Overheard P r.2.env := by
  have honce : w.env.link.greetings.length ≤ 1 := by
    rw [h.greetings]
    exact Nat.zero_le 1
  cases hhandled with
  | faulty _ _ _ => exact h
  | nothing _ _ => exact h
  | notified _ => exact h.unsaid (.refl _) rfl
  | greeted _ htake _ =>
      exact absurd h.greetings ((Connection.take_sameLife htake honce).2 rfl).1
  | @completed id i ticket link _ htake =>
      have hreceived : (w.onLink fun _ => link).Course .mute _ :=
        course_receive i ticket message _
      have htaken : Overheard P (w.onLink fun _ => link).env :=
        h.onLink (Connection.take_sameLife htake honce).1
      exact (keptByLeave P).course hreceived.env htaken
  | probed _ _ htake =>
      exact h.unsaid (Connection.take_sameLife htake honce).1 rfl

theorem keptByReading (P : List Outgoing → Prop) :
    KeptByReading fun w : Workspace Connection => Overheard P w.env where
  handled message h := h.handled (handle_cases message _)
  told _ _ h := h.unsaid (.refl _) rfl
  buffered _ h := h.onLink ⟨rfl, rfl, rfl, List.Sublist.refl _⟩
  unread _ h := h.onLink ⟨rfl, rfl, rfl, List.Sublist.refl _⟩

theorem keptByStop (P : List Outgoing → Prop) :
    KeptByStop fun w : Workspace Connection => Overheard P w.env :=
  (keptByLeave P).stop (keptByReading P).output fun h =>
    ⟨⟨h.starts, h.ordered⟩, rfl⟩

end Overheard

theorem mem_stirs_of_mem_moves {waits : Waits} {s : Stir}
    (h : .stirred s ∈ waits.moves) :
    s ∈ waits.asked.stirs ++ waits.killed.stirs := by
  have hwait {milliseconds : Nat} {x : Wait}
      (h : .stirred s ∈ x.moves milliseconds) :
      s ∈ x.stirs := by
    simpa [Wait.moves] using h
  unfold Waits.moves at h
  rcases List.mem_append.mp h with hasked | hkilled
  · exact List.mem_append_left _ (hwait hasked)
  · split at hkilled
    · cases hkilled
    · rcases List.mem_cons.mp hkilled with heq | hkilled
      · cases heq
      · exact List.mem_append_right _ (hwait hkilled)

theorem attending_move (hP : Terms P) (m : Move)
    (h : Announced w.env ∧ Attending P w.env) :
    Announced (w.move m).env ∧ Attending P (w.move m).env := by
  have hcourse {env : Env Connection} (hcourse : w.env.Course .mute env) :
      Announced env ∧ Attending P env :=
    ⟨h.1.aside hcourse.aside, h.2.course hP hcourse⟩
  cases m with
  | awaited milliseconds => exact hcourse (.emit _ rfl)
  | stirred s =>
      cases s with
      | wrote data => exact (attending_keptByReading hP).output data h
      | troubled kind => exact hcourse (course_troubled .mute kind w.env)
  | ended code =>
      exact ⟨Announced.keptByEnd.finished code h.1, h.2.finished code⟩
  | forced =>
      exact hcourse ((Env.Course.tell _ .agentKilled).trans (.emit _ rfl))

/-- What is said of documents while the process is stopped follows the thanks:
nothing is said unless the process answers its greeting then. -/
theorem leaving_moves (hP : Terms P) (h : Attending P w.env)
    (hannounced : Announced w.env) {waits : Waits}
    (hanswer : w.env.link.greetings ≠ [] → (∀ ms, P ms) ∨ waits.silent = true) :
    Leaving P (waits.moves.foldl move w.leave).env := by
  have hkept := Leaving.keptByLeave P
  have hleft : Leaving P w.leave.env := hkept.left h.toLeaving
  have haside := (keptByFarewell_aside w.env).left (.refl w.env)
  by_cases hgreetings : w.env.link.greetings = []
  · have hoverheard : Overheard P w.leave.env :=
      ⟨hleft, haside.link.life.greetings_nil hgreetings⟩
    have hmoved : Overheard P (waits.moves.foldl move w.leave).env :=
      moves_keep (P := fun w => Overheard P w.env)
        (fun m _ _ h => (Overheard.keptByStop P).moved m h) hoverheard
    exact hmoved.toLeaving
  · rcases hanswer hgreetings with hfree | hsilent
    · have hoff := (hannounced.greets hgreetings).1
      have hattending : Announced w.leave.env ∧ Attending P w.leave.env := by
        refine ⟨hannounced.aside haside, hleft, fun _ => hfree _, ?_⟩
        intro htrue
        exact absurd
          ((haside.link.life.initialized.trans hoff).symm.trans htrue)
            Bool.false_ne_true
      have hmoved : Announced (waits.moves.foldl move w.leave).env ∧
          Attending P (waits.moves.foldl move w.leave).env :=
        moves_keep (P := fun w => Announced w.env ∧ Attending P w.env)
          (fun m _ _ h => attending_move hP m h) hattending
      exact hmoved.2.toLeaving
    · refine moves_keep (P := fun w => Leaving P w.env) ?_ hleft
      intro m hm w' h'
      refine hkept.moved ?_ h'
      rintro data rfl
      cases List.all_eq_true.mp hsilent _ (mem_stirs_of_mem_moves hm)

theorem attending_stop (hP : Terms P) (h : Attending P w.env)
    (hannounced : Announced w.env) {waits : Waits}
    (hanswer : w.env.link.greetings ≠ [] → (∀ ms, P ms) ∨ waits.silent = true) :
    Attending P (w.stop waits).env := by
  have hstopped := stop_cases waits w
  revert hstopped
  generalize w.stop waits = w'
  intro hstopped
  cases hstopped with
  | unusable _ => exact h
  | idle _ _ => exact Leaving.attending ⟨h.starts, h.ordered⟩ rfl rfl
  | ended _ _ =>
      have hmoved := leaving_moves hP h hannounced hanswer
      exact Leaving.attending ⟨hmoved.starts, hmoved.ordered⟩ rfl rfl

/-!
# Sessions
-/

theorem attending_undergo (hP : Terms P) {d : Deed} (h : Attending P w.env)
    (hannounced : Announced w.env) (hd : d.Possible w)
    (hanswer : (∀ ms, P ms) ∨ d.reticent w = true) :
    Attending P (w.undergo d).env := by
  cases hprocess : d.ofProcess with
  | false =>
      rcases course_undergo hprocess w with ⟨tone, hcourse⟩
      exact h.course hP hcourse.env
  | true =>
      have hkept := attending_keptByReading hP
      cases d with
      | start => exact h.start hP hannounced hd
      | began => exact h.began hP hannounced hd
      | finished code => exact h.finished code
      | stop waits =>
          refine attending_stop hP h hannounced fun hgreetings =>
            hanswer.imp_right fun hsilent => ?_
          simpa [Deed.reticent, hgreetings] using hsilent
      | feed data => exact (hkept.feed data ⟨hannounced, h⟩).2
      | output data => exact (hkept.output data ⟨hannounced, h⟩).2
      | read => exact (hkept.read ⟨hannounced, h⟩).2
      | change f => exact h.change hd
      | _ => cases hprocess

theorem Unused.attending {start : Workspace Connection} (hstart : start.Unused)
    (hsilent : ∀ m, .sent m ∉ start.env.trace) : Attending P start.env := by
  rcases hstart.link with ⟨command, directory, room, hlink⟩
  have hleaving : Leaving P start.env := by
    refine ⟨?_, ?_⟩
    · rw [hlink]
      exact nofun
    · intro before m after heq
      have hmem : .sent m ∈ start.env.trace := by
        rw [heq]
        exact List.mem_append_right _ List.mem_cons_self
      exact absurd hmem (hsilent m)
  refine hleaving.attending ?_ ?_
  · rw [hlink]
    rfl
  · rw [hlink]
    rfl

theorem Session.attending (hP : Terms P) (hfree : ∀ ms, P ms)
    {start : Workspace Connection} (hstart : start.Unused)
    (hsilent : ∀ m, .sent m ∉ start.env.trace) (h : Session start w) :
    Announced w.env ∧ Attending P w.env := by
  induction h with
  | start => exact ⟨hstart.announced, hstart.attending hsilent⟩
  | step _ hd ih =>
      exact ⟨announced_undergo ih.1 hd,
        attending_undergo hP ih.2 ih.1 hd (Or.inl hfree)⟩

/-- The workspaces that a session comes to in which a process that is stopped
before it answered its greeting writes nothing any more: waiting for it brings
its end and nothing else. -/
inductive ReticentSession (start : Workspace Connection) :
    Workspace Connection → Prop where
  | start : ReticentSession start start
  | step {w : Workspace Connection} {d : Deed} (h : ReticentSession start w)
      (hd : d.Possible w) (hreticent : d.reticent w = true) :
          ReticentSession start (w.undergo d)

theorem ReticentSession.attending (hP : Terms P) {start : Workspace Connection}
    (hstart : start.Unused) (hsilent : ∀ m, .sent m ∉ start.env.trace)
    (h : ReticentSession start w) : Announced w.env ∧ Attending P w.env := by
  induction h with
  | start => exact ⟨hstart.announced, hstart.attending hsilent⟩
  | step _ hd hreticent ih =>
      exact ⟨announced_undergo ih.1 hd,
        attending_undergo hP ih.2 ih.1 hd (Or.inr hreticent)⟩

/-- Whether no process answers its greeting only as it is stopped, as things
happen one after the other. -/
def reticentAll (w : Workspace Connection) : List Deed → Bool
  | [] => true
  | d :: rest => d.reticent w && reticentAll (w.undergo d) rest

theorem ReticentSession.goOn {start w : Workspace Connection}
    (h : ReticentSession start w) (ds : List Deed)
    (hds : w.possibleAll ds = true) (hreticent : w.reticentAll ds = true) :
    ReticentSession start (ds.foldl undergo w) := by
  induction ds generalizing w with
  | nil => exact h
  | cons d rest ih =>
      rcases Bool.and_eq_true_iff.mp hds with ⟨hd, hrest⟩
      rcases Bool.and_eq_true_iff.mp hreticent with ⟨hhere, hthere⟩
      exact ih (h.step (of_decide_eq_true hd) hhere) hrest hthere

def parting (data : Bytes) : Waits :=
  ⟨⟨[.wrote data], some (.int 0)⟩, ⟨[], none⟩⟩

/-- A process answers its greeting only as it is stopped. -/
def lateAnswer : List Deed :=
  [.openDocument 0 (some ['/', 'a', '.', 'c']), .start, .began,
    .stop (parting
    (Frame.ofText (.obj [("id", .int 1), ("result", .obj [])])).bytes)]

theorem lateAnswer_told_behind :
    ∃ start w : Workspace Connection, start.Unused ∧ Session start w ∧
      ∃ before m after,
      w.env.trace = before ++ .sent m :: after ∧ m.ofDocument = true ∧
        ∃ asked ∈ took before, asked.method = "shutdown" := by
  refine ⟨blank, lateAnswer.foldl undergo blank, blank_unused,
    Session.start.goOn lateAnswer (by decide +kernel), ?_⟩
  have htold : ((lateAnswer.foldl undergo blank).env.trace.drop 13).head?.any
      Event.ofDocument = true := by decide +kernel
  have hasked : (took ((lateAnswer.foldl undergo blank).env.trace.take 13)).any
      (·.method == "shutdown") = true := by decide +kernel
  generalize (lateAnswer.foldl undergo blank).env.trace = es at htold hasked ⊢
  rcases (Option.any_eq_true _ _).mp htold with ⟨e, hhead, hm⟩
  rcases List.head?_eq_some_iff.mp hhead with ⟨after, hafter⟩
  rcases List.any_eq_true.mp hasked with ⟨asked, hmem, hmethod⟩
  cases e with
  | sent m =>
      refine ⟨es.take 13, m, after, ?_, hm, asked, hmem, eq_of_beq hmethod⟩
      rw [← hafter, List.take_append_drop]
  | _ => cases hm

end Workspace
end InlineCompletion
