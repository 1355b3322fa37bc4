import InlineCompletion.Proofs.Workspace.Conversation

/-!
# The news that the agent is ready

As soon as its process took the thanks for the answer to the greeting, the agent
counts as connected; that it is ready is announced behind that, by the name it
gave.  The main statement is that each process that can be reached was announced
once, unless what the agent said about itself is no object: then it is never
announced.
-/

namespace InlineCompletion

/-- How often the agent was announced since its process was started, behind an
event. -/
def announcedBehind (n : Nat) : Event → Nat
  | .process (.started ..) => 0
  | .ready => n + 1
  | _ => n

/-- How often the agent was announced since its process was started. -/
def announcements (es : List Event) : Nat := es.foldl announcedBehind 0

theorem announcements_concat (es : List Event) (e : Event) :
    announcements (es ++ [e]) = announcedBehind (announcements es) e := by
  unfold announcements
  rw [List.foldl_append, List.foldl_cons, List.foldl_nil]

theorem announcements_landmarks (es : List Event) :
    announcements (landmarks es) = announcements es := by
  have hfold (es : List Event) (n : Nat) :
      (landmarks es).foldl announcedBehind n = es.foldl announcedBehind n := by
    induction es generalizing n with
    | nil => rfl
    | cons e rest ih =>
        unfold landmarks
        rw [List.filter_cons]
        split
        · exact ih _
        · next hpassing =>
            have hsame : announcedBehind n e = n := by
              unfold announcedBehind
              split
              · exact absurd rfl hpassing
              · exact absurd rfl hpassing
              · rfl
            rw [List.foldl_cons, hsame]
            exact ih n
  exact hfold es 0

theorem Env.Aside.announcements {env env' : Env Connection}
    (h : env.Aside env') :
    announcements env'.trace = announcements env.trace := by
  rw [← announcements_landmarks, h.landmarks, announcements_landmarks]

namespace Connection

/-- Whether what the agent said about itself is an object. -/
def introduced (c : Connection) : Bool :=
  match c.serverInfo with
  | .obj _ => true
  | _ => false

theorem introduced_iff {c : Connection} :
    c.introduced = true ↔ ∃ members, c.serverInfo = .obj members := by
  unfold introduced
  cases c.serverInfo <;> simp

end Connection

/-- Whether the connection fits how often the agent was announced: not before it
answered, and once behind that if it said about itself what can be read. -/
structure Announced (env : Env Connection) : Prop where
  waits (h : env.link.process.phase ≠ .running) :
    env.link.greetings = [] ∧ env.link.initialized = false
  starts (h : env.link.process.phase = .starting) : announcements env.trace = 0
  greets (h : env.link.greetings ≠ []) :
    env.link.initialized = false ∧ announcements env.trace = 0
  once : env.link.greetings.length ≤ 1
  told (h : env.link.initialized = true) :
    announcements env.trace = if env.link.introduced then 1 else 0

namespace Announced

variable {env env' : Env Connection}

theorem goOn (h : Announced env) (hlife : env.link.SameLife env'.link)
    (hinfo : env.link.initialized = true →
    env'.link.serverInfo = env.link.serverInfo)
    (hsame : announcements env'.trace = announcements env.trace) :
    Announced env' where
  waits hphase := by
    rw [hlife.phase] at hphase
    rcases h.waits hphase with ⟨hgreetings, hinitialized⟩
    exact ⟨hlife.greetings_nil hgreetings,
      hlife.initialized.trans hinitialized⟩
  starts hphase := by
    rw [hlife.phase] at hphase
    rw [hsame]
    exact h.starts hphase
  greets hgreetings := by
    have hne := hlife.greetings_ne hgreetings
    rcases h.greets hne with ⟨hinitialized, hnone⟩
    exact ⟨hlife.initialized.trans hinitialized, hsame.trans hnone⟩
  once := Nat.le_trans hlife.greetings.length_le h.once
  told hinitialized := by
    rw [hlife.initialized] at hinitialized
    have hintroduced : env'.link.introduced = env.link.introduced := by
      unfold Connection.introduced
      rw [hinfo hinitialized]
    rw [hsame, hintroduced]
    exact h.told hinitialized

theorem aside (h : Announced env) (haside : env.Aside env') : Announced env' :=
  h.goOn haside.link.life (fun _ => haside.link.info) haside.announcements

/-!
# Start and end
-/

theorem unheard (hgreetings : env.link.greetings = [])
    (hinitialized : env.link.initialized = false)
    (hstarts : env.link.process.phase = .starting →
    announcements env.trace = 0) :
    Announced env where
  waits _ := ⟨hgreetings, hinitialized⟩
  starts := hstarts
  greets hne := absurd hgreetings hne
  once := by
    rw [hgreetings]
    exact Nat.zero_le 1
  told htrue := absurd (hinitialized.symm.trans htrue) Bool.false_ne_true

theorem reached (hrunning : env.link.process.phase = .running)
    (hgreetings : env.link.greetings = [])
    (htold : announcements env.trace = if env.link.introduced then 1 else 0) :
    Announced env where
  waits hne := absurd hrunning hne
  starts hstarting := nomatch hrunning.symm.trans hstarting
  greets hne := absurd hgreetings hne
  once := by
    rw [hgreetings]
    exact Nat.zero_le 1
  told _ := htold

theorem keptByEnd : Workspace.KeptByEnd Announced where
  aside haside h := h.aside haside
  ended _ := unheard rfl rfl nofun
  hungUp h := unheard rfl rfl h.starts

theorem start (h : Announced env) (hidle : env.link.process.phase = .idle) :
    Announced (Connection.start env).2 := by
  rcases h.waits (by rw [hidle]; exact nofun) with ⟨hgreetings, hinitialized⟩
  unfold Connection.start
  split
  · exact h
  · exact unheard hgreetings hinitialized fun _ => announcements_concat ..

/-- The process is greeted as it comes to run; a greeting that it does not take
is not waited for. -/
theorem began (h : Announced env)
    (hstarting : env.link.process.phase = .starting) :
    Announced (Connection.began env) := by
  rcases h.waits (by rw [hstarting]; exact nofun) with ⟨hnobody, hinitialized⟩
  have hbegan {r : Except Refusal Receipt} {link : Connection}
      (hlink : Link.request .greeting (some .handshake) env.link.running =
        (r, link))
      {es : List Event} (hes : es.all Event.isPassing = true) :
          Announced (env.seeing link es) := by
    rcases Connection.request_state hlink with ⟨hphase, hfresh⟩
    have hnone : announcements (env.trace ++ es) = 0 := by
      rw [← announcements_landmarks, landmarks_passing hes,
        announcements_landmarks]
      exact h.starts hstarting
    constructor
    · exact fun hne => absurd hphase hne
    · exact fun _ => hnone
    · exact fun _ => ⟨hfresh.trans hinitialized, hnone⟩
    · exact Connection.request_once hlink hnobody
    · exact fun htrue =>
        absurd ((hfresh.trans hinitialized).symm.trans htrue) Bool.false_ne_true
  have hcases := Connection.began_cases env
  revert hcases
  generalize Connection.began env = env'
  intro hcases
  cases hcases with
  | refused hlink => exact hbegan hlink rfl
  | greeted hlink => exact hbegan hlink rfl

theorem change {w : Workspace Connection} (h : Announced w.env)
    {f : Worker → Worker} (hf : (Deed.change f).Possible w) :
    Announced (w.onLink fun c => { c with process := f c.process }).env := by
  rcases hf.1 with hsame | ⟨hstarting, hidle⟩
  · refine ⟨?_, ?_, h.greets, h.once, h.told⟩
    · intro hne
      exact h.waits (by rw [← hsame]; exact hne)
    · intro hphase
      exact h.starts (by rw [← hsame]; exact hphase)
  · rcases h.waits (by rw [hstarting]; exact nofun) with
      ⟨hgreetings, hinitialized⟩
    exact unheard hgreetings hinitialized fun hphase =>
      nomatch hphase.symm.trans hidle

end Announced

/-!
# What the process writes
-/

namespace Workspace

theorem agentReady_announcements (w : Workspace Connection) :
    w.env.link.Aside w.agentReady.env.link ∧
      announcements w.agentReady.env.trace = announcements w.env.trace + 1 := by
  rcases course_agentReady w with ⟨env, hbefore, hbehind⟩
  constructor
  · exact hbefore.aside.link.trans hbehind.aside.link
  · have hready :
        announcements (env.emit .ready).trace = announcements env.trace + 1 :=
      announcements_concat ..
    rw [hbehind.aside.announcements, hready, hbefore.aside.announcements]

theorem announced_agentReady {w : Workspace Connection} {members : Json.Members}
    (hrunning : w.env.link.process.phase = .running)
    (hgreetings : w.env.link.greetings = [])
    (hinfo : w.env.link.serverInfo = .obj members)
    (hnone : announcements w.env.trace = 0) :
    Announced w.agentReady.env := by
  rcases agentReady_announcements w with ⟨hlink, hready⟩
  refine .reached (hlink.life.phase.trans hrunning) ?_ ?_
  · exact hlink.life.greetings_nil hgreetings
  · unfold Connection.introduced
    rw [hready, hnone, hlink.info, hinfo]
    rfl

/-- The answer to the greeting: nothing was announced before, and the agent is
announced if it said about itself what can be read. -/
theorem announced_greeted {w : Workspace Connection} (h : Announced w.env)
    (hgreetings : w.env.link.greetings = [])
    (hinitialized : w.env.link.initialized = false)
    (hnone : announcements w.env.trace = 0) {message : Json}
    {r : Except Fault Unit × Workspace Connection}
    (hgreeted : Greeted message w r) :
    Announced r.2.env := by
  have hnoted : w.env.link.SameLife (w.noted message) :=
    ⟨rfl, rfl, rfl, List.Sublist.refl _⟩
  have hthanked {link : Connection}
      (hlink : Link.notify .initialized (w.noted message) = (none, link)) :
      link.process.phase = .running ∧ link.greetings = [] ∧
        link.serverInfo = Connection.serverInfoOf message ∧
        announcements (w.thanked link).env.trace = 0 := by
    have haside := Connection.notify_aside hlink
    have hgone := (hnoted.trans haside.life).greetings_nil hgreetings
    have hthanks :
        announcements (w.thanked link).env.trace = announcements w.env.trace :=
      announcements_concat ..
    exact ⟨haside.life.phase.trans (Connection.send_running hlink),
      hgone, haside.info, hthanks.trans hnone⟩
  cases hgreeted with
  | rejected e => exact h.aside (.tell _ _)
  | unthanked hlink =>
      refine h.goOn (hnoted.trans (Connection.notify_sameLife hlink)) ?_
        (announcements_concat ..)
      exact fun htrue =>
        absurd (hinitialized.symm.trans htrue) Bool.false_ne_true
  | @unannounced link hinfo hlink =>
      rcases hthanked hlink with ⟨hrunning, hnobody, hsame, hcount⟩
      have hunread : link.introduced = false := by
        rw [Bool.eq_false_iff]
        intro hintroduced
        rcases Connection.introduced_iff.mp hintroduced with ⟨members, hmembers⟩
        exact hinfo members (hsame.symm.trans hmembers)
      apply Announced.reached hrunning hnobody
      rw [hcount]
      exact (if_neg (Bool.eq_false_iff.mp hunread)).symm
  | @announced link members name hinfo hlink =>
      rcases hthanked hlink with ⟨hrunning, hnobody, hsame, hcount⟩
      have htold :
          announcements ((w.thanked link).tell (.agentReady name)).env.trace =
          announcements (w.thanked link).env.trace := announcements_concat ..
      exact announced_agentReady hrunning hnobody (hsame.trans hinfo)
        (htold.trans hcount)

/-- A message goes to whatever waits for it; a process whose greeting is not
answered was not announced. -/
theorem announced_handled {w : Workspace Connection} (h : Announced w.env)
    {message : Json} {r : Except Fault Unit × Workspace Connection}
    (hhandled : Handled message w r) :
    Announced r.2.env := by
  have htaken {id : Json} {waiting : Waiting} {link : Connection}
      (htake : w.env.link.take id = .ok (some waiting, link)) :
      Announced (w.onLink fun _ => link).env := by
    rcases Connection.take_eq_some htake with ⟨_, _, hlink⟩
    exact h.goOn (Connection.take_sameLife htake h.once).1
      (fun _ => by rw [hlink]; rfl) rfl
  cases hhandled with
  | faulty _ _ _ => exact h
  | nothing _ _ => exact h
  | notified _ =>
      exact h.goOn (.refl _) (fun _ => rfl) (announcements_concat ..)
  | greeted _ htake hgreeted =>
      rcases Connection.take_sameLife htake h.once with ⟨hlife, hgreeting⟩
      rcases hgreeting rfl with ⟨hgreetings, hnobody⟩
      rcases h.greets hgreetings with ⟨hinitialized, hnone⟩
      exact announced_greeted (htaken htake) hnobody
        (hlife.initialized.trans hinitialized) hnone hgreeted
  | @completed _ i ticket link _ htake =>
      have hreceived : (w.onLink fun _ => link).Course .mute _ :=
        course_receive i ticket message _
      exact (htaken htake).aside hreceived.env.aside
  | probed _ _ htake => exact (htaken htake).aside (.emit _ rfl)

theorem announced_keptByReading :
    KeptByReading fun w : Workspace Connection => Announced w.env where
  handled message h := announced_handled h (handle_cases message _)
  told n _ h := h.aside (.tell _ n)
  buffered _ h := h.goOn ⟨rfl, rfl, rfl, List.Sublist.refl _⟩ (fun _ => rfl) rfl
  unread _ h := h.goOn ⟨rfl, rfl, rfl, List.Sublist.refl _⟩ (fun _ => rfl) rfl

/-!
# Conversations
-/

theorem announced_undergo {w : Workspace Connection} {d : Deed}
    (h : Announced w.env) (hd : d.Possible w) :
    Announced (w.undergo d).env := by
  cases hprocess : d.ofProcess with
  | false => exact h.aside (aside_undergo hprocess w)
  | true =>
      cases d with
      | start => exact h.start hd
      | began => exact h.began hd
      | finished code => exact Announced.keptByEnd.finished code h
      | stop waits =>
          exact Announced.keptByEnd.stop announced_keptByReading.output waits h
      | feed data => exact announced_keptByReading.feed data h
      | output data => exact announced_keptByReading.output data h
      | read => exact announced_keptByReading.read h
      | change f => exact h.change hd
      | _ => cases hprocess

theorem announced_meet {w : Workspace Connection} {i : Incident}
    (h : Announced w.env) (hi : w.Allows i) : Announced (w.meet i).env := by
  cases i with
  | deed d => exact announced_undergo h hi
  | ask q waiting => exact h.aside (.request hi q w.env)
  | say n => exact h.aside (.notify n w.env)

theorem Unused.announced {w : Workspace Connection} (h : w.Unused) :
    Announced w.env := by
  rcases h.link with ⟨command, directory, room, hlink⟩
  refine .unheard ?_ ?_ ?_
  · rw [hlink]
    rfl
  · rw [hlink]
    rfl
  · rw [hlink]
    exact nofun

theorem Conversation.announced {start w : Workspace Connection}
    (hstart : start.Unused) (h : Conversation start w) : Announced w.env := by
  induction h with
  | start => exact hstart.announced
  | step _ hi ih => exact announced_meet ih hi

/-- In every conversation, a process that can be reached was announced once if
what the agent said about itself is an object, and otherwise not at all. -/
theorem announced_once {start w : Workspace Connection} (hstart : start.Unused)
    (h : Conversation start w) (hconnected : w.env.connected = true) :
    announcements w.env.trace ≤ 1 ∧
      (announcements w.env.trace = 1 ↔ w.env.link.introduced = true) := by
  have hinitialized : w.env.link.initialized = true :=
    (Bool.and_eq_true_iff.mp hconnected).1
  rw [(h.announced hstart).told hinitialized]
  cases w.env.link.introduced with
  | true => exact ⟨Nat.le_refl 1, by simp⟩
  | false => exact ⟨Nat.zero_le 1, by simp⟩

def introduction (id : Nat) (info : Json) : List Incident :=
  [.deed .start, .deed .began,
    .deed (.output (Frame.ofText (.obj
      [("id", .int id), ("result", .obj [("serverInfo", info)])])).bytes)]

def introductions : List Incident :=
  introduction 1 (.obj [("name", .str "agent")]) ++
    .deed (.finished (.int 0)) ::
    introduction 2 (.obj [("name", .str "agent")])

theorem announced_once_twice :
    (introductions.foldl meet blank).env.connected = true ∧
      (introductions.foldl meet blank).env.link.introduced = true ∧
      announcements (introductions.foldl meet blank).env.trace = 1 := by
  have hallowed : blank.allowsAll introductions = true := by decide +kernel
  have hconnected : (introductions.foldl meet blank).env.connected = true := by
    decide +kernel
  have hintroduced :
      (introductions.foldl meet blank).env.link.introduced = true := by
    decide +kernel
  exact ⟨hconnected, hintroduced,
    (announced_once blank_unused (Conversation.start.goOn hallowed)
    hconnected).2.mpr hintroduced⟩

/-- A process that says about itself what is no object can be reached and is
never announced. -/
theorem introduction_unannounced :
    ∃ start w : Workspace Connection, start.Unused ∧ Conversation start w ∧
      w.env.connected = true ∧ announcements w.env.trace ≠ 1 :=
  ⟨blank, (introduction 1 (.str "agent")).foldl meet blank, blank_unused,
    Conversation.start.goOn (by decide +kernel), by decide +kernel,
    by decide +kernel⟩

end Workspace
end InlineCompletion
