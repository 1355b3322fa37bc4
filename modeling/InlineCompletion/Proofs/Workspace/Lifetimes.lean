import InlineCompletion.Proofs.Workspace.OpeningClosing
import InlineCompletion.Proofs.Workspace.Signals

/-!
# Lives of the process

The process is started, greeted, and ends, any number of times.  A message about
a document is said only while the agent is connected, which it is between the
answer to the greeting and the end of the process.  The main statements are that
the life of the process, the bytes that it writes, the alarms and the keys keep
a workspace sound.
-/

namespace InlineCompletion

/-!
# The connection
-/

namespace Connection

theorem connected_of_not_initialized {c : Connection}
    (h : c.initialized = false) :
    Link.connected c = false := by
  show (c.initialized && c.isRunning) = false
  rw [h, Bool.false_and]

theorem send_running {c c' : Connection} (h : c.send = (none, c')) :
    c.process.phase = .running := by
  unfold send at h
  split at h
  · cases h
  · next hrunning =>
      have htrue : (c.process.valid && c.process.phase == .running) = true := by
        simpa [isRunning] using hrunning
      exact beq_iff_eq.mp (Bool.and_eq_true_iff.mp htrue).2

theorem request_running {q : Request} {waiting : Option Waiting}
    {c c' : Connection} {receipt : Receipt}
    (h : Link.request q waiting c = (.ok receipt, c')) :
    c.process.phase = .running := by
  simp only [Link.request] at h
  split at h
  · next heq =>
      have hrunning := send_running heq
      exact hrunning
  · cases h

theorem request_state {q : Request} {waiting : Option Waiting}
    {c c' : Connection} {r : Except Refusal Receipt}
    (h : Link.request q waiting c = (r, c')) :
    c'.process.phase = c.process.phase ∧ c'.initialized = c.initialized := by
  rcases request_cases q waiting c with ⟨c'', hlife, ⟨r', herror⟩ | ⟨id, hok⟩⟩
  · cases h.symm.trans herror
    exact ⟨hlife.phase, hlife.initialized⟩
  · cases h.symm.trans hok
    exact ⟨hlife.phase, hlife.initialized⟩

theorem request_once {q : Request} {waiting : Option Waiting}
    {c c' : Connection} {r : Except Refusal Receipt}
    (h : Link.request q waiting c = (r, c')) (hnobody : c.greetings = []) :
    c'.greetings.length ≤ 1 := by
  rcases request_cases q waiting c with ⟨c'', hlife, hr⟩
  have hnone := hlife.greetings_nil hnobody
  rcases hr with ⟨r', herror⟩ | ⟨id, hok⟩
  · cases h.symm.trans herror
    rw [hnone]
    exact Nat.zero_le 1
  · cases h.symm.trans hok
    rw [awaiting_greetings, hnone, List.nil_append]
    split
    · exact Nat.le_refl 1
    · exact Nat.zero_le 1

theorem take_eq_some {c c' : Connection} {id : Json} {waiting : Waiting}
    (h : c.take id = .ok (some waiting, c')) :
    ∃ k, (k, waiting) ∈ c.waiting ∧
      c' = { c with waiting := without k c.waiting } := by
  unfold take at h
  split at h
  · split at h
    · cases h
    · cases h
  · split at h
    · cases h
    · cases h
  · split at h
    · cases h
    · split at h
      · next k w hfind =>
          cases h
          exact ⟨k, List.mem_of_find?_eq_some hfind, rfl⟩
      · cases h

theorem mem_greetings {c : Connection} {x : Nat × Waiting} :
    x ∈ c.greetings ↔ x ∈ c.waiting ∧ x.2 = .handshake := by
  unfold greetings
  rw [List.mem_filter, beq_iff_eq]

theorem greeting_unique {c : Connection} (honce : c.greetings.length ≤ 1)
    {x y : Nat × Waiting} (hx : x ∈ c.greetings) (hy : y ∈ c.greetings) :
    x = y := by
  cases hgreetings : c.greetings with
  | nil => exact absurd hgreetings (List.ne_nil_of_mem hx)
  | cons z rest =>
      rw [hgreetings] at honce hx hy
      have hrest : rest = [] := by
        refine List.eq_nil_of_length_eq_zero ?_
        rw [List.length_cons] at honce
        omega
      rw [hrest, List.mem_singleton] at hx hy
      exact hx.trans hy.symm

/-- What is taken from those who wait lets the connection live on; there is no
greeting left if a greeting was taken. -/
theorem take_sameLife {c c' : Connection} {id : Json} {waiting : Waiting}
    (h : c.take id = .ok (some waiting, c')) (honce : c.greetings.length ≤ 1) :
    SameLife c c' ∧
      (waiting = .handshake → c.greetings ≠ [] ∧ c'.greetings = []) := by
  rcases take_eq_some h with ⟨k, hmem, hc'⟩
  subst hc'
  constructor
  · refine ⟨rfl, rfl, rfl, ?_⟩
    exact List.Sublist.filter _ List.filter_sublist
  · intro hgreeting
    have htaken : (k, waiting) ∈ c.greetings :=
      mem_greetings.mpr ⟨hmem, hgreeting⟩
    constructor
    · exact List.ne_nil_of_mem htaken
    · rw [List.eq_nil_iff_forall_not_mem]
      intro x hx
      rcases mem_greetings.mp hx with ⟨hwithout, hhandshake⟩
      rcases List.mem_filter.mp hwithout with ⟨hwaiting, hne⟩
      have hsame :=
        greeting_unique honce (mem_greetings.mpr ⟨hwaiting, hhandshake⟩) htaken
      rw [hsame] at hne
      exact absurd rfl (bne_iff_ne.mp hne)

end Connection

namespace Workspace

theorem still_notify (w : Workspace Connection) (n : Notification)
    (hn : n.uri? = none) :
    Still w (w.withEnv (w.env.notify n).2) := by
  unfold Env.notify
  cases hlink : Link.notify n w.env.link with
  | mk r c =>
      have hlife := Connection.notify_sameLife hlink
      cases r with
      | some r => exact ⟨fun _ => rfl, rfl, rfl, hlife, .append _ rfl⟩
      | none =>
          refine ⟨fun _ => rfl, rfl, rfl, hlife, .append _ ?_⟩
          show (n.uri?.isNone && true) = true
          rw [hn]
          rfl

theorem still_request (w : Workspace Connection) (q : Request)
    (waiting : Option Waiting) (hq : q.uri? = none)
    (hwaiting : waiting ≠ some .handshake) :
    Still w (w.withEnv (w.env.request q waiting).2) := by
  unfold Env.request
  cases hlink : Link.request q waiting w.env.link with
  | mk outcome c =>
      have hlife :=
        Connection.request_sameLife hlink fun heq => absurd heq hwaiting
      cases outcome with
      | error r => exact ⟨fun _ => rfl, rfl, rfl, hlife, .append _ rfl⟩
      | ok receipt =>
          refine ⟨fun _ => rfl, rfl, rfl, hlife, .append _ ?_⟩
          show (q.uri?.isNone && true) = true
          rw [hq]
          rfl

theorem Shelved.withEnv {w : Workspace Connection} (h : Shelved w)
    (env : Env Connection) :
    Shelved (w.withEnv env) :=
  ⟨h.distinct, h.registered, h.named, h.unopened, h.complete⟩

namespace Sound

variable {w : Workspace Connection}

theorem unreachable (h : Sound [] w) {env : Env Connection}
    (hlively : Lively env.link env.trace) (hexplained : Explained env.trace)
    (hoff : env.connected = false) :
    Sound [] (w.withEnv env) := by
  refine ⟨hlively, h.shelved.withEnv env, hexplained, ?_, ?_⟩
  · intro uri _
    show Agreed env.connected _ _
    rw [hoff]
    exact .offline _ _
  · intro uri hu
    cases hu

/-!
# Start and end
-/

theorem start (h : Sound [] w) (hidle : w.env.link.process.phase = .idle) :
    Sound [] (w.withEnv (Connection.start w.env).2) := by
  unfold Connection.start
  split
  · exact h
  · next program arguments _ =>
    rcases h.lively.waits (by rw [hidle]; exact nofun) with
      ⟨hgreetings, hinitialized⟩
    have hnothing (es : List Event) (program : String) (arguments : List String)
        (directory : String) (uri : Text) :
        heard uri (es ++ [.process (.started program arguments directory)]) =
          .nothing :=
      heard_concat ..
    dsimp only
    refine h.unreachable ⟨?_, ?_, ?_, ?_⟩ ?_
      (Connection.connected_of_not_initialized hinitialized)
    · exact fun _ => ⟨hgreetings, hinitialized⟩
    · exact fun _ uri => hnothing _ _ _ _ uri
    · exact fun hne => absurd hgreetings hne
    · exact h.lively.once
    · have htold :
          Explained (w.env.tell (.agentStarting program arguments)).trace :=
        h.explained.silently (.append _ rfl)
      apply htold.concat
      intro m uri he
      cases he

theorem began (h : Sound [] w)
    (hstarting : w.env.link.process.phase = .starting) :
    Sound [] (w.withEnv (Connection.began w.env)) := by
  rcases h.lively.waits (by rw [hstarting]; exact nofun) with
    ⟨hnobody, hinitialized⟩
  have hready {r : Except Refusal Receipt} {link : Connection}
      (hlink : Link.request .greeting (some .handshake) w.env.link.running =
        (r, link))
      {es : List Event} (hes : es.all Event.isSilent = true) :
      Sound [] (w.withEnv (w.env.seeing link es)) := by
    rcases Connection.request_state hlink with ⟨hphase, hfresh⟩
    have hnothing (uri : Text) : heard uri (w.env.trace ++ es) = .nothing := by
      rw [(Silently.append w.env.trace hes).heard]
      exact h.lively.starts hstarting uri
    refine h.unreachable ⟨?_, ?_, ?_, ?_⟩ (h.explained.silently (.append _ hes))
      (Connection.connected_of_not_initialized (hfresh.trans hinitialized))
    · exact fun hne => absurd hphase hne
    · exact fun _ => hnothing
    · exact fun _ => ⟨hfresh.trans hinitialized, hnothing⟩
    · exact Connection.request_once hlink hnobody
  have hcases := Connection.began_cases w.env
  revert hcases
  generalize Connection.began w.env = env
  intro hcases
  cases hcases with
  | refused hlink => exact hready hlink rfl
  | greeted hlink => exact hready hlink rfl

theorem hangUp (h : Sound [] w) : Sound [] w.hangUp := by
  refine h.unreachable ⟨?_, ?_, ?_, ?_⟩ h.explained
    (Connection.connected_of_not_initialized rfl)
  · exact fun _ => ⟨rfl, rfl⟩
  · exact h.lively.starts
  · exact fun hne => absurd rfl hne
  · exact Nat.zero_le 1

theorem finished (h : Sound [] w) (code : Json) :
    Sound [] (w.withEnv (Connection.finished code w.env)) := by
  have hended : Sound [] (w.withEnv { w.env with
      link := { w.env.link with
        process := { w.env.link.process with phase := .idle }
        initialized := false
        waiting := [] } }) := by
    refine h.unreachable ⟨?_, ?_, ?_, ?_⟩ h.explained
      (Connection.connected_of_not_initialized rfl)
    · exact fun _ => ⟨rfl, rfl⟩
    · exact nofun
    · exact fun hne => absurd rfl hne
    · exact Nat.zero_le 1
  exact (hended.still (still_tell _ (n := .agentExited code) rfl)).still
    (still_signal _ (e := .stopped) rfl)

theorem still_farewell (w : Workspace Connection) :
    Still w (w.withEnv (Connection.farewell w.env)) := by
  have hrequest := still_request w .shutdown none rfl nofun
  unfold Connection.farewell
  split
  · next r env heq =>
      rw [heq] at hrequest
      exact hrequest.trans (still_tell _ rfl)
  · next receipt env heq =>
      rw [heq] at hrequest
      have hnotify : Still w (w.withEnv (env.notify .exit).2) :=
        hrequest.trans (still_notify (w.withEnv env) .exit rfl)
      split
      · next r env' hexit =>
          rw [hexit] at hnotify
          exact hnotify.trans (still_tell _ rfl)
      · next env' hexit =>
          rw [hexit] at hnotify
          exact hnotify

/-!
# What the process writes
-/

theorem agentReady (h : Sound (w.registry.map (·.1)) w) :
    Sound [] w.agentReady := by
  unfold Workspace.agentReady
  split
  · have hseen : Sound ((w.emit .ready).registry.map (·.1)) (w.emit .ready) :=
      h.still (still_emit w rfl)
    exact hseen.openAll
  · exact h.openAll.still (still_signal _ (e := .ready) rfl)

theorem admitted (h : Sound [] w)
    (hnothing : ∀ uri, heard uri w.env.trace = .nothing)
    (hgreetings : w.env.link.greetings = [])
    (hrunning : w.env.link.process.phase = .running) :
    Sound [] (w.onLink fun c => { c with initialized := true }) := by
  refine ⟨⟨?_, ?_, ?_, ?_⟩, h.shelved.withEnv _, h.explained, ?_, ?_⟩
  · exact fun hne => absurd hrunning hne
  · exact fun hstarting => nomatch hrunning.symm.trans hstarting
  · exact fun hne => absurd hgreetings hne
  · exact h.lively.once
  · intro uri _
    show Agreed _ _ (heard uri w.env.trace)
    rw [hnothing]
    exact .untold rfl rfl fun _ _ => Or.inl rfl
  · intro uri hu
    cases hu

theorem announced (h : Sound [] w)
    (hnothing : ∀ uri, heard uri w.env.trace = .nothing)
    (hgreetings : w.env.link.greetings = [])
    (hrunning : w.env.link.process.phase = .running) (name : Json) :
    Sound (w.registry.map (·.1)) (w.tell (.agentReady name)) := by
  have hheard (uri : Text) :
      heard uri (w.tell (.agentReady name)).env.trace =
        { Heard.nothing with announced := true } := by
    have htold : heard uri (w.env.trace ++ [.notice (.agentReady name)]) =
        (heard uri w.env.trace).behind uri (.notice (.agentReady name)) :=
          heard_concat ..
    rw [hnothing] at htold
    exact htold
  refine ⟨⟨?_, ?_, ?_, ?_⟩, h.shelved.withEnv _, h.explained.concat ?_, ?_, ?_⟩
  · exact fun hne => absurd hrunning hne
  · exact fun hstarting => nomatch hrunning.symm.trans hstarting
  · exact fun hne => absurd hgreetings hne
  · exact h.lively.once
  · intro m uri he
    cases he
  · intro uri hmem
    rw [hheard]
    have hnone : w.registered? uri = none := by
      rw [Option.eq_none_iff_forall_not_mem]
      intro i hi
      exact hmem (List.mem_map_of_mem (mem_of_registered? hi))
    refine .untold rfl rfl fun _ hopened => ?_
    have hcounts : w.countsOpen uri = false := by
      unfold countsOpen
      rw [hnone]
      rfl
    exact absurd (hcounts.symm.trans hopened) Bool.false_ne_true
  · intro uri _
    rw [hheard]
    rfl

theorem still_told (w : Workspace Connection) {n : Notification}
    (hn : n.uri? = none) {link : Connection}
    (hlife : w.env.link.SameLife link) :
    Still w (w.withEnv (w.env.seeing link [.sent (.notification n)])) := by
  refine ⟨fun _ => rfl, rfl, rfl, hlife, .append _ ?_⟩
  show (n.uri?.isNone && true) = true
  rw [hn]
  rfl

theorem greeted (h : Sound [] w)
    (hnothing : ∀ uri, heard uri w.env.trace = .nothing)
    (hgreetings : w.env.link.greetings = []) {message : Json}
    {r : Except Fault Unit × Workspace Connection}
    (hgreeted : Greeted message w r) :
    Sound [] r.2 := by
  have hnoted : w.env.link.SameLife (w.noted message) :=
    ⟨rfl, rfl, rfl, List.Sublist.refl _⟩
  have hthanked {link : Connection}
      (hlink : Link.notify .initialized (w.noted message) = (none, link)) :
      Sound [] (w.thanked link) ∧
        (∀ uri, heard uri (w.thanked link).env.trace = .nothing) ∧
        link.greetings = [] ∧ link.process.phase = .running := by
    have hlife := hnoted.trans (Connection.notify_sameLife hlink)
    have htold := still_told w (n := .initialized) rfl hlife
    have hstill (uri : Text) := (htold.events.heard uri).trans (hnothing uri)
    have hnone := hlife.greetings_nil hgreetings
    have hphase :=
      (Connection.notify_sameLife hlink).phase.trans
      (Connection.send_running hlink)
    exact ⟨(h.still htold).admitted hstill hnone hphase, hstill, hnone, hphase⟩
  cases hgreeted with
  | rejected e => exact h.still (still_tell _ rfl)
  | unthanked hlink =>
      have hlife := hnoted.trans (Connection.notify_sameLife hlink)
      exact h.still ⟨fun _ => rfl, rfl, rfl, hlife, .append _ rfl⟩
  | unannounced _ hlink => exact (hthanked hlink).1
  | announced name _ hlink =>
      rcases hthanked hlink with ⟨hsound, hstill, hnone, hphase⟩
      exact (hsound.announced hstill hnone hphase name).agentReady

/-- A message goes to whatever waits for it; nothing was said of any document to
a process whose greeting is not answered. -/
theorem handled (h : Sound [] w) {message : Json}
    {r : Except Fault Unit × Workspace Connection}
    (hhandled : Handled message w r) : Sound [] r.2 := by
  have htaken {id : Json} {waiting : Waiting} {link : Connection}
      (htake : w.env.link.take id = .ok (some waiting, link)) :
          Sound [] (w.onLink fun _ => link) :=
    h.still (still_onLink w (Connection.take_sameLife htake h.lively.once).1)
  cases hhandled with
  | faulty _ _ _ => exact h
  | nothing _ _ => exact h
  | notified _ => exact h.still (still_emit _ rfl)
  | greeted _ htake hgreeted =>
      rcases (Connection.take_sameLife htake h.lively.once).2 rfl with
        ⟨hgreetings, hnone⟩
      exact (htaken htake).greeted (h.lively.greets hgreetings).2 hnone hgreeted
  | @completed _ i ticket _ _ htake =>
      exact (htaken htake).still (still_answer (.completion i ticket) message _)
  | probed _ _ htake => exact (htaken htake).still (still_emit _ rfl)

theorem keptByReading : KeptByReading (Sound []) where
  handled message h := h.handled (handle_cases message _)
  told _ hn h := h.still (still_tell _ hn)
  buffered _ h := h.still (still_onLink _ ⟨rfl, rfl, rfl, List.Sublist.refl _⟩)
  unread _ h := h.still (still_onLink _ ⟨rfl, rfl, rfl, List.Sublist.refl _⟩)

theorem keptByStop : KeptByStop (Sound []) where
  left h := (h.still (still_farewell _)).still (still_emit _ rfl)
  moved m h := by
    cases m with
    | awaited milliseconds => exact h.still (still_emit _ rfl)
    | stirred s =>
        cases s with
        | wrote data => exact keptByReading.output data h
        | troubled kind => exact h.still (still_troubled kind _)
    | ended code => exact h.finished code
    | forced =>
        exact (h.still (still_tell _ (n := .agentKilled) rfl)).still
          (still_emit _ rfl)
  hungUp h := h.hangUp

end Sound
end Workspace
end InlineCompletion
