import InlineCompletion.Workspace.Signals
import InlineCompletion.Proofs.Agent.DeskSteps

/-!
# What comes of the process

The process is started, comes to run, writes bytes, and ends.  For each of these
it is said once what it comes to.  The main statements say what has to be kept
by single steps so that it is kept by reading what the process wrote, and by
stopping it.
-/

namespace InlineCompletion

/-!
# Start
-/

namespace Connection

inductive Started (env : Env Connection) : Env Connection → Prop where
  | nothing : Started env env
  | started (program : String) (arguments : List String) (directory : String) :
      Started env (env.seeing
        { env.link with process :=
          { env.link.process with phase := .starting } }
        [.notice (.agentStarting program arguments),
          .process (.started program arguments directory)])

theorem start_cases (env : Env Connection) : Started env (start env).2 := by
  unfold start
  split
  · exact .nothing
  · next program arguments _ =>
      have htrace : env.trace ++ [.notice (.agentStarting program arguments)] ++
          [.process (.started program arguments (env.link.directory.getD ""))] =
        env.trace ++ [.notice (.agentStarting program arguments),
          .process (.started program arguments (env.link.directory.getD ""))] :=
        List.append_assoc ..
      have hstarted : Started env _ :=
        .started program arguments (env.link.directory.getD "")
      unfold Env.seeing at hstarted
      rw [← htrace] at hstarted
      exact hstarted

def running (c : Connection) : Connection :=
  { c with process := { c.process with phase := .running } }

inductive Began (env : Env Connection) : Env Connection → Prop where
  | refused {r : Refusal} {link : Connection}
      (hlink : Link.request .greeting (some .handshake) env.link.running =
        (.error r, link)) :
      Began env (env.seeing link
        [.notice .agentStarted, .refused "initialize" true r,
          .listenerFailed (.refused r)])
  | greeted {receipt : Receipt} {link : Connection}
      (hlink : Link.request .greeting (some .handshake) env.link.running =
        (.ok receipt, link)) :
      Began env
        (env.seeing link
          [.notice .agentStarted, .sent (.request receipt.id .greeting)])

theorem began_cases (env : Env Connection) : Began env (began env) := by
  cases hlink : Link.request .greeting (some .handshake) env.link.running with
  | mk r link =>
      have hbegan : Link.request .greeting (some .handshake)
          { env.link with process :=
            { env.link.process with phase := .running } } = (r, link) :=
        hlink
      cases r with
      | error r =>
          have heq : began env = env.seeing link
              [.notice .agentStarted, .refused "initialize" true r,
                .listenerFailed (.refused r)] := by
            simp [began, Env.request, Env.tell, Env.emit, Env.seeing, hbegan,
              Request.method]
          rw [heq]
          exact .refused hlink
      | ok receipt =>
          have heq : began env = env.seeing link
              [.notice .agentStarted,
                .sent (.request receipt.id .greeting)] := by
            simp [began, Env.request, Env.tell, Env.emit, Env.seeing, hbegan]
          rw [heq]
          exact .greeted hlink

end Connection

namespace Workspace

/-!
# Messages
-/

def noted (message : Json) (w : Workspace Connection) : Connection :=
  { w.env.link with serverInfo := Connection.serverInfoOf message }

def thanked (link : Connection) (w : Workspace Connection) :
    Workspace Connection :=
  { w with
    env := w.env.seeing { link with initialized := true }
      [.sent (.notification .initialized)] }

inductive Greeted (message : Json) (w : Workspace Connection) :
    Except Fault Unit × Workspace Connection → Prop where
  | rejected (e : Json) : Greeted message w (.ok (), w.tell (.agentRejected e))
  | unthanked {r : Refusal} {link : Connection}
      (hlink : Link.notify .initialized (w.noted message) = (some r, link)) :
      Greeted message w (.error (.refused r),
        { w with env := w.env.seeing link [.refused "initialized" false r] })
  | unannounced {link : Connection}
      (hinfo : ∀ members, Connection.serverInfoOf message ≠ .obj members)
      (hlink : Link.notify .initialized (w.noted message) = (none, link)) :
      Greeted message w (.error .wrongShape, w.thanked link)
  | announced {link : Connection} {members : Json.Members} (name : Json)
      (hinfo : Connection.serverInfoOf message = .obj members)
      (hlink : Link.notify .initialized (w.noted message) = (none, link)) :
      Greeted message w
        (.ok (), ((w.thanked link).tell (.agentReady name)).agentReady)

theorem greeted_cases (message : Json) (w : Workspace Connection) :
    Greeted message w (w.greeted message) := by
  unfold greeted
  split
  · exact .rejected _
  · dsimp only
    have hnoted : (w.onLink fun c =>
      { c with serverInfo := Connection.serverInfoOf message }).env.link
        = w.noted message := rfl
    unfold Env.notify
    rw [hnoted]
    cases hlink : Link.notify .initialized (w.noted message) with
    | mk r link =>
        cases r with
        | some r => exact .unthanked hlink
        | none =>
            dsimp only
            split
            · next members hinfo => exact .announced _ hinfo hlink
            · next hinfo =>
                exact .unannounced (fun members heq => hinfo members heq) hlink

def Unawaited (message : Json) (w : Workspace Connection) : Prop :=
  ∀ {id : Json} {waiting : Waiting} {link : Connection},
    Connection.classify message = .ok (.answer id) →
    w.env.link.take id ≠ .ok (some waiting, link)

inductive Handled (message : Json) (w : Workspace Connection) :
    Except Fault Unit × Workspace Connection → Prop where
  | faulty (f : Fault)
      (hclass : Connection.classify message ≠ .ok .notification)
      (h : Unawaited message w) : Handled message w (.error f, w)
  | nothing (hclass : Connection.classify message ≠ .ok .notification)
      (h : Unawaited message w) :
      Handled message w (.ok (), w)
  | notified (h : Connection.classify message = .ok .notification) :
      Handled message w (.ok (), w.emit (.notification message))
  | greeted {id : Json} {link : Connection}
      {r : Except Fault Unit × Workspace Connection}
      (hanswer : Connection.classify message = .ok (.answer id))
      (htake : w.env.link.take id = .ok (some .handshake, link))
      (h : Greeted message (w.onLink fun _ => link) r) : Handled message w r
  | completed {id : Json} {i ticket : Nat} {link : Connection}
      (hanswer : Connection.classify message = .ok (.answer id))
      (htake : w.env.link.take id = .ok (some (.completion i ticket), link)) :
      Handled message w
        (.ok (),
          (w.onLink fun _ => link).atDesk i (Desk.receive ticket message))
  | probed {id : Json} {label : String} {fault : Option Fault}
      {link : Connection} (result : Except Fault Unit)
      (hanswer : Connection.classify message = .ok (.answer id))
      (htake : w.env.link.take id = .ok (some (.probe label fault), link)) :
      Handled message w
        (result, (w.onLink fun _ => link).emit (.answered label message))

theorem handle_cases (message : Json) (w : Workspace Connection) :
    Handled message w (w.handle message) := by
  unfold handle
  split
  · next hclass =>
      refine .faulty _ (by rw [hclass]; nofun) ?_
      intro _ _ _ hanswer
      cases hclass.symm.trans hanswer
  · next hclass =>
      refine .nothing (by rw [hclass]; nofun) ?_
      intro _ _ _ hanswer
      cases hclass.symm.trans hanswer
  · next hclass => exact .notified hclass
  · next id hclass =>
      have hanswer : Connection.classify message ≠ .ok .notification := by
        rw [hclass]
        nofun
      split
      · next htake =>
          refine .faulty _ hanswer ?_
          intro _ _ _ hanswer htaken
          cases hclass.symm.trans hanswer
          cases htake.symm.trans htaken
      · next htake =>
          refine .nothing hanswer ?_
          intro _ _ _ hanswer htaken
          cases hclass.symm.trans hanswer
          cases htake.symm.trans htaken
      · next waiting link htake =>
          dsimp only
          split
          · exact .greeted hclass htake (greeted_cases message _)
          · cases waiting with
            | handshake => contradiction
            | completion i ticket => exact .completed hclass htake
            | probe label fault => exact .probed _ hclass htake

/-!
# Reading what the process wrote
-/

/-- Whether a property is kept by single messages, whatever stands in the
buffer. -/
structure KeptByMessages (P : Workspace Connection → Prop) : Prop where
  handled {w : Workspace Connection} (message : Json) :
      P w → P (w.handle message).2
  told {w : Workspace Connection} (n : Notice)
    (hn : (Event.notice n).isSilent = true) :
    P w → P (w.tell n)
  buffered {w : Workspace Connection} (bytes : Bytes) :
    P w → P (w.onLink fun c => { c with buffer := bytes })

structure KeptByReading (P : Workspace Connection → Prop) :
    Prop extends KeptByMessages P where
  unread {w : Workspace Connection} (bytes : Bytes) :
    P w → P (w.onLink
      fun c => { c with process := { c.process with unread := bytes } })

namespace KeptByMessages

variable {P : Workspace Connection → Prop} {w : Workspace Connection}

theorem act (hP : KeptByMessages P) (found : Frame.Found) (h : P w) :
    P (w.act found).2 := by
  unfold Workspace.act
  split
  · exact h
  · exact hP.handled _ h
  · exact h

theorem tellDropped (hP : KeptByMessages P) (found : Frame.Found) (h : P w) :
    P (w.tellDropped found) := by
  unfold Workspace.tellDropped
  split
  · exact hP.told _ rfl h
  · exact h

theorem consume (hP : KeptByMessages P) (room : Nat) (data : Bytes) (h : P w) :
    P (w.consume room data).2 := by
  -- the induction is on the bytes: what is left behind a frame is shorter
  induction hlength : data.length using Nat.strongRecOn generalizing data w with
  | ind length ih =>
      rw [Workspace.consume]
      split
      · exact h
      · next e hextract =>
          have hdropped := hP.tellDropped e.found h
          dsimp only
          split
          · exact hdropped
          · next hne =>
              have hlt : e.rest.length < data.length :=
                Nat.lt_of_le_of_ne (Frame.extract_rest_length_le hextract) hne
              have hacted := hP.act e.found (hP.buffered e.rest hdropped)
              split
              · next f w' heq =>
                  rw [heq] at hacted
                  exact hacted
              · next w' heq =>
                  rw [heq] at hacted
                  exact ih e.rest.length (by rw [← hlength]; exact hlt) e.rest
                    hacted rfl

theorem feed (hP : KeptByMessages P) (data : Bytes) (h : P w) :
    P (w.feed data).2 :=
  hP.consume _ _ (hP.buffered _ h)

end KeptByMessages

namespace KeptByReading

variable {P : Workspace Connection → Prop} {w : Workspace Connection}

theorem read (hP : KeptByReading P) (h : P w) : P w.read := by
  unfold Workspace.read
  split
  · exact hP.told _ rfl h
  · dsimp only
    have hfed := hP.feed w.env.link.process.unread (hP.unread [] h)
    split
    · next w' heq =>
        rw [heq] at hfed
        exact hfed
    · next f w' heq =>
        rw [heq] at hfed
        exact hP.told _ rfl hfed

theorem output (hP : KeptByReading P) (data : Bytes) (h : P w) :
    P (w.output data) :=
  hP.read (hP.unread _ h)

end KeptByReading

/-!
# The end of the process
-/

def hungUp (env : Env Connection) : Env Connection :=
  { env with link := { env.link with initialized := false, waiting := [] } }

def ended (env : Env Connection) : Env Connection :=
  hungUp { env with
    link := { env.link with process :=
      { env.link.process with phase := .idle } } }

/-- Whether a property is kept as the agent is asked to shut down and told to
exit. -/
structure KeptByFarewell (P : Env Connection → Prop) : Prop where
  course {env env' : Env Connection} (h : env.Course .mute env') :
      P env → P env'
  asked {env : Env Connection} : P env → P (env.request .shutdown none).2
  said {env : Env Connection} : P env → P (env.notify .exit).2

structure KeptByLapse (P : Env Connection → Prop) : Prop where
  course {env env' : Env Connection} (h : env.Course .mute env') :
      P env → P env'
  ended {env : Env Connection} : P env → P (ended env)

/-- Whether a property is kept by what leads to the end of the process, and by
the end itself. -/
structure KeptByLeave (P : Env Connection → Prop) : Prop
    extends KeptByFarewell P, KeptByLapse P

namespace KeptByFarewell

variable {P : Env Connection → Prop} {env : Env Connection}

theorem farewell (hP : KeptByFarewell P) (h : P env) :
    P (Connection.farewell env) := by
  have hasked := hP.asked h
  unfold Connection.farewell
  split
  · next heq =>
      rw [heq] at hasked
      exact hP.course (.tell _ _) hasked
  · next receipt env' heq =>
      rw [heq] at hasked
      have hsaid := hP.said hasked
      split
      · next heq =>
          rw [heq] at hsaid
          exact hP.course (.tell _ _) hsaid
      · next heq =>
          rw [heq] at hsaid
          exact hsaid

theorem left (hP : KeptByFarewell P) {w : Workspace Connection} (h : P w.env) :
    P w.leave.env :=
  hP.course (.emit _ rfl) (hP.farewell h)

end KeptByFarewell

theorem KeptByLapse.finished {P : Env Connection → Prop} (hP : KeptByLapse P)
    (code : Json) {env : Env Connection} (h : P env) :
    P (Connection.finished code env) :=
  hP.course (.signal _ rfl)
    (hP.course (.tell _ (.agentExited code)) (hP.ended h))

end Workspace

/-!
# Waiting for the end
-/

inductive Move where
  | awaited (milliseconds : Nat)
  | stirred (s : Stir)
  | ended (code : Json)
  | forced

def Wait.moves (milliseconds : Nat) (x : Wait) : List Move :=
  .awaited milliseconds :: x.stirs.map .stirred ++ x.code.toList.map .ended

def Waits.moves (waits : Waits) : List Move :=
  waits.asked.moves 2000 ++
    if waits.asked.code.isSome then [] else .forced :: waits.killed.moves 1000

namespace Workspace

def move (w : Workspace Connection) : Move → Workspace Connection
  | .awaited milliseconds => w.emit (.process (.awaited milliseconds))
  | .stirred s => w.stir s
  | .ended code => w.withEnv (Connection.finished code w.env)
  | .forced => w.force

theorem await_eq (milliseconds : Nat) (x : Wait) (w : Workspace Connection) :
    w.await milliseconds x = (x.moves milliseconds).foldl move w := by
  unfold await Wait.moves
  rw [List.cons_append, List.foldl_cons, List.foldl_append, List.foldl_map,
    List.foldl_map]
  cases x.code with
  | none => rfl
  | some code => rfl

theorem endProcess_eq (waits : Waits) (w : Workspace Connection) :
    w.endProcess waits = waits.moves.foldl move w.leave := by
  unfold endProcess Waits.moves
  rw [List.foldl_append, ← await_eq]
  dsimp only
  split
  · rfl
  · rw [List.foldl_cons, ← await_eq]
    rfl

inductive Stopped (waits : Waits) (w : Workspace Connection) :
    Workspace Connection → Prop where
  | unusable (hvalid : w.env.link.process.valid = false) : Stopped waits w w
  | idle (hvalid : w.env.link.process.valid = true)
      (hidle : w.env.link.process.phase ≠ .running) : Stopped waits w w.hangUp
  | ended (hvalid : w.env.link.process.valid = true)
      (hrunning : w.env.link.process.phase = .running) :
      Stopped waits w (waits.moves.foldl move w.leave).hangUp

theorem stop_cases (waits : Waits) (w : Workspace Connection) :
    Stopped waits w (w.stop waits) := by
  unfold stop
  rw [endProcess_eq]
  cases hvalid : w.env.link.process.valid with
  | false => exact .unusable hvalid
  | true =>
      by_cases hrunning : w.env.link.process.phase = .running
      · rw [if_pos hrunning]
        exact .ended hvalid hrunning
      · rw [if_neg hrunning]
        exact .idle hvalid hrunning

theorem moves_keep {P : Workspace Connection → Prop} {ms : List Move}
    (hP : ∀ m ∈ ms, ∀ w, P w → P (w.move m)) {w : Workspace Connection}
    (h : P w) :
    P (ms.foldl move w) := by
  induction ms generalizing w with
  | nil => exact h
  | cons m rest ih =>
      have hrest : ∀ m ∈ rest, ∀ w, P w → P (w.move m) :=
        fun m hm => hP m (List.mem_cons_of_mem _ hm)
      exact ih hrest (hP m List.mem_cons_self w h)

/-- Whether a property is kept while the process is stopped: it is taken leave
of, whatever happens while its end is waited for, and when nobody listens any
longer. -/
structure KeptByStop (P : Workspace Connection → Prop) : Prop where
  left {w : Workspace Connection} : P w → P w.leave
  moved {w : Workspace Connection} (m : Move) : P w → P (w.move m)
  hungUp {w : Workspace Connection} : P w → P w.hangUp

namespace KeptByStop

variable {P : Workspace Connection → Prop} {w : Workspace Connection}

theorem stop (hP : KeptByStop P) (waits : Waits) (h : P w) :
    P (w.stop waits) := by
  have hstopped := stop_cases waits w
  revert hstopped
  generalize w.stop waits = w'
  intro hstopped
  cases hstopped with
  | unusable _ => exact h
  | idle _ _ => exact hP.hungUp h
  | ended _ _ =>
      exact hP.hungUp (moves_keep (fun m _ _ h => hP.moved m h) (hP.left h))

end KeptByStop

theorem course_troubled (tone : Tone) (kind : String) (env : Env Connection) :
    env.Course tone (Connection.troubled kind env) := by
  unfold Connection.troubled
  split
  · exact .tell _ _
  · exact .tell _ _

theorem KeptByLapse.moved {P : Env Connection → Prop} (hP : KeptByLapse P)
    {m : Move} (hm : ∀ data, m ≠ .stirred (.wrote data))
    {w : Workspace Connection} (h : P w.env) :
    P (w.move m).env := by
  cases m with
  | awaited milliseconds => exact hP.course (.emit _ rfl) h
  | stirred s =>
      cases s with
      | wrote data => exact absurd rfl (hm data)
      | troubled kind => exact hP.course (course_troubled .mute kind _) h
  | ended code => exact hP.finished code h
  | forced =>
      exact hP.course ((Env.Course.tell _ .agentKilled).trans (.emit _ rfl)) h

/-- What is kept by what leads to the end of the process is kept while the
process is stopped if it is kept by what the process writes. -/
theorem KeptByLeave.stop {P : Env Connection → Prop} (hP : KeptByLeave P)
    (houtput : ∀ {w : Workspace Connection} (data : Bytes), P w.env →
    P (w.output data).env)
    (hhungUp : ∀ {env : Env Connection}, P env → P (Workspace.hungUp env)) :
    KeptByStop fun w : Workspace Connection => P w.env where
  left h := hP.left h
  moved m h := by
    by_cases hm : ∃ data, m = .stirred (.wrote data)
    · rcases hm with ⟨data, rfl⟩
      exact houtput data h
    · exact hP.moved (fun data heq => hm ⟨data, heq⟩) h
  hungUp h := hhungUp h

end Workspace
end InlineCompletion
