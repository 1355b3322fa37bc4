import InlineCompletion.Proofs.Frame.RoundTrip
import InlineCompletion.Proofs.Workspace.Lifetimes

/-!
# Sessions

A session of the program starts without documents and with a process that was
not started, and goes on with whatever users, alarms, the agent and its process
do, in any order.  The main statement is that the messages to each process are
in order as long as none is astray: all that goes wrong goes wrong behind an
opening or a closing that the process did not take, or in a process that was
connected and never announced.
-/

namespace InlineCompletion

inductive Deed where
  | openDocument (editor : Nat) (path : Option Text)
  | close (path : Option Text)
  | closeAll
  | edit (editor : Nat) (g : Editing)
  | load (editor : Nat) (path : Text) (content : Except Fault (List UInt8))
  | moveCursor (editor : Nat) (offset : Int)
  | select (editor : Nat) (anchor position : Int)
  | paint (editor : Nat)
  | key (editor : Nat) (key : Key) (modifier : Modifier) (text : Text)
  | detach (document : Nat)
  | flush (document : Nat)
  | trigger (document : Nat)
  | request (document : Nat) (reason : Json)
  | accept (document : Nat)
  | cancel (document : Nat)
  | cycle (document : Nat) (places : Int)
  | supersede (document : Nat)
  | elapse (milliseconds : Int)
  | start
  | began
  | finished (code : Json)
  | troubled (kind : String)
  | stop (waits : Waits)
  | feed (data : Bytes)
  | output (data : Bytes)
  | read
  /-- The process takes bytes or not as it likes from now on. -/
  | change (f : Worker → Worker)

namespace Deed

/-- Whether something can happen.  An idle process starts, and a process that
starts comes to run or does not; a process that may no longer be used never may
again. -/
def Possible (w : Workspace Connection) : Deed → Prop
  | .start => w.env.link.process.phase = .idle
  | .began => w.env.link.process.phase = .starting
  | .change f =>
      let p := w.env.link.process
      ((f p).phase = p.phase ∨ p.phase = .starting ∧ (f p).phase = .idle) ∧
        ((f p).valid = true → p.valid = true)
  | _ => True

theorem connected_of_change {w : Workspace Connection} {f : Worker → Worker}
    (hf : (Deed.change f).Possible w)
    (h : (w.onLink fun c => { c with process := f c.process }).env.connected =
    true) :
    w.env.connected = true := by
  rcases hf with ⟨hphase, hvalid⟩
  rcases Bool.and_eq_true_iff.mp h with ⟨hinitialized, hrun⟩
  rcases Bool.and_eq_true_iff.mp hrun with ⟨hisValid, hisRunning⟩
  have hrunning : w.env.link.process.phase = .running := by
    rcases hphase with hsame | ⟨_, hidle⟩
    · rw [← hsame]
      exact beq_iff_eq.mp hisRunning
    · cases (beq_iff_eq.mp hisRunning).symm.trans hidle
  apply Bool.and_eq_true_iff.mpr
  exact ⟨hinitialized,
    Bool.and_eq_true_iff.mpr ⟨hvalid hisValid, beq_iff_eq.mpr hrunning⟩⟩

end Deed

namespace Workspace

def undergo (w : Workspace Connection) : Deed → Workspace Connection
  | .openDocument j path => (w.openDocument j path).2
  | .close path => (w.close path).2
  | .closeAll => w.closeAll
  | .edit j g => w.editWith j g.run
  | .load j path content => (w.loadFile j path content).2
  | .moveCursor j offset => w.moveCursor j offset
  | .select j anchor position => w.onEditor j fun e =>
      (e.select anchor position, [])
  | .paint j => w.paint j
  | .key j key modifier text => (w.key j key modifier text).2
  | .detach i => (w.detach i).2
  | .flush i => (w.flush i).2
  | .trigger i => (w.trigger i).2
  | .request i reason => (w.requestFor i reason).2
  | .accept i => (w.accept i).2
  | .cancel i => (w.cancel i).2
  | .cycle i places => (w.cycle i places).2
  | .supersede i => w.supersede i
  | .elapse milliseconds => w.advance milliseconds
  | .start => w.withEnv (Connection.start w.env).2
  | .began => w.withEnv (Connection.began w.env)
  | .finished code => w.withEnv (Connection.finished code w.env)
  | .troubled kind => w.withEnv (Connection.troubled kind w.env)
  | .stop waits => w.stop waits
  | .feed data => (w.feed data).2
  | .output data => w.output data
  | .read => w.read
  | .change f => w.onLink fun c => { c with process := f c.process }

/-- Whether a workspace is as the program sets it up: no documents, and a
process that was not started. -/
structure Unused (w : Workspace Connection) : Prop where
  documents : w.documents = []
  registry : w.registry = []
  link : ∃ command directory room, w.env.link = .fresh command directory room
  events : Silently [] w.env.trace

/-- The workspaces that a session comes to. -/
inductive Session (start : Workspace Connection) :
    Workspace Connection → Prop where
  | start : Session start start
  | step {w : Workspace Connection} {d : Deed} (h : Session start w)
      (hd : d.Possible w) :
      Session start (w.undergo d)

namespace Sound

variable {w : Workspace Connection}

/-!
# Documents and alarms
-/

theorem flush (h : Sound [] w) (i : Nat) : Sound [] (w.flush i).2 :=
  h.talk_run i Desk.flush fun _ hP hk => hP.flush hk

theorem trigger (h : Sound [] w) (i : Nat) : Sound [] (w.trigger i).2 := by
  have hrun : Sound [] (w.run i Desk.trigger).2 := by
    apply h.talk_run
    intro P k hP hk
    exact hP.requesting (Desk.request_requesting .invoked _)
      (hP.quiet (Desk.quiet_trigger k _) hk)
  unfold Workspace.trigger
  split
  · next r w' heq =>
      rw [heq] at hrun
      exact hrun
  · next w' heq =>
      rw [heq] at hrun
      exact hrun

theorem requestFor (h : Sound [] w) (i : Nat) (reason : Json) :
    Sound [] (w.requestFor i reason).2 := by
  have hrun : Sound [] (w.run i (Desk.requestFor reason)).2 := by
    apply h.talk_run
    intro P k hP hk
    exact hP.requesting (Desk.requestFor_requesting reason k) hk
  unfold Workspace.requestFor
  split
  · next r w' heq =>
      rw [heq] at hrun
      exact hrun
  · next w' heq =>
      rw [heq] at hrun
      exact hrun

theorem ring (h : Sound [] w) (bell : Bell) (a : Alarm) :
    Sound [] (w.ring bell a) := by
  have htimed := h.still (still_atTime w a.due)
  unfold Workspace.ring
  cases bell with
  | flush i =>
      have hunscheduled := htimed.still
        (still_atDesk (fun k => (Desk.quiet_unschedule k).idle) i _)
      exact (hunscheduled.still (still_emit _ (e := .fired a.due) rfl)).flush i
  | trigger i =>
      have hcanceled := htimed.still
        (still_atDesk
          (fun k => (Desk.quiet_trigger k k.document.trigger.cancel).idle) i _)
      have hrun :=
        (hcanceled.still (still_emit _ (e := .fired a.due) rfl)).talk_run i
        (Desk.request .automatic) fun k hP hk =>
          hP.requesting (Desk.request_requesting .automatic k) hk
      dsimp only
      split
      · next f w' heq =>
          rw [heq] at hrun
          exact hrun.still (still_tell _ rfl)
      · next r w' _ heq =>
          rw [heq] at hrun
          exact hrun

theorem advance (h : Sound [] w) (milliseconds : Int) :
    Sound [] (w.advance milliseconds) :=
  (Alarm.ring_keeps (fun _ bell a hw => hw.ring bell a) _ h).still
    (still_atTime _ _)

theorem key (h : Sound [] w) (j : Nat) (key : Key) (modifier : Modifier)
    (text : Text) :
    Sound [] (w.key j key modifier text).2 := by
  unfold Workspace.key
  dsimp only
  split
  · next i _ _ =>
      have htriggered := h.trigger i
      split
      · next heq =>
          rw [heq] at htriggered
          exact htriggered
      · next heq =>
          rw [heq] at htriggered
          exact htriggered
  · next i _ _ =>
      have haccepted := h.still (still_accept i w)
      split
      · next heq =>
          rw [heq] at haccepted
          exact haccepted
      · next heq =>
          rw [heq] at haccepted
          exact haccepted
      · next heq =>
          rw [heq] at haccepted
          exact haccepted.still (still_ordinaryKey _ _ _)
  · next i _ _ =>
      have hcanceled : Sound [] (w.cancel i).2 :=
        h.still (still_runStage Stage.quiet_cancel i w)
      split
      · next heq =>
          rw [heq] at hcanceled
          exact hcanceled
      · next heq =>
          rw [heq] at hcanceled
          exact hcanceled.still (still_ordinaryKey _ _ _)
  · next i places _ _ =>
      exact h.still (still_runStage (Stage.quiet_cycle places) i w)
  · exact h.still (still_ordinaryKey _ _ _)

theorem change (h : Sound [] w) {f : Worker → Worker}
    (hf : (Deed.change f).Possible w) :
    Sound [] (w.onLink fun c => { c with process := f c.process }) := by
  have hphase := hf.1
  refine ⟨⟨?_, ?_, h.lively.greets, h.lively.once⟩, h.shelved.withEnv _,
    h.explained, ?_, h.untold⟩
  · intro hne
    apply h.lively.waits
    rcases hphase with hsame | ⟨hstarting, _⟩
    · rw [← hsame]
      exact hne
    · rw [hstarting]
      exact nofun
  · intro hstarting
    apply h.lively.starts
    rcases hphase with hsame | ⟨_, hidle⟩
    · rw [← hsame]
      exact hstarting
    · cases hstarting.symm.trans hidle
  · intro uri hmem
    apply (h.agreed hmem).weaken
    exact Deed.connected_of_change hf

/-!
# All of it
-/

theorem undergo (h : Sound [] w) {d : Deed} (hd : d.Possible w) :
    Sound [] (w.undergo d) := by
  cases d with
  | openDocument j path => exact h.openDocument j path
  | close path => exact h.close path
  | closeAll => exact h.closeAll
  | edit j g => exact h.still (still_editWith j g.run w)
  | load j path content => exact h.still (still_loadFile j path content w)
  | moveCursor j offset => exact h.still (still_moveCursor j offset w)
  | select j anchor position =>
      exact h.still (still_onEditor (fun _ => rfl) j w)
  | paint j => exact h.still (still_paint j w)
  | key j key modifier text => exact h.key j key modifier text
  | detach i => exact h.still (still_detach i w)
  | flush i => exact h.flush i
  | trigger i => exact h.trigger i
  | request i reason => exact h.requestFor i reason
  | accept i => exact h.still (still_accept i w)
  | cancel i => exact h.still (still_runStage Stage.quiet_cancel i w)
  | cycle i places =>
      exact h.still (still_runStage (Stage.quiet_cycle places) i w)
  | supersede i =>
      exact h.still (still_onStage (Stage.quiet_finish .superseded) i w)
  | elapse milliseconds => exact h.advance milliseconds
  | start => exact h.start hd
  | began => exact h.began hd
  | finished code => exact h.finished code
  | troubled kind => exact h.still (still_troubled kind w)
  | stop waits => exact keptByStop.stop waits h
  | feed data => exact keptByReading.feed data h
  | output data => exact keptByReading.output data h
  | read => exact keptByReading.read h
  | change f => exact h.change hd

end Sound

theorem Unused.sound {w : Workspace Connection} (h : w.Unused) :
    Sound [] w := by
  rcases h.link with ⟨command, directory, room, hlink⟩
  have hface (i : Nat) : w.face? i = none := by
    unfold face?
    rw [h.documents]
    rfl
  refine ⟨⟨?_, ?_, ?_, ?_⟩, ⟨?_, ?_, ?_, ?_, ?_⟩, ?_, ?_, ?_⟩
  · rw [hlink]
    exact fun _ => ⟨rfl, rfl⟩
  · rw [hlink]
    exact nofun
  · rw [hlink]
    exact fun hne => absurd rfl hne
  · rw [hlink]
    exact Nat.zero_le 1
  · rw [h.registry]
    exact List.Pairwise.nil
  · intro uri i hmem
    rw [h.registry] at hmem
    cases hmem
  · intro i f hf
    cases (hface i).symm.trans hf
  · intro i f hf
    cases (hface i).symm.trans hf
  · intro i f hf
    cases (hface i).symm.trans hf
  · have hempty : Explained [] := by
      intro before m after uri heq
      cases before with
      | nil => cases heq
      | cons e rest => cases heq
    exact hempty.silently h.events
  · intro uri _
    have hoff : w.env.connected = false := by
      unfold Env.connected
      rw [hlink]
      rfl
    rw [hoff]
    exact .offline _ _
  · intro uri hmem
    cases hmem

theorem Session.sound {start w : Workspace Connection} (hstart : start.Unused)
    (h : Session start w) : Sound [] w := by
  induction h with
  | start => exact hstart.sound
  | step _ hd ih => exact ih.undergo hd

/-- In every session, all messages about documents are in order exactly if none
is astray: each process is told of a document once and before anything else is
said of it, unless it did not take an opening or a closing, or was connected and
never announced. -/
theorem messages_inOrder_iff {start w : Workspace Connection}
    (hstart : start.Unused) (h : Session start w) :
    EachMessage (fun h m => m.InOrder h) w.env.trace ↔
      EachMessage (fun h m => ¬ m.Astray h) w.env.trace :=
  (h.sound hstart).explained.inOrder_iff

/-!
# Sessions that can be run
-/

instance (w : Workspace Connection) (d : Deed) : Decidable (d.Possible w) := by
  cases d with
  | start => exact inferInstanceAs (Decidable (_ = _))
  | began => exact inferInstanceAs (Decidable (_ = _))
  | change f => exact inferInstanceAs (Decidable (_ ∧ _))
  | _ => exact isTrue trivial

def possibleAll (w : Workspace Connection) : List Deed → Bool
  | [] => true
  | d :: rest => decide (d.Possible w) && possibleAll (w.undergo d) rest

theorem possibleAll_concat (w : Workspace Connection) (ds : List Deed)
    (d : Deed) :
    w.possibleAll (ds ++ [d]) = true ↔
      w.possibleAll ds = true ∧ d.Possible (ds.foldl undergo w) := by
  induction ds generalizing w with
  | nil => simp [possibleAll]
  | cons e rest ih => simp [possibleAll, ih, and_assoc]

theorem Session.goOn {start w : Workspace Connection} (h : Session start w)
    (ds : List Deed) (hds : w.possibleAll ds = true) :
    Session start (ds.foldl undergo w) := by
  induction ds generalizing w with
  | nil => exact h
  | cons d rest ih =>
      rcases Bool.and_eq_true_iff.mp hds with ⟨hd, hrest⟩
      exact ih (h.step (of_decide_eq_true hd)) hrest

def blank : Workspace Connection :=
  create (.ofLink (.fresh ["agent"] none 100)) .root [.plain [] 0] .usual

theorem blank_unused : blank.Unused := ⟨rfl, rfl, ⟨_, _, _, rfl⟩, .refl _⟩

def arrival (id : Nat) : List Deed :=
  [.start, .began,
    .feed (Frame.ofText (.obj [("id", .int id), ("result", .obj [])])).bytes]

/-- A document is opened, and its process ends after it was told of it; the next
process is told of it as well, and of an edit. -/
def resumption : List Deed :=
  .openDocument 0 (some ['/', 'a', '.', 'c']) :: arrival 1 ++
    .finished (.int 0) :: arrival 2 ++
    [.edit 0 (.replace ⟨0, 0, ['x']⟩), .flush 0]

theorem messages_inOrder_iff_resumed :
    blank.Unused ∧ blank.possibleAll resumption = true ∧
      (heard "file:///a.c".toList
        (resumption.foldl undergo blank).env.trace).holds = true ∧
      EachMessage (fun h m => m.InOrder h)
        (resumption.foldl undergo blank).env.trace := by
  have hpossible : blank.possibleAll resumption = true := by decide +kernel
  have hastray : EachMessage (fun h m => ¬ m.Astray h)
      (resumption.foldl undergo blank).env.trace := by decide +kernel
  exact ⟨blank_unused, hpossible, by decide +kernel,
    (messages_inOrder_iff blank_unused
    (Session.start.goOn resumption hpossible)).mpr hastray⟩

/-- The next process does not take the opening, takes bytes again, and is told
of an edit. -/
def mishap : List Deed :=
  .openDocument 0 (some ['/', 'a', '.', 'c']) :: arrival 1 ++
    .finished (.int 0) ::
    [.start, .began,
      .change fun p => { p with outcomes := [true], otherwise := false },
      .feed (Frame.ofText (.obj [("id", .int 2), ("result", .obj [])])).bytes,
      .change fun p => { p with outcomes := [], otherwise := true },
      .edit 0 (.replace ⟨0, 0, ['x']⟩), .flush 0]

/-- An edit is told to a process that did not take the opening of its
document. -/
theorem mishap_not_inOrder :
    ∃ start w : Workspace Connection, start.Unused ∧ Session start w ∧
      ¬ EachMessage (fun h m => m.InOrder h) w.env.trace :=
  ⟨blank, mishap.foldl undergo blank, blank_unused,
    Session.start.goOn mishap (by decide +kernel), by decide +kernel⟩

end Workspace
end InlineCompletion
