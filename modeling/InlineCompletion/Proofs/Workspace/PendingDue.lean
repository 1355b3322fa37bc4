import Mathlib.Data.List.Basic
import Mathlib.Data.List.Induction
import InlineCompletion.Proofs.Workspace.Readiness

/-!
# Stranded edits

Whoever opens a copy or brings it up to date takes away what is due before it is
known whether the agent can be reached.  What was edited meanwhile is made up
for when the agent is ready, which opens all documents.  The main statement is
that in every session, where the agent can be reached and was announced, the
edits of an open document that were not told are due, or a write failed since
the last of them was recorded.
-/

namespace InlineCompletion

namespace Connection

/-- What the agent says about itself in its answer to the greeting, if it says
anything. -/
def introduction? (message : Json) : Option Json :=
  match ((message.get? "result").getD .null).orEmpty with
  | .obj members => Json.Members.get? "serverInfo" members
  | _ => none

theorem serverInfoOf_eq (message : Json) :
    serverInfoOf message = (introduction? message).getD (.obj []) := by
  unfold serverInfoOf introduction?
  cases ((message.get? "result").getD .null).orEmpty with
  | obj members => rfl
  | _ => rfl

theorem introduced_of_introduction? {message : Json} {c : Connection}
    (hinfo : c.serverInfo = serverInfoOf message)
    (h : ∀ v, introduction? message = some v → ∃ members, v = .obj members) :
    c.introduced = true := by
  rw [serverInfoOf_eq] at hinfo
  apply introduced_iff.mpr
  cases hsaid : introduction? message with
  | none =>
      rw [hsaid] at hinfo
      exact ⟨[], hinfo⟩
  | some v =>
      rcases h v hsaid with ⟨members, hmembers⟩
      rw [hsaid, hmembers] at hinfo
      exact ⟨members, hinfo⟩

theorem introduced_congr {c c' : Connection}
    (h : c'.serverInfo = c.serverInfo) :
    c'.introduced = c.introduced := by
  unfold introduced
  rw [h]

end Connection

namespace Workspace

variable {w w' w'' : Workspace Connection}

/-- Whether a document is stranded though the agent that can be reached said
about itself what can be read. -/
def Adrift (i : Nat) (w : Workspace Connection) : Prop :=
  w.env.link.introduced = true ∧ w.Stranded i

/-- Whether no edit is recorded as something happens, and a document is adrift
only where it was before or a write failed. -/
structure Turn (w w' : Workspace Connection) : Prop where
  failures_le : failures w.env.trace ≤ failures w'.env.trace
  kept (i : Nat) : w'.pending i = w.pending i ∨ w'.pending i = []
  strands {i : Nat} (h : w'.Adrift i) :
    failures w.env.trace < failures w'.env.trace ∨ w.Adrift i

namespace Turn

theorem trans (h : Turn w w') (h' : Turn w' w'') : Turn w w'' where
  failures_le := Nat.le_trans h.failures_le h'.failures_le
  kept i := by
    rcases h'.kept i with hsame | hnone
    · rw [hsame]
      exact h.kept i
    · exact Or.inr hnone
  strands hadrift := by
    rcases h'.strands hadrift with hfailed | hadrift'
    · exact Or.inl (Nat.lt_of_le_of_lt h.failures_le hfailed)
    · rcases h.strands hadrift' with hfailed | hadrift''
      · exact Or.inl (Nat.lt_of_lt_of_le hfailed h'.failures_le)
      · exact Or.inr hadrift''

theorem idle (hfailures : failures w.env.trace ≤ failures w'.env.trace)
    (hdocuments : w'.documents = w.documents)
    (heditors : w'.editors.length = w.editors.length)
    (hreached : w'.env.connected = true → w'.env.link.introduced = true →
      w.env.connected = true ∧ w.env.link.introduced = true) : Turn w w' where
  failures_le := hfailures
  kept i := Or.inl (pending_congr hdocuments i)
  strands h := by
    rcases hreached h.2.1 h.1 with ⟨hconnected, hintroduced⟩
    exact Or.inr ⟨hintroduced, h.2.congr hdocuments heditors hconnected⟩

theorem refl (w : Workspace Connection) : Turn w w :=
  idle (Nat.le_refl _) rfl rfl fun hconnected hintroduced =>
    ⟨hconnected, hintroduced⟩

theorem unreachable {env : Env Connection}
    (hfailures : failures w.env.trace ≤ failures env.trace)
    (hoff : env.link.initialized = false) : Turn w (w.withEnv env) := by
  refine idle hfailures rfl rfl fun hconnected => ?_
  exact absurd
    ((Connection.connected_of_not_initialized hoff).symm.trans hconnected)
      Bool.false_ne_true

theorem onLink {f : Connection → Connection}
    (hlife : w.env.link.SameLife (f w.env.link))
    (hinfo : (f w.env.link).serverInfo = w.env.link.serverInfo) :
    Turn w (w.onLink f) := by
  refine idle (Nat.le_refl _) rfl rfl fun hconnected hintroduced => ⟨?_, ?_⟩
  · exact hlife.connected.symm.trans hconnected
  · exact (Connection.introduced_congr hinfo).symm.trans hintroduced

theorem emit (w : Workspace Connection) (e : Event) : Turn w (w.emit e) :=
  idle (failures_le_append _ _) rfl rfl
    fun hconnected hintroduced => ⟨hconnected, hintroduced⟩

theorem course {tone : Tone} (htone : tone ≠ .mute) (h : w.Course tone w') :
    Turn w w' where
  failures_le := h.env.failures_le
  kept := h.kept htone
  strands hadrift := by
    rcases h.strands hadrift.2 with hfailed | ⟨hstranded, _⟩
    · exact Or.inl hfailed
    · have hsame := Connection.introduced_congr h.env.aside.link.info
      exact Or.inr ⟨hsame.symm.trans hadrift.1, hstranded⟩

end Turn

/-!
# The agent is ready
-/

theorem openCopy_registry (i : Nat) (w : Workspace Connection) :
    (w.openCopy i).2.registry = w.registry := by
  unfold openCopy run
  cases w.desk? i with
  | none => rfl
  | some k => rfl

theorem openAll_registry (w : Workspace Connection) :
    w.openAll.registry = w.registry := by
  unfold openAll
  generalize w.registry.map (·.2) = numbers
  induction numbers generalizing w with
  | nil => rfl
  | cons i rest ih => exact (ih _).trans (openCopy_registry i w)

theorem openCopy_strands {i : Nat} (h : (w.openCopy i).2.Stranded i) :
    failures w.env.trace < failures (w.openCopy i).2.env.trace := by
  have htelling : Tone.telling ≠ .mute := nofun
  rcases h with ⟨hconnected, d, hd, hplace, hstranded⟩
  cases hdesk : w.desk? i with
  | none =>
      have hsame : (w.openCopy i).2 = w := by simp [openCopy, run, hdesk]
      rw [hsame] at hd hplace
      exact absurd hplace (desk?_eq_none hdesk hd)
  | some k =>
      have hopened : (w.openCopy i).2 = w.withDesk k.openCopy.2 := by
        simp [openCopy, run, hdesk]
      rcases Desk.course_openCopy htelling k with ⟨hcourse, hfails⟩
      have hfound := desk?_withDesk hdesk hcourse.number hcourse.place
      rw [hopened] at hconnected hd ⊢
      cases (desk?_eq_some hfound).2.1.symm.trans hd
      rw [← (desk?_eq_some hdesk).2.2.2]
      exact hfails ⟨hconnected, hstranded⟩

theorem openEach_strands {i : Nat} {numbers : List Nat} (hmem : i ∈ numbers)
    (h : (numbers.foldl (fun w i => (w.openCopy i).2) w).Stranded i) :
    failures w.env.trace <
      failures (numbers.foldl (fun w i => (w.openCopy i).2) w).env.trace := by
  -- the induction is on the documents that are opened
  have htelling : Tone.telling ≠ .mute := nofun
  induction numbers generalizing w with
  | nil => cases hmem
  | cons j rest ih =>
      have hopened := course_openCopy htelling j w
      have hrest := course_openEach htelling rest (w.openCopy j).2
      rcases List.mem_cons.mp hmem with heq | hmem
      · subst heq
        rcases hrest.strands h with hfailed | ⟨hstranded, _⟩
        · exact Nat.lt_of_le_of_lt hopened.env.failures_le hfailed
        · exact Nat.lt_of_lt_of_le (openCopy_strands hstranded)
            hrest.env.failures_le
      · exact Nat.lt_of_le_of_lt hopened.env.failures_le (ih hmem h)

theorem turn_openAll (hdocuments : w'.documents = w.documents)
    (hfailures : failures w.env.trace ≤ failures w'.env.trace)
    (hshelved : Shelved w'.openAll) :
    Turn w w'.openAll := by
  have htelling : Tone.telling ≠ .mute := nofun
  have hopened := course_openAll htelling w'
  constructor
  · exact Nat.le_trans hfailures hopened.env.failures_le
  · intro i
    rw [← pending_congr hdocuments]
    exact hopened.kept htelling i
  · intro i hadrift
    rcases hadrift.2 with ⟨_, d, hd, hplace, hstranded⟩
    have hface : w'.openAll.face? i = some d.face := by
      unfold face?
      rw [hd]
      rfl
    have hregistered := hshelved.complete hface hstranded.unclosed hplace
    rw [openAll_registry] at hregistered
    have hmem : i ∈ w'.registry.map (·.2) := List.mem_map_of_mem hregistered
    exact Or.inl
      (Nat.lt_of_le_of_lt hfailures (openEach_strands hmem hadrift.2))

theorem turn_agentReady (hdocuments : w'.documents = w.documents)
    (hfailures : failures w.env.trace ≤ failures w'.env.trace)
    (hshelved : Shelved w'.agentReady) :
    Turn w w'.agentReady := by
  have htelling : Tone.telling ≠ .mute := nofun
  unfold agentReady at hshelved ⊢
  split at hshelved
  · next hfirst =>
      rw [if_pos hfirst]
      have hseen : failures w.env.trace ≤ failures (w'.emit .ready).env.trace :=
        Nat.le_trans hfailures (failures_le_append _ _)
      have hsame : (w'.emit .ready).documents = w.documents := hdocuments
      exact turn_openAll hsame hseen hshelved
  · next hfirst =>
      rw [if_neg hfirst]
      have hopened :=
        turn_openAll hdocuments hfailures (hshelved.withEnv w'.openAll.env)
      have hrefreshed :
          Turn w'.openAll (w'.openAll.withEnv w'.openAll.env.refreshWindow) :=
        .course htelling (.idle (.refreshWindow _) rfl rfl)
      exact (hopened.trans hrefreshed).trans (.emit _ .ready)

/-!
# What the process writes
-/

/-- A process whose greeting is not answered cannot be reached; its answer makes
up for what was edited meanwhile, unless nobody can read it. -/
theorem turn_greeted {message : Json}
    {r : Except Fault Unit × Workspace Connection}
    (hoff : w.env.link.initialized = false) (hshelved : Shelved r.2)
    (h : Greeted message w r) :
    Turn w r.2 := by
  cases h with
  | rejected e => exact .emit _ _
  | @unthanked _ link hlink =>
      have hlife := Connection.notify_sameLife hlink
      exact .unreachable (failures_le_append _ _) (hlife.initialized.trans hoff)
  | @unannounced link hinfo hlink =>
      refine .idle (failures_le_append _ _) rfl rfl ?_
      intro _ hintroduced
      have hsame : link.serverInfo = Connection.serverInfoOf message :=
        (Connection.notify_aside hlink).info
      rcases Connection.introduced_iff.mp hintroduced with ⟨members, hmembers⟩
      exact absurd (hsame.symm.trans hmembers) (hinfo members)
  | @announced link _ name _ hlink =>
      have hseen : failures w.env.trace ≤
          failures ((w.thanked link).tell (.agentReady name)).env.trace :=
        Nat.le_trans (failures_le_append _ _) (failures_le_append _ _)
      exact turn_agentReady rfl hseen hshelved

theorem turn_handled {message : Json}
    {r : Except Fault Unit × Workspace Connection} (hsound : Sound [] w)
    (hshelved : Shelved r.2) (h : Handled message w r) : Turn w r.2 := by
  have htelling : Tone.telling ≠ .mute := nofun
  have htaken {id : Json} {waiting : Waiting} {link : Connection}
      (htake : w.env.link.take id = .ok (some waiting, link)) :
          Turn w (w.onLink fun _ => link) := by
    rcases Connection.take_eq_some htake with ⟨k, _, hlink⟩
    have hlife := (Connection.take_sameLife htake hsound.lively.once).1
    apply Turn.onLink hlife
    rw [hlink]
  cases h with
  | faulty _ _ _ => exact .refl _
  | nothing _ _ => exact .refl _
  | notified _ => exact .emit _ _
  | greeted _ htake hgreeted =>
      rcases Connection.take_sameLife htake hsound.lively.once with
        ⟨hlife, hgreeting⟩
      have hoff := (hsound.lively.greets (hgreeting rfl).1).1
      have hanswered :=
        turn_greeted (hlife.initialized.trans hoff) hshelved hgreeted
      exact (htaken htake).trans hanswered
  | @completed _ i ticket link _ htake =>
      have hreceived : (w.onLink fun _ => link).Course .telling _ :=
        course_receive i ticket message _
      exact (htaken htake).trans (.course htelling hreceived)
  | probed _ _ htake => exact (htaken htake).trans (.emit _ _)

theorem turn_keptByReading (w : Workspace Connection) :
    KeptByReading fun w' : Workspace Connection => Sound [] w' ∧ Turn w w' where
  handled message h := by
    have hsound := Sound.keptByReading.handled message h.1
    exact ⟨hsound,
      h.2.trans (turn_handled h.1 hsound.shelved (handle_cases message _))⟩
  told n hn h := ⟨Sound.keptByReading.told n hn h.1, h.2.trans (.emit _ _)⟩
  buffered bytes h := by
    have hsound := Sound.keptByReading.buffered bytes h.1
    exact ⟨hsound, h.2.trans (.onLink ⟨rfl, rfl, rfl, List.Sublist.refl _⟩ rfl)⟩
  unread bytes h := by
    have hsound := Sound.keptByReading.unread bytes h.1
    exact ⟨hsound, h.2.trans (.onLink ⟨rfl, rfl, rfl, List.Sublist.refl _⟩ rfl)⟩

/-!
# Start and end
-/

theorem failures_keptByLeave (n : Nat) :
    KeptByLeave fun env : Env Connection => n ≤ failures env.trace where
  course h hle := Nat.le_trans hle h.failures_le
  asked {env} hle := by
    unfold Env.request
    split
    · exact Nat.le_trans hle (failures_le_append _ _)
    · exact Nat.le_trans hle (failures_le_append _ _)
  said {env} hle := by
    unfold Env.notify
    split
    · exact Nat.le_trans hle (failures_le_append _ _)
    · exact Nat.le_trans hle (failures_le_append _ _)
  ended hle := hle

theorem turn_start (h : Sound [] w) (hidle : w.env.link.process.phase = .idle) :
    Turn w (w.withEnv (Connection.start w.env).2) := by
  have hoff := (h.lively.waits (by rw [hidle]; exact nofun)).2
  have hcases := Connection.start_cases w.env
  revert hcases
  generalize (Connection.start w.env).2 = env
  intro hcases
  cases hcases with
  | nothing => exact .refl w
  | started program arguments directory =>
      exact .unreachable (failures_le_append _ _) hoff

theorem turn_began (h : Sound [] w)
    (hstarting : w.env.link.process.phase = .starting) :
    Turn w (w.withEnv (Connection.began w.env)) := by
  have hoff := (h.lively.waits (by rw [hstarting]; exact nofun)).2
  have hcases := Connection.began_cases w.env
  revert hcases
  generalize Connection.began w.env = env
  intro hcases
  cases hcases with
  | refused hlink =>
      exact .unreachable (failures_le_append _ _)
        ((Connection.request_state hlink).2.trans hoff)
  | greeted hlink =>
      exact .unreachable (failures_le_append _ _)
        ((Connection.request_state hlink).2.trans hoff)

theorem turn_finished (code : Json) (w : Workspace Connection) :
    Turn w (w.withEnv (Connection.finished code w.env)) := by
  apply Turn.unreachable
  · exact (failures_keptByLeave _).finished code (Nat.le_refl _)
  · have hsignaled : Env.Course .mute _ (Connection.finished code w.env) :=
      .signal _ rfl
    exact hsignaled.life.initialized

theorem turn_leave (w : Workspace Connection) : Turn w w.leave := by
  have hle := (failures_keptByLeave (failures w.env.trace)).left (Nat.le_refl _)
  have haside := (keptByFarewell_aside w.env).left (.refl _)
  refine .idle hle rfl rfl fun hconnected hintroduced => ⟨?_, ?_⟩
  · exact haside.link.life.connected.symm.trans hconnected
  · exact (Connection.introduced_congr haside.link.info).symm.trans hintroduced

theorem turn_keptByStop (w : Workspace Connection) :
    KeptByStop fun w' : Workspace Connection => Sound [] w' ∧ Turn w w' where
  left h := ⟨Sound.keptByStop.left h.1, h.2.trans (turn_leave _)⟩
  moved m h := by
    have htelling : Tone.telling ≠ .mute := nofun
    refine ⟨Sound.keptByStop.moved m h.1, ?_⟩
    cases m with
    | awaited milliseconds => exact h.2.trans (.emit _ _)
    | stirred s =>
        cases s with
        | wrote data => exact ((turn_keptByReading w).output data h).2
        | troubled kind =>
            exact h.2.trans
              (.course htelling
                (.idle (course_troubled .telling kind _) rfl rfl))
    | ended code => exact h.2.trans (turn_finished code _)
    | forced => exact (h.2.trans (.emit _ _)).trans (.emit _ _)
  hungUp h :=
    ⟨Sound.keptByStop.hungUp h.1, h.2.trans (.unreachable (Nat.le_refl _) rfl)⟩

theorem turn_change {f : Worker → Worker} (hf : (Deed.change f).Possible w) :
    Turn w (w.onLink fun c => { c with process := f c.process }) :=
  .idle (Nat.le_refl _) rfl rfl
    fun hconnected hintroduced =>
      ⟨Deed.connected_of_change hf hconnected, hintroduced⟩

/-!
# Sessions
-/

/-- No edit is recorded and a document that was not adrift is not, but for a
write that failed; unless nothing is said. -/
theorem turn_undergo {d : Deed} (h : Sound [] w) (hd : d.Possible w) :
    w.Course .mute (w.undergo d) ∨ Turn w (w.undergo d) := by
  cases hprocess : d.ofProcess with
  | false =>
      rcases course_undergo hprocess w with ⟨tone, hcourse⟩
      by_cases htone : tone = .mute
      · subst htone
        exact Or.inl hcourse
      · exact Or.inr (.course htone hcourse)
  | true =>
      apply Or.inr
      cases d with
      | start => exact turn_start h hd
      | began => exact turn_began h hd
      | finished code => exact turn_finished code w
      | stop waits => exact ((turn_keptByStop w).stop waits ⟨h, .refl w⟩).2
      | feed data => exact ((turn_keptByReading w).feed data ⟨h, .refl w⟩).2
      | output data => exact ((turn_keptByReading w).output data ⟨h, .refl w⟩).2
      | read => exact ((turn_keptByReading w).read ⟨h, .refl w⟩).2
      | change f => exact turn_change hd
      | _ => cases hprocess

theorem undergo_failures_le {d : Deed} (h : Sound [] w) (hd : d.Possible w) :
    failures w.env.trace ≤ failures (w.undergo d).env.trace := by
  rcases turn_undergo h hd with hcourse | hturn
  · exact hcourse.env.failures_le
  · exact hturn.failures_le

theorem undergo_strands {d : Deed} (h : Sound [] w) (hd : d.Possible w)
    {i : Nat} (hadrift : (w.undergo d).Adrift i) :
    (w.undergo d).pending i = w.pending i ∧
      (failures w.env.trace < failures (w.undergo d).env.trace ∨
        w.Adrift i) := by
  rcases turn_undergo h hd with hcourse | hturn
  · rcases hcourse.strands hadrift.2 with hfailed | ⟨hstranded, hpending⟩
    · rw [hcourse.env.failures_eq] at hfailed
      exact absurd hfailed (Nat.lt_irrefl _)
    · have hsame := Connection.introduced_congr hcourse.env.aside.link.info
      exact ⟨hpending, Or.inr ⟨hsame.symm.trans hadrift.1, hstranded⟩⟩
  · constructor
    · rcases hturn.kept i with hpending | hnone
      · exact hpending
      · exact absurd hnone hadrift.2.pending_ne
    · exact hturn.strands hadrift

/-!
# The last edit
-/

def Records (i : Nat) (w : Workspace Connection) (d : Deed) : Prop :=
  (w.pending i).length < ((w.undergo d).pending i).length

/-- Whether an edit of a document is recorded as something happens, and none as
other things happen behind it. -/
structure RecordedLast (i : Nat) (start : Workspace Connection)
    (before : List Deed) (d : Deed) (after : List Deed) : Prop where
  recorded : (before.foldl undergo start).Records i d
  last {earlier later : List Deed} {d' : Deed}
    (h : after = earlier ++ d' :: later) :
    ¬ ((before ++ d :: earlier).foldl undergo start).Records i d'

variable {start : Workspace Connection} {i : Nat} {ds before after : List Deed}
    {d d' : Deed}

theorem RecordedLast.goOn (h : RecordedLast i start before d after)
    (hnone : ¬ ((before ++ d :: after).foldl undergo start).Records i d') :
    RecordedLast i start before d (after ++ [d']) := by
  constructor
  · exact h.recorded
  · intro earlier later e heq
    rcases split_concat heq with ⟨hafter, hlast, _⟩ | ⟨rest, _, hafter⟩
    · rw [← hafter, ← hlast]
      exact hnone
    · exact h.last hafter

/-- Whether the last edit of a document was recorded as something happened, and
a write failed since if the document is adrift. -/
structure Remembered (i : Nat) (start : Workspace Connection)
    (ds before : List Deed) (d : Deed) (after : List Deed) : Prop where
  split : ds = before ++ d :: after
  last : RecordedLast i start before d after
  failures_le : failures ((before ++ [d]).foldl undergo start).env.trace ≤
    failures (ds.foldl undergo start).env.trace
  strands (h : (ds.foldl undergo start).Adrift i) :
    failures ((before ++ [d]).foldl undergo start).env.trace <
      failures (ds.foldl undergo start).env.trace

theorem Remembered.now (hsound : Sound [] (ds.foldl undergo start))
    (hd : d.Possible (ds.foldl undergo start))
    (hrecords : (ds.foldl undergo start).Records i d) :
    Remembered i start (ds ++ [d]) ds d [] := by
  constructor
  · rfl
  · constructor
    · exact hrecords
    · intro earlier later d' heq
      cases (List.append_eq_nil_iff.mp heq.symm).2
  · exact Nat.le_refl _
  · intro hadrift
    rw [List.foldl_concat] at hadrift
    have hsame := (undergo_strands hsound hd hadrift).1
    unfold Records at hrecords
    rw [hsame] at hrecords
    exact absurd hrecords (Nat.lt_irrefl _)

theorem Remembered.goOn (h : Remembered i start ds before d after)
    (hsound : Sound [] (ds.foldl undergo start))
    (hd : d'.Possible (ds.foldl undergo start))
    (hnone : ¬ (ds.foldl undergo start).Records i d') :
    Remembered i start (ds ++ [d']) before d (after ++ [d']) := by
  have hle := undergo_failures_le hsound hd
  constructor
  · rw [h.split, List.append_assoc, List.cons_append]
  · apply h.last.goOn
    rw [← h.split]
    exact hnone
  · rw [List.foldl_concat undergo start d' ds]
    exact Nat.le_trans h.failures_le hle
  · rw [List.foldl_concat undergo start d' ds]
    intro hadrift
    rcases (undergo_strands hsound hd hadrift).2 with hfailed | hbefore
    · exact Nat.lt_of_le_of_lt h.failures_le hfailed
    · exact Nat.lt_of_lt_of_le (h.strands hbefore) hle

/-- Edits that were not told were recorded; by induction on what happened, from
its end. -/
theorem remembered_of_pending (hstart : start.Unused)
    (hds : start.possibleAll ds = true)
    (hpending : (ds.foldl undergo start).pending i ≠ []) :
    ∃ before d after, Remembered i start ds before d after := by
  induction ds using List.reverseRecOn with
  | nil =>
      have hnone : start.pending i = [] := by simp [pending, hstart.documents]
      exact absurd hnone hpending
  | append_singleton ds d ih =>
      rcases (possibleAll_concat start ds d).mp hds with ⟨hdone, hd⟩
      have hsound := (Session.start.goOn ds hdone).sound hstart
      rw [List.foldl_concat] at hpending
      by_cases hrecords : (ds.foldl undergo start).Records i d
      · exact ⟨ds, d, [], .now hsound hd hrecords⟩
      · have hbefore : (ds.foldl undergo start).pending i ≠ [] := by
          intro hnone
          apply hrecords
          unfold Records
          rw [hnone]
          exact List.length_pos_iff.mpr hpending
        rcases ih hdone hbefore with ⟨before, d', after, hremembered⟩
        exact ⟨before, d', after ++ [d], hremembered.goOn hsound hd hrecords⟩

/-- In every session, where the agent can be reached and said about itself what
can be read, the edits of an open document that were not told are due, or a
write failed since the last of them was recorded. -/
theorem pending_due_or_failed (hstart : start.Unused)
    (hds : start.possibleAll ds = true)
    (hconnected : (ds.foldl undergo start).env.connected = true)
    (hintroduced : (ds.foldl undergo start).env.link.introduced = true)
    {k : Desk Connection} (hdesk : (ds.foldl undergo start).desk? i = some k)
    (hopen : k.document.closed = false)
    (hpending : k.document.sync.pending ≠ []) :
    k.document.sync.timer.alarm ≠ none ∨
      ∃ before d after, ds = before ++ d :: after ∧
        RecordedLast i start before d after ∧
        failures ((before ++ [d]).foldl undergo start).env.trace <
          failures (ds.foldl undergo start).env.trace := by
  have hd := (desk?_eq_some hdesk).2.1
  have huntold : (ds.foldl undergo start).pending i ≠ [] := by
    unfold pending
    rw [hd]
    exact hpending
  rcases remembered_of_pending hstart hds huntold with
    ⟨before, d, after, hremembered⟩
  by_cases halarm : k.document.sync.timer.alarm = none
  · have hadrift : (ds.foldl undergo start).Adrift i :=
      ⟨hintroduced, hconnected, k.document, hd, editor_lt hdesk, hopen,
        hpending, halarm⟩
    exact Or.inr
      ⟨before, d, after, hremembered.split, hremembered.last,
        hremembered.strands hadrift⟩
  · exact Or.inl halarm

/-- A document is opened on a process, which then takes no bytes, and is not
told of an edit. -/
def neglect : List Deed :=
  .openDocument 0 (some ['/', 'a', '.', 'c']) :: arrival 1 ++
    [.edit 0 (.replace ⟨0, 0, ['x']⟩),
    .change fun p => { p with outcomes := [], otherwise := false }, .flush 0]

theorem pending_due_or_failed_neglected :
    blank.Unused ∧ blank.possibleAll neglect = true ∧
      (neglect.foldl undergo blank).env.connected = true ∧
      (neglect.foldl undergo blank).env.link.introduced = true ∧
      ∃ k, (neglect.foldl undergo blank).desk? 0 = some k ∧
        k.document.closed = false ∧
        k.document.sync.pending ≠ [] ∧ k.document.sync.timer.alarm = none ∧
        ∃ before d after, neglect = before ++ d :: after ∧
          RecordedLast 0 blank before d after ∧
          failures ((before ++ [d]).foldl undergo blank).env.trace <
            failures (neglect.foldl undergo blank).env.trace := by
  have hpossible : blank.possibleAll neglect = true := by decide +kernel
  have hconnected : (neglect.foldl undergo blank).env.connected = true := by
    decide +kernel
  have hintroduced :
      (neglect.foldl undergo blank).env.link.introduced = true := by
        decide +kernel
  have hneglected : ((neglect.foldl undergo blank).desk? 0).any (fun k =>
      !k.document.closed && !k.document.sync.pending.isEmpty &&
        k.document.sync.timer.alarm.isNone) = true := by decide +kernel
  rcases (Option.any_eq_true _ _).mp hneglected with ⟨k, hdesk, hk⟩
  simp only [Bool.and_eq_true, Bool.not_eq_true', List.isEmpty_eq_false_iff,
    Option.isNone_iff_eq_none] at hk
  rcases hk with ⟨⟨hopen, hpending⟩, halarm⟩
  rcases pending_due_or_failed blank_unused hpossible hconnected hintroduced
    hdesk hopen hpending with hdue | hfailed
  · exact absurd halarm hdue
  · exact ⟨blank_unused, hpossible, hconnected, hintroduced, k, hdesk, hopen,
      hpending, halarm, hfailed⟩

end Workspace
end InlineCompletion
