import Mathlib.Data.List.Basic
import Mathlib.Data.List.Induction
import InlineCompletion.Proofs.Agent.Requests
import InlineCompletion.Proofs.Workspace.Readiness
import InlineCompletion.Proofs.Workspace.Restart

/-!
# Where answers go

What waits for an answer waits until it has got one or the process ends.  The
main statement is that no number is given twice, that each answer goes to what
was registered with its number since the process last ended, and that no number
is answered twice.
-/

namespace InlineCompletion

namespace Workspace

theorem asked_agentReady (w : Workspace Connection) :
    Asked [] w.env w.agentReady.env := by
  rcases course_agentReady w with ⟨env, hbefore, hbehind⟩
  have hready : Asked [] env (env.emit .ready) := .emit env rfl
  exact ((hbefore.unasked nofun).trans hready).trans (hbehind.unasked nofun)

theorem asked_greeted {w : Workspace Connection} {message : Json}
    {r : Except Fault Unit × Workspace Connection} (h : Greeted message w r) :
    Asked [] w.env r.2.env := by
  have hseen {r : Option Refusal} {link : Connection}
      (hlink : Link.notify .initialized (w.noted message) = (r, link))
      (initialized : Bool)
      {es : List Event} (hes : es.all Event.isUncounted = true) :
      Asked [] w.env
        (w.env.seeing { link with initialized := initialized } es) := by
    rcases Connection.notify_table hlink with ⟨hlast, hwaiting⟩
    exact .seeing (Nat.le_of_eq hlast.symm) hwaiting hes
  cases h with
  | rejected e => exact .emit w.env rfl
  | @unthanked r link hlink =>
      exact hseen hlink link.initialized rfl
  | unannounced _ hlink => exact hseen hlink true rfl
  | @announced link _ name _ hlink =>
      have hthanked : Asked [] w.env (w.thanked link).env :=
        hseen hlink true rfl
      have htold :
          Asked [] (w.thanked link).env
            ((w.thanked link).tell (.agentReady name)).env :=
        .emit _ rfl
      exact (hthanked.trans htold).trans (asked_agentReady _)

theorem call?_of_unawaited {message : Json} {w : Workspace Connection}
    (h : w.Unawaited message) : w.env.link.call? message = none := by
  unfold Connection.call?
  split
  · next id hanswer =>
      cases hentry : w.env.link.waiter? id with
      | none => rfl
      | some e => exact absurd (Connection.take_of_waiter? hentry) (h hanswer)
  · rfl

theorem handle_answered (message : Json) (w : Workspace Connection) :
    Answered (w.env.link.call? message).toList w.env
      (w.handle message).2.env := by
  have hhandled := handle_cases message w
  revert hhandled
  generalize w.handle message = r
  intro hhandled
  -- whoever the answer goes to, nothing is asked behind that
  have hsingle {id : Json} {waiting : Waiting} {link : Connection}
    {env' : Env Connection}
      (hanswer : Connection.classify message = .ok (.answer id))
      (htake : w.env.link.take id = .ok (some waiting, link))
      (hcounted : link.lastId ≤ env'.link.lastId)
      (hissued : requestIds env'.trace = requestIds w.env.trace)
      (hleft : ∀ e ∈ env'.link.waiting, e ∈ link.waiting)
      (hshown : ∀ k, answers env'.trace =
        answers w.env.trace ++ (Call.shown? ⟨k, waiting, message⟩).toList) :
      Answered (w.env.link.call? message).toList w.env env' := by
    rcases Connection.waiter?_of_take htake with ⟨k, hentry, hlink⟩
    rcases Connection.waiter?_eq_some hentry with ⟨hmem, hnumeral⟩
    rcases Connection.classify_answer hanswer with ⟨hmethod, hid⟩
    have hcall : w.env.link.call? message = some ⟨k, waiting, message⟩ := by
      unfold Connection.call?
      rw [hanswer]
      dsimp only
      rw [hentry]
      rfl
    rw [hcall]
    rw [hlink] at hcounted hleft
    exact .single hmem ⟨hmethod, id, hid, hnumeral⟩ hcounted hissued hleft
      (hshown k)
  cases hhandled with
  | faulty _ _ h =>
      rw [call?_of_unawaited h]
      exact .of_asked (.refl _)
  | nothing _ h =>
      rw [call?_of_unawaited h]
      exact .of_asked (.refl _)
  | notified hclass =>
      have hnone : w.env.link.call? message = none := by
        unfold Connection.call?
        rw [hclass]
      rw [hnone]
      exact .of_asked (.emit w.env rfl)
  | greeted hanswer htake hgreeted =>
      have hasked := Answered.of_asked (asked_greeted hgreeted)
      exact hsingle hanswer htake hasked.counted hasked.issued
        (fun _ he => hasked.left he) fun _ => hasked.shown
  | @completed _ i ticket link hanswer htake =>
      have hreceived : (w.onLink fun _ => link).Course .mute _ :=
        course_receive i ticket message _
      have hanswered := Answered.of_asked (hreceived.env.unasked nofun)
      exact hsingle hanswer htake hanswered.counted hanswered.issued
        (fun _ he => hanswered.left he) fun _ => hanswered.shown
  | probed _ hanswer htake =>
      exact hsingle hanswer htake (Nat.le_refl _)
        ((requestIds_append ..).trans (List.append_nil _)) (fun _ he => he)
        fun _ => answers_append ..

/-!
# Bytes
-/

def calls (room : Nat) (data : Bytes) (w : Workspace Connection) : List Call :=
  match h : Frame.extract room data with
  | .error _ => []
  | .ok e =>
      if heq : e.rest.length = data.length then []
      else
        have : e.rest.length < data.length :=
          Nat.lt_of_le_of_ne (Frame.extract_rest_length_le h) heq
        (e.found.message?.bind fun message => w.env.link.call?
          message).toList ++ match (w.taken e).act e.found with
          | (.error _, _) => []
          | (.ok (), w) => w.calls room e.rest
termination_by data.length

theorem tellDropped_asked (found : Frame.Found) (w : Workspace Connection) :
    Asked [] w.env (w.tellDropped found).env := by
  unfold tellDropped
  split
  · exact .emit w.env rfl
  · exact .refl _

theorem taken_asked (e : Frame.Extracted) (w : Workspace Connection) :
    Asked [] w.env (w.taken e).env := by
  have hbuffered : Asked [] (w.tellDropped e.found).env (w.taken e).env :=
    .idle (Nat.le_refl _) (fun _ he => he) rfl rfl
  exact (tellDropped_asked e.found w).trans hbuffered

theorem act_answered (found : Frame.Found) (w : Workspace Connection) :
    Answered
      (found.message?.bind fun message => w.env.link.call? message).toList
      w.env (w.act found).2.env := by
  cases found with
  | message v =>
      cases v with
      | null => exact .of_asked (.refl _)
      | bool b => exact handle_answered (.bool b) w
      | int n => exact handle_answered (.int n) w
      | float d => exact handle_answered (.float d) w
      | str s => exact handle_answered (.str s) w
      | arr items => exact handle_answered (.arr items) w
      | obj members => exact handle_answered (.obj members) w
  | _ => exact .of_asked (.refl _)

theorem call?_taken (e : Frame.Extracted) (message : Json)
    (w : Workspace Connection) :
    (w.taken e).env.link.call? message = w.env.link.call? message := by
  unfold taken tellDropped
  split
  · rfl
  · rfl

theorem consume_answered (room : Nat) (data : Bytes)
    (w : Workspace Connection) :
    Answered (w.calls room data) w.env (w.consume room data).2.env := by
  -- the induction is on the bytes: what is left behind a frame is shorter
  induction hlength : data.length using Nat.strongRecOn generalizing data w with
  | ind length ih =>
      cases hextract : Frame.extract room data with
      | error f =>
          have hnone : w.calls room data = [] := by
            rw [calls]
            split
            · rfl
            · next hother => cases hextract.symm.trans hother
          rw [hnone, consume_of_error hextract]
          exact .of_asked (.refl _)
      | ok e =>
          by_cases hsame : e.rest.length = data.length
          · have hnone : w.calls room data = [] := by
              rw [calls]
              split
              · rfl
              · next e' hother =>
                  cases hextract.symm.trans hother
                  exact dif_pos hsame
            rw [hnone, consume_of_same hextract hsame]
            exact .of_asked (tellDropped_asked e.found w)
          · have hshorter : e.rest.length < length := by
              rw [← hlength]
              exact Nat.lt_of_le_of_ne (Frame.extract_rest_length_le hextract)
                hsame
            have hcalls : w.calls room data =
                (e.found.message?.bind fun message => w.env.link.call?
                  message).toList ++ match (w.taken e).act e.found with
                  | (.error _, _) => []
                  | (.ok (), w) => w.calls room e.rest := by
              rw [calls]
              split
              · next hother => cases hextract.symm.trans hother
              · next e' hother =>
                  cases hextract.symm.trans hother
                  exact dif_neg hsame
            have hconsume :
                w.consume room data = match (w.taken e).act e.found with
                | (.error f, w) => (.error f, w)
                | (.ok (), w) => w.consume room e.rest :=
                  consume_of_extract hextract hsame
            have hacted := (Answered.of_asked (taken_asked e w)).trans
              (act_answered e.found (w.taken e))
            simp only [call?_taken, List.nil_append] at hacted
            rw [hcalls, hconsume]
            cases hact : (w.taken e).act e.found with
            | mk r w' =>
                rw [hact] at hacted
                cases r with
                | error f =>
                    rw [List.append_nil]
                    exact hacted
                | ok u =>
                    exact hacted.trans (ih e.rest.length hshorter e.rest w' rfl)

/-!
# Conversations
-/

def callsOf (w : Workspace Connection) (data : Bytes) : List Call :=
  (w.buffered (w.env.link.buffer ++ data)).calls w.env.link.room
    (w.env.link.buffer ++ data)

def callsBy (w : Workspace Connection) (i : Incident) : List Call :=
  (w.fed i).flatMap fun x => x.1.callsOf x.2

def callsAll (w : Workspace Connection) : List Incident → List Call
  | [] => []
  | i :: rest => w.callsBy i ++ (w.meet i).callsAll rest

/-- Whether nobody listens to the process any longer once something happens: it
ends, or is stopped.  A process that may no longer be used is not stopped. -/
def hangsUp (w : Workspace Connection) : Incident → Prop
  | .deed (.finished _) => True
  | .deed (.stop _) => w.env.link.process.valid = true
  | _ => False

/-- Whether the answers that arrive as workspaces are fed go to what waits for
them. -/
def AnsweredFed (xs : List (Workspace Connection × Bytes)) :
    Env Connection → Env Connection → Prop :=
  Answered (xs.flatMap fun x => x.1.callsOf x.2)

namespace AnsweredFed

variable {xs ys : List (Workspace Connection × Bytes)}
    {env env' env'' : Env Connection}

theorem append (h : AnsweredFed xs env env') (h' : AnsweredFed ys env' env'') :
    AnsweredFed (xs ++ ys) env env'' := by
  unfold AnsweredFed
  rw [List.flatMap_append]
  exact h.trans h'

theorem of_asked (h : Asked [] env env') : AnsweredFed [] env env' :=
  Answered.of_asked h

theorem idle (h : AnsweredFed xs env env') (h' : Asked [] env' env'') :
    AnsweredFed xs env env'' := by
  have hboth := h.append (of_asked h')
  rw [List.append_nil] at hboth
  exact hboth

end AnsweredFed

theorem feed_answered (data : Bytes) (w : Workspace Connection) :
    AnsweredFed [(w, data)] w.env (w.feed data).2.env := by
  have hbuffered :
      Asked [] w.env (w.buffered (w.env.link.buffer ++ data)).env :=
    .idle (Nat.le_refl _) (fun _ he => he) rfl rfl
  have hfed : [(w, data)].flatMap (fun x => x.1.callsOf x.2) = w.callsOf data :=
    List.append_nil _
  unfold AnsweredFed
  rw [hfed]
  exact (Answered.of_asked hbuffered).trans (consume_answered _ _ _)

theorem read_answered (w : Workspace Connection) :
    AnsweredFed w.fedRead w.env w.read.env := by
  unfold fedRead
  split
  · next hvalid =>
      have hdrained : Asked [] w.env w.drained.env :=
        .idle (Nat.le_refl _) (fun _ he => he) rfl rfl
      have hfed := (AnsweredFed.of_asked hdrained).append
        (feed_answered w.env.link.process.unread w.drained)
      exact hfed.idle ((course_read hvalid).unasked nofun)
  · next hvalid =>
      unfold read
      rw [Bool.eq_false_iff.mpr hvalid]
      exact .of_asked (.emit w.env rfl)

theorem output_answered (w : Workspace Connection) (data : Bytes) :
    AnsweredFed (w.wrote data).fedRead w.env (w.output data).env := by
  have hwrote : Asked [] w.env (w.wrote data).env :=
    .idle (Nat.le_refl _) (fun _ he => he) rfl rfl
  exact (AnsweredFed.of_asked hwrote).append (read_answered (w.wrote data))

theorem keptByLapse_asked (env : Env Connection) :
    KeptByLapse (Asked [] env) where
  course hcourse h := h.trans (hcourse.unasked nofun)
  ended h := h.trans (.idle (Nat.le_refl _) nofun rfl rfl)

theorem moves_answered (ms : List Move) (w : Workspace Connection) :
    AnsweredFed (w.fedAlong ms) w.env (ms.foldl move w).env := by
  -- the induction is on what happens while the end of the process is waited for
  induction ms generalizing w with
  | nil => exact .of_asked (.refl w.env)
  | cons m rest ih =>
      by_cases hm : ∃ data, m = .stirred (.wrote data)
      · rcases hm with ⟨data, rfl⟩
        exact (output_answered w data).append (ih _)
      · have hquiet : ∀ data, m ≠ .stirred (.wrote data) :=
          fun data heq => hm ⟨data, heq⟩
        have hmoved := (keptByLapse_asked w.env).moved hquiet (.refl w.env)
        rw [fedAlong_quiet hquiet]
        exact (AnsweredFed.of_asked hmoved).append (ih _)

theorem keptByFarewell_asked (env : Env Connection) : KeptByFarewell fun env' =>
    (∃ ids, Asked ids env env') ∧
    ∀ e ∈ env'.link.waiting, e ∈ env.link.waiting where
  course {env' env''} hcourse h := by
    have hmore := hcourse.unasked nofun
    rcases h with ⟨⟨ids, hasked⟩, hnobody⟩
    refine ⟨⟨_, hasked.trans hmore⟩, fun e he => ?_⟩
    rcases hmore.left he with hold | hnew
    · exact hnobody e hold
    · cases hnew
  asked {env'} h := by
    rcases h with ⟨⟨ids, hasked⟩, hnobody⟩
    rcases Asked.request .shutdown none env' with ⟨_, hmore⟩
    refine ⟨⟨_, hasked.trans hmore⟩, fun e he => hnobody e ?_⟩
    rcases env'.request_eq .shutdown none with ⟨r, link, hlink, hrequest⟩
    rw [hrequest] at he
    change e ∈ link.waiting at he
    cases r with
    | error r =>
        rw [(Connection.request_error hlink).2] at he
        exact he
    | ok receipt =>
        rw [(Connection.request_ok hlink).2.2, Option.map_none,
          Option.toList_none, List.append_nil] at he
        exact he
  said {env'} h := by
    have hmore := Asked.notify .exit env'
    rcases h with ⟨⟨ids, hasked⟩, hnobody⟩
    refine ⟨⟨_, hasked.trans hmore⟩, fun e he => ?_⟩
    rcases hmore.left he with hold | hnew
    · exact hnobody e hold
    · cases hnew

theorem stop_routes (waits : Waits) (w : Workspace Connection) :
    ∃ ids, Routes ids (w.callsBy (.deed (.stop waits))) w.env
      (w.stop waits).env := by
  have hhungUp (w' : Workspace Connection) : Asked [] w'.env w'.hangUp.env :=
    .idle (Nat.le_refl _) nofun rfl rfl
  have hstopped := stop_cases waits w
  revert hstopped
  generalize w.stop waits = w'
  intro hstopped
  unfold callsBy fed Connection.isRunning
  cases hstopped with
  | unusable hvalid =>
      rw [hvalid]
      exact ⟨_, .of_asked (.refl w.env)⟩
  | idle hvalid hidle =>
      rw [hvalid, beq_false_of_ne hidle]
      exact ⟨_, .of_asked (hhungUp w)⟩
  | ended hvalid hrunning =>
      rw [hvalid, hrunning]
      rcases (keptByFarewell_asked w.env).left
        ⟨⟨_, .refl w.env⟩, fun _ he => he⟩ with
        ⟨⟨ids, hleft⟩, hnobody⟩
      exact ⟨ids,
        .of_both hleft hnobody
        ((moves_answered waits.moves w.leave).idle (hhungUp _))⟩

theorem asked_started {env env' : Env Connection}
    (h : Connection.Started env env') :
    Asked [] env env' := by
  cases h with
  | nothing => exact .refl _
  | started _ _ _ => exact .seeing (Nat.le_refl _) rfl rfl

theorem asked_began {env env' : Env Connection}
    (h : Connection.Began env env') :
    ∃ ids, Asked ids env env' := by
  have htold :
      Asked [] env (env.seeing env.link.running [.notice .agentStarted]) :=
    .seeing (Nat.le_refl _) rfl rfl
  have hboth (link : Connection) (es : List Event) :
      (env.seeing env.link.running [.notice .agentStarted]).seeing link es =
        env.seeing link (.notice .agentStarted :: es) := by
    unfold Env.seeing
    rw [List.append_assoc]
    rfl
  cases h with
  | @refused r link hlink =>
      have hes :
          [Event.refused "initialize" true r, .listenerFailed (.refused r)].all
          Event.isUncounted = true := rfl
      have hasked := htold.trans (.request_error hlink hes)
      rw [hboth] at hasked
      exact ⟨_, hasked⟩
  | greeted hlink =>
      have hasked := htold.trans (.request_ok hlink)
      rw [hboth] at hasked
      exact ⟨_, hasked⟩

/-- Whatever happens, requests are sent under new numbers, and answers go to
what waits for them. -/
theorem meet_routes (w : Workspace Connection) (i : Incident) :
    ∃ ids, Routes ids (w.callsBy i) w.env (w.meet i).env := by
  have hasked {ids : List Nat} {env : Env Connection}
      (h : Asked ids w.env env) :
      ∃ ids, Routes ids [] w.env env := ⟨ids, .of_asked h⟩
  cases i with
  | ask q waiting => exact (Asked.request q waiting w.env).elim fun _ => hasked
  | say n => exact hasked (.notify n w.env)
  | deed d =>
      cases hprocess : d.ofProcess with
      | false =>
          rcases course_undergo hprocess w with ⟨tone, hcourse⟩
          rcases hcourse.env.asked with ⟨ids, hmore, _⟩
          have hnone : w.callsBy (.deed d) = [] := by
            cases d with
            | feed _ => cases hprocess
            | output _ => cases hprocess
            | read => cases hprocess
            | stop _ => cases hprocess
            | _ => rfl
          rw [hnone]
          exact hasked hmore
      | true =>
          cases d with
          | start => exact hasked (asked_started (Connection.start_cases w.env))
          | began =>
              exact (asked_began (Connection.began_cases w.env)).elim fun _ =>
                hasked
          | finished code =>
              exact hasked
                ((keptByLapse_asked w.env).finished code (.refl w.env))
          | stop waits => exact stop_routes waits w
          | feed data => exact ⟨_, .of_answered (feed_answered data w)⟩
          | output data => exact ⟨_, .of_answered (output_answered w data)⟩
          | read => exact ⟨_, .of_answered (read_answered w)⟩
          | change f =>
              exact hasked (.idle (Nat.le_refl _) (fun _ he => he) rfl rfl)
          | _ => cases hprocess

theorem waiting_of_hangsUp {w : Workspace Connection} {i : Incident}
    (h : w.hangsUp i) :
    (w.meet i).env.link.waiting = [] := by
  cases i with
  | ask q waiting => cases h
  | say n => cases h
  | deed d =>
      cases d with
      | finished code =>
          show (Connection.finished code w.env).link.waiting = []
          unfold Connection.finished
          dsimp only
          rw [Env.signal_link]
      | stop waits =>
          have hvalid : w.env.link.process.valid = true := h
          show (w.stop waits).env.link.waiting = []
          unfold stop
          rw [hvalid, Bool.not_true, if_neg Bool.false_ne_true]
          split
          · rfl
          · rfl
      | _ => cases h

/-!
# Numbers that are given once
-/

/-- Whether the numbers that were given rise, and everybody who waits does so
under one of them. -/
structure Numbered (env : Env Connection) : Prop where
  rising : (requestIds env.trace).Pairwise (· < ·)
  bounded {id : Nat} (h : id ∈ requestIds env.trace) : id ≤ env.link.lastId
  table {e : Nat × Waiting} (h : e ∈ env.link.waiting) :
      e.1 ∈ requestIds env.trace

theorem Numbered.goOn {w : Workspace Connection} (h : Numbered w.env)
    (i : Incident) :
    Numbered (w.meet i).env := by
  rcases w.meet_routes i with ⟨ids, hroutes⟩
  refine ⟨?_, ?_, ?_⟩
  · rw [hroutes.issued]
    refine List.pairwise_append.mpr ⟨h.rising, hroutes.rising, ?_⟩
    intro id hid id' hid'
    exact Nat.lt_of_le_of_lt (h.bounded hid) (hroutes.fresh hid').1
  · intro id hid
    rw [hroutes.issued] at hid
    rcases List.mem_append.mp hid with hid | hid
    · exact Nat.le_trans (h.bounded hid) hroutes.counted
    · exact (hroutes.fresh hid).2
  · intro e he
    rw [hroutes.issued]
    rcases hroutes.left he with he | hid
    · exact List.mem_append_left ids (h.table he)
    · exact List.mem_append_right _ hid

theorem Numbered.goOnAll {w : Workspace Connection} (h : Numbered w.env)
    (is : List Incident) :
    Numbered (is.foldl meet w).env := by
  induction is generalizing w with
  | nil => exact h
  | cons i rest ih => exact ih (h.goOn i)

structure Reserved (id : Nat) (P : Waiting → Prop) (env : Env Connection) :
    Prop where
  given : id ≤ env.link.lastId
  only {e : Nat × Waiting} (h : e ∈ env.link.waiting) (hid : e.1 = id) : P e.2

variable {id : Nat} {P : Waiting → Prop}

theorem Reserved.goOn {w : Workspace Connection} (h : Reserved id P w.env)
    (i : Incident) :
    Reserved id P (w.meet i).env ∧ ∀ c ∈ w.callsBy i, c.id = id →
      P c.waiting := by
  rcases w.meet_routes i with ⟨ids, hroutes⟩
  refine ⟨⟨Nat.le_trans h.given hroutes.counted, ?_⟩, ?_⟩
  · intro e he hid
    rcases hroutes.left he with he | hfresh
    · exact h.only he hid
    · have hlater := (hroutes.fresh hfresh).1
      rw [hid] at hlater
      exact absurd hlater (Nat.not_lt_of_le h.given)
  · intro c hc hid
    exact h.only (hroutes.waited hc) hid

theorem Reserved.callsAll {w : Workspace Connection} (h : Reserved id P w.env)
    {is : List Incident} {c : Call} (hc : c ∈ w.callsAll is) (hid : c.id = id) :
    P c.waiting := by
  induction is generalizing w with
  | nil => cases hc
  | cons i rest ih =>
      rcases h.goOn i with ⟨hlater, hcalls⟩
      rcases List.mem_append.mp hc with hc | hc
      · exact hcalls c hc hid
      · exact ih hlater hc

theorem reserved_of_called {w : Workspace Connection} (h : Numbered w.env)
    {i : Incident} {c : Call} (hc : c ∈ w.callsBy i) :
    Reserved c.id (fun _ => False) (w.meet i).env := by
  rcases w.meet_routes i with ⟨_, hroutes⟩
  refine ⟨?_, fun he hid => hroutes.gone hc he hid⟩
  exact Nat.le_trans (h.bounded (h.table (hroutes.waited hc))) hroutes.counted

theorem callsAll_once {w : Workspace Connection} (h : Numbered w.env)
    (is : List Incident) :
    ((w.callsAll is).map Call.id).Nodup := by
  induction is generalizing w with
  | nil => exact .nil
  | cons i rest ih =>
      rcases w.meet_routes i with ⟨_, hroutes⟩
      unfold callsAll
      rw [List.map_append]
      refine List.nodup_append.mpr ⟨hroutes.once, ih (h.goOn i), ?_⟩
      intro id hid id' hid' heq
      rcases List.mem_map.mp hid with ⟨c, hc, rfl⟩
      rcases List.mem_map.mp hid' with ⟨c', hc', rfl⟩
      exact (reserved_of_called h hc).callsAll hc' heq.symm

/-!
# Who waits
-/

/-- Whether a request was sent as something happened, and something was
registered under its number. -/
def registers (w : Workspace Connection) (i : Incident) (e : Nat × Waiting) :
    Prop :=
  e ∈ (w.meet i).env.link.waiting ∧ e.1 ∉ requestIds w.env.trace ∧
    e.1 ∈ requestIds (w.meet i).env.trace

/-- Whether something was registered under a number as several things happened,
and nobody hung up since. -/
def Awaits (start : Workspace Connection) (is : List Incident)
    (e : Nat × Waiting) : Prop :=
  ∃ before i after, is = before ++ i :: after ∧
    (before.foldl meet start).registers i e ∧
    ∀ earlier j later, after = earlier ++ j :: later →
      ¬ ((before ++ i :: earlier).foldl meet start).hangsUp j

theorem Awaits.goOn {start : Workspace Connection} {is : List Incident}
    {e : Nat × Waiting} (h : Awaits start is e) {i : Incident}
    (hkept : ¬ (is.foldl meet start).hangsUp i) :
    Awaits start (is ++ [i]) e := by
  rcases h with ⟨before, j, after, hsplit, hregisters, hquiet⟩
  refine ⟨before, j, after ++ [i], ?_, hregisters, ?_⟩
  · rw [hsplit, List.append_assoc]
    rfl
  · intro earlier k later heq
    rcases split_concat heq with ⟨hafter, hlast, _⟩ | ⟨amid, _, hafter⟩
    · rw [← hafter, ← hlast, ← hsplit]
      exact hkept
    · exact hquiet earlier k amid hafter

theorem registers_of_waiting {w : Workspace Connection} (h : Numbered w.env)
    {i : Incident} {e : Nat × Waiting} (he : e ∈ (w.meet i).env.link.waiting)
    (hnew : e ∉ w.env.link.waiting) :
    w.registers i e := by
  refine ⟨he, ?_, (h.goOn i).table he⟩
  intro hid
  rcases w.meet_routes i with ⟨ids, hroutes⟩
  rcases hroutes.left he with hold | hfresh
  · exact hnew hold
  · exact absurd (hroutes.fresh hfresh).1 (Nat.not_lt_of_le (h.bounded hid))

/-- Everybody who waits was registered since somebody last hung up; by induction
on what happened, from its end. -/
theorem awaits_of_waiting {start : Workspace Connection}
    (h : start.env.link.waiting = []) (hnumbered : Numbered start.env)
    (is : List Incident) {e : Nat × Waiting}
    (he : e ∈ (is.foldl meet start).env.link.waiting) : Awaits start is e := by
  induction is using List.reverseRecOn with
  | nil =>
      change e ∈ start.env.link.waiting at he
      rw [h] at he
      cases he
  | append_singleton before i ih =>
      rw [List.foldl_concat] at he
      by_cases hold : e ∈ (before.foldl meet start).env.link.waiting
      · apply (ih hold).goOn
        intro hend
        rw [waiting_of_hangsUp hend] at he
        cases he
      · refine ⟨before, i, [], rfl,
          registers_of_waiting (hnumbered.goOnAll before) he hold, ?_⟩
        intro earlier j later heq
        have hnone := (List.append_eq_nil_iff.mp heq.symm).2
        cases hnone

/-!
# Routes
-/

/-- Whether answers go where they belong as several things happen.  The numbers
of requests rise, and none of them is answered twice.  An answer goes to what
was registered with the number that it names when a request was sent, and before
anybody hung up.  Nothing else is ever called for a request that was sent from
outside, and nothing at all for one that was refused.  What probes show are
these answers. -/
structure Routed (start : Workspace Connection) (is : List Incident) :
    Prop where
  rising : (requestIds (is.foldl meet start).env.trace).Pairwise (· < ·)
  once : ((start.callsAll is).map Call.id).Nodup
  called {before after : List Incident} {i : Incident}
    (h : is = before ++ i :: after) {c : Call}
    (hc : c ∈ (before.foldl meet start).callsBy i) :
    c.Fits ∧ Awaits start before (c.id, c.waiting)
  returned {before after : List Incident} {q : Request}
    {waiting : Option Waiting} {receipt : Receipt}
    (h : is = before ++ .ask q waiting :: after)
    (hok : ((before.foldl meet start).env.request q waiting).1 = .ok receipt) :
    let w := before.foldl meet start
    requestIds (w.meet (.ask q waiting)).env.trace =
      requestIds w.env.trace ++ [receipt.id] ∧
      ∀ c ∈ (w.meet (.ask q waiting)).callsAll after, c.id = receipt.id →
        waiting = some c.waiting
  refused {before after : List Incident} {q : Request}
    {waiting : Option Waiting} {r : Refusal}
    (h : is = before ++ .ask q waiting :: after)
    (herror : ((before.foldl meet start).env.request q waiting).1 = .error r) :
    let w := before.foldl meet start
    (w.meet (.ask q waiting)).env.link.waiting = w.env.link.waiting ∧
      ∀ c ∈ (w.meet (.ask q waiting)).callsAll after, c.id ≠
        w.env.link.lastId + 1
  shown : answers (is.foldl meet start).env.trace =
    answers start.env.trace ++ (start.callsAll is).filterMap Call.shown?

theorem answers_shown (w : Workspace Connection) (is : List Incident) :
    answers (is.foldl meet w).env.trace =
      answers w.env.trace ++ (w.callsAll is).filterMap Call.shown? := by
  induction is generalizing w with
  | nil => exact (List.append_nil _).symm
  | cons i rest ih =>
      rcases w.meet_routes i with ⟨_, hroutes⟩
      rw [List.foldl_cons, ih, hroutes.shown, callsAll, List.filterMap_append,
        List.append_assoc]

theorem ask_returned {w : Workspace Connection} (h : Numbered w.env)
    {q : Request} {waiting : Option Waiting} {receipt : Receipt}
    (hok : (w.env.request q waiting).1 = .ok receipt) :
    requestIds (w.meet (.ask q waiting)).env.trace =
      requestIds w.env.trace ++ [receipt.id] ∧
      Reserved receipt.id (waiting = some ·) (w.meet (.ask q waiting)).env := by
  rcases w.env.request_eq q waiting with ⟨r, link, hlink, hrequest⟩
  rw [hrequest] at hok
  cases hok
  rcases Connection.request_ok hlink with ⟨hid, hlast, hwaiting⟩
  have hmeet : (w.meet (.ask q waiting)).env =
      w.env.seeing link [.sent (.request receipt.id q)] :=
        congrArg Prod.snd hrequest
  rw [hmeet]
  refine ⟨requestIds_append .., ?_, ?_⟩
  · exact Nat.le_of_eq (hid.trans hlast.symm)
  · intro e he heq
    change e ∈ link.waiting at he
    rw [hwaiting] at he
    rcases List.mem_append.mp he with he | he
    · have hbound := h.bounded (h.table he)
      rw [heq, hid] at hbound
      exact absurd hbound (Nat.not_succ_le_self _)
    · cases waiting with
      | none => cases he
      | some waiting => rw [List.mem_singleton.mp he]

theorem ask_refused {w : Workspace Connection} (h : Numbered w.env)
    {q : Request} {waiting : Option Waiting} {r : Refusal}
    (herror : (w.env.request q waiting).1 = .error r) :
    (w.meet (.ask q waiting)).env.link.waiting = w.env.link.waiting ∧
      Reserved (w.env.link.lastId + 1) (fun _ => False)
        (w.meet (.ask q waiting)).env := by
  rcases w.env.request_eq q waiting with ⟨r', link, hlink, hrequest⟩
  rw [hrequest] at herror
  cases herror
  rcases Connection.request_error hlink with ⟨hlast, hwaiting⟩
  have hmeet : (w.meet (.ask q waiting)).env =
      w.env.seeing link [.refused q.method true r] := congrArg Prod.snd hrequest
  rw [hmeet]
  refine ⟨hwaiting, ?_, ?_⟩
  · exact Nat.le_of_eq hlast.symm
  · intro e he heq
    change e ∈ link.waiting at he
    rw [hwaiting] at he
    have hbound := h.bounded (h.table he)
    rw [heq] at hbound
    exact Nat.not_succ_le_self _ hbound

/-- In every conversation, answers go where they belong. -/
theorem answers_routed {start : Workspace Connection} (h : start.Unused)
    (hnone : requestIds start.env.trace = []) (is : List Incident) :
    Routed start is := by
  rcases h.link with ⟨command, directory, room, hlink⟩
  have hwaiting : start.env.link.waiting = [] := by
    rw [hlink]
    rfl
  have hnumbered : Numbered start.env := by
    refine ⟨?_, ?_, ?_⟩
    · rw [hnone]
      exact .nil
    · intro id hid
      rw [hnone] at hid
      cases hid
    · intro e he
      rw [hwaiting] at he
      cases he
  refine ⟨(hnumbered.goOnAll is).rising, callsAll_once hnumbered is, ?_, ?_, ?_,
    answers_shown start is⟩
  · intro before after i _ c hc
    rcases (before.foldl meet start).meet_routes i with ⟨_, hroutes⟩
    exact ⟨hroutes.fits hc,
      awaits_of_waiting hwaiting hnumbered before (hroutes.waited hc)⟩
  · intro before after q waiting receipt _ hok
    rcases ask_returned (hnumbered.goOnAll before) hok with ⟨hissued, hreserved⟩
    exact ⟨hissued, fun c hc hid => hreserved.callsAll hc hid⟩
  · intro before after q waiting r _ herror
    rcases ask_refused (hnumbered.goOnAll before) herror with ⟨hsame, hreserved⟩
    exact ⟨hsame, fun c hc hid => hreserved.callsAll hc hid⟩

def inquiry : List Incident :=
  let answer : Incident :=
    .deed (.output
      (Frame.ofText (.obj [("id", .int 2), ("result", .null)])).bytes)
  introduction 1 (.obj []) ++
    [.ask .shutdown (some (.probe "answer" none)), answer, answer]

theorem answers_routed_inquiry :
    Routed blank inquiry ∧ (blank.callsAll inquiry).map Call.id = [1, 2] ∧
      (answers (inquiry.foldl meet blank).env.trace).length = 1 :=
  ⟨answers_routed blank_unused rfl inquiry, by decide +kernel,
    by decide +kernel⟩

end Workspace
end InlineCompletion
