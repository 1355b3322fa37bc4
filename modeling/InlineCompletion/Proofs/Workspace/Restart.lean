import InlineCompletion.Proofs.Frame.Reading
import InlineCompletion.Proofs.Workspace.Conversation
import InlineCompletion.Proofs.Workspace.Feed

/-!
# Restarts

The buffer of the connection outlives the process: what one process left in the
middle of a frame stands before what the next one writes.  The main statement is
that the messages that are handed on behind a restart are those that reading
finds in these bytes, one behind the other.  They are what a fresh buffer would
hand on where nothing was left.
-/

namespace InlineCompletion

def notifications (es : List Event) : List Json :=
  es.filterMap fun
    | .notification message => some message
    | _ => none

theorem notifications_append (es es' : List Event) :
    notifications (es ++ es') = notifications es ++ notifications es' :=
  List.filterMap_append

theorem notifications_landmarks (es : List Event) :
    notifications (landmarks es) = notifications es := by
  induction es with
  | nil => rfl
  | cons e rest ih =>
      unfold landmarks notifications at ih ⊢
      rw [List.filter_cons, List.filterMap_cons]
      cases e with
      | notification message => exact congrArg (message :: ·) ih
      | process e =>
          cases e with
          | started _ _ _ => exact ih
          | _ => exact ih
      | _ => exact ih

theorem Env.Aside.notifications {env env' : Env Connection}
    (h : env.Aside env') :
    notifications env'.trace = notifications env.trace := by
  rw [← notifications_landmarks, h.landmarks, notifications_landmarks]

def Connection.notifies (message : Json) : Bool :=
  match Connection.classify message with
  | .ok .notification => true
  | _ => false

theorem Connection.not_notifies {message : Json}
    (h : classify message ≠ .ok .notification) :
    [message].filter notifies = [] := by
  refine List.filter_cons_of_neg ?_
  unfold notifies
  split
  · next heq => exact absurd heq h
  · exact Bool.false_ne_true

namespace Workspace

/-!
# Single messages
-/

theorem agentReady_notifications (w : Workspace Connection) :
    notifications w.agentReady.env.trace = notifications w.env.trace := by
  rcases course_agentReady w with ⟨env, hbefore, hbehind⟩
  have hready :
      notifications (env.emit .ready).trace = notifications env.trace :=
    (notifications_append ..).trans (List.append_nil _)
  rw [hbehind.aside.notifications, hready, hbefore.aside.notifications]

theorem greeted_notifications {message : Json} {w : Workspace Connection}
    {r : Except Fault Unit × Workspace Connection} (h : Greeted message w r) :
    notifications r.2.env.trace = notifications w.env.trace := by
  cases h with
  | rejected e => exact (Env.Aside.tell w.env _).notifications
  | unthanked _ => exact (notifications_append ..).trans (List.append_nil _)
  | unannounced _ _ => exact (notifications_append ..).trans (List.append_nil _)
  | @announced link _ name _ _ =>
      have hthanked :
          notifications (w.thanked link).env.trace =
            notifications w.env.trace :=
        (notifications_append ..).trans (List.append_nil _)
      have htold :=
        (Env.Aside.tell (w.thanked link).env (.agentReady name)).notifications
      exact (agentReady_notifications _).trans (htold.trans hthanked)

theorem handle_notifications (message : Json) (w : Workspace Connection) :
    notifications (w.handle message).2.env.trace =
      notifications w.env.trace ++ [message].filter Connection.notifies := by
  have hhandled := handle_cases message w
  revert hhandled
  generalize w.handle message = r
  intro hhandled
  have hanswered {id : Json}
      (hanswer : Connection.classify message = .ok (.answer id)) :
      [message].filter Connection.notifies = [] := by
    apply Connection.not_notifies
    rw [hanswer]
    nofun
  cases hhandled with
  | faulty _ hclass _ =>
      rw [Connection.not_notifies hclass]
      exact (List.append_nil _).symm
  | nothing hclass _ =>
      rw [Connection.not_notifies hclass]
      exact (List.append_nil _).symm
  | notified hclass =>
      unfold Connection.notifies
      rw [List.filter_cons, hclass]
      exact notifications_append ..
  | greeted hanswer _ hgreeted =>
      have hsame := greeted_notifications hgreeted
      rw [hanswered hanswer, List.append_nil]
      exact hsame
  | @completed _ i ticket link hanswer _ =>
      have hreceived : (w.onLink fun _ => link).Course .mute _ :=
        course_receive i ticket message _
      rw [hanswered hanswer, List.append_nil]
      exact hreceived.env.aside.notifications
  | probed _ hanswer _ =>
      rw [hanswered hanswer]
      exact notifications_append ..

theorem act_notifications (found : Frame.Found) (w : Workspace Connection) :
    notifications (w.act found).2.env.trace =
      notifications w.env.trace ++
        found.message?.toList.filter Connection.notifies := by
  cases found with
  | message v =>
      cases v with
      | null => exact (List.append_nil _).symm
      | _ => exact handle_notifications _ w
  | _ => exact (List.append_nil _).symm

/-!
# Bytes
-/

def taken (e : Frame.Extracted) (w : Workspace Connection) :
    Workspace Connection :=
  (w.tellDropped e.found).buffered e.rest

/-- The messages that are handed on as bytes are acted on. -/
def handed (room : Nat) (data : Bytes) (w : Workspace Connection) :
    List Handed :=
  match h : Frame.extract room data with
  | .error _ => []
  | .ok e =>
      if heq : e.rest.length = data.length then []
      else
        have : e.rest.length < data.length :=
          Nat.lt_of_le_of_ne (Frame.extract_rest_length_le h) heq
        let acted := (w.taken e).act e.found
        e.found.message?.toList.map (⟨·, acted.1.isOk⟩) ++
          match acted with
          | (.error _, _) => []
          | (.ok (), w) => w.handed room e.rest
termination_by data.length

variable {room : Nat}

theorem handed_of_stop {data : Bytes} (h : Frame.front room data = none)
    (w : Workspace Connection) :
    w.handed room data = [] := by
  unfold Frame.front at h
  rw [handed]
  split
  · rfl
  · next e hextract =>
      rw [hextract] at h
      dsimp only at h ⊢
      split
      · rfl
      · next hlength =>
          rw [if_neg hlength] at h
          cases h

theorem handed_of_extract {data : Bytes} {e : Frame.Extracted}
    (h : Frame.extract room data = .ok e)
    (hlength : e.rest.length ≠ data.length) (w : Workspace Connection) :
    w.handed room data =
      e.found.message?.toList.map (⟨·, ((w.taken e).act e.found).1.isOk⟩) ++
        match (w.taken e).act e.found with
        | (.error _, _) => []
        | (.ok (), w) => w.handed room e.rest := by
  rw [handed]
  split
  · next hextract => cases h.symm.trans hextract
  · next e' hextract =>
      cases h.symm.trans hextract
      exact dif_neg hlength

theorem notifications_tellDropped (found : Frame.Found)
    (w : Workspace Connection) :
    notifications (w.tellDropped found).env.trace = notifications w.env.trace ∧
      (w.tellDropped found).env.link.buffer = w.env.link.buffer := by
  unfold tellDropped
  split
  · exact ⟨(Env.Aside.tell w.env _).notifications, rfl⟩
  · exact ⟨rfl, rfl⟩

theorem consume_of_stop {data : Bytes} (h : Frame.front room data = none)
    (w : Workspace Connection) :
    notifications (w.consume room data).2.env.trace =
      notifications w.env.trace ∧
      (w.consume room data).2.env.link.buffer = w.env.link.buffer := by
  unfold Frame.front at h
  rw [consume]
  split
  · exact ⟨rfl, rfl⟩
  · next e hextract =>
      rw [hextract] at h
      dsimp only at h ⊢
      split
      · exact notifications_tellDropped e.found w
      · next hlength =>
          rw [if_neg hlength] at h
          cases h

theorem message?_of_failed {found : Frame.Found} {w w' : Workspace Connection}
    {f : Fault} (h : w.act found = (.error f, w')) :
    ∃ v, found.message? = some v := by
  cases found with
  | message v =>
      cases v with
      | null => cases h
      | _ => exact ⟨_, rfl⟩
  | _ => cases h

/-- Acting on bytes hands on what reading finds in them, leaves the rest in the
buffer, and passes on the notifications. -/
theorem consume_reading {data : Bytes} {w : Workspace Connection}
    (hw : w.env.link.buffer = data) :
    Frame.Reading room data (w.handed room data)
      (w.consume room data).2.env.link.buffer ∧
      notifications (w.consume room data).2.env.trace =
        notifications w.env.trace ++
        ((w.handed room data).map Handed.message).filter
        Connection.notifies := by
  induction hlength : data.length using Nat.strongRecOn generalizing data w with
  | ind length ih =>
      cases hfront : Frame.front room data with
      | none =>
          rcases consume_of_stop hfront w with ⟨hnotifications, hbuffer⟩
          rw [handed_of_stop hfront, hnotifications, hbuffer, hw]
          exact ⟨.stops hfront, (List.append_nil _).symm⟩
      | some found =>
          rcases Frame.front_eq_some hfront with ⟨e, hextract, hne, hfound⟩
          have hshorter : e.rest.length < length := by
            have hle := Frame.extract_rest_length_le hextract
            omega
          have hbuffer := (act_buffer_room e.found (w.taken e)).1
          have hnotifications := (act_notifications e.found (w.taken e)).trans
            (congrArg (· ++ _) (notifications_tellDropped e.found w).1)
          have hhanded := handed_of_extract hextract hne w
          have hconsume :
              w.consume room data = match (w.taken e).act e.found with
            | (.error f, w) => (.error f, w)
            | (.ok (), w) => w.consume room e.rest :=
              consume_of_extract hextract hne
          cases hacted : (w.taken e).act e.found with
          | mk r w' =>
              rw [hacted] at hbuffer hnotifications hhanded hconsume
              change w'.env.link.buffer = e.rest at hbuffer
              cases r with
              | error f =>
                  rcases message?_of_failed hacted with ⟨v, hv⟩
                  rw [hv] at hfound hnotifications hhanded
                  rw [hhanded, hconsume]
                  constructor
                  · rw [hbuffer]
                    exact .failed (hfront.trans (congrArg some hfound))
                  · exact hnotifications
              | ok u =>
                  rcases ih e.rest.length hshorter hbuffer rfl with
                    ⟨hreading, hpassed⟩
                  change w.consume room data =
                    w'.consume room e.rest at hconsume
                  rw [hconsume, hpassed, hnotifications, hhanded]
                  cases hv : e.found.message? with
                  | none =>
                      rw [hv] at hfound
                      refine ⟨.skipped (hfront.trans (congrArg some hfound))
                        hreading, ?_⟩
                      exact congrArg (· ++ _) (List.append_nil _)
                  | some v =>
                      rw [hv] at hfound
                      refine ⟨.handed (hfront.trans (congrArg some hfound))
                        hreading, ?_⟩
                      rw [List.append_assoc, ← List.filter_append]
                      rfl

/-!
# Conversations
-/

/-- Whether the buffer came from one place to another as chunks of bytes were
read, and the messages that were handed on were passed on as notifications. -/
structure Heeds (chunks : List Bytes) (hs : List Handed)
    (env env' : Env Connection) : Prop where
  room : env'.link.room = env.link.room
  readings :
      Frame.Readings env.link.room env.link.buffer chunks hs env'.link.buffer
  passed : notifications env'.trace =
    notifications env.trace ++
      (hs.map Handed.message).filter Connection.notifies

namespace Heeds

variable {chunks chunks' : List Bytes} {hs hs' : List Handed}
    {env env' env'' : Env Connection}

theorem idle (hroom : env'.link.room = env.link.room)
    (hbuffer : env'.link.buffer = env.link.buffer)
    (hpassed : notifications env'.trace = notifications env.trace) :
    Heeds [] [] env env' where
  room := hroom
  readings := by
    rw [hbuffer]
    exact .nil _
  passed := hpassed.trans (List.append_nil _).symm

theorem aside (h : env.Aside env') : Heeds [] [] env env' :=
  idle h.link.room h.link.buffer h.notifications

theorem trans (h : Heeds chunks hs env env')
    (h' : Heeds chunks' hs' env' env'') :
    Heeds (chunks ++ chunks') (hs ++ hs') env env'' where
  room := h'.room.trans h.room
  readings := h.readings.append (h.room ▸ h'.readings)
  passed := by
    rw [h'.passed, h.passed, List.append_assoc, List.map_append,
      List.filter_append]

end Heeds

theorem room_keptByMessages (room : Nat) :
    KeptByMessages fun w : Workspace Connection => w.env.link.room = room where
  handled message h := (handle_buffer_room message _).2.trans h
  told _ _ h := h
  buffered _ h := h

def handedOf (w : Workspace Connection) (data : Bytes) : List Handed :=
  (w.buffered (w.env.link.buffer ++ data)).handed w.env.link.room
    (w.env.link.buffer ++ data)

def drained (w : Workspace Connection) : Workspace Connection :=
  w.onLink fun c => { c with process := { c.process with unread := [] } }

def wrote (data : Bytes) (w : Workspace Connection) : Workspace Connection :=
  w.onLink fun c =>
    { c with process := { c.process with unread := c.process.unread ++ data } }

/-- The workspaces that are fed as what the process wrote is read, and the bytes
that arrive. -/
def fedRead (w : Workspace Connection) : List (Workspace Connection × Bytes) :=
  if w.env.link.process.valid then [(w.drained, w.env.link.process.unread)]
  else []

/-- The workspaces that are fed while the end of the process is waited for, and
the bytes that arrive. -/
def fedAlong (w : Workspace Connection) :
    List Move → List (Workspace Connection × Bytes)
  | [] => []
  | .stirred (.wrote data) :: rest =>
      (w.wrote data).fedRead ++ (w.output data).fedAlong rest
  | m :: rest => (w.move m).fedAlong rest

theorem fedAlong_quiet {m : Move} (hm : ∀ data, m ≠ .stirred (.wrote data))
    (rest : List Move) (w : Workspace Connection) :
    w.fedAlong (m :: rest) = (w.move m).fedAlong rest := by
  cases m with
  | stirred s =>
      cases s with
      | wrote data => exact absurd rfl (hm data)
      | troubled kind => rfl
  | _ => rfl

/-- The workspaces that are fed as something happens, and the bytes that
arrive. -/
def fed (w : Workspace Connection) :
    Incident → List (Workspace Connection × Bytes)
  | .deed (.feed data) => [(w, data)]
  | .deed (.output data) => (w.wrote data).fedRead
  | .deed .read => w.fedRead
  | .deed (.stop waits) =>
      if w.env.link.isRunning then w.leave.fedAlong waits.moves else []
  | _ => []

/-- The bytes that arrive as something happens. -/
def arrivals (w : Workspace Connection) (i : Incident) : List Bytes :=
  (w.fed i).map (·.2)

def handedBy (w : Workspace Connection) (i : Incident) : List Handed :=
  (w.fed i).flatMap fun x => x.1.handedOf x.2

theorem course_read {w : Workspace Connection}
    (hvalid : w.env.link.process.valid = true) :
    Env.Course .mute (w.drained.feed w.env.link.process.unread).2.env
      w.read.env := by
  unfold read
  rw [hvalid, Bool.not_true, if_neg Bool.false_ne_true]
  dsimp only
  split
  · next w' heq =>
      change w.drained.feed w.env.link.process.unread = _ at heq
      rw [heq]
      exact .refl
  · next f w' heq =>
      change w.drained.feed w.env.link.process.unread = _ at heq
      rw [heq]
      exact .tell _ _

def HeedsFed (xs : List (Workspace Connection × Bytes)) :
    Env Connection → Env Connection → Prop :=
  Heeds (xs.map (·.2)) (xs.flatMap fun x => x.1.handedOf x.2)

theorem feed_heeds (data : Bytes) (w : Workspace Connection) :
    HeedsFed [(w, data)] w.env (w.feed data).2.env := by
  rcases consume_reading (w := w.buffered (w.env.link.buffer ++ data)) rfl with
    ⟨hreading, hpassed⟩
  have hfed :
      [(w, data)].flatMap (fun x => x.1.handedOf x.2) = w.handedOf data :=
    List.append_nil _
  unfold HeedsFed
  rw [hfed]
  exact ⟨(room_keptByMessages _).feed data rfl, .single hreading, hpassed⟩

theorem HeedsFed.append {xs ys : List (Workspace Connection × Bytes)}
    {env env' env'' : Env Connection} (h : HeedsFed xs env env')
    (h' : HeedsFed ys env' env'') :
    HeedsFed (xs ++ ys) env env'' := by
  unfold HeedsFed
  rw [List.map_append, List.flatMap_append]
  exact h.trans h'

theorem HeedsFed.idle {xs : List (Workspace Connection × Bytes)}
    {env env' env'' : Env Connection} (h : HeedsFed xs env env')
    (h' : Heeds [] [] env' env'') : HeedsFed xs env env'' := by
  have hboth := h.trans h'
  rw [List.append_nil, List.append_nil] at hboth
  exact hboth

theorem read_heeds (w : Workspace Connection) :
    HeedsFed w.fedRead w.env w.read.env := by
  unfold fedRead
  split
  · next hvalid =>
      have hdrained : Heeds [] [] w.env w.drained.env := .idle rfl rfl rfl
      have hheeds :=
        hdrained.trans (feed_heeds w.env.link.process.unread w.drained)
      have hread : HeedsFed [(w.drained, w.env.link.process.unread)] w.env _ :=
        hheeds
      exact hread.idle (.aside (course_read hvalid).aside)
  · next hvalid =>
      unfold read
      rw [Bool.eq_false_iff.mpr hvalid]
      exact Heeds.aside (.tell w.env .agentInvalid)

theorem output_heeds (w : Workspace Connection) (data : Bytes) :
    HeedsFed (w.wrote data).fedRead w.env (w.output data).env := by
  have hwrote : Heeds [] [] w.env (w.wrote data).env := .idle rfl rfl rfl
  exact hwrote.trans (read_heeds (w.wrote data))

theorem keptByLapse_heeds (env : Env Connection) :
    KeptByLapse (Heeds [] [] env) where
  course hcourse h := h.trans (.aside hcourse.aside)
  ended h := h.trans (.idle rfl rfl rfl)

theorem heeds_refl (env : Env Connection) : Heeds [] [] env env :=
  .idle rfl rfl rfl

theorem moves_heeds (ms : List Move) (w : Workspace Connection) :
    HeedsFed (w.fedAlong ms) w.env (ms.foldl move w).env := by
  -- the induction is on what happens while the end of the process is waited for
  induction ms generalizing w with
  | nil => exact heeds_refl w.env
  | cons m rest ih =>
      by_cases hm : ∃ data, m = .stirred (.wrote data)
      · rcases hm with ⟨data, rfl⟩
        exact (output_heeds w data).append (ih _)
      · have hquiet : ∀ data, m ≠ .stirred (.wrote data) :=
          fun data heq => hm ⟨data, heq⟩
        have hmoved := (keptByLapse_heeds w.env).moved hquiet (heeds_refl w.env)
        rw [fedAlong_quiet hquiet]
        exact hmoved.trans (ih _)

theorem stop_heeds (waits : Waits) (w : Workspace Connection) :
    HeedsFed (w.fed (.deed (.stop waits))) w.env (w.stop waits).env := by
  have hhungUp (w' : Workspace Connection) : Heeds [] [] w'.env w'.hangUp.env :=
    .idle rfl rfl rfl
  have hstopped := stop_cases waits w
  revert hstopped
  generalize w.stop waits = w'
  intro hstopped
  show HeedsFed (if w.env.link.isRunning then _ else _) _ _
  unfold Connection.isRunning
  cases hstopped with
  | unusable hvalid =>
      rw [hvalid]
      exact heeds_refl w.env
  | idle hvalid hidle =>
      rw [hvalid, beq_false_of_ne hidle]
      exact hhungUp w
  | ended hvalid hrunning =>
      rw [hvalid, hrunning]
      have hleft : Heeds [] [] w.env w.leave.env :=
        .aside ((keptByFarewell_aside w.env).left (.refl w.env))
      have hmoved : HeedsFed (w.leave.fedAlong waits.moves) w.env _ :=
        hleft.trans (moves_heeds waits.moves w.leave)
      exact hmoved.idle (hhungUp _)

theorem request_heeds (q : Request) (waiting : Option Waiting)
    (env : Env Connection) :
    Heeds [] [] env (env.request q waiting).2 := by
  have huntouched := (Connection.request_untouched q waiting env.link).2
  unfold Env.request
  split
  · next heq =>
      rw [heq] at huntouched
      exact .idle huntouched.2 huntouched.1
        ((notifications_append ..).trans (List.append_nil _))
  · next heq =>
      rw [heq] at huntouched
      exact .idle huntouched.2 huntouched.1
        ((notifications_append ..).trans (List.append_nil _))

theorem start_heeds (env : Env Connection) :
    Heeds [] [] env (Connection.start env).2 := by
  unfold Connection.start
  split
  · exact .idle rfl rfl rfl
  · refine .idle rfl rfl ((notifications_append ..).trans ?_)
    rw [(Env.Aside.tell env _).notifications]
    exact List.append_nil _

theorem began_heeds (env : Env Connection) :
    Heeds [] [] env (Connection.began env) := by
  have hrunning : Heeds [] [] env
      { env with link := { env.link with
        process := { env.link.process with phase := .running } } } :=
    .idle rfl rfl rfl
  have hgreeted := (hrunning.trans (.aside (.tell _ .agentStarted))).trans
    (request_heeds .greeting (some .handshake) _)
  unfold Connection.began
  dsimp only
  split
  · next heq =>
      rw [heq] at hgreeted
      exact hgreeted
  · next heq =>
      rw [heq] at hgreeted
      exact hgreeted.trans (.aside (.emit _ rfl))

theorem meet_heeds (w : Workspace Connection) (i : Incident) :
    Heeds (w.arrivals i) (w.handedBy i) w.env (w.meet i).env := by
  cases i with
  | ask q waiting => exact request_heeds q waiting w.env
  | say n => exact .aside (.notify n w.env)
  | deed d =>
      cases d with
      | start => exact start_heeds w.env
      | began => exact began_heeds w.env
      | finished code =>
          exact (keptByLapse_heeds w.env).finished code (heeds_refl w.env)
      | stop waits => exact stop_heeds waits w
      | feed data => exact feed_heeds data w
      | output data => exact output_heeds w data
      | read => exact read_heeds w
      | change f => exact .idle rfl rfl rfl
      | _ => exact .aside (aside_undergo rfl w)

def arrivalsAll (w : Workspace Connection) : List Incident → List Bytes
  | [] => []
  | i :: rest => w.arrivals i ++ (w.meet i).arrivalsAll rest

def handedAll (w : Workspace Connection) : List Incident → List Handed
  | [] => []
  | i :: rest => w.handedBy i ++ (w.meet i).handedAll rest

theorem meetAll_heeds (w : Workspace Connection) (is : List Incident) :
    Heeds (w.arrivalsAll is) (w.handedAll is) w.env (is.foldl meet w).env := by
  induction is generalizing w with
  | nil => exact .idle rfl rfl rfl
  | cons i rest ih => exact (w.meet_heeds i).trans (ih (w.meet i))

/-!
# Restarts
-/

/-- Several things happen, such as the end of the process, and another one is
started. -/
def restarted (w : Workspace Connection) (pause : List Incident) :
    Workspace Connection :=
  (pause.foldl meet w).meet (.deed .start)

theorem restarted_heeds (w : Workspace Connection) (pause : List Incident) :
    Heeds (w.arrivalsAll pause) (w.handedAll pause) w.env
      (w.restarted pause).env := by
  have hstarted := (w.meetAll_heeds pause).trans (meet_heeds _ (.deed .start))
  have hnothing : (pause.foldl meet w).arrivals (.deed .start) = [] ∧
      (pause.foldl meet w).handedBy (.deed .start) = [] := ⟨rfl, rfl⟩
  rw [hnothing.1, hnothing.2, List.append_nil, List.append_nil] at hstarted
  exact hstarted

/-- Whether messages are those that a fresh buffer hands on of chunks of
bytes. -/
def Fresh (room : Nat) (chunks : List Bytes) (hs : List Handed) : Prop :=
  ∃ rest, Frame.Readings room [] chunks hs rest

/-- What is left in the buffer of what was read before is still there when the
next process is started, and stands before the bytes of that one: the messages
that are handed on behind the restart are those that reading finds in both, and
no others, and those among them that are notifications are passed on.  They are
what a fresh buffer hands on if nothing was left. -/
theorem restarted_readings (w : Workspace Connection)
    (pause later : List Incident) :
    let next := w.restarted pause
    Frame.Readings w.env.link.room w.env.link.buffer (w.arrivalsAll pause)
      (w.handedAll pause)
        next.env.link.buffer ∧
      (w.arrivalsAll pause = [] → next.env.link.buffer = w.env.link.buffer) ∧
      (∀ hs : List Handed, hs.map Handed.well =
        (next.handedAll later).map Handed.well →
        ((∃ rest,
          Frame.Readings w.env.link.room next.env.link.buffer
          (next.arrivalsAll later) hs rest) ↔ hs = next.handedAll later)) ∧
      notifications (later.foldl meet next).env.trace =
        notifications w.env.trace ++
        ((w.handedAll pause ++ next.handedAll later).map Handed.message).filter
          Connection.notifies ∧
      (next.env.link.buffer = [] →
        Fresh w.env.link.room (next.arrivalsAll later)
          (next.handedAll later)) := by
  intro next
  have hrestarted := w.restarted_heeds pause
  have hlater := next.meetAll_heeds later
  have hreadings := hlater.readings
  rw [show next.env.link.room = w.env.link.room from hrestarted.room]
    at hreadings
  refine ⟨hrestarted.readings, ?_, ?_, ?_, ?_⟩
  · intro hnothing
    have hleft := hrestarted.readings
    rw [hnothing] at hleft
    exact hleft.of_nil.2
  · intro hs hwell
    constructor
    · rintro ⟨rest, hother⟩
      exact (hother.unique hreadings hwell).1
    · rintro rfl
      exact ⟨_, hreadings⟩
  · exact (hrestarted.trans hlater).passed
  · intro hempty
    rw [hempty] at hreadings
    exact ⟨_, hreadings⟩

def ping : Json := .obj [("method", .str "ping")]

def interrupted : Workspace Connection :=
  [.deed .start, .deed .began,
    .deed (.output ((Frame.ofText ping).bytes.take 30))].foldl meet blank

def successor : Workspace Connection :=
  interrupted.restarted [.deed (.finished (.int 0))]

def completing : List Incident :=
  [.deed .began, .deed (.output ((Frame.ofText ping).bytes.drop 30))]

theorem restarted_readings_completed :
    successor.env.link.buffer = (Frame.ofText ping).bytes.take 30 ∧
      (successor.handedAll completing).length = 1 ∧
      notifications (completing.foldl meet successor).env.trace =
        notifications interrupted.env.trace ++
          ((successor.handedAll completing).map
          Handed.message).filter Connection.notifies := by
  have hnothing : interrupted.arrivalsAll [.deed (.finished (.int 0))] = [] :=
    rfl
  have hsilent : interrupted.handedAll [.deed (.finished (.int 0))] = [] := rfl
  have hleft :
      interrupted.env.link.buffer = (Frame.ofText ping).bytes.take 30 := by
    decide +kernel
  rcases restarted_readings interrupted [.deed (.finished (.int 0))]
    completing with
    ⟨_, hbuffer, _, hpassed, _⟩
  rw [hsilent, List.nil_append] at hpassed
  exact ⟨(hbuffer hnothing).trans hleft, by decide +kernel, hpassed⟩

def resending : List Incident :=
  [.deed .began, .deed (.output (Frame.ofText ping).bytes)]

/-- A notification is lost that a fresh buffer would hand on. -/
theorem resending_not_fresh :
    ∃ (start w : Workspace Connection) (later : List Incident), start.Unused ∧
      Conversation start w ∧
        Conversation start (w.restarted [.deed (.finished (.int 0))]) ∧
      (w.restarted [.deed (.finished (.int 0))]).allowsAll later = true ∧
      ¬ Fresh w.env.link.room
        ((w.restarted [.deed (.finished (.int 0))]).arrivalsAll later)
        ((w.restarted [.deed (.finished (.int 0))]).handedAll later) := by
  have hinterrupted : Conversation blank interrupted :=
    .goOn .start (by decide +kernel)
  have hrestart :
      interrupted.allowsAll [.deed (.finished (.int 0)), .deed .start] =
        true := by
    decide +kernel
  refine ⟨blank, interrupted, resending, blank_unused, hinterrupted,
    hinterrupted.goOn hrestart, by decide +kernel, ?_⟩
  have hnothing : (successor.handedAll resending).isEmpty = true := by
    decide +kernel
  have harrives :
      successor.arrivalsAll resending = [(Frame.ofText ping).bytes] := by
        decide +kernel
  have hfront :
      ((Frame.front 100 ([] ++ (Frame.ofText ping).bytes)).bind (·.1)).isSome =
        true := by
    decide +kernel
  rintro ⟨rest, hreadings⟩
  change Frame.Readings interrupted.env.link.room []
    (successor.arrivalsAll resending) (successor.handedAll resending) rest
      at hreadings
  have hroom : interrupted.env.link.room = 100 := by decide +kernel
  rw [harrives, hroom] at hreadings
  exact hreadings.ne_nil hfront (List.isEmpty_iff.mp hnothing)

end Workspace
end InlineCompletion
