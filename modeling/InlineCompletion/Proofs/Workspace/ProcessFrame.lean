import InlineCompletion.Proofs.Workspace.DeskSteps

/-!
# Steps that leave the process alone

Starts of the process, the news that the agent is ready, and its notifications
are *landmarks*.  Whatever users, documents and alarms do stands *aside*: it
sets no landmark, and of the connection it touches neither the life of the
process, nor what the agent said about itself, nor the bytes that were not read
yet and how they are read.
-/

namespace InlineCompletion

def Event.isPassing : Event → Bool
  | .process (.started ..) => false
  | .ready => false
  | .notification _ => false
  | _ => true

def landmarks (es : List Event) : List Event := es.filter fun e => !e.isPassing

theorem landmarks_append (es es' : List Event) :
    landmarks (es ++ es') = landmarks es ++ landmarks es' :=
  List.filter_append ..

theorem landmarks_passing {more : List Event}
    (h : more.all Event.isPassing = true) (es : List Event) :
    landmarks (es ++ more) = landmarks es := by
  have hnone : landmarks more = [] := by
    rw [landmarks, List.filter_eq_nil_iff]
    intro e he
    rw [List.all_eq_true.mp h e he]
    exact Bool.false_ne_true
  rw [landmarks_append, hnone, List.append_nil]

/-- Whether a connection differs from another in nothing but what waits for
answers and what the process takes. -/
structure Connection.Aside (c c' : Connection) : Prop where
  life : c.SameLife c'
  info : c'.serverInfo = c.serverInfo
  buffer : c'.buffer = c.buffer
  room : c'.room = c.room

namespace Connection.Aside

theorem refl (c : Connection) : Aside c c := ⟨.refl c, rfl, rfl, rfl⟩

theorem trans {c c' c'' : Connection} (h : Aside c c') (h' : Aside c' c'') :
    Aside c c'' :=
  ⟨h.life.trans h'.life, h'.info.trans h.info, h'.buffer.trans h.buffer,
    h'.room.trans h.room⟩

end Connection.Aside

namespace Connection

theorem send_aside (c : Connection) : Aside c c.send.2 := by
  refine ⟨send_sameLife c, ?_, ?_, ?_⟩
  all_goals
    unfold send
    split
    · rfl
    · cases c.process.write with
      | mk taken p => cases taken <;> rfl

theorem notify_aside {n : Notification} {c c' : Connection} {r : Option Refusal}
    (h : Link.notify n c = (r, c')) : Aside c c' := by
  have hsend : Aside c (Link.notify n c).2 := send_aside c
  rw [h] at hsend
  exact hsend

/-- No request touches what the agent said about itself, nor the bytes that were
not read yet. -/
theorem request_untouched (q : Request) (waiting : Option Waiting)
    (c : Connection) :
    (Link.request q waiting c).2.serverInfo = c.serverInfo ∧
      (Link.request q waiting c).2.buffer = c.buffer ∧
      (Link.request q waiting c).2.room = c.room := by
  have hsend := send_aside { c with lastId := c.lastId + 1 }
  simp only [Link.request]
  split
  · next heq =>
      rw [heq] at hsend
      exact ⟨hsend.info, hsend.buffer, hsend.room⟩
  · next heq =>
      rw [heq] at hsend
      exact ⟨hsend.info, hsend.buffer, hsend.room⟩

theorem request_aside {q : Request} {waiting : Option Waiting}
    {c c' : Connection} {r : Except Refusal Receipt}
    (h : Link.request q waiting c = (r, c'))
    (hwaiting : waiting ≠ some .handshake) : Aside c c' := by
  rcases request_untouched q waiting c with ⟨hinfo, hbuffer, hroom⟩
  rw [h] at hinfo hbuffer hroom
  exact ⟨request_sameLife h fun heq => absurd heq hwaiting, hinfo, hbuffer,
    hroom⟩

end Connection

structure Env.Aside (env env' : Env Connection) : Prop where
  link : env.link.Aside env'.link
  landmarks : landmarks env'.trace = landmarks env.trace

namespace Env.Aside

variable {env env' env'' : Env Connection}

theorem refl (env : Env Connection) : Aside env env := ⟨.refl _, rfl⟩

theorem trans (h : Aside env env') (h' : Aside env' env'') : Aside env env'' :=
  ⟨h.link.trans h'.link, h'.landmarks.trans h.landmarks⟩

theorem emits (env : Env Connection) {es : List Event}
    (h : es.all Event.isPassing = true) :
    Aside env (env.emits es) := ⟨.refl _, landmarks_passing h _⟩

theorem emit (env : Env Connection) {e : Event} (h : e.isPassing = true) :
    Aside env (env.emit e) :=
  emits env (by simpa using h : [e].all Event.isPassing = true)

theorem tell (env : Env Connection) (n : Notice) : Aside env (env.tell n) :=
  emit env rfl

theorem notify (n : Notification) (env : Env Connection) :
    Aside env (env.notify n).2 := by
  unfold Env.notify
  split
  · next heq => exact ⟨Connection.notify_aside heq, landmarks_passing rfl _⟩
  · next heq => exact ⟨Connection.notify_aside heq, landmarks_passing rfl _⟩

theorem request {waiting : Option Waiting}
    (hwaiting : waiting ≠ some .handshake) (q : Request)
    (env : Env Connection) : Aside env (env.request q waiting).2 := by
  unfold Env.request
  split
  · next heq =>
      exact ⟨Connection.request_aside heq hwaiting, landmarks_passing rfl _⟩
  · next heq =>
      exact ⟨Connection.request_aside heq hwaiting, landmarks_passing rfl _⟩

theorem seeing {link : Connection} (h : env.link.Aside link) {es : List Event}
    (hes : es.all Event.isPassing = true) : Aside env (env.seeing link es) :=
  ⟨h, landmarks_passing hes _⟩

end Env.Aside

theorem Event.isPassing_of_isPlain {e : Event} (h : e.isPlain = true) :
    e.isPassing = true := by
  unfold isPassing
  split
  · cases h
  · cases h
  · cases h
  · rfl

theorem Env.Course.aside {tone : Tone} {env env' : Env Connection}
    (h : env.Course tone env') :
    env.Aside env' := by
  induction h with
  | refl => exact .refl _
  | step _ hstep ih =>
      refine ih.trans ?_
      cases hstep with
      | seen hplain =>
          exact .emits _
            (Event.all_of_isPlain Event.isPassing_of_isPlain hplain)
      | timed _ => exact ⟨.refl _, rfl⟩
      | displayed _ => exact ⟨.refl _, rfl⟩
      | told _ _ _ hlink => exact .seeing (Connection.notify_aside hlink) rfl
      | untold _ _ _ hlink => exact .seeing (Connection.notify_aside hlink) rfl
      | asked _ _ _ hlink =>
          exact .seeing (Connection.request_aside hlink nofun) rfl
      | unasked _ _ _ hlink =>
          exact .seeing (Connection.request_aside hlink nofun) rfl

end InlineCompletion
