import InlineCompletion.Proofs.Workspace.Restart

/-!
# Packets that arrive at once

A read takes packets off the bytes one after the other, and ends where acting on
a message fails; what stands behind that message stays in the buffer until the
next bytes arrive.  A body that cannot be read is never taken off.  The main
statement says when a read takes all of its packets, and when it hands on what
as many reads would hand on that take one packet each.
-/

namespace InlineCompletion

namespace Packet

/-- Whether the body of a packet can be read, be it a value or not. -/
def readable (room : Nat) (p : Packet) : Bool :=
  (Frame.decodeBody room p.body).isOk

def message? (room : Nat) (p : Packet) : Option Json :=
  match p.value? room with
  | some .null => none
  | v => v

variable {room : Nat}

theorem not_tooDeep_of_readable {p : Packet} (h : p.readable room = true) :
    ¬ p.TooDeep room := by
  intro hdeep
  unfold readable at h
  rw [hdeep] at h
  cases h

theorem Sendable.extract_unreadable {p : Packet} (hp : p.Sendable)
    (h : p.readable room = false) (more : Bytes) :
    ∃ f, Frame.extract room (p.bytes ++ more) = .error f := by
  have hextract := hp.extract_bytes room more
  unfold readable at h
  cases hbody : Frame.decodeBody room p.body with
  | ok found =>
      rw [hbody] at h
      cases h
  | error f =>
      rw [hbody] at hextract
      exact ⟨f, hextract⟩

end Packet

def messages (room : Nat) (ps : List Packet) : List Json :=
  ps.filterMap (Packet.message? room)

variable {room : Nat}

theorem messages_append (ps qs : List Packet) :
    messages room (ps ++ qs) = messages room ps ++ messages room qs :=
  List.filterMap_append

theorem messages_cons (p : Packet) (ps : List Packet) :
    messages room (p :: ps) = (p.message? room).toList ++ messages room ps := by
  unfold messages
  cases hmessage : p.message? room with
  | none => exact List.filterMap_cons_none hmessage
  | some v => exact List.filterMap_cons_some hmessage

namespace Workspace

/-!
# One read
-/

def reached (room : Nat) (w : Workspace Connection) : List Packet → List Packet
  | [] => []
  | p :: rest =>
      if p.readable room then
        p :: match w.dispatch room [p] with
          | (.error _, _) => []
          | (.ok (), w) => w.reached room rest
      else []

theorem handed_packet {p : Packet} (hp : p.Sendable)
    (hread : p.readable room = true) (w : Workspace Connection)
    (bytes more : Bytes) :
    ((w.buffered bytes).handed room (p.bytes ++ more)).map Handed.message =
      (p.message? room).toList ++
        match w.dispatch room [p] with
        | (.error _, _) => []
        | (.ok (), w) =>
            ((w.buffered more).handed room more).map Handed.message := by
  have hlength : more.length ≠ (p.bytes ++ more).length := by
    rw [List.length_append, p.length_bytes]
    omega
  have hextract := hp.extract_bytes room more
  rcases p.decodeBody_cases (Packet.countable_of_isOk hread)
    (Packet.not_tooDeep_of_readable hread) with
      ⟨hbody, hvalue⟩ | ⟨v, hbody, hvalue⟩
  · rw [hbody] at hextract
    rw [handed_of_extract hextract hlength, dispatch_undecodable hvalue]
    unfold Packet.message?
    rw [hvalue]
    rfl
  · rw [hbody] at hextract
    have hact :
        ((w.buffered bytes).taken ⟨.message v, more⟩).act (.message v) = _ :=
      act_buffered more (.message v) w
    have hmessage : (Frame.Found.message v).message? = p.message? room := by
      unfold Packet.message?
      rw [hvalue]
      cases v with
      | null => rfl
      | _ => rfl
    rw [handed_of_extract hextract hlength, dispatch_message hvalue]
    dsimp only
    rw [hact, hmessage, List.map_append, List.map_map]
    congr 1
    · exact List.map_id _
    · cases w.act (.message v) with
      | mk r w' =>
          cases r with
          | error f => rfl
          | ok u => rfl

/-- One read hands on the messages of the packets that it takes off, and leaves
the bytes of the others. -/
theorem read_stream {ps : List Packet} (hps : ∀ p ∈ ps, p.Sendable)
    (w : Workspace Connection) :
    ((w.buffered (stream ps)).handed room (stream ps)).map Handed.message =
    messages room (w.reached room ps) ∧
      ∃ behind, ps = w.reached room ps ++ behind ∧
        ((w.buffered (stream ps)).consume room (stream ps)).2.env.link.buffer =
          stream behind := by
  induction ps generalizing w with
  | nil =>
      have hstop : Frame.front room [] = none := rfl
      constructor
      · show ((w.buffered []).handed room []).map Handed.message = []
        rw [handed_of_stop hstop]
        rfl
      · exact ⟨[], rfl, (consume_of_stop hstop (w.buffered [])).2⟩
  | cons p rest ih =>
      have hp := hps p List.mem_cons_self
      rw [stream_cons]
      cases hread : p.readable room with
      | false =>
          have hnone : w.reached room (p :: rest) = [] := by
            rw [reached, hread]
            rfl
          rcases hp.extract_unreadable hread (stream rest) with ⟨f, hextract⟩
          have hstop : Frame.front room (p.bytes ++ stream rest) = none := by
            unfold Frame.front
            rw [hextract]
          rw [hnone, handed_of_stop hstop]
          exact ⟨rfl, p :: rest, rfl, (consume_of_stop hstop _).2⟩
      | true =>
          have hconsume := consume_packet hp (Packet.countable_of_isOk hread)
            (Packet.not_tooDeep_of_readable hread) w (p.bytes ++ stream rest)
              (stream rest)
          rw [handed_packet hp hread, hconsume, reached, if_pos hread]
          cases w.dispatch room [p] with
          | mk r w' =>
              cases r with
              | error f =>
                  exact ⟨(messages_cons p []).symm, rest, rfl, rfl⟩
              | ok u =>
                  rcases ih (fun q hq => hps q (List.mem_cons_of_mem p hq))
                    w' with
                    ⟨hhanded, behind, hbehind, hbuffer⟩
                  dsimp only
                  rw [hhanded, messages_cons]
                  exact ⟨rfl, behind, congrArg (p :: ·) hbehind, hbuffer⟩

/-!
# Where a read ends
-/

/-- Whether nothing fails over packets behind which something stands that
counts. -/
def CalmBefore (room : Nat) (w : Workspace Connection)
    (counts : List Packet → Prop) (ps : List Packet) : Prop :=
  ∀ before after, ps = before ++ after → counts after →
    (w.dispatch room before).1 = .ok ()

theorem reached_ends {ps : List Packet}
    (hread : ∀ p ∈ ps, p.readable room = true) (w : Workspace Connection) :
    ∃ behind, ps = w.reached room ps ++ behind ∧
      (behind ≠ [] → (w.dispatch room (w.reached room ps)).1 ≠ .ok ()) ∧
      ∀ before after, ps = before ++ after →
        (w.dispatch room before).1 ≠ .ok () →
        w.reached room ps <+: before := by
  induction ps generalizing w with
  | nil =>
      exact ⟨[], rfl, fun hne => absurd rfl hne,
        fun before _ _ _ => List.nil_prefix⟩
  | cons p rest ih =>
      have hrest := ih fun q hq => hread q (List.mem_cons_of_mem p hq)
      -- what fails behind nothing is not packets
      have hfront {before after : List Packet}
        (hsplit : p :: rest = before ++ after)
        (hfails : (w.dispatch room before).1 ≠ .ok ()) :
              ∃ more, before = p :: more ∧
            rest = more ++ after := by
        cases before with
        | nil => exact absurd rfl hfails
        | cons q more =>
            cases hsplit
            exact ⟨more, rfl, rfl⟩
      rw [reached, if_pos (hread p List.mem_cons_self)]
      cases hone : w.dispatch room [p] with
      | mk r w' =>
          cases r with
          | error f =>
              refine ⟨rest, rfl, ?_, ?_⟩
              · intro _ hok
                rw [hone] at hok
                cases hok
              · intro before after hsplit hfails
                rcases hfront hsplit hfails with ⟨more, hbefore, _⟩
                rw [hbefore]
                exact ⟨more, rfl⟩
          | ok u =>
              have hok : (w.dispatch room [p]).1 = .ok () := by rw [hone]
              have hlater (ps : List Packet) :
                  w.dispatch room (p :: ps) = w'.dispatch room ps := by
                have hboth := dispatch_append_ok hok ps
                rw [hone] at hboth
                exact hboth
              rcases hrest w' with ⟨behind, hbehind, hends, hfirst⟩
              refine ⟨behind, congrArg (p :: ·) hbehind, ?_, ?_⟩
              · intro hne
                rw [hlater]
                exact hends hne
              · intro before after hsplit hfails
                rcases hfront hsplit hfails with ⟨more, hbefore, hrest'⟩
                rw [hbefore, hlater] at hfails
                rw [hbefore]
                exact List.cons_prefix_cons.mpr
                  ⟨rfl, hfirst more after hrest' hfails⟩

theorem calmBefore_iff {counts : List Packet → Prop} (hnil : ¬ counts [])
    (hmono : ∀ ps qs, counts qs → counts (ps ++ qs)) {ps : List Packet}
    (hread : ∀ p ∈ ps, p.readable room = true) (w : Workspace Connection)
    {behind : List Packet} (hbehind : ps = w.reached room ps ++ behind) :
    w.CalmBefore room counts ps ↔ ¬ counts behind := by
  rcases reached_ends hread w with ⟨behind', hbehind', hends, hfirst⟩
  have hsame : behind = behind' :=
    List.append_cancel_left (hbehind.symm.trans hbehind')
  subst hsame
  constructor
  · intro hcalm hcounts
    have hne : behind ≠ [] := by
      intro heq
      rw [heq] at hcounts
      exact hnil hcounts
    exact hends hne (hcalm _ _ hbehind hcounts)
  · intro hnone before after hsplit hcounts
    apply Classical.byContradiction
    intro hfails
    rcases hfirst before after hsplit hfails with ⟨more, hbefore⟩
    rw [← hbefore, List.append_assoc] at hsplit
    have hleft := List.append_cancel_left (hbehind.symm.trans hsplit)
    rw [hleft] at hnone
    exact hnone (hmono more after hcounts)

theorem readable_of_mem_reached {ps : List Packet} {w : Workspace Connection}
    {p : Packet} (hp : p ∈ w.reached room ps) : p.readable room = true := by
  induction ps generalizing w with
  | nil => cases hp
  | cons q rest ih =>
      rw [reached] at hp
      split at hp
      · next hread =>
          rcases List.mem_cons.mp hp with heq | hrest
          · rw [heq]
            exact hread
          · split at hrest
            · cases hrest
            · exact ih hrest
      · cases hp

theorem reached_readable (ps : List Packet) (w : Workspace Connection) :
    w.reached room ps =
      w.reached room (ps.takeWhile (Packet.readable room)) := by
  induction ps generalizing w with
  | nil => rfl
  | cons p rest ih =>
      rw [List.takeWhile_cons, reached]
      split
      · next hread =>
          rw [reached, if_pos hread]
          congr 1
          split
          · rfl
          · exact ih _
      · rfl

end Workspace

/-!
# Reads one after the other
-/

namespace Connection

structure Attended (c : Connection) : Prop where
  valid : c.process.valid = true
  unread : c.process.unread = []

namespace Attended

variable {c c' : Connection}

theorem send (h : Attended c) : Attended c.send.2 := by
  have hlife := write_life c.process
  unfold Connection.send
  split
  · exact h
  · cases hwrite : c.process.write with
    | mk taken p =>
        rw [hwrite] at hlife
        have hp : p.valid = true ∧ p.unread = [] :=
          ⟨hlife.2.1.trans h.valid, hlife.2.2.trans h.unread⟩
        cases taken with
        | true => exact ⟨hp.1, hp.2⟩
        | false => exact ⟨hp.1, hp.2⟩

theorem notify (h : Attended c) {n : Notification} {r : Option Refusal}
    (hlink : Link.notify n c = (r, c')) : Attended c' := by
  have hsent : Attended (Link.notify n c).2 := h.send
  rw [hlink] at hsent
  exact hsent

theorem request (h : Attended c) {q : Request} {waiting : Option Waiting}
    {r : Except Refusal Receipt} (hlink : Link.request q waiting c = (r, c')) :
    Attended c' := by
  have hcounted : Attended { c with lastId := c.lastId + 1 } :=
    ⟨h.valid, h.unread⟩
  have hsent := hcounted.send
  simp only [Link.request] at hlink
  split at hlink
  · next heq =>
      rw [heq] at hsent
      cases hlink
      exact ⟨hsent.valid, hsent.unread⟩
  · next heq =>
      rw [heq] at hsent
      cases hlink
      exact hsent

theorem take (h : Attended c) {id : Json} {waiting : Waiting}
    (htake : c.take id = .ok (some waiting, c')) : Attended c' := by
  rcases take_eq_some htake with ⟨_, _, hlink⟩
  rw [hlink]
  exact ⟨h.valid, h.unread⟩

end Attended
end Connection

theorem Env.Course.attended {tone : Tone} {env env' : Env Connection}
    (h : env.Course tone env') (hattended : env.link.Attended) :
    env'.link.Attended := by
  induction h with
  | refl => exact hattended
  | step _ hstep ih =>
      cases hstep with
      | seen _ => exact ih
      | timed _ => exact ih
      | displayed _ => exact ih
      | told _ _ _ hlink => exact ih.notify hlink
      | untold _ _ _ hlink => exact ih.notify hlink
      | asked _ _ _ hlink => exact ih.request hlink
      | unasked _ _ _ hlink => exact ih.request hlink

namespace Workspace

theorem attended_agentReady {w : Workspace Connection}
    (h : w.env.link.Attended) :
    w.agentReady.env.link.Attended := by
  rcases course_agentReady w with ⟨env, hbefore, hbehind⟩
  have hready : (env.emit .ready).link.Attended := hbefore.attended h
  exact hbehind.attended hready

theorem attended_greeted {w : Workspace Connection} (h : w.env.link.Attended)
    {message : Json} {r : Except Fault Unit × Workspace Connection}
    (hgreeted : Greeted message w r) :
    r.2.env.link.Attended := by
  have hnoted : (w.noted message).Attended := ⟨h.valid, h.unread⟩
  cases hgreeted with
  | rejected _ => exact h
  | unthanked hlink => exact hnoted.notify hlink
  | unannounced _ hlink =>
      have hthanked := hnoted.notify hlink
      exact ⟨hthanked.valid, hthanked.unread⟩
  | announced _ _ hlink =>
      have hthanked := hnoted.notify hlink
      exact attended_agentReady ⟨hthanked.valid, hthanked.unread⟩

theorem attended_keptByMessages :
    KeptByMessages fun w : Workspace Connection => w.env.link.Attended where
  handled {w} message h := by
    have hhandled := handle_cases message w
    revert hhandled
    generalize w.handle message = r
    intro hhandled
    cases hhandled with
    | faulty _ _ _ => exact h
    | nothing _ _ => exact h
    | notified _ => exact h
    | @greeted _ link _ _ htake hgreeted =>
        exact attended_greeted (w := w.onLink fun _ => link) (h.take htake)
          hgreeted
    | @completed _ i ticket link _ htake =>
        have hreceived : (w.onLink fun _ => link).Course .mute _ :=
          course_receive i ticket message _
        exact hreceived.env.attended (h.take htake)
    | probed _ _ htake => exact h.take htake
  told _ _ h := h
  buffered _ h := ⟨h.valid, h.unread⟩

theorem output_attended {w : Workspace Connection} (h : w.env.link.Attended)
    (data : Bytes) :
    let all := w.env.link.buffer ++ data
    w.handedBy (.deed (.output data)) =
      (w.buffered all).handed w.env.link.room all ∧
      (w.output data).env.link.buffer =
        ((w.buffered all).consume w.env.link.room all).2.env.link.buffer ∧
      (w.output data).env.link.Attended := by
  intro all
  have hdrained : (w.wrote data).drained = w := by
    show w.onLink
      (fun c => { c with process := { c.process with unread := [] } }) = w
    unfold onLink
    rw [← h.unread]
  have hbytes : (w.wrote data).env.link.process.unread = data := by
    show w.env.link.process.unread ++ data = data
    rw [h.unread]
    rfl
  have hfed : w.fed (.deed (.output data)) =
      [((w.wrote data).drained, (w.wrote data).env.link.process.unread)] :=
        if_pos h.valid
  rw [hdrained, hbytes] at hfed
  have hattended : (w.feed data).2.env.link.Attended :=
    attended_keptByMessages.feed data h
  have hread : Env.Course .mute (w.feed data).2.env (w.output data).env := by
    have hcourse := course_read (w := w.wrote data) h.valid
    rw [hdrained, hbytes] at hcourse
    exact hcourse
  refine ⟨?_, ?_, ?_⟩
  · unfold handedBy
    rw [hfed]
    exact List.append_nil _
  · exact hread.aside.link.buffer
  · exact hread.attended hattended

/-- The messages that are handed on of packets that arrive at once. -/
def atOnce (w : Workspace Connection) (ps : List Packet) : List Json :=
  (w.handedBy (.deed (.output (stream ps)))).map Handed.message

/-- The messages that are handed on of packets that arrive one by one. -/
def oneByOne (w : Workspace Connection) (ps : List Packet) : List Json :=
  (w.handedAll (ps.map fun p => .deed (.output p.bytes))).map Handed.message

theorem oneByOne_cons (w : Workspace Connection) (p : Packet)
    (ps : List Packet) :
    w.oneByOne (p :: ps) =
      (w.handedBy (.deed (.output p.bytes))).map Handed.message ++
      (w.output p.bytes).oneByOne ps := List.map_append

theorem oneByOne_stuck {w : Workspace Connection} (h : w.env.link.Attended)
    {p : Packet} (hp : p.Sendable) (hunreadable : p.readable room = false)
    (hroom : w.env.link.room = room) (hbuffer : p.bytes <+: w.env.link.buffer)
    (ps : List Packet) : w.oneByOne ps = [] := by
  induction ps generalizing w with
  | nil => rfl
  | cons q rest ih =>
      rcases hbuffer with ⟨more, hbuffer⟩
      rcases output_attended h q.bytes with ⟨hhanded, hleft, hattended⟩
      have hsame := (output_heeds w q.bytes).room.trans hroom
      rw [hroom] at hhanded hleft
      rw [← hbuffer, List.append_assoc] at hhanded hleft
      rcases hp.extract_unreadable hunreadable (more ++ q.bytes) with
        ⟨f, hextract⟩
      have hstop : Frame.front room (p.bytes ++ (more ++ q.bytes)) = none := by
        unfold Frame.front
        rw [hextract]
      rw [oneByOne_cons, hhanded, handed_of_stop hstop]
      exact ih hattended hsame
        ⟨_, (hleft.trans (consume_of_stop hstop _).2).symm⟩

theorem oneByOne_eq {w : Workspace Connection} (h : w.env.link.Attended)
    (hroom : w.env.link.room = room) (hbuffer : w.env.link.buffer = [])
    {ps : List Packet}
    (hps : ∀ p ∈ ps, p.Sendable) : w.oneByOne ps = messages room
    (ps.takeWhile (Packet.readable room)) := by
  induction ps generalizing w with
  | nil => rfl
  | cons p rest ih =>
      have hp := hps p List.mem_cons_self
      rcases output_attended h p.bytes with ⟨hhanded, hleft, hattended⟩
      have hsame := (output_heeds w p.bytes).room.trans hroom
      rw [hroom] at hhanded hleft
      have hsingle : p.bytes = stream [p] := (List.append_nil _).symm
      have hone : ∀ q ∈ [p], q.Sendable := by
        intro q hq
        rw [List.mem_singleton.mp hq]
        exact hp
      rcases read_stream hone w with ⟨hmessages, behind, hbehind, hbytes⟩
      rw [hbuffer, List.nil_append] at hhanded hleft
      rw [← hsingle] at hmessages hbytes
      rw [oneByOne_cons, hhanded, hmessages, List.takeWhile_cons]
      cases hread : p.readable room with
      | false =>
          have hnone : w.reached room [p] = [] := by
            rw [reached, hread]
            rfl
          rw [hnone, List.nil_append] at hbehind
          rw [hnone]
          refine oneByOne_stuck hattended hp hread hsame ?_ rest
          rw [hleft, hbytes, ← hbehind]
          exact List.prefix_append ..
      | true =>
          have hall : w.reached room [p] = [p] := by
            rw [reached, if_pos hread]
            cases w.dispatch room [p] with
            | mk r w' =>
                cases r with
                | error f => rfl
                | ok u => rfl
          rw [hall] at hbehind ⊢
          have hnone : behind = [] := List.append_cancel_left hbehind.symm
          have hempty : (w.output p.bytes).env.link.buffer = [] := by
            rw [hleft, hbytes, hnone]
            rfl
          rw [ih hattended hsame hempty fun q hq => hps q
            (List.mem_cons_of_mem p hq)]
          exact (messages_append [p] _).symm

/-!
# One read and many
-/

theorem eq_nil_of_stream {ps : List Packet} (h : stream ps = []) : ps = [] := by
  cases ps with
  | nil => rfl
  | cons p rest =>
      have hlength := congrArg List.length h
      rw [stream_cons, List.length_append, p.length_bytes] at hlength
      simp at hlength

/-- Packets that arrive in reads of their own are acted on up to the first whose
body cannot be read.  Packets that arrive at once are all taken off if and only
if each body can be read and nothing fails over a message with a packet behind
it; and they come to the same messages if and only if nothing fails over a
message with another one behind it. -/
theorem packets_at_once_iff {w : Workspace Connection} (h : w.env.link.Attended)
    (hbuffer : w.env.link.buffer = []) {ps : List Packet}
    (hps : ∀ p ∈ ps, p.Sendable) :
    let room := w.env.link.room
    w.oneByOne ps = messages room (ps.takeWhile (Packet.readable room)) ∧
      ((w.output (stream ps)).env.link.buffer = [] ↔
        (∀ p ∈ ps, p.readable room = true) ∧ w.CalmBefore room (· ≠ []) ps) ∧
      (w.atOnce ps = w.oneByOne ps ↔
        w.CalmBefore room (messages room · ≠ [])
          (ps.takeWhile (Packet.readable room))) := by
  intro room
  have hroom : w.env.link.room = room := rfl
  clear_value room
  rcases output_attended h (stream ps) with ⟨hhanded, hleft, _⟩
  rcases read_stream hps w with ⟨hmessages, behind, hbehind, hbytes⟩
  rw [hroom, hbuffer, List.nil_append] at hhanded hleft
  have hone := oneByOne_eq h hroom hbuffer hps
  refine ⟨hone, ?_, ?_⟩
  · have hcalm (hread : ∀ p ∈ ps, p.readable room = true) :
        w.CalmBefore room (· ≠ []) ps ↔ ¬ behind ≠ [] := by
      refine calmBefore_iff (fun hne => hne rfl) ?_ hread w hbehind
      intro ps qs hne heq
      exact hne (List.append_eq_nil_iff.mp heq).2
    rw [hleft, hbytes]
    constructor
    · intro hempty
      have hnone := eq_nil_of_stream hempty
      rw [hnone, List.append_nil] at hbehind
      have hread : ∀ p ∈ ps, p.readable room = true := by
        intro p hp
        rw [hbehind] at hp
        exact readable_of_mem_reached hp
      exact ⟨hread, (hcalm hread).mpr fun hne => hne hnone⟩
    · rintro ⟨hread, hwcalm⟩
      rw [Classical.not_not.mp ((hcalm hread).mp hwcalm)]
      rfl
  · have hread :
        ∀ p ∈ ps.takeWhile (Packet.readable room), p.readable room = true := by
      intro p hp
      exact List.all_eq_true.mp List.all_takeWhile p hp
    rcases reached_ends hread w with ⟨rest, hrest, _, _⟩
    have hcalm :
        w.CalmBefore room (messages room · ≠ [])
          (ps.takeWhile (Packet.readable room)) ↔
        ¬ messages room rest ≠ [] := by
      refine calmBefore_iff (fun hne => hne rfl) ?_ hread w hrest
      intro ps qs hne heq
      rw [messages_append] at heq
      exact hne (List.append_eq_nil_iff.mp heq).2
    have hboth : messages room (ps.takeWhile (Packet.readable room)) =
        messages room (w.reached room ps) ++ messages room rest := by
      rw [reached_readable, ← messages_append, ← hrest]
    have honce : w.atOnce ps = messages room (w.reached room ps) := by
      unfold atOnce
      rw [hhanded]
      exact hmessages
    rw [honce, hone, hboth, hcalm, Classical.not_not]
    exact List.self_eq_append_right

def attending : Workspace Connection :=
  [.deed .start, .deed .began].foldl meet blank

theorem attending_room : attending.env.link.room = 100 := by decide +kernel

theorem attending_attended : attending.env.link.Attended where
  valid := by decide +kernel
  unread := by decide +kernel

def pinging : Packet := .plain (Utf8.encode ping.text)

def number : Packet := .plain (Utf8.encode "5".toList)

theorem pinging_sendable : pinging.Sendable :=
  Packet.plain_sendable (Integer.length_digits_le (by decide))

theorem number_sendable : number.Sendable :=
  Packet.plain_sendable (Integer.length_digits_le (by decide))

/-- What fails last holds up nothing. -/
theorem packets_at_once_iff_last :
    (attending.oneByOne [pinging, number]).length = 2 ∧
      (attending.output (stream [pinging, number])).env.link.buffer = [] ∧
      attending.atOnce [pinging, number] =
        attending.oneByOne [pinging, number] := by
  have hbuffer : attending.env.link.buffer = [] := by decide +kernel
  have hps : ∀ p ∈ [pinging, number], p.Sendable := by
    intro p hp
    rcases List.mem_cons.mp hp with rfl | hp
    · exact pinging_sendable
    · rw [List.mem_singleton.mp hp]
      exact number_sendable
  have hread : ∀ p ∈ [pinging, number], p.readable 100 = true := by
    decide +kernel
  have htaken :
      [pinging, number].takeWhile (Packet.readable 100) =
        [pinging, number] := by
    rw [List.takeWhile_cons_of_pos (hread pinging (by simp)),
      List.takeWhile_cons_of_pos (hread number (by simp)), List.takeWhile_nil]
  have hcalm {counts : List Packet → Prop} (hnil : ¬ counts []) :
      attending.CalmBefore 100 counts [pinging, number] := by
    intro before after hsplit hcounts
    rcases before with _ | ⟨p, _ | ⟨q, rest⟩⟩
    · rfl
    · cases hsplit
      decide +kernel
    · simp only [List.cons_append, List.cons.injEq] at hsplit
      have hnone := (List.append_eq_nil_iff.mp hsplit.2.2.symm).2
      rw [hnone] at hcounts
      exact absurd hcounts hnil
  rcases packets_at_once_iff attending_attended hbuffer hps with
    ⟨hone, hleft, hsame⟩
  rw [attending_room] at hone hleft hsame
  rw [htaken] at hone hsame
  refine ⟨?_, hleft.mpr ⟨hread, hcalm fun hne => hne rfl⟩,
    hsame.mpr (hcalm fun hne => hne rfl)⟩
  rw [hone]
  decide +kernel

/-- A message that cannot be acted on holds up what stands behind it. -/
theorem number_holds_up :
    ∃ (start w : Workspace Connection) (ps : List Packet), start.Unused ∧
      Conversation start w ∧
      w.env.link.Attended ∧ w.env.link.buffer = [] ∧ (∀ p ∈ ps, p.Sendable) ∧
      (w.output (stream ps)).env.link.buffer ≠ [] ∧
        w.atOnce ps ≠ w.oneByOne ps := by
  refine ⟨blank, attending, [number, pinging], blank_unused,
    .goOn .start (by decide +kernel), attending_attended, by decide +kernel, ?_,
    by decide +kernel, ?_⟩
  · intro p hp
    rcases List.mem_cons.mp hp with rfl | hp
    · exact number_sendable
    · rw [List.mem_singleton.mp hp]
      exact pinging_sendable
  · intro heq
    have hlength := congrArg List.length heq
    have honce : (attending.atOnce [number, pinging]).length = 1 := by
      decide +kernel
    have hone : (attending.oneByOne [number, pinging]).length = 2 := by
      decide +kernel
    rw [honce, hone] at hlength
    cases hlength

end Workspace
end InlineCompletion
