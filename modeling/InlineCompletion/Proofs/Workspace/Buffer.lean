import InlineCompletion.Workspace.Signals
import InlineCompletion.Proofs.Document.Run

/-!
# The buffer

The bytes that were not read yet stand in the buffer of the connection, and how
deep the values in them may be nested is said there too.  Whoever gets a message
sees of the link no more than whether the agent can be reached and what it
takes.  The main statement is that it makes no difference whether a message is
acted on before these two are set or behind that; so none of them changes when a
message is acted on.
-/

namespace InlineCompletion

/-- Whether a change of a link cannot be told by asking whether the agent can be
reached, nor by what it takes. -/
structure Unseen {τ : Type} [Link τ] (f : τ → τ) : Prop where
  connected (l : τ) : Link.connected (f l) = Link.connected l
  notify (n : Notification) (l : τ) :
    Link.notify n (f l) = ((Link.notify n l).1, f (Link.notify n l).2)

namespace Env

variable {τ : Type} [Link τ] {f : τ → τ}

def relinked (f : τ → τ) (env : Env τ) : Env τ :=
  { env with link := f env.link }

theorem connected_relinked (hf : Unseen f) (env : Env τ) :
    (env.relinked f).connected = env.connected := hf.connected env.link

theorem notify_relinked (hf : Unseen f) (n : Notification) (env : Env τ) :
    (env.relinked f).notify n =
    ((env.notify n).1, (env.notify n).2.relinked f) := by
  unfold notify relinked
  dsimp only
  rw [hf.notify]
  cases Link.notify n env.link with
  | mk r l =>
      cases r with
      | none => rfl
      | some r => rfl

theorem signal_relinked (hf : Unseen f) (e : Event) (env : Env τ) :
    (env.relinked f).signal e = (env.signal e).relinked f := by
  unfold signal refreshWindow
  rw [connected_relinked hf]
  have hwindow : (env.relinked f).window = env.window := rfl
  rw [hwindow]
  cases env.window with
  | none => rfl
  | some w => rfl

end Env

theorem Sync.announce_relinked {τ : Type} [Link τ] {f : τ → τ} (hf : Unseen f)
    (text : Text) (language : String) (s : Sync) (env : Env τ) :
    s.announce text language (env.relinked f) =
      ((s.announce text language env).1, (s.announce text language env).2.1,
        (s.announce text language env).2.2.relinked f) := by
  unfold announce
  dsimp only
  rw [Env.connected_relinked hf, Env.notify_relinked hf]
  cases env.connected with
  | false => rfl
  | true =>
      cases env.notify
        (.didOpen s.unschedule.uri language s.unschedule.version text) with
      | mk r env =>
          cases r with
          | none => rfl
          | some r => rfl

namespace Desk

variable {τ : Type} {f : τ → τ}

theorem reopening_relinked [Link τ] (hf : Unseen f) (d : Document) (text : Text)
    (s : Sync) (env : Env τ) :
    reopening d text s (env.relinked f) =
      ((reopening d text s env).1, (reopening d text s env).2.1,
        (reopening d text s env).2.2.relinked f) := by
  unfold reopening
  rw [Sync.announce_relinked hf]
  cases d.closed with
  | true => rfl
  | false =>
      cases s.announce text d.language env with
      | mk ok rest =>
          cases ok with
          | true => rfl
          | false => rfl

theorem openCopy_relinked [Link τ] (hf : Unseen f) (k : Desk τ) :
    (k.relinked f).openCopy = (k.openCopy.1, k.openCopy.2.relinked f) := by
  have hreopening :=
    reopening_relinked hf k.document k.editor.text k.document.sync k.env
  unfold Env.relinked at hreopening
  unfold openCopy relinked
  dsimp only
  rw [hreopening]
  cases k.document.closed with
  | true => rfl
  | false => rfl

theorem receive_relinked (ticket : Nat) (message : Json) (k : Desk τ) :
    (k.relinked f).receive ticket message =
    (k.receive ticket message).relinked f := by
  unfold receive relinked
  dsimp only
  split
  · rfl
  · split
    · rfl
    · split
      · split
        · rfl
        · split
          · rfl
          -- an odd answer is told of, whether there are candidates or not
          · generalize Candidate.ofResult _ = read
            split
            · cases read.2 with
              | none => rfl
              | some o => rfl
            · cases read.2 with
              | none => rfl
              | some o => rfl
      · rfl

end Desk

namespace Connection

/-- The connection with other bytes in its buffer, and other room for what
stands in them. -/
def holding (bytes : Bytes) (room : Nat) (c : Connection) : Connection :=
  { c with buffer := bytes, room := room }

variable (bytes : Bytes) (room : Nat)

theorem unseen_holding : Unseen (holding bytes room) where
  connected _ := rfl
  notify n c := by
    show (c.holding bytes room).send = (c.send.1, c.send.2.holding bytes room)
    have hrunning : (c.holding bytes room).isRunning = c.isRunning := rfl
    have hprocess : (c.holding bytes room).process = c.process := rfl
    unfold send
    rw [hrunning, hprocess]
    cases c.isRunning with
    | false => rfl
    | true =>
        cases c.process.write with
        | mk ok p =>
            cases ok with
            | true => rfl
            | false => rfl

theorem take_holding (id : Json) (c : Connection) :
    (c.holding bytes room).take id =
      (c.take id).map fun r => (r.1, r.2.holding bytes room) := by
  have hopaque :
      (if c.waiting.isEmpty then .ok (none, c.holding bytes room) else
        .error .wrongKind :
        Except Fault (Option Waiting × Connection)) =
      (if c.waiting.isEmpty then .ok (none, c) else .error .wrongKind :
        Except Fault (Option Waiting × Connection)).map
          fun r => (r.1, r.2.holding bytes room) := by
    cases c.waiting.isEmpty with
    | true => rfl
    | false => rfl
  unfold take
  split
  · exact hopaque
  · exact hopaque
  · dsimp only [holding]
    cases id.numeral? with
    | none => rfl
    | some n =>
        dsimp only
        cases c.waiting.find? fun w => (w.1 : Int) == n with
        | none => rfl
        | some found => rfl

end Connection

namespace Workspace

section Linked

variable {τ : Type} {f : τ → τ}

theorem desk?_relinked (i : Nat) (w : Workspace τ) :
    (w.relinked f).desk? i = (w.desk? i).map (Desk.relinked f) := by
  unfold desk? relinked
  dsimp only
  cases w.documents[i]? with
  | none => rfl
  | some d =>
      dsimp only
      cases w.editors[d.editor]? with
      | none => rfl
      | some e => rfl

theorem run_relinked {α : Type} {g : Desk τ → α × Desk τ}
    (hg : ∀ k, g (k.relinked f) = ((g k).1, (g k).2.relinked f)) (i : Nat)
    (w : Workspace τ) :
    (w.relinked f).run i g = ((w.run i g).1, (w.run i g).2.relinked f) := by
  unfold run
  rw [desk?_relinked]
  cases w.desk? i with
  | none => rfl
  | some k =>
      show (some (g (k.relinked f)).1,
        (w.relinked f).withDesk (g (k.relinked f)).2) = _
      rw [hg]
      rfl

theorem atDesk_relinked {g : Desk τ → Desk τ}
    (hg : ∀ k, g (k.relinked f) = (g k).relinked f) (i : Nat)
    (w : Workspace τ) :
    (w.relinked f).atDesk i g = (w.atDesk i g).relinked f := by
  unfold atDesk
  rw [desk?_relinked]
  cases w.desk? i with
  | none => rfl
  | some k =>
      show (w.relinked f).withDesk (g (k.relinked f)) = _
      rw [hg]
      rfl

theorem answer_relinked [Link τ] (waiting : Waiting) (message : Json)
    (w : Workspace τ) :
    (w.relinked f).answer waiting message =
      ((w.answer waiting message).1,
        (w.answer waiting message).2.relinked f) := by
  cases waiting with
  | handshake => rfl
  | completion i ticket =>
      have hdesk :=
        atDesk_relinked (f := f) (Desk.receive_relinked ticket message) i w
      exact congrArg (Prod.mk _) hdesk
  | probe label fault => rfl

variable [Link τ]

theorem openCopy_relinked (hf : Unseen f) (i : Nat) (w : Workspace τ) :
    (w.relinked f).openCopy i =
    ((w.openCopy i).1, (w.openCopy i).2.relinked f) := by
  unfold openCopy
  rw [run_relinked (Desk.openCopy_relinked hf)]

theorem openAll_relinked (hf : Unseen f) (w : Workspace τ) :
    (w.relinked f).openAll = w.openAll.relinked f := by
  have hfold (is : List Nat) : ∀ w : Workspace τ,
      is.foldl (fun w i => (w.openCopy i).2) (w.relinked f) =
        (is.foldl (fun w i => (w.openCopy i).2) w).relinked f := by
    induction is with
    | nil => exact fun _ => rfl
    | cons i rest ih =>
        intro w
        rw [List.foldl_cons, openCopy_relinked hf]
        exact ih _
  exact hfold _ w

theorem agentReady_relinked (hf : Unseen f) (w : Workspace τ) :
    (w.relinked f).agentReady = w.agentReady.relinked f := by
  unfold agentReady
  show (if w.watchedFirst then ((w.emit .ready).relinked f).openAll else _) = _
  rw [openAll_relinked hf, openAll_relinked hf]
  cases w.watchedFirst with
  | true => rfl
  | false =>
      show { w.openAll.relinked f with env :=
        (w.openAll.env.relinked f).signal .ready } = _
      rw [Env.signal_relinked hf]
      rfl

end Linked

section Holding

variable (bytes : Bytes) (room : Nat)

theorem greeted_holding (message : Json) (w : Workspace Connection) :
    (w.onLink (Connection.holding bytes room)).greeted message =
      ((w.greeted message).1,
        (w.greeted message).2.onLink (Connection.holding bytes room)) := by
  have hf := Connection.unseen_holding bytes room
  unfold greeted
  cases message.get? "error" with
  | some e => rfl
  | none =>
      dsimp only
      generalize Connection.serverInfoOf message = info
      -- what the agent says about itself is noted before the buffer is set or
      -- behind that
      have hnotify : ((w.onLink (Connection.holding bytes room)).onLink
          fun c => { c with serverInfo := info }).env.notify .initialized = _ :=
        Env.notify_relinked hf .initialized
          (w.onLink fun c => { c with serverInfo := info }).env
      rw [hnotify]
      cases (w.onLink fun c => { c with serverInfo := info }).env.notify
        .initialized with
      | mk r env =>
          cases r with
          | some r => rfl
          | none =>
              cases info with
              | obj members =>
                  let name :=
                    (Json.Members.get? "name" members).getD (.str "unknown")
                  let connected : Workspace Connection :=
                    ({ w with env := env }).onLink fun c =>
                      { c with initialized := true }
                  exact congrArg (Prod.mk _)
                    (agentReady_relinked hf (connected.tell (.agentReady name)))
              | _ => rfl

theorem handle_holding (message : Json) (w : Workspace Connection) :
    (w.onLink (Connection.holding bytes room)).handle message =
      ((w.handle message).1,
        (w.handle message).2.onLink (Connection.holding bytes room)) := by
  unfold handle
  cases Connection.classify message with
  | error f => rfl
  | ok incoming =>
      cases incoming with
      | nothing => rfl
      | notification => rfl
      | answer id =>
          have htake :
              (w.onLink (Connection.holding bytes room)).env.link.take id = _ :=
            Connection.take_holding bytes room id w.env.link
          dsimp only
          rw [htake]
          cases w.env.link.take id with
          | error f => rfl
          | ok taken =>
              rcases taken with ⟨waiting, c⟩
              cases waiting with
              | none => rfl
              | some waiting =>
                  cases waiting with
                  | handshake =>
                      exact greeted_holding bytes room message
                        (w.onLink fun _ => c)
                  | completion i ticket =>
                      exact answer_relinked _ message (w.onLink fun _ => c)
                  | probe label fault =>
                      exact answer_relinked _ message (w.onLink fun _ => c)

theorem handle_buffer_room (message : Json) (w : Workspace Connection) :
    (w.handle message).2.env.link.buffer = w.env.link.buffer ∧
      (w.handle message).2.env.link.room = w.env.link.room := by
  have hhandle := handle_holding w.env.link.buffer w.env.link.room message w
  change w.handle message = _ at hhandle
  rw [hhandle]
  exact ⟨rfl, rfl⟩

theorem act_holding (found : Frame.Found) (w : Workspace Connection) :
    (w.onLink (Connection.holding bytes room)).act found =
      ((w.act found).1,
        (w.act found).2.onLink (Connection.holding bytes room)) := by
  unfold act
  split
  · rfl
  · exact handle_holding bytes room _ w
  · rfl

end Holding

theorem act_buffer_room (found : Frame.Found) (w : Workspace Connection) :
    (w.act found).2.env.link.buffer = w.env.link.buffer ∧
      (w.act found).2.env.link.room = w.env.link.room := by
  unfold act
  split
  · exact ⟨rfl, rfl⟩
  · exact handle_buffer_room _ w
  · exact ⟨rfl, rfl⟩

def buffered (bytes : Bytes) (w : Workspace Connection) :
    Workspace Connection :=
  w.onLink fun c => { c with buffer := bytes }

theorem act_buffered (bytes : Bytes) (found : Frame.Found)
    (w : Workspace Connection) :
    (w.buffered bytes).act found =
    ((w.act found).1, (w.act found).2.buffered bytes) := by
  have hroom :
      (w.act found).2.onLink (Connection.holding bytes w.env.link.room) =
      (w.act found).2.buffered bytes := by
    rw [← (act_buffer_room found w).2]
    rfl
  rw [← hroom]
  exact act_holding bytes w.env.link.room found w

end Workspace
end InlineCompletion
