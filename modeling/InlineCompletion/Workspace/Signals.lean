import InlineCompletion.Workspace.Basic
import InlineCompletion.Agent.Scripted
import InlineCompletion.Agent.Connection

/-!
# Signals of the agent

When the agent is ready, the registered documents are opened on it.  The bytes
that its process writes are cut into frames one after the other, and each
message goes to whatever waits for it.  A frame is gone before its message is
acted on, so a message that fails does not come again; what stands behind it
waits for the next bytes.  When the process is stopped, it is taken leave of and
waited for, and what it writes until then is read like anything else.
-/

namespace InlineCompletion
namespace Workspace

def agentReady {τ : Type} [Link τ] (w : Workspace τ) : Workspace τ :=
  if w.watchedFirst then (w.emit .ready).openAll
  else
    let w := w.openAll
    { w with env := w.env.signal .ready }

section Scripted

def scriptedReady (w : Workspace Scripted) : Workspace Scripted :=
  if w.env.link.isOneWay then w else w.openAll

/-- A request that a scripted link took is answered; the result is whether there
is such a request. -/
def respond (id : Nat) (message : Json) (w : Workspace Scripted) :
    Option (Except Fault Unit) × Workspace Scripted :=
  match w.env.link.find? id with
  | none => (none, w)
  | some taken =>
      match taken.waiting with
      | none => (some (.ok ()), w)
      | some waiting =>
          let (r, w) := w.answer waiting message
          (some r, w)

end Scripted

section Connection

def withEnv (env : Env Connection) (w : Workspace Connection) :
    Workspace Connection :=
  { w with env := env }

def onLink (f : Connection → Connection) (w : Workspace Connection) :
    Workspace Connection :=
  { w with env := { w.env with link := f w.env.link } }

/-- The answer to the greeting: the agent is told that it was heard, and then it
is connected.  What it says about itself has to be an object by then. -/
def greeted (message : Json) (w : Workspace Connection) :
    Except Fault Unit × Workspace Connection :=
  match message.get? "error" with
  | some e => (.ok (), w.tell (.agentRejected e))
  | none =>
      let info := Connection.serverInfoOf message
      let w := w.onLink fun c => { c with serverInfo := info }
      match w.env.notify .initialized with
      | (some r, env) => (.error (.refused r), { w with env := env })
      | (none, env) =>
          let w := { w with env := env }
          let w := w.onLink fun c => { c with initialized := true }
          match info with
          | .obj members =>
              let name :=
                (Json.Members.get? "name" members).getD (.str "unknown")
              (.ok (), (w.tell (.agentReady name)).agentReady)
          | _ => (.error .wrongShape, w)

def handle (message : Json) (w : Workspace Connection) :
    Except Fault Unit × Workspace Connection :=
  match Connection.classify message with
  | .error f => (.error f, w)
  | .ok .nothing => (.ok (), w)
  | .ok .notification => (.ok (), w.emit (.notification message))
  | .ok (.answer id) =>
      match w.env.link.take id with
      | .error f => (.error f, w)
      | .ok (none, _) => (.ok (), w)
      | .ok (some waiting, c) =>
          let w := w.onLink fun _ => c
          match waiting with
          | .handshake => w.greeted message
          | waiting => w.answer waiting message

def act (found : Frame.Found) (w : Workspace Connection) :
    Except Fault Unit × Workspace Connection :=
  match found with
  | .message .null => (.ok (), w)
  | .message v => w.handle v
  | _ => (.ok (), w)

def tellDropped (found : Frame.Found) (w : Workspace Connection) :
    Workspace Connection :=
  match found with
  | .undecodable body => w.tell (.undecodable body)
  | _ => w

/-- Acts on the frames at the front of bytes, one after the other, until nothing
more can be taken or something fails.  What is left stays in the buffer. -/
def consume (room : Nat) (data : Bytes) (w : Workspace Connection) :
    Except Fault Unit × Workspace Connection :=
  match h : Frame.extract room data with
  | .error f => (.error f, w)
  | .ok e =>
      let w := w.tellDropped e.found
      if heq : e.rest.length = data.length then (.ok (), w)
      else
        have : e.rest.length < data.length :=
          Nat.lt_of_le_of_ne (Frame.extract_rest_length_le h) heq
        match (w.onLink fun c => { c with buffer := e.rest }).act e.found with
        | (.error f, w) => (.error f, w)
        | (.ok (), w) => consume room e.rest w
termination_by data.length

def feed (data : Bytes) (w : Workspace Connection) :
    Except Fault Unit × Workspace Connection :=
  let all := w.env.link.buffer ++ data
  (w.onLink fun c => { c with buffer := all }).consume w.env.link.room all

def read (w : Workspace Connection) : Workspace Connection :=
  if !w.env.link.process.valid then w.tell .agentInvalid
  else
    let data := w.env.link.process.unread
    let w :=
      w.onLink fun c => { c with process := { c.process with unread := [] } }
    match w.feed data with
    | (.ok (), w) => w
    | (.error f, w) => w.tell (.agentUnreadable f)

def output (data : Bytes) (w : Workspace Connection) : Workspace Connection :=
  (w.onLink fun c =>
    { c with process :=
      { c.process with unread := c.process.unread ++ data } }).read

def stir (w : Workspace Connection) : Stir → Workspace Connection
  | .wrote data => w.output data
  | .troubled kind => w.withEnv (Connection.troubled kind w.env)

/-- Waits for the end of the process: what it writes meanwhile is read as it
comes. -/
def await (milliseconds : Nat) (x : Wait) (w : Workspace Connection) :
    Workspace Connection :=
  let w := x.stirs.foldl stir (w.emit (.process (.awaited milliseconds)))
  match x.code with
  | some code => w.withEnv (Connection.finished code w.env)
  | none => w

def leave (w : Workspace Connection) : Workspace Connection :=
  (w.withEnv (Connection.farewell w.env)).emit (.process .terminated)

def force (w : Workspace Connection) : Workspace Connection :=
  (w.tell .agentKilled).emit (.process .killed)

def endProcess (waits : Waits) (w : Workspace Connection) :
    Workspace Connection :=
  let w := w.leave.await 2000 waits.asked
  if waits.asked.code.isSome then w else w.force.await 1000 waits.killed

/-- Nobody waits for an answer any longer, and the agent has to be greeted
anew. -/
def hangUp (w : Workspace Connection) : Workspace Connection :=
  w.onLink fun c => { c with initialized := false, waiting := [] }

def stop (waits : Waits) (w : Workspace Connection) : Workspace Connection :=
  if !w.env.link.process.valid then w
  else if w.env.link.process.phase = .running then (w.endProcess waits).hangUp
  else w.hangUp

end Connection
end Workspace
end InlineCompletion
