import InlineCompletion.Agent.Link
import InlineCompletion.Frame

/-!
# The connection to the agent's process

The agent runs as a process that reads frames and writes frames.  The connection
starts it, greets it, numbers the requests and keeps what waits for their
answers, until the process ends.  It is connected once the agent answered the
greeting and as long as the process runs.  What the process does on its own is
not said here: which writes it takes, what it writes and when it ends comes from
outside, also while it is waited for.
-/

namespace InlineCompletion

inductive Phase where
  | idle
  | starting
  | running
  deriving DecidableEq, Repr

/-- The agent's process, as seen from the program. -/
structure Worker where
  phase : Phase
  writable : Bool
  /-- Which of the next writes it takes, and whether it takes those behind
  them. -/
  outcomes : List Bool
  otherwise : Bool
  /-- Why it did not take bytes, in its own words. -/
  errorText : String
  /-- Whether the program may still use it. -/
  valid : Bool
  /-- What it wrote and nobody read. -/
  unread : Bytes

namespace Worker

def fresh : Worker := ⟨.idle, true, [], true, "", true, []⟩

def write (p : Worker) : Bool × Worker :=
  if !p.writable then (false, p)
  else
    match p.outcomes with
    | [] => (p.otherwise, p)
    | taken :: rest => (taken, { p with outcomes := rest })

end Worker

inductive Stir where
  | wrote (data : Bytes)
  | troubled (kind : String)

/-- What comes of a wait for the end of the process: what it does before, and
the code with which it ends, if it does so in time. -/
structure Wait where
  stirs : List Stir
  code : Option Json

/-- The waits for a process that was asked to end, and then made to. -/
structure Waits where
  asked : Wait
  killed : Wait

structure Connection where
  command : List String
  directory : Option String
  /-- How many arrays and objects may stand inside one another in a message. -/
  room : Nat
  process : Worker
  serverInfo : Json
  lastId : Nat
  buffer : Bytes
  waiting : List (Nat × Waiting)
  initialized : Bool

namespace Connection

def fresh (command : List String) (directory : Option String) (room : Nat) :
    Connection :=
  ⟨command, directory, room, .fresh, .obj [], 0, [], [], false⟩

def isRunning (c : Connection) : Bool :=
  c.process.valid && c.process.phase == .running

def send (c : Connection) : Option Refusal × Connection :=
  if !c.isRunning then (some .notRunning, c)
  else
    match c.process.write with
    | (true, p) => (none, { c with process := p })
    | (false, p) => (some (.writeFailed p.errorText), { c with process := p })

def without (id : Nat) (waiting : List (Nat × Waiting)) :
    List (Nat × Waiting) :=
  waiting.filter fun w => w.1 != id

instance : Link Connection where
  connected c := c.initialized && c.isRunning
  notify _ c := c.send
  request _ waiting c :=
    let id := c.lastId + 1
    match ({ c with lastId := id } : Connection).send with
    | (none, c) =>
        (.ok ⟨id, none⟩,
          { c with
            waiting := c.waiting ++ (waiting.map fun w => (id, w)).toList })
    | (some r, c) => (.error r, c)

def start (env : Env Connection) : Except Fault Unit × Env Connection :=
  match env.link.command with
  | [] => (.error .noCommand, env)
  | program :: arguments =>
      let env := env.tell (.agentStarting program arguments)
      let link := env.link
      let process := { link.process with phase := .starting }
      (.ok (), { env with link := { link with process := process } }.emit
        (.process (.started program arguments (link.directory.getD ""))))

def began (env : Env Connection) : Env Connection :=
  let link := env.link
  let process := { link.process with phase := .running }
  let env := { env with link := { link with process := process } }
  let env := env.tell .agentStarted
  match env.request .greeting (some .handshake) with
  | (.ok _, env) => env
  | (.error r, env) => env.emit (.listenerFailed (.refused r))

def finished (code : Json) (env : Env Connection) : Env Connection :=
  let link := env.link
  let process := { link.process with phase := .idle }
  let env := { env with link := { link with process := process } }
  let env := env.tell (.agentExited code)
  let link := { env.link with initialized := false, waiting := [] }
  { env with link := link }.signal .stopped

def troubled (kind : String) (env : Env Connection) : Env Connection :=
  if kind = "FailedToStart" then env.tell (.agentNotFound env.link.command)
  else env.tell (.agentTrouble kind)

def farewell (env : Env Connection) : Env Connection :=
  match env.request .shutdown none with
  | (.error r, env) => env.tell (.agentFarewellFailed r)
  | (.ok _, env) =>
      match env.notify .exit with
      | (some r, env) => env.tell (.agentFarewellFailed r)
      | (none, env) => env

inductive Incoming where
  /-- The answer to a request, with its number. -/
  | answer (id : Json)
  | notification
  | nothing
  deriving Repr

def holds (part : List Point) : List Point → Bool
  | [] => part.isEmpty
  | p :: rest => part.isPrefixOf (p :: rest) || holds part rest

/-- Whether something is in a message: a member of an object, an item of an
array, a part of a text.  Nothing is in any other value. -/
def mentions (word : Str) : Json → Except Fault Bool
  | .obj members => .ok (Json.Members.get? word members).isSome
  | .arr items => .ok (items.any fun v => v.asStr? == some word)
  | .str s => .ok (holds word.points s.points)
  | _ => .error .wrongKind

def classify (message : Json) : Except Fault Incoming := do
  let hasId ← mentions "id" message
  let hasMethod ← mentions "method" message
  if hasId && !hasMethod then
    match message.get? "id" with
    | some id => return .answer id
    | none => throw .wrongShape
  else return if hasMethod then .notification else .nothing

/-- Takes what waits for a number, which has to be a value that can be looked up
as soon as anything waits. -/
def take (id : Json) (c : Connection) :
    Except Fault (Option Waiting × Connection) :=
  match id with
  | .arr _ | .obj _ =>
      if c.waiting.isEmpty then .ok (none, c) else .error .wrongKind
  | id =>
      match id.numeral? with
      | none => .ok (none, c)
      | some n =>
          match c.waiting.find? fun w => (w.1 : Int) == n with
          | some (k, w) =>
              .ok (some w, { c with waiting := without k c.waiting })
          | none => .ok (none, c)

def serverInfoOf (message : Json) : Json :=
  match ((message.get? "result").getD .null).orEmpty with
  | .obj members => (Json.Members.get? "serverInfo" members).getD (.obj [])
  | _ => .obj []

end Connection
end InlineCompletion
