import InlineCompletion.Clock
import InlineCompletion.Event
import InlineCompletion.Path.Basic

/-!
# The link to the agent

Documents see the agent through a link: it is connected or not, it takes a
notification or refuses it, and it takes a request under a number or refuses it.
What waits for an answer is kept as data, so that whoever receives the answer
knows whom to give it to.  The surroundings of a document are the link, the
clock and what was seen so far.
-/

namespace InlineCompletion

inductive Waiting where
  | handshake
  /-- A completion of a document, each by its number. -/
  | completion (document ticket : Nat)
  /-- Somebody outside, who may fail over the answer. -/
  | probe (label : String) (fault : Option Fault)
  deriving DecidableEq, Repr

structure Receipt where
  id : Nat
  answer : Option Json

class Link (τ : Type) where
  connected : τ → Bool
  notify : Notification → τ → Option Refusal × τ
  request : Request → Option Waiting → τ → Except Refusal Receipt × τ

structure Window where
  path : Option Text
  title : String
  status : String

structure Env (τ : Type) where
  clock : Clock
  link : τ
  window : Option Window
  trace : List Event

namespace Env

variable {τ : Type}

def ofLink (link : τ) : Env τ := ⟨Clock.start, link, none, []⟩

def emit (env : Env τ) (e : Event) : Env τ :=
  { env with trace := env.trace ++ [e] }

def emits (env : Env τ) (es : List Event) : Env τ :=
  { env with trace := env.trace ++ es }

def tell (env : Env τ) (n : Notice) : Env τ := env.emit (.notice n)

section Linked

variable [Link τ]

def connected (env : Env τ) : Bool := Link.connected env.link

/-- Hands a notification to the agent; the result is why it was refused, if it
was. -/
def notify (n : Notification) (env : Env τ) : Option Refusal × Env τ :=
  match Link.notify n env.link with
  | (none, link) =>
      (none, { env with link := link }.emit (.sent (.notification n)))
  | (some r, link) =>
      (some r, { env with link := link }.emit (.refused n.method false r))

def request (q : Request) (waiting : Option Waiting) (env : Env τ) :
    Except Refusal Receipt × Env τ :=
  match Link.request q waiting env.link with
  | (.ok receipt, link) =>
      (.ok receipt,
        { env with link := link }.emit (.sent (.request receipt.id q)))
  | (.error r, link) =>
      (.error r, { env with link := link }.emit (.refused q.method true r))

def refreshWindow (env : Env τ) : Env τ :=
  match env.window with
  | none => env
  | some w =>
      let name := (w.path.map Path.basename).getD "untitled".toList
      let title := String.ofList name ++ " - tabbyqt"
      let status := if env.connected then "Agent connected" else "Agent offline"
      { env with window := some { w with title := title, status := status }
        }.emits [.titled title, .statusShown status]

def signal (env : Env τ) (e : Event) : Env τ := env.refreshWindow.emit e

end Linked
end Env
end InlineCompletion
