import InlineCompletion.Workspace.Basic

/-!
# Parts on their own

The parts of a document also work without one: the agent's copy with a way to
open it again, the trigger with something to ask, a timer whose alarm meets a
reaction, and completions in front of an editor.
-/

namespace InlineCompletion
namespace Rehearsal

variable {τ : Type}

/-! ## The agent's copy -/

/-- A way to open a copy again: there is none, it only answers, or it tells the
agent a text. -/
inductive Hook where
  | absent
  | answers (ok : Bool)
  | announces (text : Text) (language : String)

def Hook.reopening [Link τ] : Hook → Option (Sync.Reopening τ)
  | .absent => none
  | .answers ok => some fun s env => (ok, s, env.emit .reopening)
  | .announces text language =>
      some fun s env => s.announce text language (env.emit .reopening)

structure Copy (τ : Type) where
  sync : Sync
  hook : Hook
  env : Env τ

namespace Copy

def flush [Link τ] (c : Copy τ) : Bool × Copy τ :=
  let (ok, s, env) := c.sync.flush c.hook.reopening c.env
  (ok, { c with sync := s, env := env })

def alarms (c : Copy τ) : List (Unit × Alarm) :=
  (c.sync.timer.alarm.map fun a => ((), a)).toList

def ring [Link τ] (_ : Unit) (a : Alarm) (c : Copy τ) : Copy τ :=
  let (_, s, env) := c.sync.ring c.hook.reopening a c.env
  { c with sync := s, env := env }

def advance [Link τ] (milliseconds : Int) (c : Copy τ) : Copy τ :=
  let time := c.env.clock.now + milliseconds
  let c := Alarm.ring alarms ring time 1 c
  { c with env := { c.env with clock := { c.env.clock with now := time } } }

end Copy

/-! ## Timers -/

inductive Move where
  | nothing
  | cancel
  | arm
  | armFor (interval : Int)
  | andThen (first next : Move)

/-- What a callback does: a move, which may be several, and whether it fails
behind it. -/
structure Reaction where
  move : Move
  fault : Option Fault

structure Alone where
  timer : Timer
  clock : Clock
  trace : List Event
  /-- How many alarms went off since time last went on. -/
  calls : Nat

namespace Alone

def alarms (t : Alone) : List (Unit × Alarm) :=
  (t.timer.alarm.map fun a => ((), a)).toList

def move (m : Move) (t : Alone) : Alone :=
  match m with
  | .nothing => t
  | .cancel => { t with timer := t.timer.cancel }
  | .arm =>
      let (timer, clock) := t.timer.arm t.clock
      { t with timer := timer, clock := clock }
  | .armFor interval =>
      let (timer, clock) := t.timer.armFor interval t.clock
      { t with timer := timer, clock := clock }
  | .andThen first next => (t.move first).move next

/-- Sets the alarm, with an interval given as a value, or with the one set
before.  The alarm set before is dropped first, also when the value is no
interval. -/
def armBy (interval : Json) (t : Alone) : Except Fault Unit × Alone :=
  match interval with
  | .null => (.ok (), t.move .arm)
  | v =>
      match v.toInteger with
      | .ok n => (.ok (), t.move (.armFor n))
      | .error f => (.error f, t.move .cancel)

/-- The alarm goes off, and the callback reacts; the reaction may hang on how
many went off before.  A callback that fails is told of. -/
def ring (react : Nat → Reaction) (_ : Unit) (a : Alarm) (t : Alone) : Alone :=
  let t : Alone :=
    { timer := t.timer.cancel
      clock := { t.clock with now := a.due }
      trace := t.trace ++ [.fired a.due, .called a.due]
      calls := t.calls + 1 }
  let r := react t.calls
  let t := t.move r.move
  match r.fault with
  | some f => { t with trace := t.trace ++ [.notice (.timerFailed f)] }
  | none => t

def advance (react : Nat → Reaction) (most : Nat) (milliseconds : Int)
    (t : Alone) : Alone :=
  let time := t.clock.now + milliseconds
  let t := Alarm.ring alarms (ring react) time most { t with calls := 0 }
  { t with clock := { t.clock with now := time } }

end Alone

/-! ## Triggers -/

structure Asking where
  trigger : Trigger
  fault : Option Fault
  clock : Clock
  trace : List Event

namespace Asking

def ask (kind : TriggerKind) (t : Asking) : Except Fault Unit × Asking :=
  (match t.fault with
    | some f => .error f
    | none => .ok (),
    { t with trace := t.trace ++ [.asked kind] })

def byHand (t : Asking) : Except Fault Unit × Asking :=
  ask .invoked { t with trigger := t.trigger.cancel }

def activity (t : Asking) : Asking :=
  let (trigger, clock) := t.trigger.activity t.clock
  { t with trigger := trigger, clock := clock }

def alarms (t : Asking) : List (Unit × Alarm) :=
  (t.trigger.timer.alarm.map fun a => ((), a)).toList

def ring (_ : Unit) (a : Alarm) (t : Asking) : Asking :=
  let t : Asking := { t with
    trigger := t.trigger.cancel
    clock := { t.clock with now := a.due }
    trace := t.trace ++ [.fired a.due] }
  match t.ask .automatic with
  | (.ok (), t) => t
  | (.error f, t) => { t with trace := t.trace ++ [.notice (.timerFailed f)] }

def advance (milliseconds : Int) (t : Asking) : Asking :=
  let time := t.clock.now + milliseconds
  let t := Alarm.ring alarms ring time 1 t
  { t with clock := { t.clock with now := time } }

end Asking

/-! ## Completions -/

structure Showing (τ : Type) where
  completions : Completions
  workspace : Workspace τ

namespace Showing

def run {α : Type} (f : Stage → α × Stage) (s : Showing τ) :
    Option α × Showing τ :=
  match s.workspace.editors[0]? with
  | none => (none, s)
  | some e =>
      let (r, stage) := f ⟨s.completions, e, s.workspace.env.trace⟩
      (some r,
        { completions := stage.completions
          workspace := { s.workspace with
            editors := s.workspace.editors.set 0 stage.editor
            env := { s.workspace.env with trace := stage.trace } } })

def display (x : Completion) (s : Showing τ) : Showing τ :=
  let ticket := s.completions.all.length
  ({ s with completions := s.completions.add x }.run
    fun g => ((), g.display ticket)).2

def accept (s : Showing τ) : Except Fault Bool × Showing τ :=
  match s.run Stage.accept with
  | (some (.error f), s) => (.error f, s)
  | (some (.ok (some edit)), s) =>
      let w := s.workspace.replace 0 edit
      (.ok true,
        { s with workspace :=
          w.moveCursor 0 (edit.start + edit.inserted.length) })
  | (_, s) => (.ok false, s)

end Showing
end Rehearsal
end InlineCompletion
