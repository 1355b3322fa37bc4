import InlineCompletion.Clock

/-!
# When completions are asked for

A completion is asked for some idle time after the last edit, unless that is
switched off.  Asking for one by hand drops the idle time that runs.
-/

namespace InlineCompletion

structure Trigger where
  automatic : Bool
  timer : Timer
  deriving DecidableEq, Repr

namespace Trigger

def fresh (idle : Int) (automatic : Bool) : Trigger :=
  ⟨automatic, .ofInterval idle⟩

def activity (t : Trigger) (c : Clock) : Trigger × Clock :=
  if t.automatic then
    let (timer, c) := t.timer.arm c
    ({ t with timer := timer }, c)
  else (t, c)

def cancel (t : Trigger) : Trigger := { t with timer := t.timer.cancel }

end Trigger
end InlineCompletion
