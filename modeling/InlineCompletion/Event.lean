import InlineCompletion.Notice
import InlineCompletion.Settings.Value
import InlineCompletion.Text.Basic

/-!
# Events

What can be seen of the program from outside, in the order in which it happens:
messages to the agent, the life of its process, what editors show, and what is
told of all that.
-/

namespace InlineCompletion

inductive ProcessEvent where
  | started (program : String) (arguments : List String) (directory : String)
  | terminated
  | killed
  | awaited (milliseconds : Nat)
  deriving Repr

inductive Stroke where
  | start
  | pen (red green blue alpha : Nat)
  | line (x y : Int) (text : Text)
  | stop
  deriving DecidableEq, Repr

inductive Event where
  | notice (n : Notice)
  /-- An alarm went off. -/
  | fired (time : Int)
  /-- Whoever heard a signal failed. -/
  | listenerFailed (fault : Fault)
  | sent (m : Outgoing)
  | refused (method : String) (request : Bool) (r : Refusal)
  | linkStopped
  | process (e : ProcessEvent)
  | ready
  | stopped
  | notification (message : Json)
  | answered (label : String) (message : Json)
  | edited (e : Edit)
  | resolved (id : Option Int) (outcome : Outcome)
  | documentOpened (uri : Text)
  | documentClosed (uri : Text)
  | cursorMoved (offset : Int)
  | ghostShown (offset : Int) (text : Text)
  | ghostHidden
  | font (family size : Settings.Value)
  | repainted
  | ordinaryKey
  | painted (s : Stroke)
  | titled (title : String)
  | statusShown (status : String)
  | windowSized (width height : Nat)
  | windowShown
  | called (time : Int)
  | asked (kind : TriggerKind)
  | reopening
  deriving Repr

end InlineCompletion
