import InlineCompletion.Proofs.Workspace.ProcessFrame
import InlineCompletion.Proofs.Workspace.Session

/-!
# Conversations with the agent

Whoever has the connection to the agent may send requests and notifications of
any kind besides what a session says.  A *conversation* is a session in which
that happens as well.
-/

namespace InlineCompletion

def Deed.ofProcess : Deed → Bool
  | .start => true
  | .began => true
  | .finished _ => true
  | .stop _ => true
  | .feed _ => true
  | .output _ => true
  | .read => true
  | .change _ => true
  | _ => false

inductive Incident where
  | deed (d : Deed)
  | ask (q : Request) (waiting : Option Waiting)
  | say (n : Notification)

namespace Workspace

/-- Whether something can happen.  Nobody but the connection itself greets the
process. -/
def Allows (w : Workspace Connection) : Incident → Prop
  | .deed d => d.Possible w
  | .ask _ waiting => waiting ≠ some .handshake
  | .say _ => True

instance (w : Workspace Connection) (i : Incident) :
    Decidable (w.Allows i) := by
  cases i with
  | deed d => exact inferInstanceAs (Decidable (d.Possible w))
  | ask q waiting =>
      exact inferInstanceAs (Decidable (waiting ≠ some .handshake))
  | say n => exact isTrue trivial

def meet (w : Workspace Connection) : Incident → Workspace Connection
  | .deed d => w.undergo d
  | .ask q waiting => w.withEnv (w.env.request q waiting).2
  | .say n => w.withEnv (w.env.notify n).2

/-- The workspaces that a conversation comes to. -/
inductive Conversation (start : Workspace Connection) :
    Workspace Connection → Prop where
  | start : Conversation start start
  | step {w : Workspace Connection} {i : Incident} (h : Conversation start w)
      (hi : w.Allows i) :
      Conversation start (w.meet i)

def allowsAll (w : Workspace Connection) : List Incident → Bool
  | [] => true
  | i :: rest => decide (w.Allows i) && allowsAll (w.meet i) rest

theorem Conversation.goOn {start w : Workspace Connection}
    (h : Conversation start w) {is : List Incident}
    (his : w.allowsAll is = true) :
    Conversation start (is.foldl meet w) := by
  induction is generalizing w with
  | nil => exact h
  | cons i rest ih =>
      rcases Bool.and_eq_true_iff.mp his with ⟨hi, hrest⟩
      exact ih (h.step (of_decide_eq_true hi)) hrest

theorem course_undergo {d : Deed} (hd : d.ofProcess = false)
    (w : Workspace Connection) :
    ∃ tone, w.Course tone (w.undergo d) := by
  have htelling : Tone.telling ≠ .mute := nofun
  cases d with
  | openDocument j path => exact ⟨_, course_openDocument htelling j path w⟩
  | close path => exact ⟨_, course_close htelling path w⟩
  | closeAll => exact ⟨_, course_closeAll htelling w⟩
  | edit j g => exact ⟨_, course_editWith j g.run w⟩
  | load j path content => exact ⟨.mute, course_loadFile j path content w⟩
  | moveCursor j offset => exact ⟨.mute, course_moveCursor j offset w⟩
  | select j anchor position => exact ⟨.mute, .onEditor (fun _ => rfl) j w⟩
  | paint j => exact ⟨.mute, course_paint j w⟩
  | key j key modifier text => exact course_key j key modifier text w
  | detach i => exact ⟨.mute, course_detach i w⟩
  | flush i => exact ⟨_, course_flush htelling i w⟩
  | trigger i => exact ⟨_, course_trigger i w⟩
  | request i reason => exact ⟨_, course_requestFor i reason w⟩
  | accept i => exact ⟨_, course_accept i w⟩
  | cancel i => exact ⟨.mute, course_cancel i w⟩
  | cycle i places => exact ⟨.mute, course_cycle i places w⟩
  | supersede i => exact ⟨.mute, course_supersede i w⟩
  | elapse milliseconds => exact ⟨_, course_advance milliseconds w⟩
  | troubled kind =>
      exact ⟨.mute, .idle (course_troubled .mute kind w.env) rfl rfl⟩
  | _ => cases hd

theorem aside_undergo {d : Deed} (hd : d.ofProcess = false)
    (w : Workspace Connection) :
    w.env.Aside (w.undergo d).env := by
  rcases course_undergo hd w with ⟨tone, hcourse⟩
  exact hcourse.env.aside

/-!
# The end of the process
-/

theorem keptByFarewell_aside (env : Env Connection) :
    KeptByFarewell (env.Aside ·) where
  course hcourse h := h.trans hcourse.aside
  asked h := by
    have hnobody : (none : Option Waiting) ≠ some .handshake := nofun
    exact h.trans (.request hnobody _ _)
  said h := h.trans (.notify _ _)

structure KeptByEnd (P : Env Connection → Prop) : Prop where
  aside {env env' : Env Connection} (h : env.Aside env') : P env → P env'
  ended {env : Env Connection} : P env → P (ended env)
  hungUp {env : Env Connection} : P env → P (hungUp env)

namespace KeptByEnd

variable {P : Env Connection → Prop} {env : Env Connection}

theorem leave (hP : KeptByEnd P) : KeptByLeave P where
  course hcourse := hP.aside ((keptByFarewell_aside _).course hcourse (.refl _))
  asked := hP.aside ((keptByFarewell_aside _).asked (.refl _))
  said := hP.aside ((keptByFarewell_aside _).said (.refl _))
  ended := hP.ended

theorem finished (hP : KeptByEnd P) (code : Json) (h : P env) :
    P (Connection.finished code env) :=
  hP.leave.finished code h

theorem stop (hP : KeptByEnd P)
    (houtput : ∀ {w : Workspace Connection} (data : Bytes), P w.env →
    P (w.output data).env)
    (waits : Waits) {w : Workspace Connection} (h : P w.env) :
    P (w.stop waits).env :=
  (hP.leave.stop houtput hP.hungUp).stop waits h

end KeptByEnd
end Workspace
end InlineCompletion
