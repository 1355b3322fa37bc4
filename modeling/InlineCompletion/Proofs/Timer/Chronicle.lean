import InlineCompletion.Proofs.Timer.Ringing
import InlineCompletion.Workspace.Rehearsal
import Mathlib.Data.List.Induction

/-!
# Chronicles of a timer

A *chronicle* holds what happens to a timer: that it is armed, with an interval
or with the last one that was given, that its alarm is dropped, that its
callback is called, and until when time goes on.  What the callback does to the
timer stands behind the call.  From when the timer is armed a call is
outstanding, until it comes, or the timer is armed again, or its alarm dropped.
-/

namespace InlineCompletion
namespace Rehearsal

inductive Happening where
  | armed (interval : Option Int)
  | cancelled
  | called
  | waited
  deriving DecidableEq, Repr

structure Moment where
  time : Int
  what : Happening
  deriving DecidableEq, Repr

namespace Moment

def interval? (m : Moment) : Option Int :=
  match m.what with
  | .armed interval => interval
  | _ => none

def isCall (m : Moment) : Bool := m.what == .called

/-- Whether something may happen next where a call is due: the call, at that
time; or time goes on, not so far; or something else, no later. -/
def Respects (due : Int) (m : Moment) : Prop :=
  match m.what with
  | .called => m.time = due
  | .waited => m.time < due
  | _ => m.time ≤ due

end Moment

/-- The interval that holds behind what happened: the last that was given, or
none below zero. -/
def intervalBehind (first : Int) (past : List Moment) : Int :=
  max 0 ((past.filterMap Moment.interval?).getLastD first)

/-- Whether a call is outstanding behind what happened, and due at a time: the
timer was armed, as long before that time as the interval is, and nothing but
waiting came behind. -/
def Outstanding (first : Int) (past : List Moment) (due : Int) : Prop :=
  ∃ before start interval waits, past =
    before ++ ⟨start, .armed interval⟩ :: waits ∧
    (∀ m ∈ waits, m.what = .waited) ∧
    due = start + intervalBehind first (before ++ [⟨start, .armed interval⟩])

/-- Whether, of what happens behind arming the timer, arming it again or
dropping its alarm comes before any call. -/
def superseded : List Moment → Bool
  | [] => false
  | ⟨_, .waited⟩ :: rest => superseded rest
  | ⟨_, .called⟩ :: _ => false
  | _ :: _ => true

/-- Whether a call has come to be due of arming the timer, with what happened
before and behind: it is due an interval later, time went on to there, and
neither was the timer armed again before the call nor its alarm dropped. -/
structure Ripens (first : Int) (before : List Moment) (start : Int)
    (given : Option Int) (behind : List Moment) (due : Int) : Prop where
  due_eq :
      due = start + intervalBehind first (before ++ [⟨start, .armed given⟩])
  kept : superseded behind = false
  reached : ∃ m ∈ behind, m.what = .waited ∧ due ≤ m.time

theorem intervalBehind_nonneg (first : Int) (past : List Moment) :
    0 ≤ intervalBehind first past :=
  Int.le_max_left _ _

theorem intervalBehind_given (first : Int) (past : List Moment)
    (time interval : Int) :
    intervalBehind first (past ++ [⟨time, .armed (some interval)⟩]) =
      max 0 interval := by
  unfold intervalBehind
  rw [List.filterMap_append]
  exact congrArg _ (List.getLastD_concat ..)

theorem intervalBehind_of_none {first : Int} {past : List Moment} {m : Moment}
    (h : m.interval? = none) :
    intervalBehind first (past ++ [m]) = intervalBehind first past := by
  unfold intervalBehind
  rw [List.filterMap_append, List.filterMap_cons_none h, List.filterMap_nil,
    List.append_nil]

theorem not_outstanding_nil (first due : Int) : ¬ Outstanding first [] due := by
  rintro ⟨before, start, interval, waits, h, _⟩
  exact List.append_ne_nil_of_right_ne_nil before (List.cons_ne_nil _ _) h.symm

theorem outstanding_concat {first due : Int} {past : List Moment} {m : Moment} :
    Outstanding first (past ++ [m]) due ↔
      (∃ interval, m.what = .armed interval ∧
          due = m.time + intervalBehind first (past ++ [m])) ∨
        (m.what = .waited ∧ Outstanding first past due) := by
  constructor
  · rintro ⟨before, start, interval, waits, h, hwaits, hdue⟩
    rcases List.eq_nil_or_concat waits with hnil | ⟨waits', last, hlast⟩
    · rw [hnil] at h
      rcases List.append_inj' h rfl with ⟨hpast, hm⟩
      rw [List.singleton_inj] at hm
      rw [← hpast, ← hm] at hdue
      rw [hm] at hdue ⊢
      exact Or.inl ⟨interval, rfl, hdue⟩
    · rw [hlast, List.concat_eq_append, ← List.cons_append, ← List.append_assoc]
        at h
      rw [hlast, List.concat_eq_append] at hwaits
      rcases List.append_inj' h rfl with ⟨hpast, hm⟩
      rw [List.singleton_inj] at hm
      rw [hm]
      refine Or.inr
        ⟨hwaits last (List.mem_append_right _ List.mem_cons_self), ?_⟩
      exact ⟨before, start, interval, waits', hpast,
        fun m hm => hwaits m (List.mem_append_left _ hm), hdue⟩
  · rintro (⟨interval, hwhat, hdue⟩ | ⟨hwhat, before, start, interval, waits, h,
      hwaits, hdue⟩)
    · cases m with
      | mk time what =>
          cases hwhat
          exact ⟨past, time, interval, [], rfl, (fun _ hm => nomatch hm), hdue⟩
    · refine ⟨before, start, interval, waits ++ [m], ?_, ?_, hdue⟩
      · rw [h, List.append_assoc, List.cons_append]
      · intro m' hm'
        rcases List.mem_append.mp hm' with hmem | hmem
        · exact hwaits m' hmem
        · rw [List.mem_singleton.mp hmem]
          exact hwhat

theorem not_outstanding_concat {first due : Int} {past : List Moment}
    {m : Moment} (hm : m.what = .cancelled ∨ m.what = .called) :
    ¬ Outstanding first (past ++ [m]) due := by
  rw [outstanding_concat]
  rintro (⟨_, hwhat, _⟩ | ⟨hwhat, _⟩)
  · rw [hwhat] at hm
    exact hm.elim nofun nofun
  · rw [hwhat] at hm
    exact hm.elim nofun nofun

theorem outstanding_armed (first : Int) (before : List Moment) (start : Int)
    (given : Option Int) :
    Outstanding first (before ++ [⟨start, .armed given⟩])
      (start + intervalBehind first (before ++ [⟨start, .armed given⟩])) :=
  ⟨before, start, given, [], rfl, (fun _ hm => nomatch hm), rfl⟩

theorem armed_behind_call {first due time : Int} {before behind : List Moment}
    (h : Outstanding first (before ++ ⟨time, .called⟩ :: behind) due) :
    ∃ m ∈ behind, ∃ given, m.what = .armed given := by
  induction behind using List.reverseRecOn with
  | nil => exact absurd h (not_outstanding_concat (Or.inr rfl))
  | append_singleton behind m ih =>
      rw [← List.cons_append, ← List.append_assoc] at h
      rcases outstanding_concat.mp h with ⟨given, hwhat, _⟩ | ⟨_, hout⟩
      · exact ⟨m, List.mem_append_right _ List.mem_cons_self, given, hwhat⟩
      · rcases ih hout with ⟨n, hn, harmed⟩
        exact ⟨n, List.mem_append_left _ hn, harmed⟩

theorem superseded_waits {waits rest : List Moment}
    (hwaits : ∀ m ∈ waits, m.what = .waited) :
    superseded (waits ++ rest) = superseded rest := by
  induction waits with
  | nil => rfl
  | cons m waits ih =>
      cases m with
      | mk time what =>
          cases hwaits ⟨time, what⟩ List.mem_cons_self
          exact ih fun n hn => hwaits n (List.mem_cons_of_mem _ hn)

/-!
# Chronicles
-/

def Move.moments (time : Int) : Move → List Moment
  | .nothing => []
  | .cancel => [⟨time, .cancelled⟩]
  | .arm => [⟨time, .armed none⟩]
  | .armFor interval => [⟨time, .armed (some interval)⟩]
  | .andThen first next => first.moments time ++ next.moments time

/-- What is done with a timer: a move, or time passes, and callbacks react to
being called. -/
inductive Doing where
  | move (m : Move)
  | pass (milliseconds : Nat) (react : Nat → Reaction) (most : Nat)

def callTimes (es : List Event) : List Int :=
  es.filterMap fun
    | .called time => some time
    | _ => none

namespace Alone

def fresh (interval : Int) : Alone := ⟨.ofInterval interval, Clock.start, [], 0⟩

def perform (d : Doing) (t : Alone) : Alone :=
  match d with
  | .move m => t.move m
  | .pass milliseconds react most => t.advance react most milliseconds

/-- What is written down as an alarm goes off: the call, and what the callback
does. -/
def note (react : Nat → Reaction) (t t' : Alone) : List Moment :=
  [⟨t'.clock.now, .called⟩] ++ (react (t.calls + 1)).move.moments t'.clock.now

def rung (react : Nat → Reaction) (milliseconds most : Nat) (t : Alone) :
    Alone :=
  Alarm.ring alarms (ring react) (t.clock.now + milliseconds) most
    { t with calls := 0 }

def told (react : Nat → Reaction) (milliseconds most : Nat) (t : Alone) :
    List Moment :=
  Alarm.record alarms (ring react) (note react) (t.clock.now + milliseconds)
    most { t with calls := 0 }

def written (d : Doing) (t : Alone) : List Moment :=
  match d with
  | .move m => m.moments t.clock.now
  | .pass milliseconds react most =>
      t.told react milliseconds most ++ [⟨t.clock.now + milliseconds, .waited⟩]

/-- Whether time passes as far as it should: where one alarm more may go off,
none does. -/
def Ends (t : Alone) : Doing → Prop
  | .move _ => True
  | .pass milliseconds react most =>
      (t.advance react (most + 1) milliseconds).calls =
        (t.advance react most milliseconds).calls

inductive Chronicle (allowed : Alone → Doing → Prop) (interval : Int) :
    List Moment → Alone → Prop
  | start : Chronicle allowed interval [] (fresh interval)
  | step {past : List Moment} {t : Alone} {d : Doing}
      (h : Chronicle allowed interval past t) (hd : allowed t d) :
          Chronicle allowed interval (past ++ t.written d) (t.perform d)

/-!
# Moves and calls
-/

theorem move_now (m : Move) (t : Alone) :
    (t.move m).clock.now = t.clock.now := by
  induction m generalizing t with
  | andThen m next ihm ihnext => exact (ihnext _).trans (ihm t)
  | _ => rfl

theorem move_calls (m : Move) (t : Alone) : (t.move m).calls = t.calls := by
  induction m generalizing t with
  | andThen m next ihm ihnext => exact (ihnext _).trans (ihm t)
  | _ => rfl

/-- What the timer is when its callback is called: nothing is set, and it is
then. -/
def atCall (a : Alarm) (t : Alone) : Alone :=
  { timer := t.timer.cancel
    clock := { t.clock with now := a.due }
    trace := t.trace ++ [.fired a.due, .called a.due]
    calls := t.calls + 1 }

/-- What the timer is behind a failure, if there is one: there is a notice, and
nothing else. -/
def afterFault (fault : Option Fault) (t : Alone) : Alone :=
  match fault with
  | some f => { t with trace := t.trace ++ [.notice (.timerFailed f)] }
  | none => t

theorem ring_eq (react : Nat → Reaction) (a : Alarm) (t : Alone) :
    t.ring react () a =
      ((t.atCall a).move (react (t.calls + 1)).move).afterFault
        (react (t.calls + 1)).fault := rfl

theorem afterFault_clock (fault : Option Fault) (t : Alone) :
    (t.afterFault fault).clock = t.clock := by
  cases fault with
  | none => rfl
  | some f => rfl

theorem afterFault_calls (fault : Option Fault) (t : Alone) :
    (t.afterFault fault).calls = t.calls := by
  cases fault with
  | none => rfl
  | some f => rfl

theorem ring_now (react : Nat → Reaction) (a : Alarm) (t : Alone) :
    (t.ring react () a).clock.now = a.due := by
  rw [ring_eq, afterFault_clock, move_now]
  rfl

theorem ring_calls (react : Nat → Reaction) (a : Alarm) (t : Alone) :
    (t.ring react () a).calls = t.calls + 1 := by
  rw [ring_eq, afterFault_calls, move_calls]
  rfl

theorem mem_alarms {t : Alone} {a : Alarm} :
    ((), a) ∈ t.alarms ↔ a ∈ t.timer.alarm := by
  unfold alarms
  cases t.timer.alarm with
  | none => exact iff_of_false (fun h => nomatch h) (fun h => nomatch h)
  | some b => simp [eq_comm]

theorem later_of_ends {t : Alone} {react : Nat → Reaction}
    {milliseconds most : Nat} (h : t.Ends (.pass milliseconds react most)) :
    ∀ a ∈ (t.rung react milliseconds most).timer.alarm, t.clock.now +
      milliseconds < a.due := by
  intro a ha
  have hmore : (t.rung react milliseconds (most + 1)).calls =
      (t.rung react milliseconds most).calls := h
  unfold rung at hmore
  rw [Alarm.ring_succ] at hmore
  cases hnext : Alarm.nextBy (t.clock.now + milliseconds)
      (t.rung react milliseconds most).alarms with
  | none => exact Alarm.lt_due_of_nextBy_eq_none hnext (mem_alarms.mpr ha)
  | some next =>
      unfold rung at hnext
      rw [hnext] at hmore
      dsimp only at hmore
      rw [ring_calls] at hmore
      omega

/-! ## Behind a call -/

theorem moments_not_called (time : Int) (m : Move) :
    ∀ n ∈ m.moments time, n.what ≠ .called := by
  induction m with
  | nothing => exact fun n hn => nomatch hn
  | andThen m next ihm ihnext =>
      intro n hn
      rcases List.mem_append.mp hn with hmem | hmem
      · exact ihm n hmem
      · exact ihnext n hmem
  | _ =>
      intro n hn
      rw [List.mem_singleton.mp hn]
      exact nofun

theorem waited_behind_written {t : Alone} {d : Doing}
    {before behind : List Moment} {time : Int}
    (h : t.written d = before ++ ⟨time, .called⟩ :: behind) :
    ∃ m ∈ behind, m.what = .waited := by
  cases d with
  | move m =>
      have hmoments :
          m.moments t.clock.now = before ++ ⟨time, .called⟩ :: behind := h
      have hmem : ⟨time, .called⟩ ∈ m.moments t.clock.now := by
        rw [hmoments]
        exact List.mem_append_right _ List.mem_cons_self
      exact absurd rfl (moments_not_called _ m _ hmem)
  | pass milliseconds react most =>
      unfold written at h
      rcases List.eq_nil_or_concat behind with hnil | ⟨behind', last, hlast⟩
      · rw [hnil] at h
        have hsame := List.singleton_inj.mp (List.append_inj' h rfl).2
        cases hsame
      · rw [hlast,
          List.concat_eq_append, ← List.cons_append, ← List.append_assoc] at h
        have hsame := List.singleton_inj.mp (List.append_inj' h rfl).2
        rw [hlast, ← hsame, List.concat_eq_append]
        exact ⟨_, List.mem_append_right _ List.mem_cons_self, rfl⟩

theorem Chronicle.waited_behind {interval : Int} {past : List Moment}
    {t : Alone} (h : Chronicle Ends interval past t)
    {before behind : List Moment} {time : Int}
    (hpast : past = before ++ ⟨time, .called⟩ :: behind) :
    ∃ m ∈ behind, m.what = .waited := by
  induction h generalizing before behind with
  | start =>
      exact absurd hpast.symm (List.append_ne_nil_of_right_ne_nil before nofun)
  | @step past t d h hd ih =>
      rcases List.append_eq_append_iff.mp hpast with
        ⟨mid, _, hmid⟩ | ⟨mid, hbefore, hmid⟩
      · exact waited_behind_written hmid
      · cases mid with
        | nil =>
            exact waited_behind_written
              (hmid.symm.trans (List.nil_append _).symm)
        | cons m mid =>
            rw [List.cons_append, List.cons.injEq] at hmid
            rcases hmid with ⟨hm, hbehind⟩
            rw [← hm] at hbefore
            rcases ih hbefore with ⟨n, hn, hwaited⟩
            rw [hbehind]
            exact ⟨n, List.mem_append_left _ hn, hwaited⟩

end Alone
end Rehearsal
end InlineCompletion
