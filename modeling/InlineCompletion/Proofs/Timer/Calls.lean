import InlineCompletion.Proofs.Timer.Chronicle

/-!
# When a timer calls

The callback of a timer is called where a call is outstanding, at the time it is
due, and only so; the timer is armed while one is outstanding; and it makes no
difference whether callbacks fail.  What carries the proof is that a timer is as
what happened to it says, which each step of a chronicle keeps: a move, a call
with what the callback does, and the passing of time.
-/

namespace InlineCompletion
namespace Rehearsal
namespace Alone

/-!
# What a chronicle says of the timer
-/

/-- Whether something follows on what happened before: a call is outstanding and
due, and what comes where a call is outstanding comes in time for it. -/
structure Follows (first : Int) (before : List Moment) (m : Moment) : Prop where
  outstanding : m.what = .called → Outstanding first before m.time
  respects : ∀ due, Outstanding first before due → m.Respects due

structure Recorded (first : Int) (past : List Moment) (t : Alone) : Prop where
  interval : t.timer.interval = intervalBehind first past
  alarm : ∀ due, t.timer.alarm.map Alarm.due = some due ↔
    Outstanding first past due
  ahead : ∀ a ∈ t.timer.alarm, t.clock.now ≤ a.due
  reached : ∀ m ∈ past, m.time ≤ t.clock.now
  inOrder : past.Pairwise fun m n => m.time ≤ n.time
  follows :
      ∀ before m behind, past = before ++ m :: behind → Follows first before m
  calls : callTimes t.trace = (past.filter Moment.isCall).map Moment.time

namespace Recorded

variable {first : Int} {past : List Moment} {t t' : Alone}

theorem fresh (interval : Int) : Recorded interval [] (fresh interval) where
  interval := rfl
  alarm due := iff_of_false nofun (not_outstanding_nil interval due)
  ahead _ ha := nomatch ha
  reached _ hm := nomatch hm
  inOrder := .nil
  follows before _ _ h :=
    absurd h.symm (List.append_ne_nil_of_right_ne_nil before nofun)
  calls := rfl

theorem concat (h : Recorded first past t) {m : Moment}
    (hfollows : Follows first past m) (hlater : t.clock.now ≤ m.time)
    (hnow : t'.clock.now = m.time)
    (hinterval : t'.timer.interval = intervalBehind first (past ++ [m]))
    (halarm : ∀ due, t'.timer.alarm.map Alarm.due = some due ↔
    Outstanding first (past ++ [m]) due)
    (hahead : ∀ a ∈ t'.timer.alarm, m.time ≤ a.due)
    (hcalls : callTimes t'.trace =
      callTimes t.trace ++ ([m].filter Moment.isCall).map Moment.time) :
    Recorded first (past ++ [m]) t' where
  interval := hinterval
  alarm := halarm
  ahead a ha := hnow ▸ hahead a ha
  reached n hn := by
    rw [hnow]
    rcases List.mem_append.mp hn with hmem | hmem
    · exact Int.le_trans (h.reached n hmem) hlater
    · exact Int.le_of_eq (congrArg Moment.time (List.mem_singleton.mp hmem))
  inOrder := by
    rw [List.pairwise_append]
    refine ⟨h.inOrder, List.pairwise_singleton _ _, ?_⟩
    intro n hn n' hn'
    rw [List.mem_singleton.mp hn']
    exact Int.le_trans (h.reached n hn) hlater
  follows before n behind heq := by
    rcases List.eq_nil_or_concat behind with hnil | ⟨behind', last, hlast⟩
    · rw [hnil] at heq
      rcases List.append_inj' heq rfl with ⟨hpast, hm⟩
      rw [← hpast, ← List.singleton_inj.mp hm]
      exact hfollows
    · rw [hlast, List.concat_eq_append, ← List.cons_append, ← List.append_assoc]
        at heq
      exact h.follows before n behind' (List.append_inj' heq rfl).1
  calls := by rw [hcalls, h.calls, List.filter_append, List.map_append]

theorem due_of_mem (h : Recorded first past t) {a : Alarm}
    (ha : a ∈ t.timer.alarm) {due : Int} :
    Outstanding first past due ↔ due = a.due := by
  rw [← h.alarm due, Option.mem_def.mp ha, Option.map_some, Option.some.injEq,
    eq_comm]

theorem isArmed_iff (h : Recorded first past t) :
    t.timer.isArmed = true ↔ ∃ due, Outstanding first past due := by
  unfold Timer.isArmed
  rw [← Option.isSome_map (f := Alarm.due), Option.isSome_iff_exists]
  exact exists_congr h.alarm

theorem now_le (h : Recorded first past t) {due : Int}
    (hdue : Outstanding first past due) :
    t.clock.now ≤ due := by
  rcases Option.map_eq_some_iff.mp ((h.alarm due).mpr hdue) with ⟨a, ha, hsame⟩
  exact hsame ▸ h.ahead a ha

theorem armed (h : Recorded first past t) {interval : Option Int}
    (hnow : t'.clock.now = t.clock.now) (htrace : t'.trace = t.trace)
    (hinterval : t'.timer.interval =
      intervalBehind first (past ++ [⟨t.clock.now, .armed interval⟩]))
    (halarm : t'.timer.alarm.map Alarm.due =
    some (t.clock.now + t'.timer.interval)) :
    Recorded first (past ++ [⟨t.clock.now, .armed interval⟩]) t' := by
  refine h.concat ⟨nofun, fun _ hdue => h.now_le hdue⟩ (Int.le_refl _) hnow
    hinterval ?_ ?_ ?_
  · intro due
    rw [halarm, hinterval, outstanding_concat, Option.some.injEq]
    constructor
    · exact fun hdue => Or.inl ⟨interval, rfl, hdue.symm⟩
    · rintro (⟨_, _, hdue⟩ | ⟨hwhat, _⟩)
      · exact hdue.symm
      · cases hwhat
  · intro a ha
    rw [Option.mem_def.mp ha, Option.map_some, Option.some.injEq, hinterval]
      at halarm
    have hnonneg :=
      intervalBehind_nonneg first (past ++ [⟨t.clock.now, .armed interval⟩])
    show t.clock.now ≤ a.due
    omega
  · rw [htrace]
    exact (List.append_nil _).symm

theorem disarmed (h : Recorded first past t) {m : Moment}
    (hm : m.what = .cancelled ∨ m.what = .called)
    (hfollows : Follows first past m) (hlater : t.clock.now ≤ m.time)
    (hnow : t'.clock.now = m.time)
    (hinterval : t'.timer.interval = t.timer.interval)
    (halarm : t'.timer.alarm = none) (hcalls : callTimes t'.trace =
      callTimes t.trace ++ ([m].filter Moment.isCall).map Moment.time) :
    Recorded first (past ++ [m]) t' := by
  refine h.concat hfollows hlater hnow ?_ ?_ ?_ hcalls
  · rw [hinterval, h.interval, intervalBehind_of_none]
    unfold Moment.interval?
    rcases hm with hwhat | hwhat
    · rw [hwhat]
    · rw [hwhat]
  · intro due
    rw [halarm]
    exact iff_of_false nofun (not_outstanding_concat hm)
  · intro a ha
    rw [halarm] at ha
    cases ha

theorem move (h : Recorded first past t) (m : Move) :
    Recorded first (past ++ m.moments t.clock.now) (t.move m) := by
  induction m generalizing past t with
  | nothing =>
      rw [Move.moments, List.append_nil]
      exact h
  | cancel =>
      exact h.disarmed (Or.inl rfl) ⟨nofun, fun _ hdue => h.now_le hdue⟩
        (Int.le_refl _) rfl rfl rfl (List.append_nil _).symm
  | arm =>
      exact h.armed rfl rfl (h.interval.trans (intervalBehind_of_none rfl).symm)
        rfl
  | armFor interval => exact h.armed rfl rfl (intervalBehind_given ..).symm rfl
  | andThen m next ihm ihnext =>
      have hboth := ihnext (ihm h)
      rw [move_now, List.append_assoc] at hboth
      exact hboth

/-! ## Calls and the passing of time -/

theorem atCall (h : Recorded first past t) {a : Alarm}
    (ha : a ∈ t.timer.alarm) :
    Recorded first (past ++ [⟨a.due, .called⟩]) (t.atCall a) := by
  refine h.disarmed (Or.inr rfl) ⟨?_, ?_⟩ (h.ahead a ha) rfl rfl rfl ?_
  · exact fun _ => (h.due_of_mem ha).mpr rfl
  · exact fun _ hdue => ((h.due_of_mem ha).mp hdue).symm
  · exact List.filterMap_append

theorem afterFault (h : Recorded first past t) (fault : Option Fault) :
    Recorded first past (t.afterFault fault) := by
  cases fault with
  | none => exact h
  | some f =>
      refine ⟨h.interval, h.alarm, h.ahead, h.reached, h.inOrder, h.follows, ?_⟩
      rw [← h.calls]
      exact List.filterMap_append.trans (List.append_nil _)

theorem ring (h : Recorded first past t) (react : Nat → Reaction) {a : Alarm}
    (ha : a ∈ t.timer.alarm) :
    Recorded first (past ++ note react t (t.ring react () a))
      (t.ring react () a) := by
  have hmoved := ((h.atCall ha).move (react (t.calls + 1)).move).afterFault
    (react (t.calls + 1)).fault
  unfold note
  rw [ring_now, ← List.append_assoc]
  exact hmoved

theorem waited (h : Recorded first past t) {time : Int}
    (hlater : t.clock.now ≤ time) (hdue : ∀ a ∈ t.timer.alarm, time < a.due) :
    Recorded first (past ++ [⟨time, .waited⟩])
      { t with clock := { t.clock with now := time } } := by
  refine h.concat ⟨nofun, ?_⟩ hlater rfl
    (h.interval.trans (intervalBehind_of_none rfl).symm) ?_
      (fun a ha => Int.le_of_lt (hdue a ha)) (List.append_nil _).symm
  · intro due hout
    rcases Option.map_eq_some_iff.mp ((h.alarm due).mpr hout) with
      ⟨a, ha, hsame⟩
    exact hsame ▸ hdue a ha
  · intro due
    rw [outstanding_concat, ← h.alarm due]
    constructor
    · exact fun hset => Or.inr ⟨rfl, hset⟩
    · rintro (⟨_, hwhat, _⟩ | ⟨_, hset⟩)
      · cases hwhat
      · exact hset

theorem rung (h : Recorded first past t) (react : Nat → Reaction)
    (milliseconds most : Nat) :
    Recorded first (past ++ t.told react milliseconds most)
      (t.rung react milliseconds most) ∧
      (t.rung react milliseconds most).clock.now ≤
        t.clock.now + milliseconds := by
  have hkeeps : ∀ t' past' (key : Unit) (a : Alarm),
      (Recorded first past' t' ∧ t'.clock.now ≤ t.clock.now + milliseconds) →
      (key, a) ∈ t'.alarms → a.due ≤ t.clock.now + milliseconds →
      Recorded first (past' ++ note react t' (t'.ring react key a))
        (t'.ring react key a) ∧
        (t'.ring react key a).clock.now ≤ t.clock.now + milliseconds := by
    intro t' past' key a hrec hset hdue
    refine ⟨hrec.1.ring react (mem_alarms.mp hset), ?_⟩
    rw [ring_now]
    exact hdue
  have hstart : Recorded first past { t with calls := 0 } ∧
      t.clock.now ≤ t.clock.now + milliseconds := ⟨{ h with }, by omega⟩
  exact Alarm.ring_record (note react) hkeeps most hstart

theorem perform (h : Recorded first past t) {d : Doing} (hd : t.Ends d) :
    Recorded first (past ++ t.written d) (t.perform d) := by
  cases d with
  | move m => exact h.move m
  | pass milliseconds react most =>
      rcases h.rung react milliseconds most with ⟨hrung, hnow⟩
      have hwaited := hrung.waited hnow (later_of_ends hd)
      rw [List.append_assoc] at hwaited
      exact hwaited

theorem of_chronicle {interval : Int} (h : Chronicle Ends interval past t) :
    Recorded interval past t := by
  induction h with
  | start => exact fresh interval
  | step h hd ih => exact ih.perform hd

end Recorded
end Alone

/-!
# Callbacks that fail
-/

def Reaction.calm (r : Reaction) : Reaction := { r with fault := none }

def Doing.calm : Doing → Doing
  | .move m => .move m
  | .pass milliseconds react most =>
      .pass milliseconds (fun n => (react n).calm) most

def Doing.Calm : Doing → Prop
  | .move _ => True
  | .pass _ react _ => ∀ n, (react n).fault = none

theorem Doing.calm_calm (d : Doing) : d.calm.Calm := by
  cases d with
  | move m => trivial
  | pass milliseconds react most => exact fun _ => rfl

namespace Alone

def Alike (t t' : Alone) : Prop := ∃ es, t' = { t with trace := es }

theorem move_withTrace (m : Move) (t : Alone) (es : List Event) :
    ({ t with trace := es } : Alone).move m =
    { t.move m with trace := es } := by
  induction m generalizing t with
  | andThen m next ihm ihnext =>
      show ((({ t with trace := es } : Alone).move m).move next) = _
      rw [ihm, ihnext]
      rfl
  | _ => rfl

theorem afterFault_alike (fault : Option Fault) (t : Alone) :
    Alike (t.afterFault fault) t := by
  cases fault with
  | none => exact ⟨_, rfl⟩
  | some f => exact ⟨t.trace, rfl⟩

namespace Alike

variable {t t' t₂ : Alone}

theorem trans (h : Alike t t') (h' : Alike t' t₂) : Alike t t₂ := by
  rcases h with ⟨es, rfl⟩
  rcases h' with ⟨es', rfl⟩
  exact ⟨es', rfl⟩

theorem move (h : Alike t t') (m : Move) : Alike (t.move m) (t'.move m) := by
  rcases h with ⟨es, rfl⟩
  exact ⟨es, move_withTrace m t es⟩

theorem ring (h : Alike t t') (react : Nat → Reaction) (a : Alarm) :
    Alike (t.ring react () a) (t'.ring (fun n => (react n).calm) () a) := by
  rcases h with ⟨es, rfl⟩
  have hcall : Alike (t.atCall a) (({ t with trace := es } : Alone).atCall a) :=
    ⟨_, rfl⟩
  exact (afterFault_alike _ _).trans (hcall.move (react (t.calls + 1)).move)

theorem note (h : Alike t t') (react : Nat → Reaction) (a : Alarm) :
    t'.note (fun n => (react n).calm) (t'.ring (fun n => (react n).calm) () a) =
      t.note react (t.ring react () a) := by
  rcases h with ⟨es, rfl⟩
  unfold Alone.note
  rw [ring_now, ring_now]
  rfl

theorem rung (h : Alike t t') (react : Nat → Reaction)
    (milliseconds most : Nat) :
    Alike (t.rung react milliseconds most)
        (t'.rung (fun n => (react n).calm) milliseconds most) ∧
      t'.told (fun n => (react n).calm) milliseconds most =
        t.told react milliseconds most := by
  rcases h with ⟨es, rfl⟩
  refine Alarm.ring_alike ?_ ?_ (t.clock.now + milliseconds) most ⟨es, rfl⟩
  · rintro t t' ⟨es, rfl⟩
    rfl
  · exact fun t t' _ a halike => ⟨halike.ring react a, halike.note react a⟩

theorem perform (h : Alike t t') {d : Doing} (hd : t.Ends d) :
    Alike (t.perform d) (t'.perform d.calm) ∧ t'.written d.calm = t.written d ∧
      t'.Ends d.calm := by
  cases d with
  | move m =>
      refine ⟨h.move m, ?_, trivial⟩
      rcases h with ⟨es, rfl⟩
      rfl
  | pass milliseconds react most =>
      rcases h.rung react milliseconds most with ⟨⟨es, hrung⟩, htold⟩
      rcases h.rung react milliseconds (most + 1) with ⟨⟨es', hmore⟩, _⟩
      rcases h with ⟨es₀, rfl⟩
      refine ⟨⟨es, ?_⟩, ?_, ?_⟩
      · exact congrArg (fun t' : Alone => { t' with
          clock := { t'.clock with now := t.clock.now + milliseconds } }) hrung
      · exact congrArg (· ++ [⟨t.clock.now + milliseconds, .waited⟩]) htold
      · exact ((congrArg Alone.calls hmore).trans hd).trans
          (congrArg Alone.calls hrung).symm

end Alike

theorem Chronicle.calm {interval : Int} {past : List Moment} {t : Alone}
    (h : Chronicle Ends interval past t) :
    ∃ t', Chronicle (fun t d => t.Ends d ∧ d.Calm) interval past t' ∧
      Alike t t' := by
  induction h with
  | start => exact ⟨_, .start, [], rfl⟩
  | @step past t d h hd ih =>
      rcases ih with ⟨t', hcalm, halike⟩
      rcases halike.perform hd with ⟨hperform, hwritten, hends⟩
      refine ⟨t'.perform d.calm, ?_, hperform⟩
      rw [← hwritten]
      exact hcalm.step ⟨hends, d.calm_calm⟩

/-!
# When calls come
-/

/-- A call that is outstanding comes when time goes on to when it is due, unless
the timer is armed again before, or its alarm dropped. -/
theorem Recorded.call_comes {first : Int} {past : List Moment} {t : Alone}
    (h : Recorded first past t) {before behind : List Moment} {due : Int}
    (hpast : past = before ++ behind) (hout : Outstanding first before due)
    (hkept : superseded behind = false)
    (hwaited : ∃ m ∈ behind, m.what = .waited ∧ due ≤ m.time) :
    ∃ waits rest, behind = waits ++ ⟨due, .called⟩ :: rest ∧
      ∀ m ∈ waits, m.what = .waited := by
  induction behind generalizing before with
  | nil =>
      rcases hwaited with ⟨m, hm, _⟩
      cases hm
  | cons m behind ih =>
      have hrespects := (h.follows before m behind hpast).respects due hout
      cases m with
      | mk time what =>
          cases what with
          | armed interval => cases hkept
          | cancelled => cases hkept
          | called =>
              have htime : time = due := hrespects
              exact ⟨[], behind, by rw [htime, List.nil_append],
                fun n hn => nomatch hn⟩
          | waited =>
              have hearly : time < due := hrespects
              have hlater : ∃ n ∈ behind, n.what = .waited ∧ due ≤ n.time := by
                rcases hwaited with ⟨n, hn, hwhat, hdue⟩
                rcases List.mem_cons.mp hn with rfl | hmem
                · exact absurd hdue (Int.not_le.mpr hearly)
                · exact ⟨n, hmem, hwhat, hdue⟩
              rcases ih (hpast.trans (List.append_cons ..))
                (outstanding_concat.mpr (Or.inr ⟨rfl, hout⟩)) hkept hlater
                with ⟨waits, rest, hbehind, hwaits⟩
              refine ⟨⟨time, .waited⟩ :: waits, rest, congrArg _ hbehind, ?_⟩
              intro n hn
              rcases List.mem_cons.mp hn with rfl | hmem
              · rfl
              · exact hwaits n hmem

namespace Chronicle

variable {interval : Int} {past : List Moment} {t : Alone}

theorem mem_callTimes (h : Chronicle Ends interval past t) {time : Int} :
    time ∈ callTimes t.trace ↔
      ∃ before behind, past = before ++ ⟨time, .called⟩ :: behind := by
  rw [(Recorded.of_chronicle h).calls, List.mem_map]
  constructor
  · rintro ⟨m, hm, rfl⟩
    rcases List.mem_filter.mp hm with ⟨hmem, hcall⟩
    have hwhat : m.what = .called := eq_of_beq hcall
    cases m with
    | mk time what =>
        cases hwhat
        exact List.append_of_mem hmem
  · rintro ⟨before, behind, rfl⟩
    exact ⟨_,
      List.mem_filter.mpr ⟨List.mem_append_right _ List.mem_cons_self, rfl⟩,
      rfl⟩

theorem ripens_of_call (h : Chronicle Ends interval past t)
    {before behind : List Moment} {time : Int}
    (hpast : past = before ++ ⟨time, .called⟩ :: behind) :
    ∃ before start given behind, past =
      before ++ ⟨start, .armed given⟩ :: behind ∧
      Ripens interval before start given behind time := by
  have hrec := Recorded.of_chronicle h
  rcases (hrec.follows before _ behind hpast).outstanding rfl
    with ⟨before', start, given, waits, hbefore, hwaits, hdue⟩
  refine ⟨before', start, given, waits ++ ⟨time, .called⟩ ::
    behind, ?_, hdue, ?_, ?_⟩
  · rw [hpast, hbefore, List.append_assoc, List.cons_append]
  · exact superseded_waits hwaits
  · rcases h.waited_behind hpast with ⟨m, hm, hwaited⟩
    have hlater : time ≤ m.time := by
      have hordered := hrec.inOrder
      rw [hpast] at hordered
      exact List.rel_of_pairwise_cons (List.pairwise_append.mp hordered).2.1 hm
    exact ⟨m, List.mem_append_right _ (List.mem_cons_of_mem _ hm), hwaited,
      hlater⟩

theorem call_of_ripens (h : Chronicle Ends interval past t)
    {before behind : List Moment} {start due : Int} {given : Option Int}
    (hpast : past = before ++ ⟨start, .armed given⟩ :: behind)
    (hripe : Ripens interval before start given behind due) :
    ∃ waits rest, behind = waits ++ ⟨due, .called⟩ :: rest ∧
      ∀ m ∈ waits, m.what = .waited := by
  refine (Recorded.of_chronicle h).call_comes
    (hpast.trans (List.append_cons ..)) ?_ hripe.kept hripe.reached
  rw [hripe.due_eq]
  exact outstanding_armed ..

end Chronicle

/-- Whatever is done with a timer and whatever its callback does, the callback
is called at the times at which a call has come to be due of arming the timer,
once for each, and the timer was armed between any two calls.  It is armed while
a call is outstanding, also as its callback sees it, and its alarm is set to
when the call is due.  What happens and what becomes of the timer is as if no
callback failed. -/
theorem called_when_due {interval : Int} {past : List Moment} {t : Alone}
    (h : Chronicle Ends interval past t) :
    callTimes t.trace = (past.filter Moment.isCall).map Moment.time ∧
      (∀ time, time ∈ callTimes t.trace ↔
        ∃ before start given behind, past =
          before ++ ⟨start, .armed given⟩ :: behind ∧
          Ripens interval before start given behind time) ∧
      (∀ before start given behind due, past =
        before ++ ⟨start, .armed given⟩ :: behind →
        Ripens interval before start given behind due →
        ∃ waits rest, behind = waits ++ ⟨due, .called⟩ :: rest ∧
          ∀ m ∈ waits, m.what = .waited) ∧
      (∀ before time between time' behind,
        past = before ++ ⟨time, .called⟩ ::
        (between ++ ⟨time', .called⟩ :: behind) →
        ∃ m ∈ between, ∃ given, m.what = .armed given) ∧
      (∀ due, t.timer.alarm.map Alarm.due = some due ↔
        Outstanding interval past due) ∧
      (t.timer.isArmed = true ↔ ∃ due, Outstanding interval past due) ∧
      (∀ react milliseconds most a m,
        ((), a) ∈ (t.rung react milliseconds most).alarms →
        ((((t.rung react milliseconds most).atCall a).move m).timer.isArmed =
          true ↔
          ∃ due, Outstanding interval
            (past ++ t.told react milliseconds most ++ ⟨a.due, .called⟩ ::
              m.moments a.due) due)) ∧
      ∃ t', Chronicle (fun t d => t.Ends d ∧ d.Calm) interval past t' ∧
        t'.timer = t.timer ∧ t'.clock = t.clock := by
  have hrec := Recorded.of_chronicle h
  refine ⟨hrec.calls, ?_, ?_, ?_, hrec.alarm, hrec.isArmed_iff, ?_, ?_⟩
  · intro time
    rw [h.mem_callTimes]
    constructor
    · rintro ⟨before, behind, hpast⟩
      exact h.ripens_of_call hpast
    · rintro ⟨before, start, given, behind, hpast, hripe⟩
      rcases h.call_of_ripens hpast hripe with ⟨waits, rest, hbehind, _⟩
      refine ⟨before ++ ⟨start, .armed given⟩ :: waits, rest, ?_⟩
      rw [hpast, hbehind, List.append_assoc, List.cons_append]
  · intro before start given behind due hpast hripe
    exact h.call_of_ripens hpast hripe
  · intro before time between time' behind hpast
    rw [← List.cons_append, ← List.append_assoc] at hpast
    exact armed_behind_call ((hrec.follows _ _ behind hpast).outstanding rfl)
  · intro react milliseconds most a m ha
    have hinside :=
      ((hrec.rung react milliseconds most).1.atCall (mem_alarms.mp ha)).move m
    rw [List.append_assoc _ [_]] at hinside
    exact hinside.isArmed_iff
  · rcases h.calm with ⟨t', hcalm, es, rfl⟩
    exact ⟨_, hcalm, rfl, rfl⟩

/-- A callback that arms the timer and fails where it is called first, and does
nothing then. -/
def fitful (n : Nat) : Reaction :=
  if n = 1 then ⟨.armFor (-3), some (.raised "callback failed")⟩ else
    ⟨.nothing, none⟩

/-- A timer is armed with an interval of its own, and again before it calls.
Its callback arms it at once and fails, and is called again at the same time;
what is armed for then is dropped and armed for anew. -/
theorem called_when_due_at_once : ∃ past t, Chronicle Ends 300 past t ∧
    callTimes t.trace = [70, 70, 120, 120] ∧ Outstanding 300 past 125 ∧
    ∃ t', Chronicle (fun t d => t.Ends d ∧ d.Calm) 300 past t' ∧
      t'.timer = t.timer := by
  have harmed :=
    (Chronicle.start : Chronicle Ends 300 [] _).step (d := .move (.armFor 50))
    trivial
  have hagain :=
    (harmed.step (d := .pass 20 fitful 0) rfl).step (d := .move .arm) trivial
  have hcalled := hagain.step (d := .pass 80 fitful 2) rfl
  have hdropped := hcalled.step
    (d := .move (.andThen (.armFor 20) (.andThen .cancel .arm))) trivial
  have hlast :=
    (hdropped.step (d := .pass 20 fitful 2) rfl).step (d := .move (.armFor 5))
    trivial
  rcases called_when_due hlast with
    ⟨_, _, _, _, hdue, _, _, t', hcalm, htimer, _⟩
  exact ⟨_, _, hlast, rfl, (hdue 125).mp rfl, t', hcalm, htimer⟩

end Alone
end Rehearsal
end InlineCompletion

