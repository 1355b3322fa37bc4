import InlineCompletion.Agent.Scripted
import InlineCompletion.Proofs.Document.Outcome
import InlineCompletion.Workspace.Rehearsal

/-!
# The ledger of a copy

A ledger keeps, in their order, the changes that were recorded for a copy, what
the agent took of it, and its closings.  A ledger is *balanced* if the changes
that were told since the copy was last opened or closed, and those that are
pending behind them, are the changes recorded since then.  The main statement is
that every ledger is balanced and its versions are consecutive, whatever the
link takes or refuses, and that nothing of a copy changes where it could not be
opened or brought up to date.
-/

namespace InlineCompletion

/-- The notification that an event hands to the agent. -/
def Event.taken? : Event → Option Notification
  | .sent (.notification n) => some n
  | _ => none

theorem Quietly.taken {es es' : List Event} (h : Quietly es es') :
    es'.filterMap Event.taken? = es.filterMap Event.taken? := by
  rcases h with ⟨more, rfl, hmore⟩
  have hnone : more.filterMap Event.taken? = [] := by
    rw [List.filterMap_eq_nil_iff]
    intro e he
    have hquiet := hmore e he
    unfold Event.isQuiet at hquiet
    unfold Event.taken?
    split at hquiet <;> simp_all
  rw [List.filterMap_append, hnone, List.append_nil]

def takenBetween (es es' : List Event) : List Notification :=
  (es'.drop es.length).filterMap Event.taken?

theorem takenBetween_append (es more : List Event) :
    takenBetween es (es ++ more) = more.filterMap Event.taken? := by
  unfold takenBetween
  rw [List.drop_left]

theorem takenBetween_self (es : List Event) : takenBetween es es = [] := by
  unfold takenBetween
  rw [List.drop_length]
  rfl

theorem takenBetween_trans {es es' es'' : List Event} (h : es <+: es')
    (h' : es' <+: es'') :
    takenBetween es es'' = takenBetween es es' ++ takenBetween es' es'' := by
  rcases h with ⟨more, rfl⟩
  rcases h' with ⟨more', rfl⟩
  rw [takenBetween_append (es ++ more), takenBetween_append es more,
    List.append_assoc, takenBetween_append, List.filterMap_append]

/-- Whether a trace goes on from another without a notification that the agent
took. -/
structure Untold (es es' : List Event) : Prop where
  onward : es <+: es'
  nothing : takenBetween es es' = []

namespace Untold

theorem refl (es : List Event) : Untold es es :=
  ⟨List.prefix_refl es, takenBetween_self es⟩

theorem append (es : List Event) {more : List Event}
    (h : more.filterMap Event.taken? = []) :
    Untold es (es ++ more) :=
  ⟨List.prefix_append es more, (takenBetween_append es more).trans h⟩

theorem trans {es es' es'' : List Event} (h : Untold es es')
    (h' : Untold es' es'') :
    Untold es es'' where
  onward := h.onward.trans h'.onward
  nothing := by
    rw [takenBetween_trans h.onward h'.onward, h.nothing, h'.nothing]
    rfl

end Untold

namespace Sync

/-!
# Ledgers
-/

inductive Entry where
  | recorded (change : Change)
  | taken (n : Notification)
  | closed

namespace Entry

/-- Whether the account starts anew behind an entry: with an opening that was
taken, or a closing. -/
def renews : Entry → Bool
  | .taken (.didOpen ..) => true
  | .closed => true
  | _ => false

def change? : Entry → Option Change
  | .recorded c => some c
  | _ => none

def told : Entry → List Change
  | .taken (.didChange _ _ changes) => changes
  | _ => []

def isBatch : Entry → Bool
  | .taken (.didChange ..) => true
  | _ => false

/-- Whether an entry carries the version that it has to carry: a batch carries
the next one, and an opening the current one. -/
def Numbered (version : Nat) : Entry → Prop
  | .taken (.didOpen _ _ v _) => v = version
  | .taken (.didChange _ v _) => v = version + 1
  | _ => True

end Entry

abbrev Ledger := List Entry

namespace Ledger

/-- The entries since the copy was last opened or closed, behind one entry
more. -/
def behind (l : Ledger) (e : Entry) : Ledger :=
  if e.renews then [] else l ++ [e]

def current (l : Ledger) : Ledger := l.foldl behind []

def recorded (l : Ledger) : List Change := l.filterMap Entry.change?

def told (l : Ledger) : List Change := l.flatMap Entry.told

def version (l : Ledger) : Nat := l.countP Entry.isBatch

/-- Whether every entry carries the version that it has to carry. -/
def Consecutive (l : Ledger) : Prop :=
  ∀ (before : Ledger) e after, l = before ++ e :: after →
    e.Numbered before.version

theorem current_concat (l : Ledger) (e : Entry) :
    current (l ++ [e]) = l.current.behind e := by
  unfold current
  rw [List.foldl_append, List.foldl_cons, List.foldl_nil]

theorem current_renewed {e : Entry} (he : e.renews = true) (l : Ledger) :
    current (l ++ [e]) = [] := by
  rw [current_concat, behind, if_pos he]

theorem current_continued {e : Entry} (he : e.renews = false) (l : Ledger) :
    current (l ++ [e]) = l.current ++ [e] := by
  rw [current_concat, behind, he]
  rfl

theorem recorded_concat (l : Ledger) (e : Entry) :
    recorded (l ++ [e]) = l.recorded ++ e.change?.toList := by
  unfold recorded
  rw [List.filterMap_append]
  cases h : e.change? with
  | none => simp [h]
  | some c => simp [h]

theorem told_concat (l : Ledger) (e : Entry) :
    told (l ++ [e]) = l.told ++ e.told := by
  unfold told
  rw [List.flatMap_append, List.flatMap_singleton]

theorem version_concat (l : Ledger) (e : Entry) :
    version (l ++ [e]) = l.version + if e.isBatch then 1 else 0 := by
  unfold version
  rw [List.countP_append, List.countP_singleton]

theorem Consecutive.nil : Consecutive [] := by
  intro before e after heq
  cases before with
  | nil => cases heq
  | cons d rest => cases heq

theorem Consecutive.concat {l : Ledger} {e : Entry} (h : l.Consecutive)
    (he : e.Numbered l.version) : Consecutive (l ++ [e]) := by
  intro before d after heq
  rcases split_concat heq with ⟨hl, hlast, _⟩ | ⟨rest, _, hl⟩
  · rw [← hl, ← hlast]
    exact he
  · exact h before d rest hl

end Ledger

/-!
# Balanced ledgers
-/

structure Same (s s' : Sync) : Prop where
  uri : s'.uri = s.uri
  version : s'.version = s.version
  opened : s'.opened = s.opened
  pending : s'.pending = s.pending

namespace Same

theorem refl (s : Sync) : Same s s := ⟨rfl, rfl, rfl, rfl⟩

end Same

/-- Whether a ledger accounts for a copy. -/
structure Balanced (l : Ledger) (s : Sync) : Prop where
  consecutive : l.Consecutive
  version : s.version = l.version
  balance : l.current.told ++ s.pending = l.current.recorded

namespace Balanced

variable {l : Ledger} {s s' : Sync}

theorem same (h : Balanced l s) (hsame : Same s s') : Balanced l s' where
  consecutive := h.consecutive
  version := hsame.version.trans h.version
  balance := by
    rw [hsame.pending]
    exact h.balance

/-- A ledger stays balanced behind an entry with which the account starts anew,
once nothing is pending. -/
theorem renewed (h : Balanced l s) {e : Entry} (he : e.renews = true)
    (hnumbered : e.Numbered l.version) (hbatch : e.isBatch = false)
    (hversion : s'.version = s.version) (hpending : s'.pending = []) :
    Balanced (l ++ [e]) s' where
  consecutive := h.consecutive.concat hnumbered
  version := by
    rw [Ledger.version_concat, hbatch, hversion]
    exact h.version
  balance := by
    rw [Ledger.current_renewed he, hpending]
    rfl

/-- A ledger stays balanced behind an entry that tells the first of what is
pending and records what comes behind the rest. -/
theorem continued (h : Balanced l s) {e : Entry} (he : e.renews = false)
    (hnumbered : e.Numbered l.version)
    (hversion : s'.version = s.version + if e.isBatch then 1 else 0)
    (hpending : e.told ++ s'.pending = s.pending ++ e.change?.toList) :
    Balanced (l ++ [e]) s' where
  consecutive := h.consecutive.concat hnumbered
  version := by
    rw [Ledger.version_concat, hversion, h.version]
  balance := by
    rw [Ledger.current_continued he, Ledger.told_concat, Ledger.recorded_concat,
      List.append_assoc, hpending, ← List.append_assoc, h.balance]

end Balanced

/-!
# What the agent is told
-/

/-- What telling the agent of a copy can come to: it takes nothing, an opening
with all of the text, or the batch that is pending. -/
inductive Telling (s : Sync) : List Notification → Sync → Prop where
  | nothing {s' : Sync} (h : Same s s') : Telling s [] s'
  | opening {s' : Sync} (language : String) (text : Text)
      (h : Same { s with pending := [], opened := true } s') :
      Telling s [.didOpen s.uri language s.version text] s'
  | batch {s' : Sync}
      (h : Same { s with version := s.version + 1, pending := [] } s') :
      Telling s [.didChange s.uri (s.version + 1) s.pending] s'

namespace Telling

variable {s s' : Sync} {ns : List Notification}

theorem balanced (h : Telling s ns s') {l : Ledger} (hl : Balanced l s) :
    Balanced (l ++ ns.map .taken) s' := by
  cases h with
  | nothing h =>
      rw [List.map_nil, List.append_nil]
      exact hl.same h
  | opening language text h =>
      exact hl.renewed rfl hl.version rfl h.version h.pending
  | batch h =>
      refine hl.continued rfl (congrArg (· + 1) hl.version) h.version ?_
      rw [h.pending]
      rfl

end Telling

variable {τ : Type}

/-- Whether an attempt to tell the agent of a copy tells of it, and changes
nothing if it fails. -/
structure Attempt (s : Sync) (es : List Event) (r : Bool × Sync × Env τ) :
    Prop where
  onward : es <+: r.2.2.trace
  telling : Telling s (takenBetween es r.2.2.trace) r.2.1
  failed (h : r.1 = false) : Same s r.2.1

namespace Attempt

variable {s s' s'' : Sync} {es es' : List Event} {env env' : Env τ} {ok : Bool}

theorem nothing (h : Untold es env.trace) (hsame : Same s s') :
    Attempt s es (ok, s', env) where
  onward := h.onward
  telling := by
    rw [h.nothing]
    exact .nothing hsame
  failed _ := hsame

theorem amid (h : Attempt s es' (ok, s', env)) (hbefore : Untold es es')
    (hafter : Untold env.trace env'.trace) : Attempt s es (ok, s', env') where
  onward := (hbefore.onward.trans h.onward).trans hafter.onward
  telling := by
    rw [takenBetween_trans hbefore.onward (h.onward.trans hafter.onward),
      takenBetween_trans h.onward hafter.onward, hbefore.nothing,
      hafter.nothing, List.append_nil]
    exact h.telling
  failed := h.failed

theorem unschedule {r : Bool × Sync × Env τ} (h : Attempt s.unschedule es r) :
    Attempt s es r where
  onward := h.onward
  telling := by
    have htelling := h.telling
    revert htelling
    generalize takenBetween es r.2.2.trace = ns
    intro htelling
    cases htelling with
    | nothing hsame =>
        exact .nothing ⟨hsame.uri, hsame.version, hsame.opened, hsame.pending⟩
    | opening language text hsame =>
        exact .opening language text
          ⟨hsame.uri, hsame.version, hsame.opened, hsame.pending⟩
    | batch hsame =>
        exact .batch ⟨hsame.uri, hsame.version, hsame.opened, hsame.pending⟩
  failed hfailed :=
    ⟨(h.failed hfailed).uri, (h.failed hfailed).version,
      (h.failed hfailed).opened, (h.failed hfailed).pending⟩

theorem balanced (h : Attempt s es (ok, s', env)) {l : Ledger}
    (hl : Balanced l s) :
    Balanced (l ++ [] ++ (takenBetween es env.trace).map .taken) s' := by
  rw [List.append_nil]
  exact h.telling.balanced hl

end Attempt

section Linked

variable [Link τ]

theorem announce_attempt (text : Text) (language : String) (s : Sync)
    (env : Env τ) :
    Attempt s env.trace (s.announce text language env) := by
  have hannounce := announcement text language s env
  revert hannounce
  generalize s.announce text language env = r
  intro hannounce
  have hsame : Same s s.unschedule := ⟨rfl, rfl, rfl, rfl⟩
  cases hannounce with
  | offline _ => exact .nothing (.refl _) hsame
  | refused _ _ => exact .nothing (.append _ rfl) hsame
  | taken _ _ =>
      refine ⟨List.prefix_append _ _, ?_, nofun⟩
      show Telling s (takenBetween env.trace (env.trace ++ _)) _
      rw [takenBetween_append]
      exact .opening language text ⟨rfl, rfl, rfl, rfl⟩

theorem deliver_attempt (s : Sync) (env : Env τ) :
    Attempt s env.trace (s.deliver env) := by
  have hdelivery := delivery s env
  revert hdelivery
  generalize s.deliver env = r
  intro hdelivery
  cases hdelivery with
  | nothing _ => exact .nothing (.refl _) (.refl s)
  | offline _ _ => exact .nothing (.append _ rfl) (.refl s)
  | refused _ _ _ => exact .nothing (.append _ rfl) (.refl s)
  | taken _ _ _ =>
      refine ⟨List.prefix_append _ _, ?_, nofun⟩
      show Telling s (takenBetween env.trace (env.trace ++ _)) _
      rw [takenBetween_append]
      exact .batch ⟨rfl, rfl, rfl, rfl⟩

theorem announce_opened {text : Text} {language : String} {s s' : Sync}
    {env env' : Env τ} (h : s.announce text language env = (true, s', env')) :
    s'.opened = true ∧ s'.pending = [] := by
  have hannounce := announcement text language s env
  rw [h] at hannounce
  cases hannounce with
  | taken _ _ => exact ⟨rfl, rfl⟩

theorem deliver_of_pending_eq_nil {s : Sync} (h : s.pending = [])
    (env : Env τ) :
    s.deliver env = (true, s, env) := by
  unfold deliver
  rw [h]
  rfl

/-!
# Opening again

Whoever is asked to open a copy again may decline, or announce a text.  The link
may have changed by then.
-/

inductive Retelling (s : Sync) (env : Env τ) : Bool × Sync × Env τ → Prop where
  | declined {env' : Env τ} (h : Untold env.trace env'.trace) :
      Retelling s env (false, s, env')
  | announced {text : Text} {language : String} {before after env' : Env τ}
      {ok : Bool} {s' : Sync} (hbefore : Untold env.trace before.trace)
      (h : s.announce text language before = (ok, s', after))
      (hafter : Untold after.trace env'.trace) : Retelling s env (ok, s', env')

/-- Whether a way to open a copy again does nothing but announce it. -/
def Retells (f : Reopening τ) : Prop := ∀ s env, Retelling s env (f s env)

theorem retells_reopening (d : Document) (text : Text) :
    Retells (Desk.reopening (τ := τ) d text) := by
  intro s env
  unfold Desk.reopening
  cases d.closed with
  | true => exact .declined (.refl _)
  | false =>
      cases h : s.announce text d.language env with
      | mk ok rest =>
          cases ok with
          | true => exact .announced (.refl _) h (.append _ rfl)
          | false => exact .announced (.refl _) h (.refl _)

theorem retells_announces (text : Text) (language : String) :
    ∀ f ∈ (Rehearsal.Hook.announces text language).reopening (τ := τ),
      Retells f := by
  intro f hf s env
  cases hf
  exact .announced (.append _ rfl) rfl (.refl _)

theorem flush_attempt {hook : Option (Reopening τ)}
    (hhook : ∀ f ∈ hook, Retells f) (s : Sync) (env : Env τ) :
    Attempt s env.trace (s.flush hook env) := by
  refine .unschedule ?_
  have hsilent : Attempt s.unschedule env.trace
      (false, s.unschedule, env.tell (.flushUnopened s.unschedule.uri)) :=
    .nothing (.append _ rfl) (.refl _)
  unfold Sync.flush
  dsimp only
  split
  · exact deliver_attempt _ _
  · unfold retry
    cases hook with
    | none => exact hsilent
    | some f =>
        dsimp only
        cases env.connected with
        | false => exact hsilent
        | true =>
            have hretelling := hhook f rfl s.unschedule env
            simp only [Bool.not_true, Bool.false_eq_true, if_false]
            revert hretelling
            generalize f s.unschedule env = r
            intro hretelling
            cases hretelling with
            | declined h => exact .nothing (h.trans (.append _ rfl)) (.refl _)
            | announced hbefore h hafter =>
                rename_i text language before after env' ok s'
                have hannounce :=
                  announce_attempt text language s.unschedule before
                rw [h] at hannounce
                cases ok with
                | false =>
                    exact hannounce.amid hbefore (hafter.trans (.append _ rfl))
                | true =>
                    rcases announce_opened h with ⟨hopened, hpending⟩
                    dsimp only
                    rw [hopened]
                    show Attempt _ _ (s'.deliver env')
                    rw [deliver_of_pending_eq_nil hpending]
                    exact hannounce.amid hbefore hafter

/-!
# Runs
-/

inductive Dealing (τ : Type) where
  | record (change : Change)
  | schedule
  | flush (hook : Option (Reopening τ))
  | alarm (hook : Option (Reopening τ)) (a : Alarm)
  | announce (text : Text) (language : String)
  | close
  /-- The surroundings change. -/
  | disturb (f : Env τ → Env τ)

namespace Dealing

/-- Whether something can happen: copies are opened again by announcing them,
and surroundings that change say nothing of a copy. -/
def Possible (env : Env τ) : Dealing τ → Prop
  | .flush hook => ∀ f ∈ hook, Retells f
  | .alarm hook _ => ∀ f ∈ hook, Retells f
  | .disturb f => Untold env.trace (f env).trace
  | _ => True

def noted : Dealing τ → Ledger
  | .record c => [.recorded c]
  | .close => [.closed]
  | _ => []

end Dealing

def undergo (s : Sync) (env : Env τ) : Dealing τ → Sync × Env τ
  | .record c => s.record c env
  | .schedule => s.schedule env
  | .flush hook => (s.flush hook env).2
  | .alarm hook a => (s.ring hook a env).2
  | .announce text language => (s.announce text language env).2
  | .close => s.close env
  | .disturb f => (s, f env)

def Ledger.noting (l : Ledger) (s : Sync) (env : Env τ) (d : Dealing τ) :
    Ledger :=
  l ++ d.noted ++ (takenBetween env.trace (s.undergo env d).2.trace).map .taken

/-- The copies that a run comes to, with their ledgers. -/
inductive Dealt (start : Sync) (env₀ : Env τ) :
    Ledger → Sync → Env τ → Prop where
  | start : Dealt start env₀ [] start env₀
  | step {l : Ledger} {s : Sync} {env : Env τ} {d : Dealing τ}
      (h : Dealt start env₀ l s env) (hd : d.Possible env) :
      Dealt start env₀ (l.noting s env d) (s.undergo env d).1
        (s.undergo env d).2

/-- A closing starts the account anew, and what the agent is told of it is no
change. -/
theorem close_balanced {l : Ledger} {s : Sync} (h : Balanced l s)
    (env : Env τ) :
    Balanced (l.noting s env .close) (s.close env).1 := by
  have hclosed (s' : Sync) (hversion : s'.version = s.version)
      (hpending : s'.pending = []) :
      Balanced (l ++ [.closed]) s' :=
        h.renewed rfl trivial rfl hversion hpending
  have huntold {env' : Env τ} (h : Untold env.trace env'.trace) {s' : Sync}
      (hversion : s'.version = s.version) (hpending : s'.pending = []) :
      Balanced
        (l ++ [.closed] ++ (takenBetween env.trace env'.trace).map .taken) s' := by
    rw [h.nothing, List.map_nil, List.append_nil]
    exact hclosed s' hversion hpending
  have hclosing := closing s env
  show Balanced
    (l ++ [.closed] ++
      (takenBetween env.trace (s.close env).2.trace).map .taken)
    (s.close env).1
  revert hclosing
  generalize s.close env = r
  intro hclosing
  cases hclosing with
  | unsaid _ => exact huntold (.refl _) rfl rfl
  | refused _ _ _ => exact huntold (.append _ rfl) rfl rfl
  | taken _ _ _ =>
      show Balanced (_ ++ (takenBetween env.trace (env.trace ++ _)).map _) _
      rw [takenBetween_append]
      have htold := hclosed { s with pending := [], opened := false } rfl rfl
      exact htold.continued rfl trivial rfl rfl

theorem Balanced.undergo {l : Ledger} {s : Sync} {env : Env τ} {d : Dealing τ}
    (h : Balanced l s) (hd : d.Possible env) :
    Balanced (l.noting s env d) (s.undergo env d).1 := by
  have hquiet {ns : Ledger} {s' : Sync} {es : List Event}
    (hes : Untold env.trace es)
    (hl : Balanced (l ++ ns) s') :
      Balanced (l ++ ns ++ (takenBetween env.trace es).map .taken) s' := by
    rw [hes.nothing, List.map_nil, List.append_nil]
    exact hl
  cases d with
  | record c => exact hquiet (.refl _) (h.continued rfl trivial rfl rfl)
  | schedule =>
      refine hquiet (.refl _) ?_
      show Balanced (l ++ []) _
      rw [List.append_nil]
      exact h.same ⟨rfl, rfl, rfl, rfl⟩
  | flush hook => exact (flush_attempt hd s env).balanced h
  | alarm hook a =>
      have hflushed := (flush_attempt hd s.unschedule
        ({ env with clock := { env.clock with now := a.due } }.emit
          (.fired a.due))).unschedule
      have hfired : Untold env.trace (env.trace ++ [.fired a.due]) :=
        .append _ rfl
      exact (hflushed.amid hfired (.refl _)).balanced h
  | announce text language =>
      exact (announce_attempt text language s env).balanced h
  | close => exact close_balanced h env
  | disturb f =>
      refine hquiet hd ?_
      show Balanced (l ++ []) s
      rw [List.append_nil]
      exact h

theorem balanced_fresh (uri : Text) (idle : Int) :
    Balanced [] (fresh uri idle) :=
  ⟨.nil, rfl, rfl⟩

theorem Dealt.balanced {uri : Text} {idle : Int} {env₀ env : Env τ} {l : Ledger}
    {s : Sync} (h : Dealt (fresh uri idle) env₀ l s env) : Balanced l s := by
  induction h with
  | start => exact balanced_fresh uri idle
  | step _ hd ih => exact ih.undergo hd

/-- Every batch that the agent takes carries the next version, and nothing else
changes it; every opening carries the current one; the batches since the last
opening or closing and what is pending are what was recorded since then, in its
order; and whoever fails to open the copy or to bring the agent up to date
leaves the copy as it was. -/
theorem changes_told_once {uri : Text} {idle : Int} {env₀ env : Env τ}
    {l : Ledger} {s : Sync} (h : Dealt (fresh uri idle) env₀ l s env) :
    l.Consecutive ∧ s.version = l.version ∧
      l.current.told ++ s.pending = l.current.recorded ∧
      (∀ hook, (∀ f ∈ hook, Retells f) → (s.flush hook env).1 = false →
        Same s (s.flush hook env).2.1) ∧
      ∀ text language, (s.announce text language env).1 = false →
        Same s (s.announce text language env).2.1 := by
  have hbalanced := h.balanced
  refine ⟨hbalanced.consecutive, hbalanced.version, hbalanced.balance, ?_, ?_⟩
  · intro hook hhook hfailed
    exact (flush_attempt hhook s env).failed hfailed
  · intro text language hfailed
    exact (announce_attempt text language s env).failed hfailed

def further (r : Ledger × Sync × Env τ) (d : Dealing τ) :
    Ledger × Sync × Env τ :=
  (r.1.noting r.2.1 r.2.2 d, r.2.1.undergo r.2.2 d)

theorem Dealt.foldl {start : Sync} {env₀ : Env τ} {ds : List (Dealing τ)}
    (hds : ∀ d ∈ ds, ∀ env, d.Possible env) {r : Ledger × Sync × Env τ}
    (h : Dealt start env₀ r.1 r.2.1 r.2.2) :
    Dealt start env₀ (ds.foldl further r).1 (ds.foldl further r).2.1
      (ds.foldl further r).2.2 := by
  induction ds generalizing r with
  | nil => exact h
  | cons d rest ih =>
      refine ih (fun d' hd' => hds d' (List.mem_cons_of_mem d hd'))
        (r := further r d) ?_
      exact .step h (hds d List.mem_cons_self r.2.2)

end Linked

def reached (takes : Bool) (env : Env Scripted) : Env Scripted :=
  { env with link :=
    { env.link with isConnected := true, failNotifications := !takes } }

def replacement (text : String) : Change := ⟨none, text.toList⟩

/-- A change is recorded while nobody is there; the agent comes, and the copy is
opened while it is brought up to date; of the next two changes the first is
refused once; a last one is refused. -/
def interruptions : List (Dealing Scripted) :=
  let hook := (Rehearsal.Hook.announces "a".toList "python").reopening
  [.record (replacement "a"), .flush hook, .disturb (reached true), .flush hook,
    .record (replacement "b"), .disturb (reached false), .flush hook,
    .record (replacement "c"), .disturb (reached true), .alarm hook ⟨150, 0⟩,
    .record (replacement "d"), .disturb (reached false)]

def interrupted : Ledger × Sync × Env Scripted :=
  interruptions.foldl further
    ([], fresh "file:///w/a.py".toList 150,
      .ofLink ⟨false, false, false, none, [], false⟩)

theorem changes_told_once_interrupted :
    interrupted.1.Consecutive ∧ interrupted.1.version = 1 ∧
      interrupted.1.told = [replacement "b", replacement "c"] ∧
      interrupted.1.current.told ++ [replacement "d"] =
        interrupted.1.current.recorded ∧
      (interrupted.2.1.flush none interrupted.2.2).1 = false ∧
      Same interrupted.2.1
        (interrupted.2.1.flush none interrupted.2.2).2.1 := by
  have hpossible : ∀ d ∈ interruptions, ∀ env, d.Possible env := by
    intro d hd env
    simp only [interruptions, List.mem_cons, List.not_mem_nil, or_false] at hd
    rcases hd with
      rfl | rfl | rfl | rfl | rfl | rfl | rfl | rfl | rfl | rfl | rfl | rfl
    all_goals first | trivial | exact retells_announces _ _ | exact .refl _
  have hdealt : Dealt _ _ interrupted.1 interrupted.2.1 interrupted.2.2 :=
    Dealt.foldl hpossible .start
  rcases changes_told_once hdealt with ⟨hconsecutive, _, hbalance, hflush, _⟩
  have hfailed : (interrupted.2.1.flush none interrupted.2.2).1 = false := by
    decide +kernel
  refine ⟨hconsecutive, by decide +kernel, by decide +kernel, ?_, hfailed,
    hflush none nofun hfailed⟩
  have hpending : interrupted.2.1.pending = [replacement "d"] := by
    decide +kernel
  rw [← hpending]
  exact hbalance

end Sync
end InlineCompletion
