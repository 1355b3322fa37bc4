import InlineCompletion.Agent.Link

/-!
# The agent's copy of a document

The agent holds a copy of each document that it was told to open.  Edits are
collected and sent in batches; each batch that the agent takes raises the
version by one, and one that it refuses stays for the next time.  Opening sends
the whole text, which covers the edits collected so far.  A copy that is not
open on the agent may be opened again when a batch is due, if somebody says how.
-/

namespace InlineCompletion

structure Sync where
  uri : Text
  version : Nat
  opened : Bool
  /-- The edits that the agent was not told yet, the oldest first. -/
  pending : List Change
  timer : Timer

namespace Sync

variable {τ : Type}

def fresh (uri : Text) (idle : Int) : Sync :=
  ⟨uri, 0, false, [], .ofInterval idle⟩

/-- How a copy may be opened again: whether that went well, and the state behind
it. -/
abbrev Reopening (τ : Type) := Sync → Env τ → Bool × Sync × Env τ

def schedule (s : Sync) (env : Env τ) : Sync × Env τ :=
  let (timer, clock) := s.timer.arm env.clock
  ({ s with timer := timer }, { env with clock := clock })

def record (change : Change) (s : Sync) (env : Env τ) : Sync × Env τ :=
  { s with pending := s.pending ++ [change] }.schedule env

def unschedule (s : Sync) : Sync := { s with timer := s.timer.cancel }

section Linked

variable [Link τ]

def announce (text : Text) (language : String) (s : Sync) (env : Env τ) :
    Bool × Sync × Env τ :=
  let s := s.unschedule
  if !env.connected then (false, s, env)
  else
    match env.notify (.didOpen s.uri language s.version text) with
    | (some r, env) => (false, s, env.tell (.openRefused s.uri r))
    | (none, env) => (true, { s with pending := [], opened := true }, env)

def deliver (s : Sync) (env : Env τ) : Bool × Sync × Env τ :=
  if s.pending.isEmpty then (true, s, env)
  else if !env.connected then (false, s, env.tell (.flushOffline s.uri))
  else
    match env.notify (.didChange s.uri (s.version + 1) s.pending) with
    | (some r, env) =>
        (false, s, env.tell (.flushRefused s.pending.length s.uri r))
    | (none, env) =>
        (true, { s with version := s.version + 1, pending := [] }, env)

def retry (reopen : Option (Reopening τ)) (s : Sync) (env : Env τ) :
    Bool × Sync × Env τ :=
  match reopen with
  | none => (false, s, env)
  | some f =>
      if !env.connected then (false, s, env)
      else
        let (ok, s, env) := f s env
        (ok && s.opened, s, env)

def flush (reopen : Option (Reopening τ)) (s : Sync) (env : Env τ) :
    Bool × Sync × Env τ :=
  let s := s.unschedule
  if s.opened then s.deliver env
  else
    match s.retry reopen env with
    | (true, s, env) => s.deliver env
    | (false, s, env) => (false, s, env.tell (.flushUnopened s.uri))

def ring (reopen : Option (Reopening τ)) (a : Alarm) (s : Sync) (env : Env τ) :
    Bool × Sync × Env τ :=
  let env :=
    { env with clock := { env.clock with now := a.due } }.emit (.fired a.due)
  s.unschedule.flush reopen env

def close (s : Sync) (env : Env τ) : Sync × Env τ :=
  let s := { s.unschedule with pending := [] }
  if s.opened && env.connected then
    match env.notify (.didClose s.uri) with
    | (some r, env) =>
        ({ s with opened := false }, env.tell (.closeRefused s.uri r))
    | (none, env) => ({ s with opened := false }, env)
  else ({ s with opened := false }, env)

end Linked
end Sync
end InlineCompletion
