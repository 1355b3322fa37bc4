import InlineCompletion.Proofs.Document.Mirror

/-!
# Questions to the agent

A question is a completion request that the agent took, with the text that the
agent held by then.  An accounted link keeps what waits for an answer, so that
each answer is given at most once.  The main statements are that the last
question is read off what was seen, and that nothing but a taken completion
request changes it.
-/

namespace InlineCompletion

structure Question where
  id : Nat
  position : Position
  kind : TriggerKind
  /-- The text that the agent held of the document. -/
  held : Option Text
  deriving DecidableEq, Repr

/-- The question about a document that an event is, for an agent that holds a
text. -/
def Event.question? (uri : Text) (held : Option Text) : Event → Option Question
  | .sent (.request id (.completion u position kind)) =>
      if u = uri then some ⟨id, position, kind, held⟩ else none
  | _ => none

/-- What the agent holds of a document, and the last question about it, behind
an event. -/
def Event.accounted (uri : Text) (s : Option Text × Option Question)
    (e : Event) :
    Option Text × Option Question :=
  (e.mirrored uri s.1, (e.question? uri s.1).or s.2)

def lastQuestion (uri : Text) (es : List Event) : Option Question :=
  (es.foldl (Event.accounted uri) (none, none)).2

theorem foldl_accounted_fst (uri : Text) (es : List Event)
    (s : Option Text × Option Question) :
    (es.foldl (Event.accounted uri) s).1 = es.foldl
    (Event.mirrored uri) s.1 := by
  induction es generalizing s with
  | nil => rfl
  | cons e rest ih => exact ih (e.accounted uri s)

theorem lastQuestion_concat (uri : Text) (es : List Event) (e : Event) :
    lastQuestion uri (es ++ [e]) =
      (e.question? uri (mirror uri es)).or (lastQuestion uri es) := by
  unfold lastQuestion mirror
  rw [List.foldl_append, List.foldl_cons, List.foldl_nil]
  show
    (e.question? uri (es.foldl (Event.accounted uri) (none, none)).1).or _ = _
  rw [foldl_accounted_fst]

theorem lastQuestion_completion (uri : Text) (id : Nat) (position : Position)
    (kind : TriggerKind) (es : List Event) :
    lastQuestion uri
      (es ++ [.sent (.request id (.completion uri position kind))]) =
        some ⟨id, position, kind, mirror uri es⟩ := by
  rw [lastQuestion_concat]
  simp [Event.question?]

theorem lastQuestion_append {uri : Text} {more : List Event}
    (hmore : ∀ e ∈ more, ∀ held, e.question? uri held = none)
    (es : List Event) :
    lastQuestion uri (es ++ more) = lastQuestion uri es := by
  induction more generalizing es with
  | nil => rw [List.append_nil]
  | cons e rest ih =>
      have hrest :=
        ih (fun d hd => hmore d (List.mem_cons_of_mem e hd)) (es ++ [e])
      rw [List.append_assoc] at hrest
      show lastQuestion uri (es ++ ([e] ++ rest)) = _
      rw [hrest, lastQuestion_concat, hmore e List.mem_cons_self,
        Option.none_or]

theorem lastQuestion_quietly {es es' : List Event} (uri : Text)
    (h : Quietly es es') :
    lastQuestion uri es' = lastQuestion uri es := by
  rcases h with ⟨more, heq, hmore⟩
  rw [heq]
  apply lastQuestion_append
  intro e he held
  cases e with
  | sent m => exact absurd (hmore _ he) Bool.false_ne_true
  | _ => rfl

/-!
# A link that keeps account
-/

/-- A link, and what waits for answers of it. -/
structure Accounted (τ : Type) where
  link : τ
  owed : List Waiting

namespace Accounted

variable {τ : Type}

def owing (waiting : Option Waiting) : Except Refusal Receipt → List Waiting
  | .ok ⟨_, none⟩ => waiting.toList
  | _ => []

instance [Link τ] : Link (Accounted τ) where
  connected a := Link.connected a.link
  notify n a :=
    ((Link.notify n a.link).1, { a with link := (Link.notify n a.link).2 })
  request q waiting a :=
    ((Link.request q waiting a.link).1,
      { link := (Link.request q waiting a.link).2
        owed := a.owed ++ owing waiting (Link.request q waiting a.link).1 })

theorem notify_owed [Link τ] {n : Notification} {a a' : Accounted τ}
    {r : Option Refusal} (h : Link.notify n a = (r, a')) :
    a'.owed = a.owed := by
  cases h
  rfl

theorem request_owed [Link τ] {q : Request} {waiting : Option Waiting}
    {a a' : Accounted τ} {r : Except Refusal Receipt}
    (h : Link.request q waiting a = (r, a')) :
    a'.owed = a.owed ++ owing waiting r := by
  cases h
  rfl

end Accounted

theorem Sync.Closing.owed {τ : Type} [Link τ] {s s' : Sync}
    {env env' : Env (Accounted τ)} (h : Sync.Closing s env (s', env')) :
    env'.link.owed = env.link.owed := by
  cases h with
  | unsaid _ => rfl
  | refused _ _ hlink => exact Accounted.notify_owed hlink
  | taken _ _ hlink => exact Accounted.notify_owed hlink

end InlineCompletion
