import InlineCompletion.Proofs.Document.SyncFrame

/-!
# What a process of the agent heard

Each process of the agent has to be told of a document before anything else is
said about it, and not again before it was told that the document is closed.
What a process heard of a document is read off the events since the process was
started.  A message that is out of order is *astray* if it follows a message
about opening or closing that the process did not take.  The main statement is
that where every message is in order or astray, all messages are in order as
soon as none is astray.
-/

namespace InlineCompletion

/-- What the agent's process heard of a document. -/
structure Heard where
  /-- The program takes the agent for ready. -/
  announced : Bool
  /-- The process took the document's opening at least once. -/
  told : Bool
  /-- The process holds a copy of the document. -/
  holds : Bool
  /-- The process did not take an opening. -/
  openRefused : Bool
  /-- The process did not take the closing of the copy it holds. -/
  closeRefused : Bool
  deriving DecidableEq, Repr

namespace Heard

def nothing : Heard := ⟨false, false, false, false, false⟩

def behind (uri : Text) (h : Heard) : Event → Heard
  | .process (.started ..) => nothing
  | .notice (.agentReady _) => { h with announced := true }
  | .notice (.openRefused u _) =>
      if u = uri then { h with openRefused := true } else h
  | .notice (.closeRefused u _) =>
      if u = uri then { h with closeRefused := true } else h
  | .sent (.notification (.didOpen u ..)) =>
      if u = uri then
        { h with told := true, holds := true, closeRefused := false } else h
  | .sent (.notification (.didClose u)) =>
      if u = uri then { h with holds := false, closeRefused := false } else h
  | _ => h

end Heard

/-- What the last process that was started heard of a document. -/
def heard (uri : Text) (es : List Event) : Heard :=
  es.foldl (Heard.behind uri) .nothing

theorem heard_append (uri : Text) (es es' : List Event) :
    heard uri (es ++ es') = es'.foldl (Heard.behind uri) (heard uri es) := by
  unfold heard
  rw [List.foldl_append]

theorem heard_concat (uri : Text) (es : List Event) (e : Event) :
    heard uri (es ++ [e]) = (heard uri es).behind uri e := by
  rw [heard_append, List.foldl_cons, List.foldl_nil]

theorem heard_opened (uri : Text) (es : List Event) (language : String)
    (version : Nat) (text : Text) :
    heard uri
      (es ++ [.sent (.notification (.didOpen uri language version text))]) = {
        heard uri es with told := true, holds := true, closeRefused :=
          false } := by
  rw [heard_concat, Heard.behind, if_pos rfl]

theorem heard_closed (uri : Text) (es : List Event) :
    heard uri (es ++ [.sent (.notification (.didClose uri))]) =
      { heard uri es with holds := false, closeRefused := false } := by
  rw [heard_concat, Heard.behind, if_pos rfl]

theorem heard_other {uri uri' : Text} {m : Outgoing} (hm : m.uri? = some uri')
    (hne : uri ≠ uri') (es : List Event) :
    heard uri (es ++ [.sent m]) = heard uri es := by
  rw [heard_concat]
  cases m with
  | request id q => rfl
  | notification n =>
      cases n with
      | didOpen u language version text =>
          rw [Heard.behind,
            if_neg fun heq : u = uri => hne (heq ▸ Option.some.inj hm)]
      | didClose u =>
          rw [Heard.behind,
            if_neg fun heq : u = uri => hne (heq ▸ Option.some.inj hm)]
      | _ => rfl

theorem heard_openRefused (uri uri' : Text) (es : List Event) (method : String)
    (request : Bool) (r r' : Refusal) :
    heard uri
      (es ++ [.refused method request r, .notice (.openRefused uri' r')]) =
        if uri' = uri then { heard uri es with openRefused := true } else
          heard uri es := by
  rw [heard_append]
  rfl

theorem heard_closeRefused (uri uri' : Text) (es : List Event) (method : String)
    (request : Bool) (r r' : Refusal) :
    heard uri
      (es ++ [.refused method request r, .notice (.closeRefused uri' r')]) =
        if uri' = uri then { heard uri es with closeRefused := true } else
          heard uri es := by
  rw [heard_append]
  rfl

theorem Heard.behind_holds {uri : Text} {h : Heard}
    (hh : h.holds = true → h.told = true) (e : Event) :
    (h.behind uri e).holds = true → (h.behind uri e).told = true := by
  unfold behind
  split
  · exact fun hfalse => hfalse
  · exact hh
  · split
    · exact hh
    · exact hh
  · split
    · exact hh
    · exact hh
  · split
    · exact fun _ => rfl
    · exact hh
  · split
    · exact fun hfalse => absurd hfalse Bool.false_ne_true
    · exact hh
  · exact hh

/-- A process holds only what it was told of. -/
theorem heard_holds (uri : Text) (es : List Event) :
    (heard uri es).holds = true → (heard uri es).told = true := by
  have hfold (h : Heard) (hh : h.holds = true → h.told = true) :
      (es.foldl (Heard.behind uri) h).holds = true →
        (es.foldl (Heard.behind uri) h).told = true := by
    induction es generalizing h with
    | nil => exact hh
    | cons e rest ih => exact ih (h.behind uri e) (Heard.behind_holds hh e)
  exact hfold .nothing fun hfalse => hfalse

/-!
# Silent events

Events that say nothing about any document to the process.
-/

/-- Whether an event changes nothing that a process heard and is no message
about a document. -/
def Event.isSilent : Event → Bool
  | .sent m => m.uri?.isNone
  | e => e.isQuiet

theorem Event.isSilent_of_isQuiet {e : Event} (h : e.isQuiet = true) :
    e.isSilent = true := by
  cases e with
  | sent m => cases h
  | _ => exact h

theorem Heard.behind_silent (uri : Text) (h : Heard) {e : Event}
    (he : e.isSilent = true) :
    h.behind uri e = h := by
  unfold behind
  split
  · cases he
  · cases he
  · cases he
  · cases he
  · cases he
  · cases he
  · rfl

def Silently (es es' : List Event) : Prop :=
  ∃ more, es' = es ++ more ∧ ∀ e ∈ more, e.isSilent = true

theorem Quietly.silently {es es' : List Event} (h : Quietly es es') :
    Silently es es' := by
  rcases h with ⟨more, heq, hmore⟩
  exact ⟨more, heq, fun e he => Event.isSilent_of_isQuiet (hmore e he)⟩

namespace Silently

theorem refl (es : List Event) : Silently es es := (Quietly.refl es).silently

theorem trans {es es' es'' : List Event} (h : Silently es es')
    (h' : Silently es' es'') :
    Silently es es'' := by
  rcases h with ⟨more, heq, hmore⟩
  rcases h' with ⟨more', heq', hmore'⟩
  refine ⟨more ++ more', by rw [heq', heq, List.append_assoc], ?_⟩
  intro e he
  rcases List.mem_append.mp he with he | he
  · exact hmore e he
  · exact hmore' e he

theorem append (es : List Event) {more : List Event}
    (h : more.all Event.isSilent = true) :
    Silently es (es ++ more) :=
  ⟨more, rfl, List.all_eq_true.mp h⟩

theorem heard {es es' : List Event} (h : Silently es es') (uri : Text) :
    heard uri es' = heard uri es := by
  rcases h with ⟨more, heq, hmore⟩
  rw [heq]
  clear heq
  induction more generalizing es with
  | nil => rw [List.append_nil]
  | cons e rest ih =>
      have hrest : InlineCompletion.heard uri ((es ++ [e]) ++ rest) =
          InlineCompletion.heard uri (es ++ [e]) :=
        ih fun d hd => hmore d (List.mem_cons_of_mem e hd)
      rw [List.append_assoc] at hrest
      show InlineCompletion.heard uri (es ++ ([e] ++ rest)) = _
      rw [hrest, heard_concat,
        Heard.behind_silent uri _ (hmore e List.mem_cons_self)]

end Silently

/-!
# Order
-/

namespace Outgoing

def opens : Outgoing → Bool
  | .notification (.didOpen ..) => true
  | _ => false

/-- Whether a message is in order: a document is opened once, and spoken of
while it is open. -/
def InOrder (h : Heard) (m : Outgoing) : Prop := h.holds = !m.opens

/-- Whether a message follows one that the process should have taken and did
not: an opening that was refused or never tried, or a closing that was
refused. -/
def Astray (h : Heard) (m : Outgoing) : Prop :=
  if m.opens then h.holds = true ∧ h.closeRefused = true
  else h.told = false ∧ (h.announced = false ∨ h.openRefused = true)

instance (h : Heard) (m : Outgoing) : Decidable (m.InOrder h) :=
  inferInstanceAs (Decidable (_ = _))

instance (h : Heard) (m : Outgoing) : Decidable (m.Astray h) := by
  unfold Astray
  infer_instance

end Outgoing

/-- Whether every message about a document stands in a relation to what its
process heard of the document before. -/
def EachMessage (P : Heard → Outgoing → Prop) (es : List Event) : Prop :=
  ∀ before m after uri, es = before ++ .sent m :: after → m.uri? = some uri →
    P (heard uri before) m

def eachMessageBehind (P : Heard → Outgoing → Prop) [∀ h m, Decidable (P h m)]
    (before : List Event) : List Event → Bool
  | [] => true
  | e :: rest =>
      (match e with
        | .sent m =>
            match m.uri? with
            | some uri => decide (P (heard uri before) m)
            | none => true
        | _ => true) && eachMessageBehind P (before ++ [e]) rest

theorem eachMessageBehind_iff (P : Heard → Outgoing → Prop)
    [∀ h m, Decidable (P h m)] (before es : List Event) :
    eachMessageBehind P before es = true ↔
      ∀ mid m after uri, es = mid ++ .sent m :: after →
      m.uri? = some uri → P (heard uri (before ++ mid)) m := by
  induction es generalizing before with
  | nil =>
      constructor
      · intro _ mid m after uri heq
        cases mid with
        | nil => cases heq
        | cons e rest => cases heq
      · exact fun _ => rfl
  | cons e rest ih =>
      unfold eachMessageBehind
      rw [Bool.and_eq_true, ih]
      constructor
      · rintro ⟨hfirst, hrest⟩ mid m after uri heq huri
        cases mid with
        | nil =>
            cases heq
            dsimp only at hfirst
            rw [huri] at hfirst
            rw [List.append_nil]
            exact of_decide_eq_true hfirst
        | cons e' mid =>
            cases heq
            have hm := hrest mid m after uri rfl huri
            rwa [List.append_assoc] at hm
      · intro h
        constructor
        · split
          · next m =>
              split
              · next uri huri =>
                  have hm := h [] m rest uri rfl huri
                  rw [List.append_nil] at hm
                  exact decide_eq_true hm
              · rfl
          · rfl
        · intro mid m after uri heq huri
          have hm := h (e :: mid) m after uri (by rw [heq]; rfl) huri
          rwa [List.append_assoc]

instance (P : Heard → Outgoing → Prop) [∀ h m, Decidable (P h m)]
    (es : List Event) :
    Decidable (EachMessage P es) :=
  decidable_of_iff _ (eachMessageBehind_iff P [] es)

theorem EachMessage.concat {P : Heard → Outgoing → Prop} {es : List Event}
    {e : Event} (h : EachMessage P es)
    (he : ∀ m uri, e = .sent m → m.uri? = some uri → P (heard uri es) m) :
    EachMessage P (es ++ [e]) := by
  intro before m after uri heq huri
  rcases split_concat heq with ⟨hes, hlast, _⟩ | ⟨rest, _, hes⟩
  · rw [← hes]
    exact he m uri hlast huri
  · exact h before m rest uri hes huri

theorem EachMessage.silently {P : Heard → Outgoing → Prop} {es es' : List Event}
    (h : EachMessage P es) (hsilently : Silently es es') :
    EachMessage P es' := by
  rcases hsilently with ⟨more, heq, hmore⟩
  rw [heq]
  clear heq
  induction more generalizing es with
  | nil => rwa [List.append_nil]
  | cons e rest ih =>
      have hconcat : EachMessage P (es ++ [e]) := by
        apply h.concat
        intro m uri he huri
        have hsilent := hmore e List.mem_cons_self
        rw [he] at hsilent
        change m.uri?.isNone = true at hsilent
        rw [huri] at hsilent
        cases hsilent
      have hrest := ih hconcat fun d hd => hmore d (List.mem_cons_of_mem e hd)
      rwa [List.append_assoc] at hrest

theorem EachMessage.refused {P : Heard → Outgoing → Prop} {es : List Event}
    (h : EachMessage P es) (method : String) (request : Bool) (r : Refusal)
    (n : Notice) :
    EachMessage P (es ++ [.refused method request r, .notice n]) := by
  have hrefused : EachMessage P (es ++ [.refused method request r]) := by
    apply h.concat
    intro m uri he
    cases he
  have htold :
      EachMessage P (es ++ [.refused method request r] ++ [.notice n]) := by
    apply hrefused.concat
    intro m uri he
    cases he
  rwa [List.append_assoc] at htold

theorem EachMessage.say {P : Heard → Outgoing → Prop} {es : List Event}
    (h : EachMessage P es) {m : Outgoing} {uri : Text}
    (huri : m.uri? = some uri) (hm : P (heard uri es) m) :
    EachMessage P (es ++ [.sent m]) := by
  apply h.concat
  intro m' uri' heq huri'
  cases heq
  cases Option.some.inj (huri.symm.trans huri')
  exact hm

def Explained (es : List Event) : Prop :=
  EachMessage (fun h m => m.InOrder h ∨ m.Astray h) es

theorem Outgoing.not_astray_of_inOrder {uri : Text} {es : List Event}
    {m : Outgoing} (horder : m.InOrder (heard uri es)) :
    ¬ m.Astray (heard uri es) := by
  intro hastray
  unfold InOrder at horder
  unfold Astray at hastray
  cases hopens : m.opens with
  | true =>
      rw [hopens] at horder hastray
      exact absurd (horder.symm.trans hastray.1) Bool.false_ne_true
  | false =>
      rw [hopens] at horder hastray
      exact absurd (hastray.1.symm.trans (heard_holds uri es horder))
        Bool.false_ne_true

/-- Where every message is in order or astray, all are in order exactly if none
is astray. -/
theorem Explained.inOrder_iff {es : List Event} (h : Explained es) :
    EachMessage (fun h m => m.InOrder h) es ↔
      EachMessage (fun h m => ¬ m.Astray h) es := by
  constructor
  · intro horder before m after uri heq huri
    exact Outgoing.not_astray_of_inOrder (horder before m after uri heq huri)
  · intro hastray before m after uri heq huri
    rcases h before m after uri heq huri with horder | hstray
    · exact horder
    · exact absurd hstray (hastray before m after uri heq huri)

end InlineCompletion
