import InlineCompletion.Proofs.Agent.DeskSteps

/-!
# Requests and their answers

Each request that is sent has a number, and whoever waits for its answer waits
under that number.  An answer goes to what waits under the number that it names,
and whatever it went to no longer waits.  The main statements are what asking
comes to, and what answering comes to, each as a relation that goes on from step
to step.
-/

namespace InlineCompletion

/-!
# Numbers and answers that were seen
-/

def requestIds (es : List Event) : List Nat :=
  es.filterMap fun
    | .sent (.request id _) => some id
    | _ => none

def answers (es : List Event) : List (String × Json) :=
  es.filterMap fun
    | .answered label message => some (label, message)
    | _ => none

theorem requestIds_append (es es' : List Event) :
    requestIds (es ++ es') = requestIds es ++ requestIds es' :=
  List.filterMap_append

theorem answers_append (es es' : List Event) :
    answers (es ++ es') = answers es ++ answers es' := List.filterMap_append

/-- Whether an event is neither a request that was sent nor an answer that is
shown. -/
def Event.isUncounted : Event → Bool
  | .sent (.request ..) => false
  | .answered .. => false
  | _ => true

theorem requestIds_uncounted {more : List Event}
    (h : more.all Event.isUncounted = true) (es : List Event) :
    requestIds (es ++ more) = requestIds es := by
  have hnone : requestIds more = [] := by
    apply List.filterMap_eq_nil_iff.mpr
    intro e he
    have huncounted := List.all_eq_true.mp h e he
    split
    · cases huncounted
    · rfl
  rw [requestIds_append, hnone, List.append_nil]

theorem answers_uncounted {more : List Event}
    (h : more.all Event.isUncounted = true) (es : List Event) :
    answers (es ++ more) = answers es := by
  have hnone : answers more = [] := by
    apply List.filterMap_eq_nil_iff.mpr
    intro e he
    have huncounted := List.all_eq_true.mp h e he
    split
    · cases huncounted
    · rfl
  rw [answers_append, hnone, List.append_nil]

theorem Event.isUncounted_of_isPlain {e : Event} (h : e.isPlain = true) :
    e.isUncounted = true := by
  unfold isUncounted
  split
  · cases h
  · cases h
  · rfl

/-- An answer that goes to what waits for it, under the number that it waits
under. -/
structure Call where
  id : Nat
  waiting : Waiting
  message : Json

/-- Whether a message is the answer under a number: it is about no method, and
names the number. -/
def Call.Fits (c : Call) : Prop :=
  c.message.get? "method" = none ∧
    ∃ v, c.message.get? "id" = some v ∧ v.numeral? = some (c.id : Int)

def Call.shown? (c : Call) : Option (String × Json) :=
  match c.waiting with
  | .probe label _ => some (label, c.message)
  | _ => none

namespace Connection

/-!
# Single messages
-/

def waiter? (id : Json) (c : Connection) : Option (Nat × Waiting) :=
  id.numeral?.bind fun n => c.waiting.find? fun e => (e.1 : Int) == n

def call? (message : Json) (c : Connection) : Option Call :=
  match classify message with
  | .ok (.answer id) => (c.waiter? id).map fun e => ⟨e.1, e.2, message⟩
  | _ => none

theorem waiter?_eq_some {id : Json} {c : Connection} {e : Nat × Waiting}
    (h : c.waiter? id = some e) :
    e ∈ c.waiting ∧ id.numeral? = some (e.1 : Int) := by
  rcases Option.bind_eq_some_iff.mp h with ⟨n, hn, hfind⟩
  have hfound : ((e.1 : Int) == n) = true := by
    have hsome := List.find?_some hfind
    exact hsome
  rw [hn, beq_iff_eq.mp hfound]
  exact ⟨List.mem_of_find?_eq_some hfind, rfl⟩

theorem take_of_waiter? {id : Json} {c : Connection} {e : Nat × Waiting}
    (h : c.waiter? id = some e) :
    c.take id =
      .ok (some e.2, { c with waiting := without e.1 c.waiting }) := by
  rcases Option.bind_eq_some_iff.mp h with ⟨n, hn, hfind⟩
  unfold take
  split
  · cases hn
  · cases hn
  · rw [hn]
    dsimp only
    rw [hfind]

theorem take_of_waiter?_none {id : Json} {c : Connection}
    (h : c.waiter? id = none) {waiting : Waiting} {c' : Connection} :
    c.take id ≠ .ok (some waiting, c') := by
  intro htake
  unfold take at htake
  unfold waiter? at h
  split at htake
  · split at htake
    · cases htake
    · cases htake
  · split at htake
    · cases htake
    · cases htake
  · split at htake
    · cases htake
    · next n hn =>
        rw [hn, Option.bind_some] at h
        rw [h] at htake
        cases htake

theorem waiter?_of_take {id : Json} {c c' : Connection} {waiting : Waiting}
    (h : c.take id = .ok (some waiting, c')) :
    ∃ k, c.waiter? id = some (k, waiting) ∧
      c' = { c with waiting := without k c.waiting } := by
  cases hentry : c.waiter? id with
  | none => exact absurd h (take_of_waiter?_none hentry)
  | some e =>
      cases h.symm.trans (take_of_waiter? hentry)
      exact ⟨e.1, rfl, rfl⟩

theorem classify_answer {message id : Json}
    (h : classify message = .ok (.answer id)) :
    message.get? "method" = none ∧ message.get? "id" = some id := by
  unfold classify at h
  cases hid : mentions "id" message with
  | error f =>
      rw [hid] at h
      cases h
  | ok hasId =>
      cases hmethod : mentions "method" message with
      | error f =>
          rw [hid, hmethod] at h
          cases h
      | ok hasMethod =>
          rw [hid, hmethod] at h
          change (if (hasId && !hasMethod) = true then _ else _) = _ at h
          split at h
          · next hboth =>
              split at h
              · next v hv =>
                  cases h
                  refine ⟨?_, hv⟩
                  cases message with
                  | obj members =>
                      have hnone : hasMethod = false := by
                        simpa using (Bool.and_eq_true_iff.mp hboth).2
                      rw [hnone] at hmethod
                      change Json.Members.get? "method" members = none
                      have hsome :
                          (Json.Members.get? "method" members).isSome = false :=
                        Except.ok.inj hmethod
                      exact Option.isNone_iff_eq_none.mp
                        (Option.isSome_eq_false_iff.mp hsome)
                  | _ => cases hv
              · cases h
          · split at h
            · cases h
            · cases h

/-!
# The table
-/

theorem send_table (c : Connection) :
    c.send.2.lastId = c.lastId ∧ c.send.2.waiting = c.waiting := by
  unfold send
  split
  · exact ⟨rfl, rfl⟩
  · cases c.process.write with
    | mk taken p =>
        cases taken with
        | true => exact ⟨rfl, rfl⟩
        | false => exact ⟨rfl, rfl⟩

theorem notify_table {n : Notification} {c c' : Connection} {r : Option Refusal}
    (h : Link.notify n c = (r, c')) :
    c'.lastId = c.lastId ∧ c'.waiting = c.waiting := by
  have hsent := send_table c
  change c.send = (r, c') at h
  rw [h] at hsent
  exact hsent

theorem request_ok {q : Request} {waiting : Option Waiting} {c c' : Connection}
    {receipt : Receipt} (h : Link.request q waiting c = (.ok receipt, c')) :
    receipt.id = c.lastId + 1 ∧ c'.lastId = c.lastId + 1 ∧
      c'.waiting =
        c.waiting ++ (waiting.map fun w => (c.lastId + 1, w)).toList := by
  have hsent := send_table { c with lastId := c.lastId + 1 }
  simp only [Link.request] at h
  split at h
  · next heq =>
      rw [heq] at hsent
      cases h
      refine ⟨rfl, hsent.1, ?_⟩
      rw [hsent.2]
  · cases h

theorem request_error {q : Request} {waiting : Option Waiting}
    {c c' : Connection} {r : Refusal}
    (h : Link.request q waiting c = (.error r, c')) :
    c'.lastId = c.lastId + 1 ∧ c'.waiting = c.waiting := by
  have hsent := send_table { c with lastId := c.lastId + 1 }
  simp only [Link.request] at h
  split at h
  · cases h
  · next heq =>
      rw [heq] at hsent
      cases h
      exact hsent

end Connection

namespace Env

theorem request_eq (q : Request) (waiting : Option Waiting)
    (env : Env Connection) :
    ∃ r link, Link.request q waiting env.link = (r, link) ∧
      env.request q waiting = (r, env.seeing link [match r with
        | .ok receipt => .sent (.request receipt.id q)
        | .error r => .refused q.method true r]) := by
  unfold Env.request
  split
  · next receipt link heq => exact ⟨.ok receipt, link, heq, rfl⟩
  · next r link heq => exact ⟨.error r, link, heq, rfl⟩

theorem signal_link (e : Event) (env : Env Connection) :
    (env.signal e).link = env.link := by
  unfold Env.signal Env.refreshWindow
  cases env.window with
  | none => rfl
  | some v => rfl

end Env

/-!
# What asks
-/

/-- Whether requests were sent under new numbers, and nothing else waits for an
answer. -/
structure Asked (ids : List Nat) (env env' : Env Connection) : Prop where
  counted : env.link.lastId ≤ env'.link.lastId
  issued : requestIds env'.trace = requestIds env.trace ++ ids
  rising : ids.Pairwise (· < ·)
  fresh {id : Nat} (h : id ∈ ids) : env.link.lastId < id ∧ id ≤ env'.link.lastId
  left {e : Nat × Waiting} (h : e ∈ env'.link.waiting) :
      e ∈ env.link.waiting ∨ e.1 ∈ ids
  shown : answers env'.trace = answers env.trace

namespace Asked

variable {ids ids' : List Nat} {env env' env'' : Env Connection}

theorem trans (h : Asked ids env env') (h' : Asked ids' env' env'') :
    Asked (ids ++ ids') env env'' where
  counted := Nat.le_trans h.counted h'.counted
  issued := by rw [h'.issued, h.issued, List.append_assoc]
  rising := by
    refine List.pairwise_append.mpr ⟨h.rising, h'.rising, ?_⟩
    intro id hid id' hid'
    exact Nat.lt_of_le_of_lt (h.fresh hid).2 (h'.fresh hid').1
  fresh hid := by
    rcases List.mem_append.mp hid with hid | hid
    · exact ⟨(h.fresh hid).1, Nat.le_trans (h.fresh hid).2 h'.counted⟩
    · exact ⟨Nat.lt_of_le_of_lt h.counted (h'.fresh hid).1, (h'.fresh hid).2⟩
  left he := by
    rcases h'.left he with he | hid
    · rcases h.left he with he | hid
      · exact Or.inl he
      · exact Or.inr (List.mem_append_left ids' hid)
    · exact Or.inr (List.mem_append_right ids hid)
  shown := h'.shown.trans h.shown

theorem idle (hcounted : env.link.lastId ≤ env'.link.lastId)
    (hleft : ∀ e ∈ env'.link.waiting, e ∈ env.link.waiting)
    (hids : requestIds env'.trace = requestIds env.trace)
    (hshown : answers env'.trace = answers env.trace) : Asked [] env env' where
  counted := hcounted
  issued := by rw [hids, List.append_nil]
  rising := .nil
  fresh h := nomatch h
  left h := Or.inl (hleft _ h)
  shown := hshown

theorem refl (env : Env Connection) : Asked [] env env :=
  idle (Nat.le_refl _) (fun _ he => he) rfl rfl

theorem seeing {link : Connection} {es : List Event}
    (hcounted : env.link.lastId ≤ link.lastId)
    (hleft : link.waiting = env.link.waiting)
    (hes : es.all Event.isUncounted = true) :
    Asked [] env (env.seeing link es) := by
  refine idle hcounted ?_ (requestIds_uncounted hes _) (answers_uncounted hes _)
  intro e he
  rw [← hleft]
  exact he

theorem request_ok {q : Request} {waiting : Option Waiting} {link : Connection}
    {receipt : Receipt}
    (h : Link.request q waiting env.link = (.ok receipt, link)) :
    Asked [env.link.lastId + 1] env
      (env.seeing link [.sent (.request receipt.id q)]) := by
  rcases Connection.request_ok h with ⟨hid, hlast, hwaiting⟩
  refine ⟨?_, ?_, List.pairwise_singleton _ _, ?_, ?_,
    answers_append .. |>.trans (List.append_nil _)⟩
  · show env.link.lastId ≤ link.lastId
    rw [hlast]
    exact Nat.le_succ _
  · show requestIds (env.trace ++ _) = _
    rw [requestIds_append, hid]
    rfl
  · intro id hmem
    show _ ∧ id ≤ link.lastId
    rw [List.mem_singleton.mp hmem, hlast]
    exact ⟨Nat.lt_succ_self _, Nat.le_refl _⟩
  · intro e he
    change e ∈ link.waiting at he
    rw [hwaiting] at he
    rcases List.mem_append.mp he with he | he
    · exact Or.inl he
    · cases waiting with
      | none => cases he
      | some w =>
          rw [List.mem_singleton.mp he]
          exact Or.inr List.mem_cons_self

theorem request_error {q : Request} {waiting : Option Waiting}
    {link : Connection} {r : Refusal}
    (h : Link.request q waiting env.link = (.error r, link)) {es : List Event}
    (hes : es.all Event.isUncounted = true) :
    Asked [] env (env.seeing link es) := by
  rcases Connection.request_error h with ⟨hlast, hwaiting⟩
  refine seeing ?_ hwaiting hes
  rw [hlast]
  exact Nat.le_succ _

theorem request (q : Request) (waiting : Option Waiting)
    (env : Env Connection) :
    ∃ ids, Asked ids env (env.request q waiting).2 := by
  unfold Env.request
  split
  · next heq => exact ⟨_, request_ok heq⟩
  · next r link heq =>
      have hseen : Asked [] env (env.seeing link [.refused q.method true r]) :=
        request_error heq rfl
      exact ⟨_, hseen⟩

theorem emit (env : Env Connection) {e : Event} (h : e.isUncounted = true) :
    Asked [] env (env.emit e) := by
  have hes : [e].all Event.isUncounted = true := by
    rw [List.all_cons, h]
    rfl
  exact seeing (Nat.le_refl _) rfl hes

theorem told {n : Notification} {link : Connection} {r : Option Refusal}
    (h : Link.notify n env.link = (r, link)) {es : List Event}
    (hes : es.all Event.isUncounted = true) :
    Asked [] env (env.seeing link es) := by
  rcases Connection.notify_table h with ⟨hlast, hwaiting⟩
  exact seeing (Nat.le_of_eq hlast.symm) hwaiting hes

theorem notify (n : Notification) (env : Env Connection) :
    Asked [] env (env.notify n).2 := by
  unfold Env.notify
  split
  · next link heq =>
      have hseen : Asked [] env (env.seeing link [.sent (.notification n)]) :=
        told heq rfl
      exact hseen
  · next r link heq =>
      have hseen : Asked [] env (env.seeing link [.refused n.method false r]) :=
        told heq rfl
      exact hseen

end Asked

theorem Env.Course.asked {tone : Tone} {env env' : Env Connection}
    (h : env.Course tone env') :
    ∃ ids, Asked ids env env' ∧ (tone ≠ .asking → ids = []) := by
  induction h with
  | refl => exact ⟨[], .refl _, fun _ => rfl⟩
  | @step env' _ _ hstep ih =>
      rcases ih with ⟨ids, hasked, hnone⟩
      have hidle {env'' : Env Connection} (h : Asked [] env' env'') :
          ∃ ids, Asked ids env env'' ∧ (tone ≠ .asking → ids = []) := by
        refine ⟨ids ++ [], hasked.trans h, ?_⟩
        rw [List.append_nil]
        exact hnone
      cases hstep with
      | seen hplain =>
          have hes := Event.all_of_isPlain Event.isUncounted_of_isPlain hplain
          exact hidle (.seeing (Nat.le_refl _) rfl hes)
      | timed _ => exact hidle (.idle (Nat.le_refl _) (fun _ he => he) rfl rfl)
      | displayed _ =>
          exact hidle (.idle (Nat.le_refl _) (fun _ he => he) rfl rfl)
      | told _ _ _ hlink => exact hidle (.told hlink rfl)
      | untold _ _ _ hlink => exact hidle (.told hlink rfl)
      | asked htone _ _ hlink =>
          exact ⟨_, hasked.trans (.request_ok hlink),
            fun hne => absurd htone hne⟩
      | unasked _ _ _ hlink => exact hidle (.request_error hlink rfl)

theorem Env.Course.unasked {tone : Tone} {env env' : Env Connection}
    (h : env.Course tone env') (htone : tone ≠ .asking) :
    Asked [] env env' := by
  rcases h.asked with ⟨ids, hasked, hnone⟩
  rw [hnone htone] at hasked
  exact hasked

/-!
# What is answered
-/

/-- Whether answers went to what waited for them, once each, and nothing else
happened to those who wait but that some of them are gone. -/
structure Answered (cs : List Call) (env env' : Env Connection) : Prop where
  counted : env.link.lastId ≤ env'.link.lastId
  issued : requestIds env'.trace = requestIds env.trace
  left {e : Nat × Waiting} (h : e ∈ env'.link.waiting) : e ∈ env.link.waiting
  waited {c : Call} (h : c ∈ cs) : (c.id, c.waiting) ∈ env.link.waiting
  gone {c : Call} (h : c ∈ cs) {e : Nat × Waiting}
    (he : e ∈ env'.link.waiting) : e.1 ≠ c.id
  fits {c : Call} (h : c ∈ cs) : c.Fits
  once : (cs.map Call.id).Nodup
  shown : answers env'.trace = answers env.trace ++ cs.filterMap Call.shown?

namespace Answered

variable {cs cs' : List Call} {c : Call} {env env' env'' : Env Connection}

theorem trans (h : Answered cs env env') (h' : Answered cs' env' env'') :
    Answered (cs ++ cs') env env'' where
  counted := Nat.le_trans h.counted h'.counted
  issued := h'.issued.trans h.issued
  left he := h.left (h'.left he)
  waited hc := by
    rcases List.mem_append.mp hc with hc | hc
    · exact h.waited hc
    · exact h.left (h'.waited hc)
  gone hc _ he := by
    rcases List.mem_append.mp hc with hc | hc
    · exact h.gone hc (h'.left he)
    · exact h'.gone hc he
  fits hc := by
    rcases List.mem_append.mp hc with hc | hc
    · exact h.fits hc
    · exact h'.fits hc
  once := by
    rw [List.map_append]
    refine List.nodup_append.mpr ⟨h.once, h'.once, ?_⟩
    intro id hid id' hid' heq
    rcases List.mem_map.mp hid with ⟨c, hc, rfl⟩
    rcases List.mem_map.mp hid' with ⟨c', hc', rfl⟩
    -- who was answered no longer waits
    exact h.gone hc (h'.waited hc') heq.symm
  shown := by rw [h'.shown, h.shown, List.filterMap_append, List.append_assoc]

theorem of_asked (h : Asked [] env env') : Answered [] env env' where
  counted := h.counted
  issued := h.issued.trans (List.append_nil _)
  left he := by
    rcases h.left he with he | hid
    · exact he
    · cases hid
  waited hc := nomatch hc
  gone hc := nomatch hc
  fits hc := nomatch hc
  once := .nil
  shown := h.shown.trans (List.append_nil _).symm

theorem single (hwaited : (c.id, c.waiting) ∈ env.link.waiting) (hfits : c.Fits)
    (hcounted : env.link.lastId ≤ env'.link.lastId)
    (hissued : requestIds env'.trace = requestIds env.trace)
    (hleft : ∀ e ∈ env'.link.waiting, e ∈
    Connection.without c.id env.link.waiting)
    (hshown : answers env'.trace = answers env.trace ++ c.shown?.toList) :
    Answered [c] env env' where
  counted := hcounted
  issued := hissued
  left he := (List.mem_filter.mp (hleft _ he)).1
  waited hc := by
    rw [List.mem_singleton.mp hc]
    exact hwaited
  gone hc _ he := by
    rw [List.mem_singleton.mp hc]
    exact bne_iff_ne.mp (List.mem_filter.mp (hleft _ he)).2
  fits hc := by
    rw [List.mem_singleton.mp hc]
    exact hfits
  once := by
    rw [List.map_singleton]
    exact List.pairwise_singleton _ _
  shown := by
    rw [hshown]
    cases hprobe : c.shown? with
    | none =>
        rw [List.filterMap_cons_none hprobe, Option.toList_none,
          List.filterMap_nil]
    | some x =>
        rw [List.filterMap_cons_some hprobe, Option.toList_some,
          List.filterMap_nil]

end Answered

/-- Whether requests were sent under new numbers, and answers went to what had
waited for them. -/
structure Routes (ids : List Nat) (cs : List Call) (env env' : Env Connection) :
    Prop where
  counted : env.link.lastId ≤ env'.link.lastId
  issued : requestIds env'.trace = requestIds env.trace ++ ids
  rising : ids.Pairwise (· < ·)
  fresh {id : Nat} (h : id ∈ ids) : env.link.lastId < id ∧ id ≤ env'.link.lastId
  left {e : Nat × Waiting} (h : e ∈ env'.link.waiting) :
      e ∈ env.link.waiting ∨ e.1 ∈ ids
  waited {c : Call} (h : c ∈ cs) : (c.id, c.waiting) ∈ env.link.waiting
  gone {c : Call} (h : c ∈ cs) {e : Nat × Waiting}
    (he : e ∈ env'.link.waiting) : e.1 ≠ c.id
  fits {c : Call} (h : c ∈ cs) : c.Fits
  once : (cs.map Call.id).Nodup
  shown : answers env'.trace = answers env.trace ++ cs.filterMap Call.shown?

namespace Routes

variable {ids : List Nat} {cs : List Call} {env env' env'' : Env Connection}

theorem of_asked (h : Asked ids env env') : Routes ids [] env env' where
  counted := h.counted
  issued := h.issued
  rising := h.rising
  fresh := h.fresh
  left := h.left
  waited hc := nomatch hc
  gone hc := nomatch hc
  fits hc := nomatch hc
  once := .nil
  shown := h.shown.trans (List.append_nil _).symm

theorem of_both (h : Asked ids env env')
    (hnobody : ∀ e ∈ env'.link.waiting, e ∈ env.link.waiting)
    (h' : Answered cs env' env'') :
    Routes ids cs env env'' where
  counted := Nat.le_trans h.counted h'.counted
  issued := h'.issued.trans h.issued
  rising := h.rising
  fresh hid := ⟨(h.fresh hid).1, Nat.le_trans (h.fresh hid).2 h'.counted⟩
  left he := Or.inl (hnobody _ (h'.left he))
  waited hc := hnobody _ (h'.waited hc)
  gone := h'.gone
  fits := h'.fits
  once := h'.once
  shown := by rw [h'.shown, h.shown]

theorem of_answered (h : Answered cs env env') : Routes [] cs env env' :=
  .of_both (.refl env) (fun _ he => he) h

end Routes

end InlineCompletion
