import InlineCompletion.Proofs.Agent.Requests
import InlineCompletion.Proofs.Workspace.Conversation
import InlineCompletion.Proofs.Workspace.Domain

/-!
# Whose answers are waited for

The documents of a session share one table of those who wait for answers.  Apart
from the desks, nobody is entered there but for the answer to the greeting.  The
main statements are that what is kept within the domain of everything, and as
nobody else is entered, is kept by whole sessions; and that whoever waits was
entered as a request was sent under that number, which was the greeting, or
named the address of the document that waits.
-/

namespace InlineCompletion

namespace Env

/-- Whether nobody waits who did not wait before, but for the answer to a
greeting that was sent. -/
structure Abides (env env' : Env Connection) : Prop where
  waiting {x : Nat × Waiting} (h : x ∈ env'.link.waiting) :
    x ∈ env.link.waiting ∨
      x.2 = .handshake ∧ .sent (.request x.1 .greeting) ∈ env'.trace
  trace : env.trace <+: env'.trace

namespace Abides

variable {env env' env'' : Env Connection}

theorem trans (h : Abides env env') (h' : Abides env' env'') :
    Abides env env'' where
  waiting hx := by
    rcases h'.waiting hx with hx | hgreeting
    · rcases h.waiting hx with hx | ⟨hhandshake, hsent⟩
      · exact Or.inl hx
      · exact Or.inr ⟨hhandshake, h'.trace.mem hsent⟩
    · exact Or.inr hgreeting
  trace := h.trace.trans h'.trace

theorem idle (hwaiting : ∀ x ∈ env'.link.waiting, x ∈ env.link.waiting)
    (htrace : env.trace <+: env'.trace) : Abides env env' :=
  ⟨fun hx => Or.inl (hwaiting _ hx), htrace⟩

theorem refl (env : Env Connection) : Abides env env :=
  idle (fun _ hx => hx) (List.prefix_refl _)

theorem seeing {link : Connection} (hwaiting : link.waiting = env.link.waiting)
    (es : List Event) :
    Abides env (env.seeing link es) := by
  refine idle ?_ (List.prefix_append _ _)
  intro x hx
  rw [← hwaiting]
  exact hx

theorem emits (env : Env Connection) (es : List Event) :
    Abides env (env.emits es) :=
  idle (fun _ hx => hx) (List.prefix_append _ _)

theorem of_course {tone : Tone} (h : env.Course tone env')
    (htone : tone ≠ .asking) :
    Abides env env' := by
  induction h with
  | refl => exact .refl env
  | step _ hstep ih =>
      refine ih.trans ?_
      cases hstep with
      | seen _ => exact .emits _ _
      | timed _ => exact idle (fun _ hx => hx) (List.prefix_refl _)
      | displayed _ => exact idle (fun _ hx => hx) (List.prefix_refl _)
      | told _ _ _ hlink => exact .seeing (Connection.notify_table hlink).2 _
      | untold _ _ _ hlink => exact .seeing (Connection.notify_table hlink).2 _
      | asked hasking _ _ _ => exact absurd hasking htone
      | unasked hasking _ _ _ => exact absurd hasking htone

theorem started (h : Connection.Started env env') : Abides env env' := by
  cases h with
  | nothing => exact .refl env
  | started _ _ _ => exact .idle (fun _ hx => hx) (List.prefix_append _ _)

theorem began (h : Connection.Began env env') : Abides env env' := by
  cases h with
  | refused hlink => exact .seeing (Connection.request_error hlink).2 _
  | @greeted receipt link hlink =>
      rcases Connection.request_ok hlink with ⟨hid, _, hwaiting⟩
      refine ⟨?_, List.prefix_append _ _⟩
      intro x hx
      change x ∈ link.waiting at hx
      rw [hwaiting] at hx
      rcases List.mem_append.mp hx with hx | hx
      · exact Or.inl hx
      · cases List.mem_singleton.mp hx
        refine Or.inr ⟨rfl, List.mem_append_right _ ?_⟩
        rw [hid]
        exact List.mem_cons_of_mem _ List.mem_cons_self

theorem request_shutdown (env : Env Connection) :
    Abides env (env.request .shutdown none).2 := by
  rcases env.request_eq .shutdown none with ⟨r, link, hlink, hrequest⟩
  rw [hrequest]
  cases r with
  | error r => exact .seeing (Connection.request_error hlink).2 _
  | ok receipt =>
      refine .seeing ?_ _
      exact (Connection.request_ok hlink).2.2.trans (List.append_nil _)

theorem notify (n : Notification) (env : Env Connection) :
    Abides env (env.notify n).2 := by
  unfold Env.notify
  split
  · next heq => exact .seeing (Connection.notify_table heq).2 [_]
  · next heq => exact .seeing (Connection.notify_table heq).2 [_]

theorem keptByLeave (env : Env Connection) :
    Workspace.KeptByLeave (env.Abides ·) where
  course hcourse h := h.trans (of_course hcourse nofun)
  asked h := h.trans (.request_shutdown _)
  said h := h.trans (.notify _ _)
  ended h := h.trans (.idle nofun (List.prefix_refl _))

end Abides
end Env

namespace Workspace

/-!
# Sessions
-/

structure KeptBySession (P : Workspace Connection → Prop) :
    Prop extends KeptThroughout P where
  abided {w : Workspace Connection} {env : Env Connection}
    (h : w.env.Abides env) :
    P w → P { w with env := env }

namespace KeptBySession

variable {P : Workspace Connection → Prop} {w : Workspace Connection}

theorem agentReady (hP : KeptBySession P) (h : P w) : P w.agentReady := by
  unfold Workspace.agentReady
  split
  · exact hP.openAll (hP.emit rfl h)
  · exact hP.signal rfl (hP.openAll h)

theorem thanked (hP : KeptBySession P) {message : Json} {link : Connection}
    (hlink : Link.notify .initialized (w.noted message) = (none, link))
    (h : P w) :
    P (w.thanked link) := by
  have hwaiting :
      ({ link with initialized := true } : Connection).waiting =
        w.env.link.waiting :=
    (Connection.notify_table hlink).2
  exact hP.abided (.seeing hwaiting _) h

theorem greeted (hP : KeptBySession P) {message : Json}
    {r : Except Fault Unit × Workspace Connection}
    (hgreeted : Greeted message w r) (h : P w) :
    P r.2 := by
  cases hgreeted with
  | rejected e => exact hP.emit rfl h
  | unthanked hlink =>
      exact hP.abided (.seeing (Connection.notify_table hlink).2 _) h
  | unannounced _ hlink => exact hP.thanked hlink h
  | announced name _ hlink =>
      exact hP.agentReady
        (hP.abided (.emits _ [.notice (.agentReady name)]) (hP.thanked hlink h))

theorem taken (hP : KeptBySession P) {id : Json} {waiting : Waiting}
    {link : Connection} (htake : w.env.link.take id = .ok (some waiting, link))
    (h : P w) :
    P (w.onLink fun _ => link) := by
  rcases Connection.take_eq_some htake with ⟨n, _, hlink⟩
  refine hP.abided (.idle ?_ (List.prefix_refl _)) h
  intro x hx
  rw [hlink] at hx
  exact (List.mem_filter.mp hx).1

theorem handle (hP : KeptBySession P) (message : Json) (h : P w) :
    P (w.handle message).2 := by
  have hhandled := handle_cases message w
  revert hhandled
  generalize w.handle message = r
  intro hhandled
  cases hhandled with
  | faulty _ _ _ => exact h
  | nothing _ _ => exact h
  | notified _ => exact hP.emit rfl h
  | greeted _ htake hgreeted => exact hP.greeted hgreeted (hP.taken htake h)
  | @completed _ i ticket _ _ htake =>
      exact hP.receive (i := i) trivial ticket message (hP.taken htake h)
  | probed _ _ htake => exact hP.emit rfl (hP.taken htake h)

theorem keptByReading (hP : KeptBySession P) : KeptByReading P where
  handled message h := hP.handle message h
  told n _ h := hP.abided (.emits _ [.notice n]) h
  buffered _ h := hP.abided (.idle (fun _ hx => hx) (List.prefix_refl _)) h
  unread _ h := hP.abided (.idle (fun _ hx => hx) (List.prefix_refl _)) h

theorem keptByStop (hP : KeptBySession P) : KeptByStop P where
  left {w} h := by
    have hleft : w.env.Abides w.leave.env :=
      (Env.Abides.keptByLeave w.env).left (.refl w.env)
    show P { w with env := w.leave.env }
    exact hP.abided hleft h
  moved {w} m h := by
    cases m with
    | awaited milliseconds =>
        exact hP.abided (.emits _ [.process (.awaited milliseconds)]) h
    | stirred s =>
        cases s with
        | wrote data => exact hP.keptByReading.output data h
        | troubled kind =>
            exact hP.abided
              (.of_course (course_troubled .mute kind w.env) nofun) h
    | ended code =>
        exact hP.abided ((Env.Abides.keptByLeave _).finished code (.refl _)) h
    | forced =>
        have htold : w.env.Abides (w.env.tell .agentKilled) := .emits w.env _
        have hforced : w.env.Abides w.force.env :=
          htold.trans (.emits _ [.process .killed])
        show P { w with env := w.force.env }
        exact hP.abided hforced h
  hungUp h := hP.abided (.idle nofun (List.prefix_refl _)) h

theorem loadFile (hP : KeptBySession P) (j : Nat) (path : Text)
    (content : Except Fault (List UInt8)) (h : P w) :
    P (w.loadFile j path content).2 := by
  unfold Workspace.loadFile
  split
  · exact h
  · exact h
  · next e he =>
      split
      · exact h
      · next e' notice hload =>
          have hloses : e.Loses e' := by
            unfold Editor.load at hload
            split at hload
            · cases hload
            · cases hload
              exact .of_same rfl rfl
          have hedited : P { w with editors := w.editors.set j e' } :=
            hP.edited (p := j) trivial he hloses h
          exact hP.abided (w := { w with editors := w.editors.set j e' })
            (.idle (fun _ hx => hx) (List.prefix_append _ _)) hedited

theorem paint (hP : KeptBySession P) (j : Nat) (h : P w) : P (w.paint j) := by
  refine hP.onEditor (j := j) trivial (fun _ => .of_same rfl rfl) ?_ h
  intro e
  rw [List.all_map]
  exact List.all_eq_true.mpr fun _ _ => rfl

theorem ordinaryKey (hP : KeptBySession P) (j : Nat) (text : Text) (h : P w) :
    P (w.ordinaryKey j text) := by
  have hseen := hP.emit (e := .ordinaryKey) rfl h
  unfold Workspace.ordinaryKey
  split
  · exact hseen
  · exact hP.editWith (j := j) trivial (Editor.replaceSelection_sameView text)
      hseen

theorem key (hP : KeptBySession P) (j : Nat) (key : Key) (modifier : Modifier)
    (text : Text) (h : P w) : P (w.key j key modifier text).2 := by
  unfold Workspace.key
  dsimp only
  split
  · next i _ _ =>
      have htriggered := hP.trigger (i := i) trivial h
      split
      · next heq =>
          rw [heq] at htriggered
          exact htriggered
      · next heq =>
          rw [heq] at htriggered
          exact htriggered
  · next i _ _ =>
      have haccepted := hP.accept (i := i) trivial h
      split
      · next heq =>
          rw [heq] at haccepted
          exact haccepted
      · next heq =>
          rw [heq] at haccepted
          exact haccepted
      · next heq =>
          rw [heq] at haccepted
          exact hP.ordinaryKey j text haccepted
  · next i _ _ =>
      have hcanceled := hP.cancel (i := i) trivial h
      split
      · next heq =>
          rw [heq] at hcanceled
          exact hcanceled
      · next heq =>
          rw [heq] at hcanceled
          exact hP.ordinaryKey j text hcanceled
  · next i places _ _ => exact hP.cycle (i := i) trivial places h
  · exact hP.ordinaryKey j text h

theorem undergo (hP : KeptBySession P) (d : Deed) (h : P w) :
    P (w.undergo d) := by
  have hread := hP.keptByReading
  cases d with
  | openDocument j path => exact hP.openDocument j path h
  | close path => exact hP.close (fun _ _ _ _ => trivial) h
  | closeAll => exact hP.closeAll h
  | edit j g => exact hP.editWith (j := j) trivial g.run_sameView h
  | load j path content => exact hP.loadFile j path content h
  | moveCursor j offset => exact hP.moveCursor (j := j) trivial offset h
  | select j anchor position =>
      exact hP.select (j := j) trivial anchor position h
  | paint j => exact hP.paint j h
  | key j key modifier text => exact hP.key j key modifier text h
  | detach i => exact hP.detach (i := i) trivial h
  | flush i => exact hP.flush (i := i) trivial h
  | trigger i => exact hP.trigger (i := i) trivial h
  | request i reason => exact hP.requestFor (i := i) trivial reason h
  | accept i => exact hP.accept (i := i) trivial h
  | cancel i => exact hP.cancel (i := i) trivial h
  | cycle i places => exact hP.cycle (i := i) trivial places h
  | supersede i => exact hP.supersede (i := i) trivial h
  | elapse milliseconds => exact hP.advance milliseconds h
  | start => exact hP.abided (.started (Connection.start_cases w.env)) h
  | began => exact hP.abided (.began (Connection.began_cases w.env)) h
  | finished code =>
      exact hP.abided ((Env.Abides.keptByLeave w.env).finished code (.refl _)) h
  | troubled kind =>
      exact hP.abided (.of_course (course_troubled .mute kind w.env) nofun) h
  | stop waits => exact hP.keptByStop.stop waits h
  | feed data => exact hread.feed data h
  | output data => exact hread.output data h
  | read => exact hread.read h
  | change f => exact hP.abided (.idle (fun _ hx => hx) (List.prefix_refl _)) h

theorem session (hP : KeptBySession P) {start : Workspace Connection}
    (hstart : P start) (h : Session start w) : P w := by
  induction h with
  | start => exact hstart
  | step _ _ ih => exact hP.undergo _ ih

end KeptBySession
end Workspace

/-!
# Who is entered at desks
-/

theorem Quietly.prefix_trace {es es' : List Event} (h : Quietly es es') :
    es <+: es' := by
  rcases h with ⟨more, heq, _⟩
  rw [heq]
  exact List.prefix_append _ _

namespace Desk

/-- Whether whoever waits did before, or is the document of a desk, which asked
about its own address under the number that it waits under. -/
structure Enters (k₀ k : Desk Connection) : Prop where
  seat : SameSeat k₀ k
  waiting {x : Nat × Waiting} (h : x ∈ k.env.link.waiting) :
    x ∈ k₀.env.link.waiting ∨
      ∃ ticket position kind, x.2 = .completion k₀.number ticket ∧
      .sent (.request x.1 (.completion k₀.document.uri position kind)) ∈
        k.env.trace
  trace : k₀.env.trace <+: k.env.trace

namespace Enters

variable {k₀ k k' : Desk Connection}

theorem idle (h : Enters k₀ k) (hseat : SameSeat k k')
    (hwaiting : k'.env.link.waiting = k.env.link.waiting)
    (htrace : k.env.trace <+: k'.env.trace) : Enters k₀ k' where
  seat := h.seat.trans hseat
  waiting hx := by
    rw [hwaiting] at hx
    rcases h.waiting hx with hx | ⟨ticket, position, kind, heq, hsent⟩
    · exact Or.inl hx
    · exact Or.inr ⟨ticket, position, kind, heq, htrace.mem hsent⟩
  trace := h.trace.trans htrace

theorem told (h : Enters k₀ k) {n : Notification} {r : Option Refusal}
    {link : Connection} (hlink : Link.notify n k.env.link = (r, link))
    (hseat : SameSeat k k') {es : List Event}
    (henv : k'.env = k.env.seeing link es) : Enters k₀ k' := by
  refine h.idle hseat ?_ ?_
  · rw [henv]
    exact (Connection.notify_table hlink).2
  · rw [henv]
    exact List.prefix_append _ _

theorem announced (h : Enters k₀ k) {ok : Bool} {s : Sync}
    {env : Env Connection}
    (hannounce : Sync.Announcement k.editor.text k.document.language
    k.document.sync k.env
      (ok, s, env)) : Enters k₀ (k.withSync s env).renewed := by
  cases hannounce with
  | offline _ => exact h.idle ⟨rfl, rfl, rfl, rfl⟩ rfl (List.prefix_refl _)
  | refused _ hlink => exact h.told hlink ⟨rfl, rfl, rfl, rfl⟩ rfl
  | taken _ hlink => exact h.told hlink ⟨rfl, rfl, rfl, rfl⟩ rfl

theorem kept (k₀ : Desk Connection) : Kept (Enters k₀) where
  quiet hquiet h :=
    h.idle (.of_quiet hquiet) (congrArg Connection.waiting hquiet.link)
      hquiet.events.prefix_trace
  announced _ _ hannounce h := h.announced hannounce
  reannounced _ _ hannounce h := h.announced hannounce
  delivered _ hdelivery h := by
    cases hdelivery with
    | nothing _ => exact h.idle ⟨rfl, rfl, rfl, rfl⟩ rfl (List.prefix_refl _)
    | offline _ _ =>
        exact h.idle ⟨rfl, rfl, rfl, rfl⟩ rfl (List.prefix_append _ _)
    | refused _ _ hlink => exact h.told hlink ⟨rfl, rfl, rfl, rfl⟩ rfl
    | taken _ _ hlink => exact h.told hlink ⟨rfl, rfl, rfl, rfl⟩ rfl
  asked := by
    intro _ _ k position kind ticket receipt link _ _ _ hlink h
    rcases Connection.request_ok hlink with ⟨hid, _, hwaiting⟩
    refine ⟨h.seat.trans ⟨rfl, rfl, rfl, rfl⟩, ?_,
      h.trace.trans (List.prefix_append _ _)⟩
    intro x hx
    change x ∈ link.waiting at hx
    rw [hwaiting] at hx
    rcases List.mem_append.mp hx with hx | hx
    · rcases h.waiting hx with hx | ⟨ticket, position, kind, heq, hsent⟩
      · exact Or.inl hx
      · exact Or.inr ⟨ticket, position, kind, heq, List.mem_append_left _ hsent⟩
    · cases List.mem_singleton.mp hx
      refine Or.inr ⟨ticket, position, kind, ?_, List.mem_append_right _ ?_⟩
      · rw [h.seat.number]
      · rw [hid, h.seat.uri]
        exact List.mem_cons_self
  unasked hlink h :=
    h.idle ⟨rfl, rfl, rfl, rfl⟩ (Connection.request_error hlink).2
      (List.prefix_append _ _)
  closing hclosing h := by
    cases hclosing with
    | unsaid _ => exact h.idle ⟨rfl, rfl, rfl, rfl⟩ rfl (List.prefix_refl _)
    | refused _ _ hlink => exact h.told hlink ⟨rfl, rfl, rfl, rfl⟩ rfl
    | taken _ _ hlink => exact h.told hlink ⟨rfl, rfl, rfl, rfl⟩ rfl

end Enters

theorem operate_enters (o : Operation) (k : Desk Connection) :
    Enters k (k.operate o) :=
  (Enters.kept k).operate
    (fun _ h => h.idle ⟨rfl, rfl, rfl, rfl⟩ rfl (List.prefix_refl _)) o
      ⟨.refl k, Or.inl, List.prefix_refl _⟩

end Desk

/-!
# Attribution
-/

namespace Workspace

variable {w w' : Workspace Connection}

/-- Whether whoever waits under a number belongs to the request that was sent
under it. -/
inductive Attributes (w : Workspace Connection) : Nat × Waiting → Prop where
  | greeting {n : Nat} (h : .sent (.request n .greeting) ∈ w.env.trace) :
      Attributes w (n, .handshake)
  | completion {n i ticket : Nat} {d : Document} {position : Position}
      {kind : TriggerKind} (hd : w.documents[i]? = some d)
      (h : .sent (.request n (.completion d.uri position kind)) ∈ w.env.trace) :
      Attributes w (n, .completion i ticket)
  | probe {n : Nat} {label : String} {fault : Option Fault} :
      Attributes w (n, .probe label fault)

/-- Whether everybody who waits belongs to the request of the number. -/
def Attributed (w : Workspace Connection) : Prop :=
  ∀ x ∈ w.env.link.waiting, w.Attributes x

theorem Attributes.goOn {x : Nat × Waiting} (h : w.Attributes x)
    (hdocuments : ∀ {i : Nat} {d : Document}, w.documents[i]? = some d →
      ∃ d', w'.documents[i]? = some d' ∧ d'.uri = d.uri)
    (htrace : w.env.trace <+: w'.env.trace) : w'.Attributes x := by
  cases h with
  | greeting h => exact .greeting (htrace.mem h)
  | completion hd h =>
      rcases hdocuments hd with ⟨d', hd', huri⟩
      rw [← huri] at h
      exact .completion hd' (htrace.mem h)
  | probe => exact .probe

theorem Attributed.operated (h : Attributed w) {i : Nat} {k : Desk Connection}
    (hk : w.desk? i = some k) (o : Operation) :
    Attributed (w.withDesk (k.operate o)) := by
  have henters := k.operate_enters o
  rcases desk?_eq_some hk with ⟨hi, hd, _, henv⟩
  have hkept {l : Nat} {d : Document} (hl : w.documents[l]? = some d) :
      ∃ d', (w.withDesk (k.operate o)).documents[l]? = some d' ∧
        d'.uri = d.uri := by
    have huris :=
      map_documents_withDesk hk henters.seat.number (·.uri) henters.seat.uri l
    rw [hl] at huris
    exact Option.map_eq_some_iff.mp huris
  have htrace : w.env.trace <+: (w.withDesk (k.operate o)).env.trace := by
    rw [← henv]
    exact henters.trace
  intro x hx
  rcases henters.waiting hx with hold | ⟨ticket, position, kind, heq, hsent⟩
  · rw [henv] at hold
    exact (h x hold).goOn hkept htrace
  · rcases x with ⟨n, waiting⟩
    cases heq
    rcases hkept hd with ⟨d', hd', huri⟩
    rw [← huri] at hsent
    rw [hi]
    exact .completion hd' hsent

theorem attributed_kept : KeptBySession Attributed where
  aside {w env} hlink hevents h := by
    intro x hx
    rw [show ({ w with env := env } : Workspace Connection).env.link =
      w.env.link from hlink] at hx
    exact (h x hx).goOn (fun hd => ⟨_, hd, rfl⟩) hevents.prefix_trace
  struck _ h :=
    fun x hx => (h x hx).goOn (fun hd => ⟨_, hd, rfl⟩) (List.prefix_refl _)
  edited _ _ _ h :=
    fun x hx => (h x hx).goOn (fun hd => ⟨_, hd, rfl⟩) (List.prefix_refl _)
  operated _ hk o h := h.operated hk o
  heard _ _ _ _ hk edit h := h.operated hk (.recordEdit edit)
  seated _ _ _ := trivial
  found _ _ _ := trivial
  added {w _ _ _ d} _ h := by
    rw [add_eq]
    exact fun x hx =>
      (h x hx).goOn (fun hd' => ⟨_, getElem?_concat_of_some hd' d, rfl⟩)
      (List.prefix_refl _)
  listed _ _ h :=
    fun x hx => (h x hx).goOn (fun hd => ⟨_, hd, rfl⟩) (List.prefix_refl _)
  abided habides h := by
    intro x hx
    rcases habides.waiting hx with hold | ⟨hhandshake, hsent⟩
    · exact (h x hold).goOn (fun hd => ⟨_, hd, rfl⟩) habides.trace
    · rcases x with ⟨n, waiting⟩
      cases hhandshake
      exact .greeting hsent

end Workspace
end InlineCompletion
