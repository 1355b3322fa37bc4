import InlineCompletion.Application
import InlineCompletion.Agent.Scripted
import InlineCompletion.Proofs.Workspace.Closing
import InlineCompletion.Proofs.Workspace.Signals

/-!
# The registry of a workspace

A run starts without documents and goes on with whatever can happen to a
workspace, in any order: documents are opened under paths in any spelling,
closed, edited and completed, the agent gets ready, time goes on, and all
documents are closed at once.  The main statement is that the registry lists the
documents that are not closed, each under its own address; that a document is
found under every spelling of its path; and that nothing is left, and nothing
untold, when the link is stopped.
-/

namespace InlineCompletion

theorem Document.create_settled {dir : Path.Directory} {path uri : Text}
    (h : Uri.ofPath dir path = .ok (some uri)) (dir' : Path.Directory)
    (language : String) (editor : Nat) (options : Options) :
    ∃ d, Document.create dir' uri language editor options = .ok d := by
  rcases Uri.normalize_ofPath h dir' with ⟨hsame, a, ha⟩
  unfold Document.create
  rw [hsame, ha]
  exact ⟨_, rfl⟩

namespace Workspace

variable {τ : Type}

/-!
# Looking up and opening
-/

theorem Enrolled.document?_eq {w : Workspace τ} (h : Enrolled w) {path : Text}
    {uri? : Option Text} (hpath : Uri.ofPath w.directory path = .ok uri?) :
    ∃ found, w.document? (some path) = .ok found ∧ ∀ i, found = some i ↔
      ∃ d, w.documents[i]? = some d ∧ d.closed = false ∧ uri? = some d.uri := by
  refine ⟨uri?.bind (w.registered? ·), ?_, ?_⟩
  · unfold Workspace.document?
    dsimp only
    rw [hpath]
    rfl
  · intro i
    rw [Option.bind_eq_some_iff]
    constructor
    · rintro ⟨uri, rfl, hfound⟩
      rcases h.registered (mem_of_registered? hfound) with
        ⟨c, hc, huri, hclosed⟩
      rcases card?_eq_some hc with ⟨d, hd, rfl⟩
      exact ⟨d, hd, hclosed, congrArg some huri.symm⟩
    · rintro ⟨d, hd, hclosed, rfl⟩
      exact ⟨d.uri, rfl, (registered?_eq_some_iff h.distinct).mpr
        (h.complete (card?_of_document hd) hclosed)⟩

def enroll (uri : Text) (d : Document) (w : Workspace τ) : Workspace τ :=
  { w with
    documents := w.documents ++ [d]
    registry := w.registry ++ [(uri, w.documents.length)] }

theorem card?_enroll (uri : Text) (d : Document) (w : Workspace τ) (i : Nat) :
    (w.enroll uri d).card? i = if i = w.documents.length then some d.card else
    w.card? i := by
  unfold card? enroll
  dsimp only
  rw [getElem?_concat, apply_ite (Option.map Document.card)]
  rfl

theorem mem_enroll {uri : Text} {d : Document} {w : Workspace τ}
    {r : Text × Nat} :
    r ∈ (w.enroll uri d).registry ↔
      r ∈ w.registry ∨ r = (uri, w.documents.length) := by
  unfold enroll
  rw [List.mem_append, List.mem_singleton]

theorem Enrolled.lt_length {w : Workspace τ} (h : Enrolled w) {uri : Text}
    {i : Nat} (hmem : (uri, i) ∈ w.registry) : i < w.documents.length := by
  rcases h.desk hmem with ⟨k, hk, _⟩
  exact (List.getElem?_eq_some_iff.mp (desk?_eq_some hk).2.1).1

theorem Enrolled.enroll {w : Workspace τ} (h : Enrolled w) {uri : Text}
    {d : Document} {j : Nat}
    (hsettled : ∀ dir, Uri.ofPath dir uri = .ok (some uri))
    (hfree : ∀ i, (uri, i) ∉ w.registry) (hcard : d.card = ⟨uri, j, uri, false⟩)
    (hj : j < w.editors.length) :
    Enrolled (w.enroll uri d) := by
  have hcards (i : Nat) := card?_enroll uri d w i
  rw [hcard] at hcards
  refine ⟨?_, ?_, ?_, ?_, ?_, ?_⟩
  · unfold Workspace.enroll
    rw [List.map_append, List.nodup_append]
    refine ⟨h.distinct, List.pairwise_singleton _ _, ?_⟩
    intro u hu v hv heq
    rcases List.mem_map.mp hu with ⟨r, hr, hru⟩
    rw [List.map_cons, List.map_nil, List.mem_singleton] at hv
    have hruri : r.1 = uri := (hru.trans heq).trans hv
    rw [← hruri] at hfree
    exact hfree r.2 hr
  · intro u i hmem
    rcases mem_enroll.mp hmem with hin | heq
    · rcases h.registered hin with ⟨c, hc, hrest⟩
      refine ⟨c, ?_, hrest⟩
      rw [hcards, if_neg (Nat.ne_of_lt (h.lt_length hin))]
      exact hc
    · cases heq
      exact ⟨_, (hcards _).trans (if_pos rfl), rfl, rfl⟩
  · intro u i hmem
    rcases mem_enroll.mp hmem with hin | heq
    · exact h.settled hin
    · cases heq
      exact hsettled
  · intro i c hc
    rw [hcards] at hc
    split at hc
    · cases hc
      rfl
    · exact h.named hc
  · intro i c hc
    rw [hcards] at hc
    split at hc
    · cases hc
      exact hj
    · exact h.placed hc
  · intro i c hc hclosed
    rw [hcards] at hc
    split at hc
    · next hi =>
        cases hc
        exact mem_enroll.mpr (Or.inr (by rw [hi]))
    · exact mem_enroll.mpr (Or.inl (h.complete hc hclosed))

theorem sameRoll_add (uri : Text) (d : Document) (w : Workspace τ) :
    SameRoll (w.enroll uri d)
      { (w.add d).2 with registry := (w.add d).2.registry ++
        [(uri, (w.add d).1)] } := by
  unfold add onEditor enroll
  dsimp only
  cases w.editors[d.editor]? with
  | none => exact ⟨fun _ => rfl, rfl, rfl⟩
  | some e => exact ⟨fun _ => rfl, rfl, List.length_set ..⟩

section Linked

variable [Link τ] {w : Workspace τ}

theorem openDocument_enrolls {path uri : Text} {w : Workspace τ}
    (hpath : Uri.ofPath w.directory path = .ok (some uri)) (j : Nat) :
    ∃ d, d.card = ⟨uri, j, uri, false⟩ ∧
      (w.openDocument j (some path)).1 =
        .ok (some (w.closeUri uri).documents.length) ∧
      SameRoll ((w.closeUri uri).enroll uri d)
        (w.openDocument j (some path)).2 := by
  rcases Document.create_settled hpath (w.closeUri uri).directory
    (Language.ofPath path (w.closeUri uri).options.languages) j
      (w.closeUri uri).options with
    ⟨d, hd⟩
  have hcard : d.card = ⟨uri, j, uri, false⟩ := by
    rcases Document.create_eq hd with ⟨name, heq⟩
    rw [heq]
    rfl
  have hopened := (sameRoll_add uri d (w.closeUri uri)).trans (sameRoll_openCopy
    (w.closeUri uri).documents.length _)
  unfold openDocument
  dsimp only
  rw [hpath]
  dsimp only
  rw [hd]
  refine ⟨d, hcard, rfl, ?_⟩
  dsimp only
  split
  · exact hopened.trans (.within _ _)
  · exact (hopened.trans (sameRoll_emit _ _)).trans (.within _ _)

theorem openDocument_cases (j : Nat) (path : Option Text) (w : Workspace τ) :
    (w.openDocument j path).2 = w ∨ ∃ p uri, path = some p ∧
      Uri.ofPath w.directory p = .ok (some uri) := by
  unfold openDocument
  split
  · exact Or.inl rfl
  · next p =>
      split
      · exact Or.inl rfl
      · exact Or.inl rfl
      · next uri hpath => exact Or.inr ⟨p, uri, rfl, hpath⟩

theorem Enrolled.openDocument (h : Enrolled w) {j : Nat}
    (hj : j < w.editors.length) (path : Option Text) :
    Enrolled (w.openDocument j path).2 := by
  rcases openDocument_cases j path w with hsame | ⟨p, uri, rfl, hpath⟩
  · rw [hsame]
    exact h
  · rcases openDocument_enrolls hpath j with ⟨d, hcard, _, hsame⟩
    have hplaced : j < (w.closeUri uri).editors.length := by
      rw [(h.length_closeUri uri).2]
      exact hj
    exact ((h.closeUri uri).enroll (Uri.ofPath_ofPath hpath)
      (h.not_mem_closeUri uri) hcard hplaced).sameRoll hsame

theorem Enrolled.registered?_openDocument (h : Enrolled w) {path uri : Text}
    (hpath : Uri.ofPath w.directory path = .ok (some uri)) {j : Nat}
    (hj : j < w.editors.length) :
    (w.openDocument j (some path)).1 = .ok (some w.documents.length) ∧
      (w.openDocument j (some path)).2.registered? uri =
        some w.documents.length := by
  rcases openDocument_enrolls hpath j with ⟨d, _, hresult, hsame⟩
  rw [(h.length_closeUri uri).1] at hresult
  refine ⟨hresult,
    (registered?_eq_some_iff (h.openDocument hj (some path)).distinct).mpr ?_⟩
  rw [hsame.registry, ← (h.length_closeUri uri).1]
  exact mem_enroll.mpr (Or.inr rfl)

/-!
# Errands
-/

def shutDown (stop : Env τ → Env τ) (w : Workspace τ) : Workspace τ :=
  { w.closeAll with env := stop w.closeAll.env }

end Linked
end Workspace

namespace Workspace

variable {w : Workspace Connection} {message : Json}

theorem sameRoll_agentReady (w : Workspace Connection) :
    SameRoll w w.agentReady := by
  unfold agentReady
  split
  · have hseen : SameRoll w (w.emit .ready) := .within _ w
    exact hseen.trans (sameRoll_openAll _)
  · exact (sameRoll_openAll w).trans (.within _ _)

theorem sameRoll_greeted {r : Except Fault Unit × Workspace Connection}
    (h : Greeted message w r) : SameRoll w r.2 := by
  cases h with
  | rejected e => exact .within _ w
  | unthanked _ => exact .within _ w
  | unannounced _ _ => exact .within _ w
  | @announced link members name _ _ =>
      have htold : SameRoll w ((w.thanked link).tell (.agentReady name)) :=
        .within _ w
      exact htold.trans (sameRoll_agentReady _)

theorem sameRoll_handled {r : Except Fault Unit × Workspace Connection}
    (h : Handled message w r) : SameRoll w r.2 := by
  have htaken (link : Connection) : SameRoll w (w.onLink fun _ => link) :=
    .within _ w
  cases h with
  | faulty _ _ _ => exact .refl w
  | nothing _ _ => exact .refl w
  | notified _ => exact .within _ w
  | greeted _ _ hgreeted => exact (htaken _).trans (sameRoll_greeted hgreeted)
  | @completed _ i ticket _ _ _ =>
      exact (htaken _).trans (sameRoll_answer (.completion i ticket) message _)
  | probed _ _ _ => exact .within _ w

theorem sameRoll_keptByReading (w : Workspace Connection) :
    KeptByReading (SameRoll w) where
  handled message h := h.trans (sameRoll_handled (handle_cases message _))
  told _ _ h := h.trans (.within _ _)
  buffered _ h := h.trans (.within _ _)
  unread _ h := h.trans (.within _ _)

theorem sameRoll_stop (waits : Waits) (w : Workspace Connection) :
    SameRoll w (w.stop waits) := by
  have hkept : KeptByStop (SameRoll w) := by
    refine ⟨fun h => h.trans (.within _ _), ?_, fun h => h.trans (.within _ _)⟩
    intro w' m h
    cases m with
    | stirred s =>
        cases s with
        | wrote data => exact (sameRoll_keptByReading w).output data h
        | troubled kind => exact h.trans (.within _ _)
    | awaited _ => exact h.trans (.within _ _)
    | ended _ => exact h.trans (.within _ _)
    | forced => exact h.trans (.within _ _)
  exact hkept.stop waits (.refl w)

end Workspace

/-- The program ends like this: its registry and its documents are as when all
documents were closed and then the link was stopped. -/
theorem Application.sameRoll_shutDown (stop : Env Connection → Env Connection)
    (waits : Waits) (w : Workspace Connection) :
    (w.shutDown stop).SameRoll (shutDown waits w) := by
  have hstopped := Workspace.sameRoll_stop waits w.closeAll
  exact ⟨hstopped.cards, hstopped.registry, hstopped.editors⟩

/-- What can happen to a workspace: to the registry, to the editors, to the
documents by their numbers, and to the surroundings. -/
inductive Errand (τ : Type) where
  | openDocument (j : Nat) (path : Option Text)
  | close (path : Option Text)
  | ready
  | shutDown (stop : Env τ → Env τ)
  | edit (j : Nat) (g : Editing)
  | moveCursor (j : Nat) (offset : Int)
  | select (j : Nat) (anchor position : Int)
  | detach (i : Nat)
  | flush (i : Nat)
  | trigger (i : Nat)
  | request (i : Nat) (reason : Json)
  | accept (i : Nat)
  | cancel (i : Nat)
  | cycle (i : Nat) (places : Int)
  | supersede (i : Nat)
  | answer (waiting : Waiting) (message : Json)
  | elapse (milliseconds : Int)
  /-- Something happens outside, such as to the link. -/
  | disturb (f : Env τ → Env τ)

namespace Workspace

variable {τ : Type} [Link τ]

def serve : Errand τ → Workspace τ → Workspace τ
  | .openDocument j path, w => (w.openDocument j path).2
  | .close path, w => (w.close path).2
  | .ready, w => w.openAll
  | .shutDown stop, w => w.shutDown stop
  | .edit j g, w => w.editWith j g.run
  | .moveCursor j offset, w => w.moveCursor j offset
  | .select j anchor position, w => w.onEditor j fun e =>
      (e.select anchor position, [])
  | .detach i, w => (w.detach i).2
  | .flush i, w => (w.flush i).2
  | .trigger i, w => (w.trigger i).2
  | .request i reason, w => (w.requestFor i reason).2
  | .accept i, w => (w.accept i).2
  | .cancel i, w => (w.cancel i).2
  | .cycle i places, w => (w.cycle i places).2
  | .supersede i, w => w.supersede i
  | .answer waiting message, w => (w.answer waiting message).2
  | .elapse milliseconds, w => w.advance milliseconds
  | .disturb f, w => { w with env := f w.env }

/-- Whether an errand is about editors that are there: a document is opened for
one. -/
def Serves (w : Workspace τ) : Errand τ → Prop
  | .openDocument j _ => j < w.editors.length
  | _ => True

/-- The workspaces that a run of errands comes to. -/
inductive Served (start : Workspace τ) : Workspace τ → Prop where
  | start : Served start start
  | step {w : Workspace τ} {r : Errand τ} (h : Served start w)
      (hr : w.Serves r) :
      Served start (w.serve r)

theorem Enrolled.serve {w : Workspace τ} (h : Enrolled w) {r : Errand τ}
    (hr : w.Serves r) :
    Enrolled (w.serve r) := by
  cases r with
  | openDocument j path => exact h.openDocument hr path
  | close path => exact h.close path
  | ready => exact h.sameRoll (sameRoll_openAll w)
  | shutDown stop => exact h.closeAll.enrolled.sameRoll (.within _ _)
  | edit j g => exact h.sameRoll (sameRoll_editWith j g.run w)
  | moveCursor j offset => exact h.sameRoll (sameRoll_onEditor j _ w)
  | select j anchor position => exact h.sameRoll (sameRoll_onEditor j _ w)
  | detach i => exact h.sameRoll (sameRoll_detach i w)
  | flush i => exact h.sameRoll (sameRoll_flush i w)
  | trigger i => exact h.sameRoll (sameRoll_trigger i w)
  | request i reason => exact h.sameRoll (sameRoll_requestFor i reason w)
  | accept i => exact h.sameRoll (sameRoll_accept i w)
  | cancel i => exact h.sameRoll (sameRoll_runStage Stage.quiet_cancel i w)
  | cycle i places =>
      exact h.sameRoll (sameRoll_runStage (Stage.quiet_cycle places) i w)
  | supersede i =>
      exact h.sameRoll (sameRoll_atDesk
        (fun k => .of_quiet
          (Desk.quiet_onStage (Stage.quiet_finish .superseded) k)) i w)
  | answer waiting message =>
      exact h.sameRoll (sameRoll_answer waiting message w)
  | elapse milliseconds => exact h.sameRoll (sameRoll_advance milliseconds w)
  | disturb f => exact h.sameRoll (.within _ w)

theorem Served.enrolled {start w : Workspace τ}
    (hdocuments : start.documents = []) (hregistry : start.registry = [])
    (h : Served start w) : Enrolled w := by
  induction h with
  | start => exact .of_empty hdocuments hregistry
  | step _ hr ih => exact ih.serve hr

/-- In every workspace that a run without documents at its start comes to, the
registered documents are not closed, each is registered under its own address,
which is the address of itself, and all other documents are closed.  A path in
any spelling finds the document under its address.  When all documents are
closed and the link is stopped, none is registered or left open, and the link is
stopped behind the closings of all copies that the agent had, each offered once:
it takes them if it is connected and takes what it is offered. -/
theorem registry_lists_open {start w : Workspace τ}
    (hdocuments : start.documents = []) (hregistry : start.registry = [])
    (h : Served start w) (stop : Env τ → Env τ) :
    (∀ uri i, (uri, i) ∈ w.registry →
      (∀ dir, Uri.ofPath dir uri = .ok (some uri)) ∧
        ∃ d, w.documents[i]? = some d ∧ d.uri = uri ∧ d.closed = false) ∧
    (∀ i d, w.documents[i]? = some d → (∀ uri, (uri, i) ∉ w.registry) →
    d.closed = true) ∧
    (∀ path uri?, Uri.ofPath w.directory path = .ok uri? →
      ∃ found, w.document? (some path) = .ok found ∧ ∀ i, found = some i ↔
        ∃ d, w.documents[i]? = some d ∧ d.closed = false ∧ uri? = some d.uri) ∧
    (w.shutDown stop).registry = [] ∧
    (w.shutDown stop).documents.length = w.documents.length ∧
    (∀ d ∈ (w.shutDown stop).documents, d.closed = true) ∧
    (w.shutDown stop).env = stop w.closeAll.env ∧
    w.env.Offers w.closings w.closeAll.env ∧
    (Link.Takes w.closings w.env.link →
      w.closeAll.env.trace.filterMap Event.taken? =
        w.env.trace.filterMap Event.taken? ++ w.closings) := by
  have henrolled := h.enrolled hdocuments hregistry
  have hempties := henrolled.closeAll
  refine ⟨?_, ?_, fun path uri? => henrolled.document?_eq, hempties.registry,
    hempties.documents, hempties.enrolled.all_closed hempties.registry, rfl,
    hempties.offers, ?_⟩
  · intro uri i hmem
    rcases henrolled.registered hmem with ⟨c, hc, huri, hclosed⟩
    rcases card?_eq_some hc with ⟨d, hd, rfl⟩
    exact ⟨henrolled.settled hmem, d, hd, huri, hclosed⟩
  · intro i d hd hfree
    cases hclosed : d.closed with
    | true => rfl
    | false =>
        exact absurd (henrolled.complete (card?_of_document hd) hclosed)
          (hfree d.uri)
  · intro htakes
    rw [hempties.offers.told, htakes.offer]

def vacant : Workspace Scripted :=
  create (.ofLink ⟨true, false, false, none, [], false⟩)
    ⟨"/work/dir".toList, rfl⟩ [.plain ['a'] 0, .plain ['b'] 0] .usual

/-- Two documents were opened, and the first a second time, under another
spelling of its path and for the other editor. -/
def respelled : Workspace Scripted :=
  (((vacant.serve (.openDocument 0 (some "a b.py".toList))).serve
    (.openDocument 1 (some "//tmp/é%.c".toList))).serve
      (.edit 1 (.type ['x']))).serve
        (.openDocument 1 (some "file:///work/dir/./a%20b.py?q".toList))

theorem respelled_served : Served vacant respelled := by
  have hfirst : vacant.Serves (.openDocument 0 (some "a b.py".toList)) :=
    Nat.zero_lt_succ 1
  refine .step
    (.step (r := .edit 1 _) (.step (.step .start hfirst) ?_) trivial) ?_
  · show 1 < List.length _
    decide +kernel
  · show 1 < List.length _
    decide +kernel

theorem registry_lists_open_respelled :
    respelled.registry = [("file:////tmp/%C3%A9%25.c".toList, 1),
        ("file:///work/dir/a%20b.py".toList, 2)] ∧
      respelled.documents.map (·.closed) = [true, false, false] ∧
      (∀ d ∈ (respelled.shutDown Scripted.stop).documents, d.closed = true) ∧
      respelled.closeAll.env.trace.filterMap Event.taken? =
        respelled.env.trace.filterMap Event.taken? ++
          [.didClose "file:////tmp/%C3%A9%25.c".toList,
            .didClose "file:///work/dir/a%20b.py".toList] := by
  rcases registry_lists_open rfl rfl respelled_served Scripted.stop with
    ⟨_, _, _, _, _, hclosed, _, _, htold⟩
  have hregistry : respelled.registry = [("file:////tmp/%C3%A9%25.c".toList, 1),
      ("file:///work/dir/a%20b.py".toList, 2)] := by
    decide +kernel
  have hopened : (respelled.documents[1]?).any (·.sync.opened) = true ∧
      (respelled.documents[2]?).any (·.sync.opened) = true := by
    decide +kernel
  have hclosings :
      respelled.closings = [.didClose "file:////tmp/%C3%A9%25.c".toList,
      .didClose "file:///work/dir/a%20b.py".toList] := by
    unfold closings
    rw [hregistry, List.filterMap_cons, hopened.1, List.filterMap_cons,
      hopened.2]
    rfl
  have htakes : Link.Takes respelled.closings respelled.env.link := by
    rw [hclosings]
    exact ⟨by decide +kernel, by decide +kernel, by decide +kernel,
      by decide +kernel, trivial⟩
  rw [← hclosings]
  exact ⟨hregistry, by decide +kernel, hclosed, htold htakes⟩

end Workspace
end InlineCompletion
