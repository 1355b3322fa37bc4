import InlineCompletion.Proofs.Agent.DeskSteps
import InlineCompletion.Proofs.Workspace.OpeningClosing

/-!
# Steps of a workspace at its desks

Whatever users, documents and alarms do to a workspace is made of what takes its
course at its desks.  The main statements are that each operation takes its
course, and in which tone.
-/

namespace InlineCompletion

namespace Workspace

def pending (i : Nat) (w : Workspace Connection) : List Change :=
  ((w.documents[i]?).map (·.sync.pending)).getD []

/-- Whether a document of an editor is stranded while the agent can be
reached. -/
def Stranded (i : Nat) (w : Workspace Connection) : Prop :=
  w.env.connected = true ∧
    ∃ d, w.documents[i]? = some d ∧ d.editor < w.editors.length ∧ d.Stranded

theorem Stranded.pending_ne {w : Workspace Connection} {i : Nat}
    (h : w.Stranded i) : w.pending i ≠ [] := by
  rcases h with ⟨_, d, hd, _, hstranded⟩
  unfold pending
  rw [hd]
  exact hstranded.pending

theorem pending_congr {w w' : Workspace Connection}
    (h : w'.documents = w.documents) (i : Nat) :
    w'.pending i = w.pending i := by
  unfold pending
  rw [h]

theorem Stranded.congr {w w' : Workspace Connection} {i : Nat}
    (h : w'.Stranded i) (hdocuments : w'.documents = w.documents)
    (heditors : w'.editors.length = w.editors.length)
    (hconnected : w.env.connected = true) : w.Stranded i := by
  rcases h with ⟨_, d, hd, hplace, hstranded⟩
  rw [hdocuments] at hd
  rw [heditors] at hplace
  exact ⟨hconnected, d, hd, hplace, hstranded⟩

structure Course (tone : Tone) (w w' : Workspace Connection) : Prop where
  env : w.env.Course tone w'.env
  kept (htone : tone ≠ .mute) (i : Nat) :
      w'.pending i = w.pending i ∨ w'.pending i = []
  strands {i : Nat} (h : w'.Stranded i) :
      failures w.env.trace < failures w'.env.trace ∨
    w.Stranded i ∧ w'.pending i = w.pending i

namespace Course

variable {tone : Tone} {w w' w'' : Workspace Connection}

theorem trans (h : Course tone w w') (h' : Course tone w' w'') :
    Course tone w w'' where
  env := h.env.trans h'.env
  kept htone i := by
    rcases h'.kept htone i with hsame | hnone
    · rw [hsame]
      exact h.kept htone i
    · exact Or.inr hnone
  strands hstranded := by
    rcases h'.strands hstranded with hfailed | ⟨hstranded', hsame⟩
    · exact Or.inl (Nat.lt_of_le_of_lt h.env.failures_le hfailed)
    · rcases h.strands hstranded' with hfailed | ⟨hstranded, hsame'⟩
      · exact Or.inl (Nat.lt_of_lt_of_le hfailed h'.env.failures_le)
      · exact Or.inr ⟨hstranded, hsame.trans hsame'⟩

theorem idle (henv : w.env.Course tone w'.env)
    (hdocuments : w'.documents = w.documents)
    (heditors : w'.editors.length = w.editors.length) : Course tone w w' where
  env := henv
  kept _ i := Or.inl (pending_congr hdocuments i)
  strands {i} h := by
    have hconnected := henv.connected.symm.trans h.1
    exact Or.inr
      ⟨h.congr hdocuments heditors hconnected, pending_congr hdocuments i⟩

theorem refl (w : Workspace Connection) : Course tone w w := idle .refl rfl rfl

theorem emit (w : Workspace Connection) {e : Event} (h : e.isPlain = true) :
    Course tone w (w.emit e) := idle (.emit _ h) rfl rfl

theorem tell (w : Workspace Connection) (n : Notice) :
    Course tone w (w.tell n) := emit w rfl

theorem signal (w : Workspace Connection) {e : Event} (h : e.isPlain = true) :
    Course tone w { w with env := w.env.signal e } := idle (.signal _ h) rfl rfl

theorem withRegistry (registry : List (Text × Nat)) (w : Workspace Connection) :
    Course tone w (w.withRegistry registry) := idle .refl rfl rfl

theorem atTime (time : Int) (w : Workspace Connection) :
    Course tone w
      { w with env :=
        { w.env with clock := { w.env.clock with now := time } } } :=
  idle (Env.Step.timed _).course rfl rfl

theorem onEditor {f : Editor → Editor × List Event}
    (hf : ∀ e, (f e).2.all Event.isPlain = true) (j : Nat)
    (w : Workspace Connection) : Course tone w (w.onEditor j f) := by
  unfold Workspace.onEditor
  split
  · exact .refl w
  · next e _ => exact idle (.emits _ (hf e)) rfl (List.length_set ..)

theorem withDesk {i : Nat} {k k' : Desk Connection} (hdesk : w.desk? i = some k)
    (h : k.Course tone k') : Course tone w (w.withDesk k') := by
  rcases desk?_eq_some hdesk with ⟨hnumber, hd, _, henv⟩
  have hdocuments (j : Nat) : (w.withDesk k').documents[j]? =
      if i = j then some k'.document else w.documents[j]? := by
    have hlt := (List.getElem?_eq_some_iff.mp hd).1
    show (w.documents.set k'.number k'.document)[j]? = _
    rw [h.number, hnumber, List.getElem?_set]
    split
    · rfl
    · rfl
  have hlength : (w.withDesk k').editors.length = w.editors.length :=
    List.length_set ..
  have hpending : w.pending i = k.document.sync.pending := by
    unfold pending
    rw [hd]
    rfl
  have hpending' (j : Nat) : (w.withDesk k').pending j =
      if i = j then k'.document.sync.pending else w.pending j := by
    unfold pending
    rw [hdocuments]
    split
    · rfl
    · rfl
  refine ⟨?_, ?_, ?_⟩
  · rw [← henv]
    exact h.env
  · intro htone j
    rw [hpending']
    split
    · next hij =>
        rw [← hij, hpending]
        exact h.kept htone
    · exact Or.inl rfl
  · intro j hstranded
    rcases hstranded with ⟨hconnected, d, hd', hplace, hstranded⟩
    rw [hdocuments] at hd'
    rw [hlength] at hplace
    rw [hpending', ← henv]
    split at hd'
    · next hij =>
        cases hd'
        rw [if_pos hij, ← hij, hpending]
        rcases h.strands ⟨hconnected, hstranded⟩ with
          hfailed | ⟨hstranded', hsame⟩
        · exact Or.inl hfailed
        · refine Or.inr
            ⟨⟨?_, k.document, hd, editor_lt hdesk, hstranded'.document⟩, hsame⟩
          rw [← henv]
          exact hstranded'.connected
    · next hij =>
        rw [if_neg hij]
        refine Or.inr ⟨⟨?_, d, hd', hplace, hstranded⟩, rfl⟩
        have hsame := h.env.connected
        rw [henv] at hsame
        exact hsame.symm.trans hconnected

theorem atDesk {f : Desk Connection → Desk Connection}
    (hf : ∀ k : Desk Connection, k.Course tone (f k)) (i : Nat)
    (w : Workspace Connection) :
    Course tone w (w.atDesk i f) := by
  unfold Workspace.atDesk
  split
  · exact .refl _
  · next k hdesk => exact withDesk hdesk (hf k)

theorem run {α : Type} {f : Desk Connection → α × Desk Connection}
    (hf : ∀ k : Desk Connection, k.Course tone (f k).2) (i : Nat)
    (w : Workspace Connection) :
    Course tone w (w.run i f).2 := by
  unfold Workspace.run
  split
  · exact .refl _
  · next k hdesk => exact withDesk hdesk (hf k)

theorem onStage {f : Stage → Stage} (hf : ∀ s, Plainly s.trace (f s).trace)
    (i : Nat) (w : Workspace Connection) :
    Course tone w (w.atDesk i (Desk.onStage f)) :=
  atDesk (fun k => .withStage (hf k.stage)) i w

theorem runStage {α : Type} {f : Stage → α × Stage}
    (hf : ∀ s, Plainly s.trace (f s).2.trace) (i : Nat)
    (w : Workspace Connection) : Course tone w (w.run i (Desk.runStage f)).2 :=
  run (fun k => .withStage (hf k.stage)) i w

theorem added {d : Document} (hnone : d.sync.pending = [])
    (w : Workspace Connection) :
    Course tone w { w with documents := w.documents ++ [d] } := by
  have hadded (i : Nat) : (w.documents ++ [d])[i]? = w.documents[i]? ∨
      (w.documents ++ [d])[i]? = some d ∧ w.documents[i]? = none := by
    rcases Nat.lt_or_ge i w.documents.length with hlt | hge
    · exact Or.inl (List.getElem?_append_left hlt)
    · rw [List.getElem?_append_right hge, List.getElem?_eq_none hge]
      cases hrest : [d][i - w.documents.length]? with
      | none => exact Or.inl rfl
      | some d' =>
          have hmem := List.mem_of_getElem? hrest
          rw [List.mem_singleton] at hmem
          exact Or.inr ⟨congrArg some hmem, rfl⟩
  have hpending (i : Nat) : ({ w with documents := w.documents ++ [d] } :
      Workspace Connection).pending i = w.pending i := by
    unfold pending
    rcases hadded i with hsame | ⟨hnew, hold⟩
    · rw [hsame]
    · rw [hnew, hold]
      exact hnone
  refine ⟨.refl, fun _ i => Or.inl (hpending i), ?_⟩
  intro i hstranded
  rcases hstranded with ⟨hconnected, d', hd', hplace, hstranded⟩
  rcases hadded i with hsame | ⟨hnew, _⟩
  · exact Or.inr
      ⟨⟨hconnected, d', hsame.symm.trans hd', hplace, hstranded⟩, hpending i⟩
  · cases hnew.symm.trans hd'
    exact absurd hnone hstranded.pending

end Course

variable {tone : Tone}

/-!
# Edits, carets and ghost text
-/

theorem course_tellEdit (edit : Edit) (listeners : List Nat)
    (w : Workspace Connection) :
    w.Course .mute (w.tellEdit edit listeners) := by
  unfold tellEdit
  induction listeners generalizing w with
  | nil => exact .refl _
  | cons i rest ih =>
      exact (Course.atDesk (Desk.course_recordEdit edit) i w).trans (ih _)

theorem course_editWith (j : Nat) (f : Editor → Option Edit × Editor)
    (w : Workspace Connection) :
    w.Course .mute (w.editWith j f) := by
  unfold editWith
  split
  · exact .refl _
  · next e _ =>
      have hchanged :
          w.Course .mute { w with editors := w.editors.set j (f e).2 } :=
        .idle .refl rfl (List.length_set ..)
      dsimp only
      split
      · exact hchanged
      · exact (hchanged.trans (.emit _ rfl)).trans (course_tellEdit _ _ _)

theorem course_moveCursor (j : Nat) (offset : Int) (w : Workspace Connection) :
    w.Course tone (w.moveCursor j offset) := by
  apply Course.onEditor
  intro e
  unfold Editor.moveCursor
  split <;> rfl

theorem course_accept (i : Nat) (w : Workspace Connection) :
    w.Course .mute (w.accept i).2 := by
  have hstaged : w.Course .mute (w.run i (Desk.runStage Stage.accept)).2 :=
    .runStage Stage.plainly_accept i w
  unfold accept
  split
  · next f w' heq =>
      rw [heq] at hstaged
      exact hstaged
  · next edit w' heq =>
      rw [heq] at hstaged
      split
      · exact hstaged
      · exact (hstaged.trans (course_editWith _ _ _)).trans
          (course_moveCursor _ _ _)
  · next w' heq =>
      rw [heq] at hstaged
      exact hstaged
  · next w' heq =>
      rw [heq] at hstaged
      exact hstaged

theorem course_cancel (i : Nat) (w : Workspace Connection) :
    w.Course tone (w.cancel i).2 :=
  .runStage Stage.plainly_cancel i w

theorem course_cycle (i : Nat) (places : Int) (w : Workspace Connection) :
    w.Course tone (w.cycle i places).2 :=
  .runStage (Stage.plainly_cycle places) i w

theorem course_supersede (i : Nat) (w : Workspace Connection) :
    w.Course tone (w.supersede i) :=
  .onStage (Stage.plainly_finish .superseded) i w

theorem course_receive (i ticket : Nat) (message : Json)
    (w : Workspace Connection) :
    w.Course tone (w.atDesk i (Desk.receive ticket message)) :=
  .atDesk (Desk.course_receive ticket message) i w

theorem course_detach (i : Nat) (w : Workspace Connection) :
    w.Course tone (w.detach i).2 := by
  unfold detach
  split
  · exact .refl _
  · split
    · exact .onEditor (fun _ => rfl) _ w
    · exact .refl _

theorem course_ordinaryKey (j : Nat) (text : Text) (w : Workspace Connection) :
    w.Course .mute (w.ordinaryKey j text) := by
  unfold ordinaryKey
  split
  · exact .emit w rfl
  · exact (Course.emit w rfl).trans (course_editWith _ _ _)

theorem course_loadFile (j : Nat) (path : Text)
    (content : Except Fault (List UInt8)) (w : Workspace Connection) :
    w.Course tone (w.loadFile j path content).2 := by
  unfold loadFile
  split
  · exact .refl _
  · exact .refl _
  · split
    · exact .refl _
    · exact .idle ((Env.Step.displayed _).course.trans (.tell _ _)) rfl
        (List.length_set ..)

theorem course_paint (j : Nat) (w : Workspace Connection) :
    w.Course tone (w.paint j) := by
  apply Course.onEditor
  intro e
  rw [List.all_map]
  exact List.all_eq_true.mpr fun _ _ => rfl

/-!
# Documents
-/

theorem course_openCopy (htone : tone ≠ .mute) (i : Nat)
    (w : Workspace Connection) :
    w.Course tone (w.openCopy i).2 :=
  .run (fun k => (Desk.course_openCopy htone k).1) i w

theorem course_openEach (htone : tone ≠ .mute) (numbers : List Nat)
    (w : Workspace Connection) :
    w.Course tone (numbers.foldl (fun w i => (w.openCopy i).2) w) := by
  induction numbers generalizing w with
  | nil => exact .refl _
  | cons i rest ih => exact (course_openCopy htone i w).trans (ih _)

theorem course_openAll (htone : tone ≠ .mute) (w : Workspace Connection) :
    w.Course tone w.openAll :=
  course_openEach htone _ w

theorem course_agentReady (w : Workspace Connection) :
    ∃ env, w.env.Course .telling env ∧
      Env.Course .telling (env.emit .ready) w.agentReady.env := by
  have htelling : Tone.telling ≠ .mute := nofun
  unfold agentReady
  split
  · exact ⟨w.env, .refl, (course_openAll htelling (w.emit .ready)).env⟩
  · have hopened := (course_openAll htelling w).env
    exact ⟨w.openAll.env.refreshWindow, hopened.trans (.refreshWindow _), .refl⟩

theorem course_closeUri (htone : tone ≠ .mute) (uri : Text)
    (w : Workspace Connection) :
    w.Course tone (w.closeUri uri) := by
  unfold closeUri
  split
  · exact .refl _
  · next i _ =>
      have hremoved :
          w.Course tone
            (w.withRegistry (w.registry.filter fun r => r.1 != uri)) :=
        .withRegistry _ w
      dsimp only
      split
      · exact hremoved
      · next k _ =>
          have hleave (w' : Workspace Connection) : w'.Course tone
              ((w'.onEditor k.document.editor fun e =>
                ((e.disconnect i).attach none, [])).atDesk i Desk.close) :=
            (Course.onEditor (fun _ => rfl) _ w').trans
              (.atDesk (Desk.course_close htone) i _)
          refine Course.trans ?_ (.signal _ rfl)
          split
          · exact hremoved.trans (hleave _)
          · exact (hremoved.trans (.tell _ _)).trans (hleave _)

theorem course_close (htone : tone ≠ .mute) (path : Option Text)
    (w : Workspace Connection) :
    w.Course tone (w.close path).2 := by
  unfold close
  split
  · exact .refl _
  · split
    · exact .refl _
    · exact .refl _
    · exact course_closeUri htone _ w

theorem course_closeAll (htone : tone ≠ .mute) (w : Workspace Connection) :
    w.Course tone w.closeAll := by
  unfold closeAll
  generalize w.registry.map (·.2) = numbers
  induction numbers generalizing w with
  | nil => exact .refl _
  | cons i rest ih =>
      refine Course.trans ?_ (ih _)
      dsimp only
      split
      · exact course_close htone _ w
      · exact .refl _

theorem course_openDocument (htone : tone ≠ .mute) (j : Nat)
    (path : Option Text) (w : Workspace Connection) :
    w.Course tone (w.openDocument j path).2 := by
  unfold openDocument
  split
  · exact .refl _
  · split
    · exact .refl _
    · exact .refl _
    · next uri _ =>
        have hclosed := course_closeUri htone uri w
        dsimp only
        split
        · exact hclosed
        · next d hd =>
            have hnone : d.sync.pending = [] := by
              rcases Document.create_eq hd with ⟨name, heq⟩
              rw [heq]
              rfl
            have hadded : w.Course tone ((w.closeUri uri).add d).2 :=
              (hclosed.trans (.added hnone _)).trans
                (.onEditor (fun _ => rfl) _ _)
            have hopened (registry : List (Text × Nat)) (i : Nat) :
                w.Course tone
                ((((w.closeUri uri).add d).2.withRegistry registry).openCopy
                  i).2 :=
              (hadded.trans (.withRegistry _ _)).trans
                (course_openCopy htone i _)
            refine Course.trans ?_ (.signal _ rfl)
            split
            · exact hopened _ _
            · exact (hopened _ _).trans (.tell _ _)

/-!
# Asking, alarms and keys
-/

theorem course_flush (htone : tone ≠ .mute) (i : Nat)
    (w : Workspace Connection) :
    w.Course tone (w.flush i).2 :=
  .run (Desk.course_flush htone) i w

theorem course_request (kind : TriggerKind) (i : Nat)
    (w : Workspace Connection) :
    w.Course .asking (w.run i (Desk.request kind)).2 :=
  .run (fun k => Desk.course_requesting (Desk.request_requesting kind k)) i w

theorem course_trigger (i : Nat) (w : Workspace Connection) :
    w.Course .asking (w.trigger i).2 := by
  have hrun : w.Course .asking (w.run i Desk.trigger).2 := by
    apply Course.run
    intro k
    have hcanceled : k.Course .asking
        { k with document :=
          { k.document with trigger := k.document.trigger.cancel } } :=
      .idle rfl rfl .refl rfl rfl
    exact hcanceled.trans
      (Desk.course_requesting (Desk.request_requesting .invoked _))
  unfold trigger
  split
  · next r w' heq =>
      rw [heq] at hrun
      exact hrun
  · next w' heq =>
      rw [heq] at hrun
      exact hrun

theorem course_requestFor (i : Nat) (reason : Json) (w : Workspace Connection) :
    w.Course .asking (w.requestFor i reason).2 := by
  have hrun : w.Course .asking (w.run i (Desk.requestFor reason)).2 :=
    .run (fun k => Desk.course_requesting (Desk.requestFor_requesting reason k))
      i w
  unfold requestFor
  split
  · next r w' heq =>
      rw [heq] at hrun
      exact hrun
  · next w' heq =>
      rw [heq] at hrun
      exact hrun

theorem desk?_withDesk {w : Workspace Connection} {i : Nat}
    {k k' : Desk Connection} (hdesk : w.desk? i = some k)
    (hnumber : k'.number = k.number)
    (hplace : k'.document.editor = k.document.editor) :
    (w.withDesk k').desk? i = some k' := by
  rcases desk?_eq_some hdesk with ⟨hi, hd, he, _⟩
  have hdocument : (w.withDesk k').documents[i]? = some k'.document := by
    show (w.documents.set k'.number k'.document)[i]? = _
    rw [hnumber, hi, List.getElem?_set_self (List.getElem?_eq_some_iff.mp hd).1]
  have heditor :
      (w.withDesk k').editors[k'.document.editor]? = some k'.editor := by
    show (w.editors.set k'.document.editor k'.editor)[k'.document.editor]? = _
    rw [hplace, List.getElem?_set_self (List.getElem?_eq_some_iff.mp he).1]
  unfold desk?
  rw [hdocument]
  dsimp only
  rw [heditor, ← hi, ← hnumber]
  rfl

theorem withDesk_withDesk {k k' : Desk Connection}
    (hnumber : k'.number = k.number)
    (hplace : k'.document.editor = k.document.editor)
    (w : Workspace Connection) :
    (w.withDesk k).withDesk k' = w.withDesk k' := by
  unfold withDesk
  rw [hnumber, hplace, List.set_set, List.set_set]

theorem course_ringFlush (htone : tone ≠ .mute) (i : Nat) (a : Alarm)
    (w : Workspace Connection) :
    w.Course tone (w.ring (.flush i) a) := by
  let timed : Workspace Connection :=
    { w with env := { w.env with clock := { w.env.clock with now := a.due } } }
  let unscheduled (k : Desk Connection) :=
    k.withSync k.document.sync.unschedule k.env
  have htimed : w.Course tone timed := .atTime _ w
  have hring : w.ring (.flush i) a =
      (((timed.atDesk i unscheduled).emit (.fired a.due)).flush i).2 := rfl
  rw [hring]
  cases hdesk : timed.desk? i with
  | none =>
      have hsame : timed.atDesk i unscheduled = timed := by
        unfold atDesk
        rw [hdesk]
      rw [hsame]
      exact (htimed.trans (.emit _ rfl)).trans (course_flush htone i _)
  | some k =>
      let fired := (unscheduled k).emit (.fired a.due)
      have hflushed : k.Course tone fired.flush.2 :=
        Desk.course_flushDue htone (.fired a.due) rfl k
      have hfired :
          (timed.atDesk i unscheduled).emit (.fired a.due) =
            timed.withDesk fired := by
        unfold atDesk
        rw [hdesk]
        rfl
      have hfound : (timed.withDesk fired).desk? i = some fired :=
        desk?_withDesk hdesk rfl rfl
      have hput :
          (timed.withDesk fired).withDesk fired.flush.2 =
            timed.withDesk fired.flush.2 :=
        withDesk_withDesk (k := fired) hflushed.number hflushed.place timed
      unfold flush run
      rw [hfired, hfound]
      dsimp only
      rw [hput]
      exact htimed.trans (.withDesk hdesk hflushed)

theorem course_ring (bell : Bell) (a : Alarm) (w : Workspace Connection) :
    w.Course .asking (w.ring bell a) := by
  cases bell with
  | flush i =>
      have hasking : Tone.asking ≠ .mute := nofun
      exact course_ringFlush hasking i a w
  | trigger i =>
      have hcanceled (k : Desk Connection) : k.Course .asking
          { k with document :=
            { k.document with trigger := k.document.trigger.cancel } } :=
        .idle rfl rfl .refl rfl rfl
      have hrun :=
        (((Course.atTime a.due w).trans (.atDesk hcanceled i _)).trans
        (.emit _ (e := .fired a.due) rfl)).trans (course_request .automatic i _)
      unfold ring
      dsimp only
      split
      · next f w' heq =>
          rw [heq] at hrun
          exact hrun.trans (.tell _ _)
      · next r w' _ heq =>
          rw [heq] at hrun
          exact hrun

theorem course_advance (milliseconds : Int) (w : Workspace Connection) :
    w.Course .asking (w.advance milliseconds) :=
  (Alarm.ring_keeps (P := fun w' : Workspace Connection => w.Course .asking w')
    (fun w' bell a h => h.trans (course_ring bell a w')) _ (.refl _)).trans
      (.atTime _ _)

theorem course_key (j : Nat) (key : Key) (modifier : Modifier) (text : Text)
    (w : Workspace Connection) :
    ∃ tone, w.Course tone (w.key j key modifier text).2 := by
  unfold Workspace.key
  dsimp only
  split
  · next i _ _ =>
      have htriggered := course_trigger i w
      refine ⟨.asking, ?_⟩
      split
      · next heq =>
          rw [heq] at htriggered
          exact htriggered
      · next heq =>
          rw [heq] at htriggered
          exact htriggered
  · next i _ _ =>
      have haccepted := course_accept i w
      refine ⟨.mute, ?_⟩
      split
      · next heq =>
          rw [heq] at haccepted
          exact haccepted
      · next heq =>
          rw [heq] at haccepted
          exact haccepted
      · next heq =>
          rw [heq] at haccepted
          exact haccepted.trans (course_ordinaryKey _ _ _)
  · next i _ _ =>
      have hcanceled : w.Course .mute (w.cancel i).2 := course_cancel i w
      refine ⟨.mute, ?_⟩
      split
      · next heq =>
          rw [heq] at hcanceled
          exact hcanceled
      · next heq =>
          rw [heq] at hcanceled
          exact hcanceled.trans (course_ordinaryKey _ _ _)
  · next i places _ _ => exact ⟨.mute, course_cycle i places w⟩
  · exact ⟨.mute, course_ordinaryKey j text w⟩

end Workspace
end InlineCompletion
