import InlineCompletion.Proofs.Workspace.Operation
import InlineCompletion.Proofs.Workspace.Registry

/-!
# Domains

A *domain* is a choice of documents, of editors and of addresses.  What is kept
by single operations at the desks of its documents, by changes to its editors,
and as its addresses are struck off the registry, is kept by all that happens
within the domain.  The main statements say so for each thing that happens to a
document or an editor, and for whole runs where everything is in the domain.
-/

namespace InlineCompletion

structure Domain where
  documents : Nat → Prop
  editors : Nat → Prop
  addresses : Text → Prop

def Domain.all : Domain := ⟨fun _ => True, fun _ => True, fun _ => True⟩

/-!
# Editors that lose

Apart from a document that is added, nothing makes a document listen to an
editor or keys go to it.
-/

namespace Editor

/-- Whether an editor lost listeners at most, and its keys go where they went,
or nowhere. -/
structure Loses (e e' : Editor) : Prop where
  listeners {i : Nat} (hi : i ∈ e'.listeners) : i ∈ e.listeners
  attached : e'.attached = e.attached ∨ e'.attached = none

namespace Loses

theorem of_same {e e' : Editor} (hlisteners : e'.listeners = e.listeners)
    (hattached : e'.attached = e.attached) : Loses e e' := by
  constructor
  · intro i hi
    rw [hlisteners] at hi
    exact hi
  · exact Or.inl hattached

theorem of_sameView {e e' : Editor} (h : e.SameView e') : Loses e e' :=
  of_same h.2.1 h.2.2.1

theorem moveCursor (offset : Int) (e : Editor) :
    Loses e (e.moveCursor offset).1 := by
  unfold Editor.moveCursor
  cases e.caret with
  | free _ => exact of_same rfl rfl
  | units _ _ => exact of_same rfl rfl

theorem select (anchor position : Int) (e : Editor) :
    Loses e (e.select anchor position) := by
  unfold Editor.select
  cases e.caret with
  | free _ => exact of_same rfl rfl
  | units _ _ => exact of_same rfl rfl

theorem disconnect (i : Nat) (e : Editor) : Loses e (e.disconnect i) :=
  ⟨List.mem_of_mem_erase, Or.inl rfl⟩

theorem leave (i : Nat) (e : Editor) :
    Loses e ((e.disconnect i).attach none) := by
  unfold attach
  split
  · exact ⟨List.mem_of_mem_erase, Or.inr rfl⟩
  · exact disconnect i e

end Loses
end Editor

namespace Workspace

variable {τ : Type}

theorem tellEdit_keeps {P : Workspace τ → Prop} {edit : Edit}
    {listeners : List Nat}
    (hheard : ∀ i ∈ listeners, ∀ {w : Workspace τ} {k : Desk τ}, w.desk? i =
    some k → P w →
      P (w.withDesk (k.recordEdit edit))) {w : Workspace τ} (h : P w) :
    P (w.tellEdit edit listeners) := by
  unfold tellEdit
  induction listeners generalizing w with
  | nil => exact h
  | cons i rest ih =>
      have hfirst : P (w.atDesk i (Desk.recordEdit edit)) := by
        unfold atDesk
        cases hk : w.desk? i with
        | none => exact h
        | some k => exact hheard i List.mem_cons_self hk h
      exact ih (fun i hi => hheard i (List.mem_cons_of_mem _ hi)) hfirst

/-- Whether a property is kept by what happens within a domain.  The documents
of the domain sit at its editors, and its addresses are those of its
documents. -/
structure KeptWithin [Link τ] (D : Domain) (P : Workspace τ → Prop) : Prop where
  aside {w : Workspace τ} {env : Env τ} (hlink : env.link = w.env.link)
    (hevents : Quietly w.env.trace env.trace) : P w → P { w with env := env }
  struck {w : Workspace τ} {uri : Text} (h : D.addresses uri) :
    P w → P { w with registry := w.registry.filter fun r => r.1 != uri }
  edited {w : Workspace τ} {p : Nat} {e e' : Editor} (h : D.editors p)
    (he : w.editors[p]? = some e) (hloses : e.Loses e') :
        P w → P { w with editors := w.editors.set p e' }
  operated {w : Workspace τ} {i : Nat} {k : Desk τ} (h : D.documents i)
    (hk : w.desk? i = some k) (o : Operation) :
        P w → P (w.withDesk (k.operate o))
  /-- Those who listen to an editor of the domain hear of its edits, whatever
  happened since. -/
  heard {w w' : Workspace τ} {p i : Nat} {e : Editor} {k : Desk τ}
    (h : D.editors p) (he : w.editors[p]? = some e) (hi : i ∈ e.listeners)
    (hw : P w) (hk : w'.desk? i = some k)
    (edit : Edit) : P w' → P (w'.withDesk (k.recordEdit edit))
  seated {w : Workspace τ} {i : Nat} {d : Document} (h : D.documents i)
    (hd : w.documents[i]? = some d) : P w → D.editors d.editor
  found {w : Workspace τ} {uri : Text} {i : Nat} (h : D.addresses uri)
    (hi : w.registered? uri = some i) : P w → D.documents i

namespace KeptWithin

variable [Link τ] {D : Domain} {P : Workspace τ → Prop} {w : Workspace τ}
    {i j : Nat} {uri : Text}

/-!
# Surroundings and editors
-/

theorem emit (hP : KeptWithin D P) {e : Event} (he : e.isQuiet = true)
    (h : P w) : P (w.emit e) := by
  have hes : [e].all Event.isQuiet = true := by
    rw [List.all_cons, he]
    rfl
  exact hP.aside rfl (.append _ hes) h

theorem signal (hP : KeptWithin D P) {e : Event} (he : e.isQuiet = true)
    (h : P w) :
    P { w with env := w.env.signal e } := by
  have hrefreshed : P { w with env := w.env.refreshWindow } := by
    unfold Env.refreshWindow
    cases w.env.window with
    | none => exact h
    | some v => exact hP.aside rfl (.append _ rfl) h
  exact hP.emit he hrefreshed

theorem atTime (hP : KeptWithin D P) (time : Int) (h : P w) :
    P { w with env :=
      { w.env with clock := { w.env.clock with now := time } } } :=
  hP.aside rfl (.refl _) h

theorem onEditor (hP : KeptWithin D P) (hj : D.editors j)
    {f : Editor → Editor × List Event} (hloses : ∀ e, Editor.Loses e (f e).1)
    (hevents : ∀ e, (f e).2.all Event.isQuiet = true) (h : P w) :
    P (w.onEditor j f) := by
  unfold Workspace.onEditor
  split
  · exact h
  · next e he =>
      have hedited := hP.edited hj he (hloses e) h
      exact hP.aside (w := { w with editors := w.editors.set j (f e).1 }) rfl
        (.append _ (hevents e)) hedited

theorem moveCursor (hP : KeptWithin D P) (hj : D.editors j) (offset : Int)
    (h : P w) :
    P (w.moveCursor j offset) := by
  apply hP.onEditor hj (Editor.Loses.moveCursor offset) _ h
  intro e
  unfold Editor.moveCursor
  cases e.caret <;> rfl

theorem select (hP : KeptWithin D P) (hj : D.editors j) (anchor position : Int)
    (h : P w) :
    P (w.onEditor j fun e => (e.select anchor position, [])) :=
  hP.onEditor hj (Editor.Loses.select anchor position) (fun _ => rfl) h

theorem editWith (hP : KeptWithin D P) (hj : D.editors j)
    {f : Editor → Option Edit × Editor}
    (hview : ∀ e : Editor, e.SameView (f e).2) (h : P w) :
    P (w.editWith j f) := by
  unfold Workspace.editWith
  split
  · exact h
  · next e he =>
      have hedited := hP.edited hj he (.of_sameView (hview e)) h
      dsimp only
      split
      · exact hedited
      · next edit _ =>
          exact tellEdit_keeps (fun i hi _ _ hk => hP.heard hj he hi h hk edit)
            (hP.emit rfl hedited)

/-!
# Desks
-/

theorem atDesk (hP : KeptWithin D P) (hi : D.documents i) (o : Operation)
    (h : P w) :
    P (w.atDesk i (Desk.operate o)) := by
  unfold Workspace.atDesk
  cases hk : w.desk? i with
  | none => exact h
  | some k => exact hP.operated hi hk o h

theorem run {α : Type} (hP : KeptWithin D P) (hi : D.documents i)
    (o : Operation) {f : Desk τ → α × Desk τ} (hf : ∀ k, (f k).2 = k.operate o)
    (h : P w) : P (w.run i f).2 := by
  unfold Workspace.run
  cases hk : w.desk? i with
  | none => exact h
  | some k =>
      dsimp only
      rw [hf]
      exact hP.operated hi hk o h

theorem accept (hP : KeptWithin D P) (hi : D.documents i) (h : P w) :
    P (w.accept i).2 := by
  have hstaged : P (w.run i (Desk.runStage Stage.accept)).2 :=
    hP.run hi .accept (fun _ => rfl) h
  unfold Workspace.accept
  split
  · next heq =>
      rw [heq] at hstaged
      exact hstaged
  · next edit w' heq =>
      rw [heq] at hstaged
      split
      · exact hstaged
      · next d hd =>
          have hplace := hP.seated hi hd hstaged
          have hreplaced : P (w'.replace d.editor edit) :=
            hP.editWith hplace (Editor.replace_sameView edit) hstaged
          exact hP.moveCursor hplace _ hreplaced
  · next heq =>
      rw [heq] at hstaged
      exact hstaged
  · next heq =>
      rw [heq] at hstaged
      exact hstaged

theorem cancel (hP : KeptWithin D P) (hi : D.documents i) (h : P w) :
    P (w.cancel i).2 :=
  hP.run hi .cancel (fun _ => rfl) h

theorem cycle (hP : KeptWithin D P) (hi : D.documents i) (places : Int)
    (h : P w) :
    P (w.cycle i places).2 :=
  hP.run hi (.cycle places) (fun _ => rfl) h

theorem supersede (hP : KeptWithin D P) (hi : D.documents i) (h : P w) :
    P (w.supersede i) :=
  hP.atDesk hi .supersede h

theorem receive (hP : KeptWithin D P) (hi : D.documents i) (ticket : Nat)
    (message : Json) (h : P w) : P (w.atDesk i (Desk.receive ticket message)) :=
  hP.atDesk hi (.receive ticket message) h

theorem detach (hP : KeptWithin D P) (hi : D.documents i) (h : P w) :
    P (w.detach i).2 := by
  unfold Workspace.detach
  split
  · exact h
  · next k hk =>
      split
      · exact hP.onEditor (hP.seated hi (desk?_eq_some hk).2.1 h)
          (Editor.Loses.disconnect i) (fun _ => rfl) h
      · exact h

theorem openCopy (hP : KeptWithin D P) (hi : D.documents i) (h : P w) :
    P (w.openCopy i).2 :=
  hP.run hi .openCopy (fun _ => rfl) h

theorem flush (hP : KeptWithin D P) (hi : D.documents i) (h : P w) :
    P (w.flush i).2 :=
  hP.run hi .flush (fun _ => rfl) h

theorem trigger (hP : KeptWithin D P) (hi : D.documents i) (h : P w) :
    P (w.trigger i).2 := by
  have hrun : P (w.run i Desk.trigger).2 := hP.run hi .trigger (fun _ => rfl) h
  unfold Workspace.trigger
  split
  · next heq =>
      rw [heq] at hrun
      exact hrun
  · next heq =>
      rw [heq] at hrun
      exact hrun

theorem requestFor (hP : KeptWithin D P) (hi : D.documents i) (reason : Json)
    (h : P w) :
    P (w.requestFor i reason).2 := by
  have hrun : P (w.run i (Desk.requestFor reason)).2 :=
    hP.run hi (.requestFor reason) (fun _ => rfl) h
  unfold Workspace.requestFor
  split
  · next heq =>
      rw [heq] at hrun
      exact hrun
  · next heq =>
      rw [heq] at hrun
      exact hrun

theorem ringFlush (hP : KeptWithin D P) (hi : D.documents i) (a : Alarm)
    (h : P w) :
    P (w.ring (.flush i) a) := by
  have hunscheduled := hP.atDesk hi .unschedule (hP.atTime a.due h)
  exact hP.flush hi (hP.emit (e := .fired a.due) rfl hunscheduled)

theorem ringTrigger (hP : KeptWithin D P) (hi : D.documents i) (a : Alarm)
    (h : P w) :
    P (w.ring (.trigger i) a) := by
  have hcalm := hP.atDesk hi .calm (hP.atTime a.due h)
  have hrun :=
    hP.run hi (.request .automatic) (f := Desk.request .automatic)
    (fun _ => rfl) (hP.emit (e := .fired a.due) rfl hcalm)
  unfold Workspace.ring
  dsimp only
  split
  · next f w' heq =>
      have hsame : _ = w' := congrArg Prod.snd heq
      subst hsame
      exact hP.emit rfl hrun
  · next w' _ heq =>
      have hsame : _ = w' := congrArg Prod.snd heq
      subst hsame
      exact hrun

/-!
# Closing
-/

theorem closeUri (hP : KeptWithin D P) (huri : D.addresses uri) (h : P w) :
    P (w.closeUri uri) := by
  unfold Workspace.closeUri
  split
  · exact h
  · next i hregistered =>
      have hi := hP.found huri hregistered h
      have hstruck := hP.struck huri h
      dsimp only
      split
      · exact hstruck
      · next k hk =>
          have hplace := hP.seated hi (desk?_eq_some hk).2.1 hstruck
          have hleave {w' : Workspace τ} (h' : P w') :
              P ((w'.onEditor k.document.editor
              fun e => ((e.disconnect i).attach none, [])).atDesk i
                Desk.close) :=
            hP.atDesk hi .close
              (hP.onEditor hplace (Editor.Loses.leave i) (fun _ => rfl) h')
          refine hP.signal rfl ?_
          split
          · exact hleave hstruck
          · exact hleave (hP.emit rfl hstruck)

theorem close (hP : KeptWithin D P) {path : Option Text}
    (hpath : ∀ p uri, path = some p →
    Uri.ofPath w.directory p = .ok (some uri) →
      D.addresses uri) (h : P w) : P (w.close path).2 := by
  unfold Workspace.close
  split
  · exact h
  · split
    · exact h
    · exact h
    · next uri hp => exact hP.closeUri (hpath _ uri rfl hp) h

end KeptWithin

/-!
# Runs

What is kept within the domain of everything, and as documents are added, is
kept by whole runs.
-/

theorem getElem?_concat_of_some {α : Type} {l : List α} {i : Nat} {x : α}
    (h : l[i]? = some x) (y : α) : (l ++ [y])[i]? = some x :=
  (List.getElem?_append_left (List.getElem?_eq_some_iff.mp h).1).trans h

theorem add_eq (d : Document) (w : Workspace τ) :
    (w.add d).2 = { w with
      documents := w.documents ++ [d]
      editors := w.editors.modify d.editor fun e =>
        (e.connect w.documents.length).attach (some w.documents.length) } := by
  unfold add onEditor
  dsimp only
  rw [List.modify_eq_set_getElem?]
  cases w.editors[d.editor]? with
  | none => rfl
  | some e =>
      have hsame : w.env.emits [] = w.env := by
        unfold Env.emits
        rw [List.append_nil]
      dsimp only
      rw [hsame]
      rfl

/-- Whether a property is kept by all that happens to documents, editors and the
registry. -/
structure KeptThroughout [Link τ] (P : Workspace τ → Prop) :
    Prop extends KeptWithin .all P where
  added {w : Workspace τ} {uri : Text} {language : String} {j : Nat}
    {d : Document}
    (h : Document.create w.directory uri language j w.options = .ok d) :
          P w → P (w.add d).2
  listed {w : Workspace τ} (uri : Text) (i : Nat) :
    P w → P { w with registry := w.registry ++ [(uri, i)] }

namespace KeptThroughout

variable [Link τ] {P : Workspace τ → Prop} {w : Workspace τ}

theorem openDocument (hP : KeptThroughout P) (j : Nat) (path : Option Text)
    (h : P w) :
    P (w.openDocument j path).2 := by
  unfold Workspace.openDocument
  split
  · exact h
  · split
    · exact h
    · exact h
    · next uri _ =>
        have hclosed : P (w.closeUri uri) := hP.closeUri trivial h
        dsimp only
        split
        · exact hclosed
        · next d hd =>
            have hopened :=
              hP.openCopy (i := (w.closeUri uri).documents.length) trivial
              (hP.listed uri (w.closeUri uri).documents.length
                (hP.added hd hclosed))
            refine hP.signal rfl ?_
            split
            · exact hopened
            · exact hP.emit rfl hopened

theorem openAll (hP : KeptThroughout P) (h : P w) : P w.openAll := by
  unfold Workspace.openAll
  generalize w.registry.map (·.2) = numbers
  induction numbers generalizing w with
  | nil => exact h
  | cons i rest ih => exact ih (hP.openCopy (i := i) trivial h)

theorem closeAll (hP : KeptThroughout P) (h : P w) : P w.closeAll := by
  unfold Workspace.closeAll
  generalize w.registry.map (·.2) = numbers
  induction numbers generalizing w with
  | nil => exact h
  | cons i rest ih =>
      refine ih ?_
      dsimp only
      split
      · exact hP.close (fun _ _ _ _ => trivial) h
      · exact h

theorem advance (hP : KeptThroughout P) (milliseconds : Int) (h : P w) :
    P (w.advance milliseconds) := by
  refine hP.atTime _ (Alarm.ring_keeps ?_ _ h)
  intro w bell a h
  cases bell with
  | flush i => exact hP.ringFlush (i := i) trivial a h
  | trigger i => exact hP.ringTrigger (i := i) trivial a h

/-- What is kept besides in any surroundings, and by answers of any kind, is
kept by all errands. -/
theorem serve (hP : KeptThroughout P) (henv : ∀ {w : Workspace τ} (env : Env τ),
    P w → P { w with env := env }) (r : Errand τ) (h : P w) : P
      (w.serve r) := by
  cases r with
  | openDocument j path => exact hP.openDocument j path h
  | close path => exact hP.close (fun _ _ _ _ => trivial) h
  | ready => exact hP.openAll h
  | shutDown stop => exact henv _ (hP.closeAll h)
  | edit j g => exact hP.editWith (j := j) trivial g.run_sameView h
  | moveCursor j offset => exact hP.moveCursor (j := j) trivial offset h
  | select j anchor position =>
      exact hP.select (j := j) trivial anchor position h
  | detach i => exact hP.detach (i := i) trivial h
  | flush i => exact hP.flush (i := i) trivial h
  | trigger i => exact hP.trigger (i := i) trivial h
  | request i reason => exact hP.requestFor (i := i) trivial reason h
  | accept i => exact hP.accept (i := i) trivial h
  | cancel i => exact hP.cancel (i := i) trivial h
  | cycle i places => exact hP.cycle (i := i) trivial places h
  | supersede i => exact hP.supersede (i := i) trivial h
  | answer waiting message =>
      cases waiting with
      | handshake => exact h
      | completion i ticket =>
          exact hP.receive (i := i) trivial ticket message h
      | probe label fault => exact hP.emit rfl h
  | elapse milliseconds => exact hP.advance milliseconds h
  | disturb f => exact henv _ h

theorem served (hP : KeptThroughout P)
    (henv : ∀ {w : Workspace τ} (env : Env τ), P w → P { w with env := env })
    {start : Workspace τ} (hstart : P start) (h : Served start w) : P w := by
  induction h with
  | start => exact hstart
  | step _ _ ih => exact hP.serve henv _ ih

end KeptThroughout
end Workspace
end InlineCompletion
