import InlineCompletion.Proofs.Document.Caret
import InlineCompletion.Proofs.Workspace.Isolation

/-!
# What keys go to

The keys of a widget go to the document that was opened for it last, until a
document of that widget is closed: then they go to none, whichever of its
documents that was.  Who listens to an editor is kept for each document by
itself.  The main statement says what becomes of both, for an editor whose keys
go to one document, as another document is closed or its path is opened again.
-/

namespace InlineCompletion

namespace Desk

variable {τ : Type} [Link τ]

theorem Kept.attached (a : Option Nat) :
    Kept fun k : Desk τ => k.editor.attached = a where
  quiet hquiet h := hquiet.attached.trans h
  announced _ _ _ h := h
  reannounced _ _ _ h := h
  delivered _ _ h := h
  closing _ h := h
  asked _ _ _ _ h := h
  unasked _ h := h

theorem operate_attached (o : Operation) (k : Desk τ) :
    (k.operate o).editor.attached = k.editor.attached := by
  apply (Kept.attached k.editor.attached).operate
  · intro k _ h
    exact h
  · rfl

end Desk

namespace Workspace

variable {τ : Type}

/-!
# Editors and their documents
-/

/-- Whether the keys of each editor go to a document of that editor, if they go
to any. -/
structure Directed (w : Workspace τ) : Prop where
  directed {p i : Nat} {e : Editor} (he : w.editors[p]? = some e)
    (hi : e.attached = some i) :
    ∃ d, w.documents[i]? = some d ∧ d.editor = p

theorem Directed.of_none {w : Workspace τ}
    (h : ∀ e ∈ w.editors, e.attached = none) :
    Directed w := by
  constructor
  intro p i e he hi
  rw [h e (List.mem_of_getElem? he)] at hi
  simp at hi

namespace Directed

variable {w : Workspace τ}

theorem edited (h : Directed w) {p : Nat} {e e' : Editor}
    (he : w.editors[p]? = some e) (hloses : e.Loses e') :
    Directed { w with editors := w.editors.set p e' } := by
  constructor
  intro q i e'' hq hi
  change (w.editors.set p e')[q]? = some e'' at hq
  rw [List.getElem?_set] at hq
  split at hq
  · next hpq =>
      subst hpq
      rw [if_pos (List.getElem?_eq_some_iff.mp he).1] at hq
      cases hq
      rcases hloses.attached with hsame | hnone
      · rw [hsame] at hi
        exact h.directed he hi
      · rw [hnone] at hi
        simp at hi
  · exact h.directed hq hi

theorem added (h : Directed w) (d : Document) : Directed (w.add d).2 := by
  rw [add_eq]
  constructor
  intro p i e he hi
  change (w.editors.modify d.editor _)[p]? = some e at he
  rw [List.getElem?_modify] at he
  rcases Option.map_eq_some_iff.mp he with ⟨e', he', heq⟩
  by_cases hplace : d.editor = p
  · rw [if_pos hplace] at heq
    unfold Editor.attach at heq
    split at heq
    · rw [← heq] at hi
      cases hi
      exact ⟨d, List.getElem?_concat_length, hplace⟩
    · rw [← heq] at hi
      exact seated_concat (h.directed he' hi) d
  · rw [if_neg hplace] at heq
    rw [← show e' = e from heq] at hi
    exact seated_concat (h.directed he' hi) d

variable [Link τ]

theorem operated (h : Directed w) {i : Nat} {k : Desk τ}
    (hk : w.desk? i = some k) (o : Operation) :
    Directed (w.withDesk (k.operate o)) := by
  have hseat := k.operate_sameSeat o
  rcases desk?_eq_some hk with ⟨_, _, he, _⟩
  constructor
  intro p l e hp hl
  apply seated_operated hk o
  rw [editors_withDesk hk hseat.place] at hp
  split at hp
  · next hplace =>
      cases hp
      rw [k.operate_attached o] at hl
      rw [← hplace]
      exact h.directed he hl
  · exact h.directed hp hl

theorem kept : KeptThroughout (Directed (τ := τ)) where
  aside _ _ h := ⟨h.directed⟩
  struck _ h := ⟨h.directed⟩
  edited _ he hloses h := h.edited he hloses
  operated _ hk o h := h.operated hk o
  heard _ _ _ _ hk edit h := h.operated hk (.recordEdit edit)
  seated _ _ _ := trivial
  found _ _ _ := trivial
  added {_ _ _ _ d} _ h := h.added d
  listed _ _ h := ⟨h.directed⟩

end Directed

/-!
# Editors that a document leaves
-/

theorem editors_onEditor {w : Workspace τ} {p : Nat} {e : Editor}
    (he : w.editors[p]? = some e) (f : Editor → Editor × List Event) :
    (w.onEditor p f).editors = w.editors.set p (f e).1 := by
  unfold onEditor
  rw [he]

theorem documents_onEditor (p : Nat) (f : Editor → Editor × List Event)
    (w : Workspace τ) :
    (w.onEditor p f).documents = w.documents := by
  unfold onEditor
  split
  · rfl
  · rfl

theorem editor_add {w : Workspace τ} {d : Document} {j : Nat} {e : Editor}
    (he : w.editors[j]? = some e) (hwidget : e.isWidget = true) :
    ∃ e', (w.add d).2.editors[j]? = some e' ∧
      (∀ i, i ≠ w.documents.length → (i ∈ e'.listeners ↔ i ∈ e.listeners)) ∧
      e'.attached = if d.editor = j then some w.documents.length else
        e.attached := by
  rw [add_eq]
  refine ⟨if d.editor = j then
    (e.connect w.documents.length).attach (some w.documents.length) else
      e, ?_, ?_, ?_⟩
  · show (w.editors.modify d.editor _)[j]? = _
    rw [List.getElem?_modify, he]
    rfl
  · intro i hne
    split
    · unfold Editor.attach Editor.connect
      split
      · simp [hne]
      · simp [hne]
    · rfl
  · split
    · unfold Editor.attach
      exact (congrArg Editor.attached (if_pos hwidget)).trans rfl
    · rfl

section Linked

variable [Link τ] {w : Workspace τ} {i j l : Nat} {d : Document} {e : Editor}

/-- Whether an editor is as another was before a document left it: that document
no longer listens, and a widget's keys go to none. -/
structure LeftBy (l : Nat) (e e' : Editor) : Prop where
  listeners : e'.listeners = e.listeners.erase l
  attached : e.isWidget = true → e'.attached = none
  kind : e'.isWidget = e.isWidget

theorem leftBy_leave (l : Nat) (e : Editor) :
    LeftBy l e ((e.disconnect l).attach none) := by
  unfold Editor.attach
  split
  · exact ⟨rfl, fun _ => rfl, rfl⟩
  · next hkind => exact ⟨rfl, fun hwidget => absurd hwidget hkind, rfl⟩

theorem LeftBy.close {k : Desk τ} (h : LeftBy l e k.editor) :
    LeftBy l e k.close.editor where
  listeners := (k.operate_sameSeat .close).listeners.trans h.listeners
  attached hwidget := (k.operate_attached .close).trans (h.attached hwidget)
  kind := (Desk.Level.close k).kind.trans h.kind

/-- What becomes of an editor as a document leaves: nothing, unless it is the
document's own. -/
def LeftIf (l : Nat) (own : Prop) (e e' : Editor) : Prop :=
  (own → LeftBy l e e') ∧ (¬ own → e' = e)

theorem LeftIf.kind {own : Prop} {e e' : Editor} (h : LeftIf l own e e') :
    e'.isWidget = e.isWidget := by
  by_cases hown : own
  · exact (h.1 hown).kind
  · rw [h.2 hown]

theorem LeftIf.mem_listeners {own : Prop} {e e' : Editor}
    (h : LeftIf l own e e') (hne : l ≠ i) :
    i ∈ e'.listeners ↔ i ∈ e.listeners := by
  by_cases hown : own
  · rw [(h.1 hown).listeners]
    exact List.mem_erase_of_ne hne.symm
  · rw [h.2 hown]

theorem LeftIf.attached {own : Prop} [Decidable own] {e e' : Editor}
    (h : LeftIf l own e e') (hwidget : e.isWidget = true) :
    e'.attached = if own then none else e.attached := by
  split
  · next hown => exact (h.1 hown).attached hwidget
  · next hown => rw [h.2 hown]

theorem editor_leave (hd : w.documents[l]? = some d)
    (he : w.editors[j]? = some e) (hplaced : d.editor < w.editors.length) :
    ∃ e', ((w.onEditor d.editor
      fun e => ((e.disconnect l).attach none, [])).atDesk l
        Desk.close).editors[j]? = some e' ∧
        LeftIf l (d.editor = j) e e' := by
  have hat : w.editors[d.editor]? = some w.editors[d.editor] :=
    List.getElem?_eq_getElem hplaced
  have hleft := editors_onEditor hat fun e => ((e.disconnect l).attach none, [])
  have hplaced' : d.editor <
      (w.onEditor d.editor
        fun e => ((e.disconnect l).attach none, [])).editors.length := by
    rw [hleft, List.length_set]
    exact hplaced
  rw [← documents_onEditor d.editor fun e => ((e.disconnect l).attach none, [])]
    at hd
  rcases desk?_of_document hd hplaced' with ⟨k, hk, rfl⟩
  have hke := (desk?_eq_some hk).2.2.1
  rw [hleft, List.getElem?_set_self hplaced] at hke
  have hclosed := editors_withDesk hk (k.operate_sameSeat .close).place j
  unfold atDesk
  rw [hk]
  by_cases hown : k.document.editor = j
  · subst hown
    rw [if_pos rfl] at hclosed
    rw [hat] at he
    rw [Option.some.inj he] at hke
    have hleftBy : LeftBy l e k.editor := by
      rw [← Option.some.inj hke]
      exact leftBy_leave l e
    exact ⟨k.close.editor, hclosed, fun _ => hleftBy.close,
      fun hne => absurd rfl hne⟩
  · rw [if_neg hown, hleft, List.getElem?_set_ne hown] at hclosed
    exact ⟨e, hclosed.trans he, fun heq => absurd heq hown, fun _ => rfl⟩

theorem Enrolled.editor_closeUri (h : Enrolled w)
    (hd : w.documents[l]? = some d) (hopen : d.closed = false)
    (he : w.editors[j]? = some e) :
    ∃ e', (w.closeUri d.uri).editors[j]? = some e' ∧
      LeftIf l (d.editor = j) e e' := by
  have hmem : (d.uri, l) ∈ w.registry := h.complete (card?_of_document hd) hopen
  have hplaced : d.editor < w.editors.length := h.placed (card?_of_document hd)
  rcases desk?_of_document hd hplaced with ⟨k, hk, rfl⟩
  have hdesk :
      ({ w with registry := w.registry.filter fun r => r.1 != k.document.uri } :
      Workspace τ).desk? l = some k := hk
  have hleave {w' : Workspace τ} (hdocuments : w'.documents = w.documents)
      (heditors : w'.editors = w.editors) :
      ∃ e', ((w'.onEditor k.document.editor
        fun e => ((e.disconnect l).attach none, [])).atDesk l
          Desk.close).editors[j]? = some e' ∧
          LeftIf l (k.document.editor = j) e e' := by
    rw [← hdocuments] at hd
    rw [← heditors] at he hplaced
    exact editor_leave hd he hplaced
  unfold Workspace.closeUri
  rw [(registered?_eq_some_iff h.distinct).mpr hmem]
  dsimp only
  rw [hdesk]
  dsimp only
  split
  · exact hleave rfl rfl
  · exact hleave rfl rfl

/-- Opening a document on the agent changes no other, and of the editors neither
who listens nor what keys go to. -/
theorem openCopy_keeps (i : Nat) (he : w.editors[j]? = some e) :
    (∃ e', (w.openCopy i).2.editors[j]? = some e' ∧ e'.listeners = e.listeners ∧
      e'.attached = e.attached) ∧
    ∀ l, i ≠ l → (w.openCopy i).2.documents[l]? = w.documents[l]? := by
  unfold openCopy run
  cases hk : w.desk? i with
  | none => exact ⟨⟨e, he, rfl, rfl⟩, fun _ _ => rfl⟩
  | some k =>
      have hseat := k.operate_sameSeat .openCopy
      have hopened := editors_withDesk hk hseat.place j
      constructor
      · by_cases hown : k.document.editor = j
        · subst hown
          rw [if_pos rfl] at hopened
          cases (desk?_eq_some hk).2.2.1.symm.trans he
          exact ⟨_, hopened, hseat.listeners, k.operate_attached .openCopy⟩
        · rw [if_neg hown] at hopened
          exact ⟨e, hopened.trans he, rfl, rfl⟩
      · intro l hne
        exact (documents_withDesk hk hseat.number l).trans (if_neg hne)

theorem Enrolled.editor_openDocument (h : Enrolled w)
    (hd : w.documents[l]? = some d) (hopen : d.closed = false)
    (he : w.editors[j]? = some e) (hwidget : e.isWidget = true) {path : Text}
    (hpath : Uri.ofPath w.directory path = .ok (some d.uri)) (m : Nat)
    (hi : i < w.documents.length) (hne : l ≠ i) :
    (∃ e', (w.openDocument m (some path)).2.editors[j]? = some e' ∧
      (i ∈ e'.listeners ↔ i ∈ e.listeners) ∧
      e'.attached = if m = j then some w.documents.length
        else if d.editor = j then none else e.attached) ∧
    (w.openDocument m (some path)).2.documents[i]? = w.documents[i]? := by
  rcases Document.create_settled hpath (w.closeUri d.uri).directory
    (Language.ofPath path (w.closeUri d.uri).options.languages) m
    (w.closeUri d.uri).options with ⟨d', hd'⟩
  have hplace : d'.editor = m := by
    rcases Document.create_eq hd' with ⟨name, hcreated⟩
    rw [hcreated]
  have hmem : (d.uri, l) ∈ w.registry := h.complete (card?_of_document hd) hopen
  rcases h.closeUri_leaves hmem with ⟨_, _, _, hleaves⟩
  rcases h.editor_closeUri hd hopen he with ⟨e₁, he₁, hleft⟩
  rcases editor_add (d := d') he₁ (hleft.kind.trans hwidget) with
    ⟨e₂, he₂, hstay, hto⟩
  have hi' : i < (w.closeUri d.uri).documents.length := by
    rw [hleaves.documents]
    exact hi
  have hlast : i ≠ (w.closeUri d.uri).documents.length := Nat.ne_of_lt hi'
  have hopened := openCopy_keeps (w := { ((w.closeUri d.uri).add d').2 with
    registry := ((w.closeUri d.uri).add d').2.registry ++
      [(d.uri, (w.closeUri d.uri).documents.length)] })
      (w.closeUri d.uri).documents.length he₂
  rcases hopened with ⟨⟨e₃, he₃, hsame, hto'⟩, hothers⟩
  have hdocument :
      ((w.closeUri d.uri).add d').2.documents[i]? = w.documents[i]? := by
    rw [add_eq]
    exact (List.getElem?_append_left hi').trans (hleaves.others hne)
  rw [hplace, hleaves.documents, hleft.attached hwidget] at hto
  rw [← hto, ← hto', ← hleft.mem_listeners hne, ← hstay i
    hlast, ← hsame, ← hdocument, ← hothers i hlast.symm]
  unfold Workspace.openDocument
  dsimp only
  rw [hpath]
  dsimp only
  rw [hd']
  dsimp only
  split
  · exact ⟨⟨e₃, he₃, Iff.rfl, rfl⟩, rfl⟩
  · exact ⟨⟨e₃, he₃, Iff.rfl, rfl⟩, rfl⟩

/-- In every workspace that a run comes to from one without documents where keys
go to none, the keys of a widget go to a document of that widget.  As another
document is closed, this one stays as it is and listens as before, and the keys
still go to it if the other was at another editor, and else to none.  So it is
as the path of another is opened again, except that the keys of a widget for
which it is opened go to the document that is new. -/
theorem closed_beside_attached {start : Workspace τ} (hstart : start.Untouched)
    (hfree : ∀ e ∈ start.editors, e.attached = none) (h : Served start w)
    (he : w.editors[j]? = some e) (hwidget : e.isWidget = true)
    (hi : e.attached = some i) (hd : w.documents[l]? = some d)
    (hopen : d.closed = false) (hne : l ≠ i) {path : Text}
    (hpath : Uri.ofPath w.directory path = .ok (some d.uri)) :
    (∃ d', w.documents[i]? = some d' ∧ d'.editor = j) ∧
    ((∃ e', (w.close (some path)).2.editors[j]? = some e' ∧
      (i ∈ e'.listeners ↔ i ∈ e.listeners) ∧
      e'.attached = if d.editor = j then none else some i) ∧
    (w.close (some path)).2.documents[i]? = w.documents[i]?) ∧
    ∀ m, (∃ e', (w.openDocument m (some path)).2.editors[j]? = some e' ∧
      (i ∈ e'.listeners ↔ i ∈ e.listeners) ∧
      e'.attached = if m = j then some w.documents.length
        else if d.editor = j then none else some i) ∧
    (w.openDocument m (some path)).2.documents[i]? = w.documents[i]? := by
  have henrolled := h.enrolled hstart.documents hstart.registry
  have hdirected : Directed w :=
    Directed.kept.served (fun _ h => ⟨h.directed⟩) (.of_none hfree) h
  rcases hdirected.directed he hi with ⟨d', hd', hown⟩
  have hlt : i < w.documents.length := (List.getElem?_eq_some_iff.mp hd').1
  rcases henrolled.closeUri_leaves
    (henrolled.complete (card?_of_document hd) hopen) with
    ⟨_, _, _, hleaves⟩
  rcases henrolled.editor_closeUri hd hopen he with ⟨e', he', hleft⟩
  have hclose : (w.close (some path)).2 = w.closeUri d.uri := by
    unfold Workspace.close
    dsimp only
    rw [hpath]
  rw [hclose, ← hi]
  refine ⟨⟨d', hd', hown⟩,
    ⟨⟨e', he', hleft.mem_listeners hne, hleft.attached hwidget⟩, ?_⟩, ?_⟩
  · exact hleaves.others hne
  · intro m
    exact henrolled.editor_openDocument hd hopen he hwidget hpath m hlt hne

end Linked

def widgets : Workspace Scripted :=
  create (.ofLink ⟨true, false, false, none, [], false⟩) .root
    [.widget ['a'], .widget ['b']] .usual

/-- Two documents were opened for the first widget, and then one for the
second. -/
def crowded : Workspace Scripted :=
  ((widgets.serve (.openDocument 0 (some "/a.c".toList))).serve
    (.openDocument 0 (some "/b.c".toList))).serve
      (.openDocument 1 (some "/c.c".toList))

theorem crowded_served : Served widgets crowded := by
  have hfirst : widgets.Serves (.openDocument 0 (some "/a.c".toList)) :=
    Nat.zero_lt_succ 1
  refine .step (.step (.step .start hfirst) ?_) ?_
  · show 0 < List.length _
    decide +kernel
  · show 1 < List.length _
    decide +kernel

/-- The keys of the first widget go to the second document.  They still do when
the third one is closed, and go to none when the first one is. -/
theorem closed_beside_attached_crowded :
    (∃ e, (crowded.close (some "/c.c".toList)).2.editors[0]? = some e ∧
    1 ∈ e.listeners ∧
      e.attached = some 1) ∧
    ∃ e, (crowded.close (some "/a.c".toList)).2.editors[0]? = some e ∧
      1 ∈ e.listeners ∧
      e.attached = none := by
  have hstart : widgets.Untouched := ⟨rfl, rfl, by decide⟩
  have hfree : ∀ e ∈ widgets.editors, e.attached = none := by decide
  have hwidget :
      (crowded.editors[0]?).map
        (fun e => (e.isWidget, e.attached, e.listeners)) =
      some (true, some 1, [0, 1]) := by
    decide +kernel
  have hfirst :
      (crowded.documents[0]?).map (fun d => (d.uri, d.closed, d.editor)) =
      some ("file:///a.c".toList, false, 0) := by
    decide +kernel
  have hthird :
      (crowded.documents[2]?).map (fun d => (d.uri, d.closed, d.editor)) =
      some ("file:///c.c".toList, false, 1) := by
    decide +kernel
  rcases Option.map_eq_some_iff.mp hwidget with ⟨e, he, hview⟩
  rcases Option.map_eq_some_iff.mp hfirst with ⟨d, hd, hseat⟩
  rcases Option.map_eq_some_iff.mp hthird with ⟨d', hd', hseat'⟩
  injection hview with hkind hview
  injection hview with hto hlisteners
  injection hseat with huri hseat
  injection hseat with hopen hplace
  injection hseat' with huri' hseat'
  injection hseat' with hopen' hplace'
  have hpath :
      Uri.ofPath crowded.directory "/a.c".toList = .ok (some d.uri) := by
    rw [huri]
    decide +kernel
  have hpath' :
      Uri.ofPath crowded.directory "/c.c".toList = .ok (some d'.uri) := by
    rw [huri']
    decide +kernel
  have hlistens : 1 ∈ e.listeners := by
    rw [hlisteners]
    decide
  constructor
  · rcases closed_beside_attached hstart hfree crowded_served he hkind hto hd'
      hopen' nofun hpath' with ⟨_, ⟨⟨e', he', hstays, hto'⟩, _⟩, _⟩
    rw [hplace'] at hto'
    exact ⟨e', he', hstays.mpr hlistens, hto'⟩
  · rcases closed_beside_attached hstart hfree crowded_served he hkind hto hd
      hopen nofun hpath with ⟨_, ⟨⟨e', he', hstays, hto'⟩, _⟩, _⟩
    rw [hplace] at hto'
    exact ⟨e', he', hstays.mpr hlistens, hto'⟩

/-- The keys of a widget went to a document that is open and listens, and go to
none when another document is closed. -/
theorem keys_lost_beside :
    Served widgets crowded ∧
    (crowded.editors[0]?).map (fun e => (e.attached, e.listeners)) = some
    (some 1, [0, 1]) ∧
    ((crowded.close (some "/a.c".toList)).2.documents[1]?).map
    (fun d => (d.uri, d.closed)) =
      some ("file:///b.c".toList, false) ∧
    ((crowded.close (some "/a.c".toList)).2.editors[0]?).map
    (fun e => (e.attached, e.listeners)) =
      some (none, [1]) :=
  ⟨crowded_served, by decide +kernel, by decide +kernel, by decide +kernel⟩

end Workspace
end InlineCompletion
