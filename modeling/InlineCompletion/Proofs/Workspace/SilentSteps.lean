import InlineCompletion.Proofs.Agent.CopyAgreement
import InlineCompletion.Workspace.Keys
import InlineCompletion.Workspace.Signals

/-!
# Steps that say nothing of documents

What is said of a document depends on a few things only: its address, its
editor's place, and whether it is closed and its copy open.  A workspace keeps
*still* as long as these stay for all documents and nothing is said.  The main
statements are that edits, carets, ghost text and answers to completions keep a
workspace still.
-/

namespace InlineCompletion

structure Face where
  uri : Text
  editor : Nat
  named : Text
  opened : Bool
  closed : Bool

namespace Document

def face (d : Document) : Face :=
  ⟨d.uri, d.editor, d.sync.uri, d.sync.opened, d.closed⟩

end Document

namespace Workspace

def face? (i : Nat) (w : Workspace Connection) : Option Face :=
  (w.documents[i]?).map Document.face

/-- Whether a workspace differs from another in nothing that what is said
depends on, with silent events seen. -/
structure Still (w w' : Workspace Connection) : Prop where
  faces (i : Nat) : w'.face? i = w.face? i
  editors : w'.editors.length = w.editors.length
  registry : w'.registry = w.registry
  life : w.env.link.SameLife w'.env.link
  events : Silently w.env.trace w'.env.trace

namespace Still

theorem refl (w : Workspace Connection) : Still w w :=
  ⟨fun _ => rfl, rfl, rfl, .refl _, .refl _⟩

theorem trans {w w' w'' : Workspace Connection} (h : Still w w')
    (h' : Still w' w'') :
    Still w w'' where
  faces i := (h'.faces i).trans (h.faces i)
  editors := h'.editors.trans h.editors
  registry := h'.registry.trans h.registry
  life := h.life.trans h'.life
  events := h.events.trans h'.events

end Still

/-!
# Desks
-/

theorem desk?_eq_some {τ : Type} {w : Workspace τ} {i : Nat} {k : Desk τ}
    (h : w.desk? i = some k) :
    k.number = i ∧ w.documents[i]? = some k.document ∧
      w.editors[k.document.editor]? = some k.editor ∧ k.env = w.env := by
  unfold desk? at h
  cases hd : w.documents[i]? with
  | none =>
      rw [hd] at h
      cases h
  | some d =>
      rw [hd] at h
      cases he : w.editors[d.editor]? with
      | none => simp [he] at h
      | some e =>
          simp only [he, Option.map_some, Option.some.injEq] at h
          subst h
          exact ⟨rfl, rfl, he, rfl⟩

theorem desk?_eq_none {τ : Type} {w : Workspace τ} {i : Nat} {d : Document}
    (h : w.desk? i = none) (hd : w.documents[i]? = some d) :
    ¬ d.editor < w.editors.length := by
  unfold desk? at h
  rw [hd] at h
  simpa using h

theorem getElem?_concat {α : Type} (l : List α) (x : α) (i : Nat) :
    (l ++ [x])[i]? = if i = l.length then some x else l[i]? := by
  by_cases hi : i = l.length
  · rw [if_pos hi, hi, List.getElem?_concat_length]
  · rw [if_neg hi]
    rcases Nat.lt_or_gt_of_ne hi with hlt | hgt
    · rw [List.getElem?_append_left hlt]
    · rw [List.getElem?_eq_none (Nat.le_of_lt hgt), List.getElem?_eq_none]
      rw [List.length_append]
      exact hgt

theorem mem_of_registered? {τ : Type} {w : Workspace τ} {uri : Text} {i : Nat}
    (h : w.registered? uri = some i) : (uri, i) ∈ w.registry := by
  rcases List.lookup_eq_some_iff.mp h with ⟨before, after, heq, _⟩
  rw [heq]
  simp

/-- Where no address is registered twice, a document is found under the address
that it is registered under. -/
theorem registered?_eq_some_iff {τ : Type} {w : Workspace τ}
    (hdistinct : (w.registry.map (·.1)).Nodup) {uri : Text} {i : Nat} :
    w.registered? uri = some i ↔ (uri, i) ∈ w.registry := by
  refine ⟨mem_of_registered?, fun hmem => ?_⟩
  rcases List.mem_iff_append.mp hmem with ⟨before, after, heq⟩
  rw [heq, List.map_append, List.map_cons] at hdistinct
  unfold registered?
  rw [heq, List.lookup_eq_some_iff]
  refine ⟨before, after, rfl, ?_⟩
  intro p hp
  have hne :=
    (List.nodup_append.mp hdistinct).2.2 p.1 (List.mem_map_of_mem hp) uri
    List.mem_cons_self
  simpa using fun heq : uri = p.1 => hne heq.symm

theorem face?_of_desk? {w : Workspace Connection} {i : Nat}
    {k : Desk Connection} (h : w.desk? i = some k) :
    w.face? i = some k.document.face := by
  unfold face?
  rw [(desk?_eq_some h).2.1]
  rfl

theorem editor_lt {τ : Type} {w : Workspace τ} {i : Nat} {k : Desk τ}
    (h : w.desk? i = some k) :
    k.document.editor < w.editors.length := by
  have hsome := (desk?_eq_some h).2.2.1
  exact (List.getElem?_eq_some_iff.mp hsome).1

theorem face?_withDesk {w : Workspace Connection} {i : Nat}
    {k k' : Desk Connection} (h : w.desk? i = some k)
    (hnumber : k'.number = k.number) (j : Nat) :
    (w.withDesk k').face? j = if i = j then some k'.document.face else
    w.face? j := by
  have hlt := (List.getElem?_eq_some_iff.mp (desk?_eq_some h).2.1).1
  unfold face? withDesk
  rw [hnumber, (desk?_eq_some h).1]
  show ((w.documents.set i k'.document)[j]?).map Document.face = _
  rw [List.getElem?_set]
  by_cases hij : i = j
  · rw [if_pos hij, if_pos hij, if_pos hlt]
    rfl
  · rw [if_neg hij, if_neg hij]

theorem Still.withDesk {w : Workspace Connection} {i : Nat}
    {k k' : Desk Connection} (h : w.desk? i = some k) (hidle : k.Idle k') :
    Still w (w.withDesk k') where
  faces j := by
    rw [face?_withDesk h hidle.seat.number]
    by_cases hij : i = j
    · have hface : k'.document.face = k.document.face := by
        unfold Document.face
        rw [hidle.seat.uri, hidle.seat.place, hidle.named, hidle.opened,
          hidle.closed]
      rw [if_pos hij, hface, ← hij, face?_of_desk? h]
    · rw [if_neg hij]
  editors := by simp [Workspace.withDesk]
  registry := rfl
  life := by
    have hlife := hidle.life
    rw [(desk?_eq_some h).2.2.2] at hlife
    exact hlife
  events := by
    have hevents := hidle.events
    rw [(desk?_eq_some h).2.2.2] at hevents
    exact hevents

theorem still_atDesk {f : Desk Connection → Desk Connection}
    (hf : ∀ k, Desk.Idle k (f k)) (i : Nat) (w : Workspace Connection) :
    Still w (w.atDesk i f) := by
  unfold atDesk
  cases hdesk : w.desk? i with
  | none => exact .refl w
  | some k => exact .withDesk hdesk (hf k)

theorem still_run {α : Type} {f : Desk Connection → α × Desk Connection}
    (hf : ∀ k, Desk.Idle k (f k).2) (i : Nat) (w : Workspace Connection) :
    Still w (w.run i f).2 := by
  unfold run
  cases hdesk : w.desk? i with
  | none => exact .refl w
  | some k => exact .withDesk hdesk (hf k)

/-!
# Surroundings and editors
-/

theorem still_emit (w : Workspace Connection) {e : Event}
    (he : e.isSilent = true) :
    Still w (w.emit e) :=
  ⟨fun _ => rfl, rfl, rfl, .refl _, .append _ (by simpa using he)⟩

theorem still_tell (w : Workspace Connection) {n : Notice}
    (hn : (Event.notice n).isSilent = true) : Still w (w.tell n) :=
  still_emit w hn

theorem still_signal (w : Workspace Connection) {e : Event}
    (he : e.isSilent = true) :
    Still w { w with env := w.env.signal e } := by
  have hrefresh : Still w { w with env := w.env.refreshWindow } := by
    unfold Env.refreshWindow
    cases w.env.window with
    | none => exact .refl w
    | some v => exact ⟨fun _ => rfl, rfl, rfl, .refl _, .append _ rfl⟩
  exact hrefresh.trans (still_emit _ he)

theorem still_onLink (w : Workspace Connection) {f : Connection → Connection}
    (hf : w.env.link.SameLife (f w.env.link)) : Still w (w.onLink f) :=
  ⟨fun _ => rfl, rfl, rfl, hf, .refl _⟩

theorem still_atTime (w : Workspace Connection) (time : Int) :
    Still w { w with env :=
      { w.env with clock := { w.env.clock with now := time } } } :=
  ⟨fun _ => rfl, rfl, rfl, .refl _, .refl _⟩

theorem still_onEditor {f : Editor → Editor × List Event}
    (hf : ∀ e, (f e).2.all Event.isSilent = true) (j : Nat)
    (w : Workspace Connection) :
    Still w (w.onEditor j f) := by
  unfold onEditor
  cases w.editors[j]? with
  | none => exact .refl w
  | some e => exact ⟨fun _ => rfl, by simp, rfl, .refl _, .append _ (hf e)⟩

end Workspace

/-!
# Edits, carets and ghost text
-/

namespace Desk

theorem Idle.refl (k : Desk Connection) : Idle k k := (Quiet.refl k).idle

theorem idle_recordEdit (e : Edit) (k : Desk Connection) :
    Idle k (k.recordEdit e) := by
  cases hclosed : k.document.closed with
  | true =>
      rw [recordEdit_closed e hclosed]
      exact .refl k
  | false =>
      have hquiet := (quiet_recordEdit e hclosed).idle
      exact ⟨recordEdit_sameSeat e k, hquiet.named, hquiet.closed,
        hquiet.opened, hquiet.life, hquiet.events⟩

end Desk

namespace Workspace

theorem still_tellEdit (edit : Edit) (listeners : List Nat)
    (w : Workspace Connection) :
    Still w (w.tellEdit edit listeners) := by
  unfold tellEdit
  induction listeners generalizing w with
  | nil => exact .refl w
  | cons i rest ih =>
      exact (still_atDesk (Desk.idle_recordEdit edit) i w).trans (ih _)

theorem still_editWith (j : Nat) (f : Editor → Option Edit × Editor)
    (w : Workspace Connection) :
    Still w (w.editWith j f) := by
  unfold editWith
  cases w.editors[j]? with
  | none => exact .refl w
  | some e =>
      have hchanged : Still w { w with editors := w.editors.set j (f e).2 } :=
        ⟨fun _ => rfl, by simp, rfl, .refl _, .refl _⟩
      cases hedit : (f e).1 with
      | none => simpa [hedit] using hchanged
      | some edit =>
          simp only [hedit]
          exact (hchanged.trans (still_emit _ rfl)).trans
            (still_tellEdit edit e.listeners _)

theorem still_moveCursor (j : Nat) (offset : Int) (w : Workspace Connection) :
    Still w (w.moveCursor j offset) := by
  apply still_onEditor
  intro e
  unfold Editor.moveCursor
  cases e.caret with
  | free _ => rfl
  | units _ _ => rfl

theorem still_onStage {f : Stage → Stage} (hf : ∀ s, Stage.Quiet s (f s))
    (i : Nat) (w : Workspace Connection) :
    Still w (w.atDesk i (Desk.onStage f)) :=
  still_atDesk (fun k => (Desk.quiet_onStage hf k).idle) i w

theorem still_runStage {α : Type} {f : Stage → α × Stage}
    (hf : ∀ s, Stage.Quiet s (f s).2) (i : Nat) (w : Workspace Connection) :
    Still w (w.run i (Desk.runStage f)).2 :=
  still_run (fun k => (Desk.quiet_withStage (hf k.stage)).idle) i w

theorem still_accept (i : Nat) (w : Workspace Connection) :
    Still w (w.accept i).2 := by
  have hstaged := still_runStage Stage.quiet_accept i w
  unfold accept
  split
  · next f w' heq =>
      rw [heq] at hstaged
      exact hstaged
  · next edit w' heq =>
      rw [heq] at hstaged
      split
      · exact hstaged
      · exact (hstaged.trans (still_editWith _ _ _)).trans
          (still_moveCursor _ _ _)
  · next w' heq =>
      rw [heq] at hstaged
      exact hstaged
  · next w' heq =>
      rw [heq] at hstaged
      exact hstaged

theorem still_detach (i : Nat) (w : Workspace Connection) :
    Still w (w.detach i).2 := by
  unfold detach
  split
  · exact .refl w
  · split
    · exact still_onEditor (fun _ => rfl) _ w
    · exact .refl w

theorem still_answer (waiting : Waiting) (message : Json)
    (w : Workspace Connection) :
    Still w (w.answer waiting message).2 := by
  cases waiting with
  | handshake => exact .refl w
  | completion i ticket =>
      exact still_atDesk
        (fun k => (Desk.quiet_receive ticket message k).idle) i w
  | probe label fault => exact still_emit w rfl

theorem still_ordinaryKey (j : Nat) (text : Text) (w : Workspace Connection) :
    Still w (w.ordinaryKey j text) := by
  have hseen := still_emit w (e := .ordinaryKey) rfl
  unfold ordinaryKey
  split
  · exact hseen
  · exact hseen.trans (still_editWith _ _ _)

theorem load_silent {path : Text} {bytes : List UInt8} {e e' : Editor}
    {n : Notice} (h : e.load path bytes = .ok (e', n)) :
    (Event.notice n).isSilent = true := by
  unfold Editor.load at h
  split at h
  · cases h
  · cases h
    rfl

theorem still_loadFile (j : Nat) (path : Text)
    (content : Except Fault (List UInt8)) (w : Workspace Connection) :
    Still w (w.loadFile j path content).2 := by
  unfold loadFile
  split
  · exact .refl w
  · exact .refl w
  · split
    · exact .refl w
    · next hload =>
        refine ⟨fun _ => rfl, List.length_set .., rfl, .refl _, .append _ ?_⟩
        rw [List.all_cons, load_silent hload]
        rfl

theorem still_paint (j : Nat) (w : Workspace Connection) :
    Still w (w.paint j) := by
  apply still_onEditor
  intro e
  rw [List.all_map]
  exact List.all_eq_true.mpr fun _ _ => rfl

theorem still_troubled (kind : String) (w : Workspace Connection) :
    Still w { w with env := Connection.troubled kind w.env } := by
  unfold Connection.troubled
  split
  · exact still_tell w rfl
  · exact still_tell w rfl

end Workspace
end InlineCompletion
