import InlineCompletion.Proofs.Workspace.Order

/-!
# Opening and closing documents

A document is opened in place of the one registered under its address, which is
closed first.  The main statements are that opening and closing documents keep a
workspace sound.
-/

namespace InlineCompletion
namespace Workspace

def withRegistry (registry : List (Text × Nat)) (w : Workspace Connection) :
    Workspace Connection :=
  { w with registry := registry }

theorem onEditor_withRegistry (j : Nat) (f : Editor → Editor × List Event)
    (registry : List (Text × Nat)) (w : Workspace Connection) :
    (w.withRegistry registry).onEditor j f =
    (w.onEditor j f).withRegistry registry := by
  unfold onEditor
  have heditors : (w.withRegistry registry).editors = w.editors := rfl
  rw [heditors]
  cases w.editors[j]? with
  | none => rfl
  | some e => rfl

theorem onEditor_registry (j : Nat) (f : Editor → Editor × List Event)
    (w : Workspace Connection) :
    (w.onEditor j f).registry = w.registry := by
  unfold onEditor
  cases w.editors[j]? with
  | none => rfl
  | some e => rfl

theorem atDesk_registry (i : Nat) (f : Desk Connection → Desk Connection)
    (w : Workspace Connection) : (w.atDesk i f).registry = w.registry := by
  unfold atDesk
  cases w.desk? i with
  | none => rfl
  | some k => rfl

/-!
# Closing
-/

/-- Whether a document is no longer registered, its copy not open, and all
others stay. -/
structure Removal (uri : Text) (i : Nat) (w w' : Workspace Connection) :
    Prop where
  registry : w'.registry = w.registry.filter fun r => r.1 != uri
  others {j : Nat} (h : i ≠ j) : w'.face? j = w.face? j
  editors : w'.editors.length = w.editors.length
  named {f : Face} (h : w'.face? i = some f) : f.named = f.uri
  unopened {f : Face} (h : w'.face? i = some f) : f.opened = false
  gone {f : Face} (h : w'.face? i = some f) :
      f.closed = true ∨ ¬ f.editor < w.editors.length

namespace Removal

variable {uri : Text} {i : Nat} {w w' : Workspace Connection}

theorem mem_registry (h : Removal uri i w w') {p : Text × Nat} :
    p ∈ w'.registry ↔ p ∈ w.registry ∧ p.1 ≠ uri := by
  rw [h.registry, List.mem_filter, bne_iff_ne]

theorem shelved (h : Removal uri i w w') (hw : Shelved w)
    (hmem : (uri, i) ∈ w.registry) :
    Shelved w' := by
  rcases hw.registered hmem with ⟨g, hg, hguri, _⟩
  refine ⟨?_, ?_, ?_, ?_, ?_⟩
  · rw [h.registry]
    exact hw.distinct.sublist (List.filter_sublist.map _)
  · intro u j hj
    rcases h.mem_registry.mp hj with ⟨hin, hne⟩
    rcases hw.registered hin with ⟨f, hf, huri, hclosed⟩
    have hij : i ≠ j := by
      intro heq
      rw [← heq, hg] at hf
      cases hf
      exact hne (huri.symm.trans hguri)
    exact ⟨f, (h.others hij).trans hf, huri, hclosed⟩
  · intro j f hf
    by_cases hij : i = j
    · rw [← hij] at hf
      exact h.named hf
    · exact hw.named ((h.others hij).symm.trans hf)
  · intro j f hf hgone
    rw [h.editors] at hgone
    by_cases hij : i = j
    · rw [← hij] at hf
      exact h.unopened hf
    · exact hw.unopened ((h.others hij).symm.trans hf) hgone
  · intro j f hf hclosed heditor
    rw [h.editors] at heditor
    by_cases hij : i = j
    · rw [← hij] at hf
      rcases h.gone hf with htrue | hout
      · exact absurd (hclosed.symm.trans htrue) Bool.false_ne_true
      · exact absurd heditor hout
    · have hin := hw.complete ((h.others hij).symm.trans hf) hclosed heditor
      refine h.mem_registry.mpr ⟨hin, ?_⟩
      intro heq
      change f.uri = uri at heq
      rw [heq] at hin
      have hi :=
        (hw.registered?_of_mem hmem).symm.trans (hw.registered?_of_mem hin)
      exact hij (Option.some.inj hi)

theorem countsOpen_self (h : Removal uri i w w') (hw' : Shelved w') :
    w'.countsOpen uri = false := by
  have hnone : w'.registered? uri = none := by
    rw [Option.eq_none_iff_forall_not_mem]
    intro j hj
    exact (h.mem_registry.mp (hw'.registered?_eq_some_iff.mp hj)).2 rfl
  unfold Workspace.countsOpen
  rw [hnone]
  rfl

theorem countsOpen_other (h : Removal uri i w w') (hw : Shelved w)
    (hmem : (uri, i) ∈ w.registry) {u : Text} (hne : u ≠ uri) :
    w'.countsOpen u = w.countsOpen u := by
  have hw' := h.shelved hw hmem
  have hregistered : w'.registered? u = w.registered? u := by
    apply Option.ext
    intro j
    rw [hw'.registered?_eq_some_iff, hw.registered?_eq_some_iff, h.mem_registry]
    exact ⟨And.left, fun hin => ⟨hin, hne⟩⟩
  unfold Workspace.countsOpen
  rw [hregistered]
  cases hj : w.registered? u with
  | none => rfl
  | some j =>
      have hij : i ≠ j := by
        intro heq
        rcases hw.registered (mem_of_registered? hj) with ⟨f, hf, huri, _⟩
        rcases hw.registered hmem with ⟨g, hg, hguri, _⟩
        rw [← heq, hg] at hf
        cases hf
        exact hne (huri.symm.trans hguri)
      rw [Option.bind_some, Option.bind_some, h.others hij]

end Removal

namespace Sound

variable {w w' : Workspace Connection}

theorem remove (h : Sound [] w) {uri : Text} {i : Nat}
    (hmem : (uri, i) ∈ w.registry) (hremoval : Removal uri i w w')
    (hlife : w.env.link.SameLife w'.env.link)
    (hexplained : Explained w'.env.trace)
    (hapart : ∀ u, u ≠ uri ∨ w.env.connected = false →
      heard u w'.env.trace = heard u w.env.trace)
    (hagreed : Agreed w'.env.connected false (heard uri w'.env.trace)) :
    Sound [] w' := by
  have hshelved := hremoval.shelved h.shelved hmem
  refine ⟨?_, hshelved, hexplained, ?_, ?_⟩
  · exact h.lively.goOn hlife fun hoff u => hapart u (Or.inr hoff)
  · intro u _
    by_cases heq : u = uri
    · rw [heq, hremoval.countsOpen_self hshelved]
      exact hagreed
    · have hconnected : w'.env.connected = w.env.connected := hlife.connected
      rw [hremoval.countsOpen_other h.shelved hmem heq, hconnected,
        hapart u (Or.inl heq)]
      exact h.agreed List.not_mem_nil
  · intro u hu
    cases hu

theorem removeDeskless (h : Sound [] w) {uri : Text} {i : Nat}
    (hmem : (uri, i) ∈ w.registry) (hdesk : w.desk? i = none) :
    Sound [] (w.withRegistry (w.registry.filter fun r => r.1 != uri)) := by
  have hout {f : Face} (hf : w.face? i = some f) :
      ¬ f.editor < w.editors.length := by
    rcases Option.map_eq_some_iff.mp hf with ⟨d, hd, hface⟩
    rw [← hface]
    exact desk?_eq_none hdesk hd
  have hremoval :
      Removal uri i w
        (w.withRegistry (w.registry.filter fun r => r.1 != uri)) :=
    { registry := rfl
      others := fun _ => rfl
      editors := rfl
      named := fun hf => h.shelved.named hf
      unopened := fun hf => h.shelved.unopened hf (Or.inr (hout hf))
      gone := fun hf => Or.inr (hout hf) }
  refine h.remove hmem hremoval (.refl _) h.explained (fun _ _ => rfl) ?_
  rcases h.shelved.registered hmem with ⟨f, hf, _, _⟩
  have hcounts :=
    (countsOpen_of_registered? (h.shelved.registered?_of_mem hmem) hf).trans
    (h.shelved.unopened hf (Or.inr (hout hf)))
  have hagreed :
      Agreed w.env.connected (w.countsOpen uri) (heard uri w.env.trace) :=
    h.agreed List.not_mem_nil
  rw [hcounts] at hagreed
  exact hagreed

theorem removeDesk (h : Sound [] w) {i : Nat} {k : Desk Connection}
    (hdesk : w.desk? i = some k) (hclosed : k.document.closed = false) :
    Sound [] ((w.withDesk k.close).withRegistry
      (w.registry.filter fun r => r.1 != k.document.uri)) := by
  have henv := (desk?_eq_some hdesk).2.2.2
  have hmem := h.mem_of_desk? hdesk hclosed
  have hspeaks := (h.speaksWell hdesk hclosed List.not_mem_nil).close
  rcases Desk.close_closed k with ⟨hclosed', hopened'⟩
  have hface (j : Nat) : ((w.withDesk k.close).withRegistry
      (w.registry.filter fun r => r.1 != k.document.uri)).face? j =
        if i = j then some k.close.document.face else w.face? j :=
    face?_withDesk hdesk hspeaks.seat.number j
  have hown {f : Face} (hf : ((w.withDesk k.close).withRegistry
      (w.registry.filter fun r => r.1 != k.document.uri)).face? i = some f) :
        f = k.close.document.face := by
    rw [hface, if_pos rfl] at hf
    exact (Option.some.inj hf).symm
  have hremoval : Removal k.document.uri i w ((w.withDesk k.close).withRegistry
      (w.registry.filter fun r => r.1 != k.document.uri)) := by
    refine ⟨rfl, ?_, ?_, ?_, ?_, ?_⟩
    · intro j hij
      exact (hface j).trans (if_neg hij)
    · exact List.length_set ..
    · intro f hf
      rw [hown hf]
      exact hspeaks.named
    · intro f hf
      rw [hown hf]
      exact hopened'
    · intro f hf
      rw [hown hf]
      exact Or.inl hclosed'
  have huri := hspeaks.seat.uri
  refine h.remove hmem hremoval ?_ hspeaks.explained ?_ ?_
  · rw [← henv]
    exact hspeaks.life
  · intro u hu
    rw [← henv] at hu ⊢
    exact hspeaks.apart (by rw [huri]; exact hu)
  · have hagreed := hspeaks.agreed
    rw [hopened', huri] at hagreed
    exact hagreed

theorem removeAtDesk (h : Sound [] w) {uri : Text} {i : Nat}
    (hmem : (uri, i) ∈ w.registry) :
    Sound []
      ((w.withRegistry (w.registry.filter fun r => r.1 != uri)).atDesk i
        Desk.close) := by
  have hdesk :
      (w.withRegistry (w.registry.filter fun r => r.1 != uri)).desk? i =
        w.desk? i := rfl
  unfold atDesk
  rw [hdesk]
  cases hk : w.desk? i with
  | none => exact h.removeDeskless hmem hk
  | some k =>
      rcases h.shelved.registered hmem with ⟨f, hf, huri, hclosed⟩
      rw [face?_of_desk? hk] at hf
      cases hf
      change k.document.uri = uri at huri
      rw [← huri]
      exact h.removeDesk hk hclosed

theorem closeUri (h : Sound [] w) (uri : Text) : Sound [] (w.closeUri uri) := by
  unfold Workspace.closeUri
  split
  · exact h
  · next i hregistered =>
      have hmem := mem_of_registered? hregistered
      dsimp only
      split
      · next hdesk => exact h.removeDeskless hmem hdesk
      · next k hdesk =>
          have hleave (w' : Workspace Connection) (hstill : Still w w') :
              Sound []
              (((w'.withRegistry
                (w.registry.filter fun r => r.1 != uri)).onEditor
                  k.document.editor fun e =>
                  ((e.disconnect i).attach none, [])).atDesk i
                  Desk.close) := by
            have hdetached := hstill.trans
              (still_onEditor (f := fun e => ((e.disconnect i).attach none, []))
                (fun _ => rfl) k.document.editor w')
            have hsound := h.still hdetached
            rw [← hdetached.registry] at hmem ⊢
            rw [onEditor_withRegistry]
            exact hsound.removeAtDesk hmem
          refine Sound.still ?_ (still_signal _ rfl)
          split
          · exact hleave w (.refl w)
          · exact hleave (w.tell (.alreadyDetached k.document.name))
              (still_tell w rfl)

theorem close (h : Sound [] w) (path : Option Text) :
    Sound [] (w.close path).2 := by
  unfold Workspace.close
  split
  · exact h
  · split
    · exact h
    · exact h
    · exact h.closeUri _

theorem closeAll (h : Sound [] w) : Sound [] w.closeAll := by
  unfold Workspace.closeAll
  generalize w.registry.map (·.2) = numbers
  induction numbers generalizing w with
  | nil => exact h
  | cons i rest ih =>
      refine ih ?_
      dsimp only
      split
      · exact h.close _
      · exact h

/-!
# Opening
-/

theorem not_registered_closeUri (h : Sound [] w) (uri : Text) (i : Nat) :
    (uri, i) ∉ (w.closeUri uri).registry := by
  have hfilter : (uri, i) ∉ w.registry.filter fun r => r.1 != uri := by
    rw [List.mem_filter, bne_iff_ne]
    exact fun hin => hin.2 rfl
  unfold Workspace.closeUri
  split
  · next hnone =>
      intro hmem
      rw [h.shelved.registered?_of_mem hmem] at hnone
      cases hnone
  · dsimp only
    split
    · exact hfilter
    · dsimp only
      rw [atDesk_registry, onEditor_registry]
      split
      · exact hfilter
      · exact hfilter

end Sound

def shelve (uri : Text) (d : Document) (w : Workspace Connection) :
    Workspace Connection :=
  { w with
    documents := w.documents ++ [d]
    registry := w.registry ++ [(uri, w.documents.length)] }

theorem face?_lt {w : Workspace Connection} {i : Nat} {f : Face}
    (h : w.face? i = some f) :
    i < w.documents.length := by
  rcases Option.map_eq_some_iff.mp h with ⟨d, hd, _⟩
  exact (List.getElem?_eq_some_iff.mp hd).1

theorem face?_shelve (uri : Text) (d : Document) (w : Workspace Connection)
    (i : Nat) :
    (w.shelve uri d).face? i = if i = w.documents.length then some d.face else
    w.face? i := by
  unfold face? shelve
  dsimp only
  rw [getElem?_concat, apply_ite (Option.map Document.face)]
  rfl

theorem face?_shelve_old {uri : Text} {d : Document} {w : Workspace Connection}
    {i : Nat} {f : Face} (h : w.face? i = some f) :
    (w.shelve uri d).face? i = some f := by
  rw [face?_shelve, if_neg (Nat.ne_of_lt (face?_lt h))]
  exact h

theorem mem_shelve {uri : Text} {d : Document} {w : Workspace Connection}
    {p : Text × Nat} :
    p ∈ (w.shelve uri d).registry ↔
      p ∈ w.registry ∨ p = (uri, w.documents.length) := by
  unfold shelve
  rw [List.mem_append, List.mem_singleton]

theorem Shelved.shelve {w : Workspace Connection} (h : Shelved w) {uri : Text}
    (hfree : ∀ i, (uri, i) ∉ w.registry) {d : Document} {j : Nat}
    (hface : d.face = ⟨uri, j, uri, false, false⟩) :
    Shelved (w.shelve uri d) := by
  have hnew : (w.shelve uri d).face? w.documents.length = some d.face := by
    rw [face?_shelve, if_pos rfl]
  refine ⟨?_, ?_, ?_, ?_, ?_⟩
  · unfold Workspace.shelve
    rw [List.map_append, List.nodup_append]
    refine ⟨h.distinct, List.pairwise_singleton _ _, ?_⟩
    intro u hu v hv heq
    rcases List.mem_map.mp hu with ⟨p, hp, hpu⟩
    rw [List.map_cons, List.map_nil, List.mem_singleton] at hv
    have hpuri : p.1 = uri := (hpu.trans heq).trans hv
    rw [← hpuri] at hfree
    exact hfree p.2 hp
  · intro u i hmem
    rcases mem_shelve.mp hmem with hin | heq
    · rcases h.registered hin with ⟨f, hf, hrest⟩
      exact ⟨f, face?_shelve_old hf, hrest⟩
    · cases heq
      exact ⟨d.face, hnew, by rw [hface], by rw [hface]⟩
  · intro i f hf
    rw [face?_shelve] at hf
    split at hf
    · cases hf
      rw [hface]
    · exact h.named hf
  · intro i f hf hgone
    rw [face?_shelve] at hf
    split at hf
    · cases hf
      rw [hface]
    · exact h.unopened hf hgone
  · intro i f hf hclosed heditor
    rw [face?_shelve] at hf
    split at hf
    · next hi =>
        cases hf
        rw [hface, hi]
        exact mem_shelve.mpr (Or.inr rfl)
    · exact mem_shelve.mpr (Or.inl (h.complete hf hclosed heditor))

theorem Shelved.countsOpen_shelve {w : Workspace Connection} (h : Shelved w)
    {uri : Text} (hfree : ∀ i, (uri, i) ∉ w.registry) {d : Document} {j : Nat}
    (hface : d.face = ⟨uri, j, uri, false, false⟩) :
    (w.shelve uri d).countsOpen uri = false := by
  have hnew : (w.shelve uri d).face? w.documents.length = some d.face := by
    rw [face?_shelve, if_pos rfl]
  have hmem :=
    (h.shelve hfree hface).registered?_of_mem (mem_shelve.mpr (Or.inr rfl))
  rw [countsOpen_of_registered? hmem hnew, hface]

namespace Sound

variable {w w' : Workspace Connection}

theorem shelve (h : Sound [] w) {uri : Text}
    (hfree : ∀ i, (uri, i) ∉ w.registry) {d : Document} {j : Nat}
    (hface : d.face = ⟨uri, j, uri, false, false⟩) :
    Sound [] (w.shelve uri d) := by
  have hshelved := h.shelved.shelve hfree hface
  refine ⟨h.lively, hshelved, h.explained, ?_, ?_⟩
  · intro u _
    have hagreed :
        Agreed w.env.connected (w.countsOpen u) (heard u w.env.trace) :=
      h.agreed List.not_mem_nil
    have hcounts : (w.shelve uri d).countsOpen u = w.countsOpen u := by
      by_cases heq : u = uri
      · have hnone : w.registered? u = none := by
          rw [Option.eq_none_iff_forall_not_mem]
          intro i hi
          rw [heq] at hi
          exact hfree i (mem_of_registered? hi)
        rw [heq, h.shelved.countsOpen_shelve hfree hface]
        unfold countsOpen
        rw [← heq, hnone]
        rfl
      · have hregistered :
            (w.shelve uri d).registered? u = w.registered? u := by
          apply Option.ext
          intro i
          rw [hshelved.registered?_eq_some_iff,
            h.shelved.registered?_eq_some_iff, mem_shelve]
          refine ⟨?_, Or.inl⟩
          intro hin
          rcases hin with hin | hp
          · exact hin
          · exact absurd (congrArg Prod.fst hp) heq
        unfold countsOpen
        rw [hregistered]
        cases hi : w.registered? u with
        | none => rfl
        | some i =>
            rcases h.shelved.registered (mem_of_registered? hi) with ⟨f, hf, _⟩
            rw [Option.bind_some, Option.bind_some, face?_shelve_old hf, hf]
    show Agreed w.env.connected ((w.shelve uri d).countsOpen u)
      (heard u w.env.trace)
    rw [hcounts]
    exact hagreed
  · intro u hu
    cases hu

theorem add (h : Sound [] w) {uri : Text} (hfree : ∀ i, (uri, i) ∉ w.registry)
    {d : Document} {j : Nat} (hface : d.face = ⟨uri, j, uri, false, false⟩) :
    Sound []
      ((w.add d).2.withRegistry (w.registry ++ [(uri, w.documents.length)])) ∧
      ((w.add d).2.withRegistry
        (w.registry ++ [(uri, w.documents.length)])).countsOpen uri =
          false := by
  have hstill := still_onEditor
    (f := fun e =>
      ((e.connect w.documents.length).attach (some w.documents.length), []))
    (fun _ => rfl) d.editor (w.shelve uri d)
  have hadded := (h.shelve hfree hface).still hstill
  have hcounts :=
    (hstill.countsOpen uri).trans (h.shelved.countsOpen_shelve hfree hface)
  have hsame : (w.shelve uri d).onEditor d.editor
      (fun e =>
        ((e.connect w.documents.length).attach (some w.documents.length), [])) =
        (w.add d).2.withRegistry (w.registry ++ [(uri, w.documents.length)]) :=
    onEditor_withRegistry _ _ _ { w with documents := w.documents ++ [d] }
  rw [hsame] at hadded hcounts
  exact ⟨hadded, hcounts⟩

theorem openDocument (h : Sound [] w) (j : Nat) (path : Option Text) :
    Sound [] (w.openDocument j path).2 := by
  unfold Workspace.openDocument
  split
  · exact h
  · split
    · exact h
    · exact h
    · next uri _ =>
        have hclosed := h.closeUri uri
        have hfree := h.not_registered_closeUri uri
        dsimp only
        split
        · exact hclosed
        · next d hd =>
            have hface : d.face = ⟨uri, j, uri, false, false⟩ := by
              rcases Document.create_eq hd with ⟨name, heq⟩
              rw [heq]
              rfl
            rcases hclosed.add hfree hface with ⟨hadded, hcounts⟩
            have hregistry :
                ((w.closeUri uri).add d).2.registry =
                  (w.closeUri uri).registry :=
              onEditor_registry _ _ _
            rw [← hregistry] at hadded hcounts
            have hmem : (uri, (w.closeUri uri).documents.length) ∈
                ((w.closeUri uri).add d).2.registry ++
                  [(uri, (w.closeUri uri).documents.length)] :=
              List.mem_append_right _ (List.mem_singleton.mpr rfl)
            have hopened := hadded.openCopy hmem
              (fun htrue => absurd (hcounts.symm.trans htrue)
                Bool.false_ne_true)
              (fun _ _ => Iff.rfl) List.not_mem_nil
            refine Sound.still ?_ (still_signal _ rfl)
            split
            · exact hopened
            · exact hopened.still (still_tell _ rfl)

end Sound
end Workspace
end InlineCompletion
