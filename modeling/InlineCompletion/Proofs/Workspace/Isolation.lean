import InlineCompletion.Proofs.Workspace.Attribution
import InlineCompletion.Proofs.Workspace.Routing

/-!
# Documents apart

Two documents that are open at different editors have nothing in common but the
link, the clock and the registry.  A workspace is *tidy* if those who listen to
an editor are documents of it, and if nothing is left of the documents that are
closed.  The main statement is that whatever is done to one of the two
documents, or answers what it asked, leaves the other as it is, with its editor,
and says nothing that names its address.
-/

namespace InlineCompletion
namespace Workspace

variable {τ : Type}

/-!
# Order
-/

/-- Whether those who listen to an editor are documents of it, and nothing is
left of the documents that are closed. -/
structure Tidy (w : Workspace τ) : Prop where
  enlisted {p i : Nat} {e : Editor} (he : w.editors[p]? = some e)
    (hi : i ∈ e.listeners) :
    ∃ d, w.documents[i]? = some d ∧ d.editor = p
  rested {i : Nat} {d : Document} (hd : w.documents[i]? = some d)
    (hclosed : d.closed = true) :
    d.Inert

structure Untouched (w : Workspace τ) : Prop where
  documents : w.documents = []
  registry : w.registry = []
  listeners {e : Editor} (he : e ∈ w.editors) : e.listeners = []

theorem Untouched.tidy {w : Workspace τ} (h : Untouched w) : Tidy w where
  enlisted he hi := by
    rw [h.listeners (List.mem_of_getElem? he)] at hi
    cases hi
  rested hd _ := by
    rw [h.documents] at hd
    cases hd

theorem seated_concat {w : Workspace τ} {i p : Nat}
    (h : ∃ d, w.documents[i]? = some d ∧ d.editor = p) (d : Document) :
    ∃ d', (w.documents ++ [d])[i]? = some d' ∧ d'.editor = p := by
  rcases h with ⟨d', hd', hplace⟩
  exact ⟨d', getElem?_concat_of_some hd' d, hplace⟩

theorem seated_operated [Link τ] {w : Workspace τ} {i : Nat} {k : Desk τ}
    (hk : w.desk? i = some k) (o : Operation) {l p : Nat}
    (h : ∃ d, w.documents[l]? = some d ∧ d.editor = p) :
    ∃ d, (w.withDesk (k.operate o)).documents[l]? = some d ∧ d.editor = p := by
  rcases h with ⟨d, hd, hplace⟩
  have hseat := k.operate_sameSeat o
  have hsame := map_documents_withDesk hk hseat.number (·.editor) hseat.place l
  rw [hd, Option.map_some, hplace] at hsame
  exact Option.map_eq_some_iff.mp hsame

namespace Tidy

variable {w : Workspace τ}

theorem edited (h : Tidy w) {p : Nat} {e e' : Editor}
    (he : w.editors[p]? = some e)
    (hlisteners : ∀ i ∈ e'.listeners, i ∈ e.listeners) :
    Tidy { w with editors := w.editors.set p e' } := by
  refine ⟨?_, h.rested⟩
  intro q i e'' hq hi
  change (w.editors.set p e')[q]? = some e'' at hq
  rw [List.getElem?_set] at hq
  split at hq
  · next hpq =>
      subst hpq
      rw [if_pos (List.getElem?_eq_some_iff.mp he).1] at hq
      cases hq
      exact h.enlisted he (hlisteners i hi)
  · exact h.enlisted hq hi

theorem added (h : Tidy w) {uri : Text} {language : String} {j : Nat}
    {d : Document}
    (hd : Document.create w.directory uri language j w.options = .ok d) :
    Tidy (w.add d).2 := by
  rcases Document.create_eq hd with ⟨name, hcreated⟩
  rw [add_eq]
  constructor
  · intro p i e he hi
    change (w.editors.modify d.editor _)[p]? = some e at he
    rw [List.getElem?_modify] at he
    rcases Option.map_eq_some_iff.mp he with ⟨e', he', heq⟩
    have hbefore (hi : i ∈ e'.listeners) :
        ∃ d', (w.documents ++ [d])[i]? = some d' ∧ d'.editor = p :=
      seated_concat (h.enlisted he' hi) d
    split at heq
    · next hp =>
        have hlisteners :
            e.listeners = e'.listeners ++ [w.documents.length] := by
          rw [← heq]
          unfold Editor.attach
          split
          · rfl
          · rfl
        rw [hlisteners] at hi
        rcases List.mem_append.mp hi with hi | hi
        · exact hbefore hi
        · rw [List.mem_singleton.mp hi]
          exact ⟨d, List.getElem?_concat_length, hp⟩
    · cases heq
      exact hbefore hi
  · intro i d' hi hclosed
    change (w.documents ++ [d])[i]? = some d' at hi
    rw [getElem?_concat] at hi
    split at hi
    · cases hi
      rw [hcreated] at hclosed
      cases hclosed
    · exact h.rested hi hclosed

variable [Link τ]

theorem operated (h : Tidy w) {i : Nat} {k : Desk τ} (hk : w.desk? i = some k)
    (o : Operation) :
    Tidy (w.withDesk (k.operate o)) := by
  have hseat := k.operate_sameSeat o
  rcases desk?_eq_some hk with ⟨_, hd, he, _⟩
  have hdocuments := documents_withDesk hk hseat.number
  have heditors := editors_withDesk hk hseat.place
  have hlisteners {p : Nat} {e : Editor}
      (hp : (w.withDesk (k.operate o)).editors[p]? = some e) :
      ∃ e', w.editors[p]? = some e' ∧ e'.listeners = e.listeners := by
    rw [heditors] at hp
    split at hp
    · next hplace =>
        cases hp
        rw [hplace] at he
        exact ⟨k.editor, he, hseat.listeners.symm⟩
    · exact ⟨e, hp, rfl⟩
  constructor
  · intro p l e hp hl
    rcases hlisteners hp with ⟨e', he', hsame⟩
    rw [← hsame] at hl
    exact seated_operated hk o (h.enlisted he' hl)
  · intro l d hl hclosed
    rw [hdocuments] at hl
    split at hl
    · cases hl
      rcases k.operate_closed o with hinert | hsame
      · exact hinert
      · have hrests :=
          Desk.operate_inert (h.rested hd (hsame.symm.trans hclosed)) o
        rw [hrests.document]
        exact h.rested hd (hsame.symm.trans hclosed)
    · exact h.rested hl hclosed

theorem kept : KeptThroughout (Tidy (τ := τ)) where
  aside _ _ h := ⟨h.enlisted, h.rested⟩
  struck _ h := ⟨h.enlisted, h.rested⟩
  edited _ he hloses h := h.edited he fun _ => hloses.listeners
  operated _ hk o h := h.operated hk o
  heard _ _ _ _ hk edit h := h.operated hk (.recordEdit edit)
  seated _ _ _ := trivial
  found _ _ _ := trivial
  added hd h := h.added hd
  listed _ _ h := ⟨h.enlisted, h.rested⟩

end Tidy

theorem Tidy.keptBySession : KeptBySession Tidy where
  toKeptThroughout := Tidy.kept
  abided _ h := ⟨h.enlisted, h.rested⟩

/-!
# Apart
-/

/-- Whether a document with its editor is as it was, is still open under an
address if it was, and no message names the address. -/
structure Spares (v : Text) (j q : Nat) (w w' : Workspace τ) : Prop where
  document : w'.documents[j]? = w.documents[j]?
  editor : w'.editors[q]? = w.editors[q]?
  registered : (v, j) ∈ w.registry → (v, j) ∈ w'.registry
  events : SaysOnly (· ≠ some v) w.env.trace w'.env.trace

namespace Spares

variable {v : Text} {j q : Nat} {w w' w'' : Workspace τ}

theorem refl (w : Workspace τ) : Spares v j q w w := ⟨rfl, rfl, id, .refl _⟩

theorem trans (h : Spares v j q w w') (h' : Spares v j q w' w'') :
    Spares v j q w w'' :=
  ⟨h'.document.trans h.document, h'.editor.trans h.editor, h'.registered ∘
    h.registered,
    h.events.trans h'.events⟩

theorem withDesk {i : Nat} {k k' : Desk τ} (hk : w.desk? i = some k)
    (hnumber : k'.number = k.number)
    (hplace : k'.document.editor = k.document.editor)
    (hdocument : i = j → k'.document = k.document)
    (heditor : k.document.editor = q → k'.editor = k.editor)
    (hevents : SaysOnly (· ≠ some v) k.env.trace k'.env.trace) :
    Spares v j q w (w.withDesk k') := by
  rcases desk?_eq_some hk with ⟨_, hd, he, henv⟩
  refine ⟨?_, ?_, id, ?_⟩
  · rw [documents_withDesk hk hnumber]
    split
    · next hij => rw [hdocument hij, ← hij, hd]
    · rfl
  · rw [editors_withDesk hk hplace]
    split
    · next hpq => rw [heditor hpq, ← hpq, he]
    · rfl
  · rw [henv] at hevents
    exact hevents

end Spares

/-- Whether what became of a workspace spares one document, and another is open
at another editor under the address that is its own. -/
structure Isolated (u v : Text) (i j q : Nat) (w₀ w : Workspace τ) : Prop where
  tidy : Tidy w
  spares : Spares v j q w₀ w
  seat {d : Document} (hd : w.documents[i]? = some d) :
    d.uri = u ∧ d.sync.uri = u ∧ d.editor ≠ q
  placed {d : Document} (hd : w.documents[j]? = some d) : d.editor = q
  places (l : Nat) :
      (w.documents[l]?).map (·.editor) = (w₀.documents[l]?).map (·.editor)
  only {l : Nat} (h : (u, l) ∈ w.registry) : l = i

namespace Isolated

variable [Link τ] {u v : Text} {i j q : Nat} {w₀ w w' : Workspace τ}

theorem operated (h : Isolated u v i j q w₀ w) {l : Nat} {k : Desk τ}
    (hk : w.desk? l = some k) (hl : l ≠ j) (hplace : k.document.editor ≠ q)
    (o : Operation)
    (hcard : (k.operate o).document.sync.uri = k.document.sync.uri)
    (hevents : SaysOnly (· ≠ some v) k.env.trace (k.operate o).env.trace) :
    Isolated u v i j q w₀ (w.withDesk (k.operate o)) := by
  have hseat := k.operate_sameSeat o
  have hdocuments := documents_withDesk hk hseat.number
  have hd := (desk?_eq_some hk).2.1
  refine ⟨h.tidy.operated hk o, ?_, ?_, ?_, ?_, h.only⟩
  · exact h.spares.trans
      (.withDesk hk hseat.number hseat.place (fun heq => absurd heq hl)
        (fun heq => absurd heq hplace) hevents)
  · intro d hd'
    rw [hdocuments] at hd'
    split at hd'
    · next hli =>
        cases hd'
        rw [hseat.uri, hcard, hseat.place]
        exact h.seat (hli ▸ hd)
    · exact h.seat hd'
  · intro d hd'
    rw [hdocuments, if_neg hl] at hd'
    exact h.placed hd'
  · intro l'
    exact (map_documents_withDesk hk hseat.number (·.editor) hseat.place
      l').trans (h.places l')

theorem heard (h : Isolated u v i j q w₀ w') (hw : Isolated u v i j q w₀ w)
    {p l : Nat} {e : Editor} (hp : p ≠ q) (he : w.editors[p]? = some e)
    (hl : l ∈ e.listeners) {k : Desk τ} (hk : w'.desk? l = some k)
    (edit : Edit) :
    Isolated u v i j q w₀ (w'.withDesk (k.recordEdit edit)) := by
  -- it need not be the one document: others may sit at the same editor
  rcases hw.tidy.enlisted he hl with ⟨d, hd, hplace⟩
  have hlj : l ≠ j := by
    intro heq
    rw [heq] at hd
    exact hp (hplace.symm.trans (hw.placed hd))
  have hplace' : k.document.editor ≠ q := by
    have hsame := (h.places l).trans (hw.places l).symm
    rw [(desk?_eq_some hk).2.1, hd, Option.map_some, Option.map_some, hplace]
      at hsame
    rw [Option.some.inj hsame]
    exact hp
  refine h.operated hk hlj hplace' (.recordEdit edit)
    (congrArg Card.named (Desk.recordEdit_sameCard edit k).card) ?_
  show SaysOnly _ k.env.trace (k.recordEdit edit).env.trace
  cases hclosed : k.document.closed with
  | true =>
      rw [Desk.recordEdit_closed edit hclosed]
      exact .refl _
  | false => exact .of_quietly (Desk.quiet_recordEdit edit hclosed).events

theorem kept (huv : u ≠ v) (hij : i ≠ j) :
    KeptWithin ⟨(· = i), (· ≠ q), (· = u)⟩ (Isolated u v i j q w₀) where
  aside hlink hevents h :=
    { h with
      tidy := ⟨h.tidy.enlisted, h.tidy.rested⟩
      spares := h.spares.trans ⟨rfl, rfl, id, .of_quietly hevents⟩ }
  struck {w uri} huri h := by
    have hstruck :
        Spares v j q w
          { w with registry := w.registry.filter fun r => r.1 != uri } := by
      refine ⟨rfl, rfl, ?_, .refl _⟩
      intro hmem
      refine List.mem_filter.mpr ⟨hmem, bne_iff_ne.mpr ?_⟩
      rw [show uri = u from huri]
      exact huv.symm
    exact ⟨⟨h.tidy.enlisted, h.tidy.rested⟩, h.spares.trans hstruck, h.seat,
      h.placed, h.places, fun hmem => h.only (List.mem_filter.mp hmem).1⟩
  edited {w p e e'} hp he hloses h := by
    have hedited : Spares v j q w { w with editors := w.editors.set p e' } :=
      ⟨rfl, List.getElem?_set_ne hp, id, .refl _⟩
    exact ⟨h.tidy.edited he fun _ => hloses.listeners, h.spares.trans hedited,
      h.seat, h.placed, h.places, h.only⟩
  operated {w l k} hl hk o h := by
    cases (show l = i from hl)
    rcases h.seat (desk?_eq_some hk).2.1 with ⟨huri, hnamed, hplace⟩
    have hminds := Desk.operate_minds (hnamed.trans huri.symm) o
    refine h.operated hk hij hplace o ?_ (hminds.events.weaken ?_)
    · rw [hminds.named, hminds.seat.uri, huri, hnamed]
    · rintro uri? rfl heq
      rw [huri] at heq
      exact huv (Option.some.inj heq)
  heard hp he hl hw hk edit h := h.heard hw hp he hl hk edit
  seated hl hd h := by
    cases hl
    exact (h.seat hd).2.2
  found huri hfound h := by
    cases huri
    exact h.only (mem_of_registered? hfound)

theorem enlisted (h : Isolated u v i j q w₀ w) {language : String} {m : Nat}
    {d e : Document}
    (hd : Document.create w.directory u language m w.options = .ok d)
    (hm : m ≠ q) (hfree : ∀ l, (u, l) ∉ w.registry)
    (he : w.documents[j]? = some e) :
    let w' :=
  { (w.add d).2 with registry := (w.add d).2.registry ++
    [(u, w.documents.length)] }
    Spares v j q w w' ∧ Isolated u v w.documents.length j q w' w' := by
  have htidy := Tidy.kept.listed u w.documents.length (h.tidy.added hd)
  rcases Document.create_eq hd with ⟨name, hcreated⟩
  have hplace : d.editor = m := by rw [hcreated]
  have hold : (w.documents ++ [d])[j]? = some e := getElem?_concat_of_some he d
  rw [add_eq] at htidy ⊢
  constructor
  · refine ⟨hold.trans he.symm, ?_, List.mem_append_left _, .refl _⟩
    show (w.editors.modify d.editor _)[q]? = _
    rw [List.getElem?_modify, hplace]
    simp [hm]
  · refine ⟨htidy, .refl _, ?_, ?_, fun _ => rfl, ?_⟩
    · intro d' hd'
      change (w.documents ++ [d])[w.documents.length]? = some d' at hd'
      rw [List.getElem?_concat_length] at hd'
      cases hd'
      rw [hcreated]
      exact ⟨rfl, rfl, hm⟩
    · intro d' hd'
      cases hold.symm.trans hd'
      exact h.placed he
    · intro l hl
      rcases List.mem_append.mp hl with hl | hl
      · exact absurd hl (hfree l)
      · cases List.mem_singleton.mp hl
        rfl

end Isolated

/-- Whether two documents are open under their addresses, at different
editors. -/
structure Apart (u v : Text) (i j p q : Nat) (w : Workspace τ) : Prop where
  first : (u, i) ∈ w.registry
  second : (v, j) ∈ w.registry
  place : ∃ d, w.documents[i]? = some d ∧ d.editor = p
  place' : ∃ d, w.documents[j]? = some d ∧ d.editor = q
  editors : p ≠ q

theorem Apart.isolated {u v : Text} {i j p q : Nat} {w : Workspace τ}
    (h : Apart u v i j p q w) (htidy : Tidy w)
    (hdistinct : (w.registry.map (·.1)).Nodup)
    (hnamed : ∀ {d}, w.documents[i]? = some d → d.uri = u ∧ d.sync.uri = u) :
    u ≠ v ∧ i ≠ j ∧ Isolated u v i j q w w := by
  rcases h.place with ⟨d, hd, hp⟩
  rcases h.place' with ⟨e, he, hq⟩
  have honly {l : Nat} (hl : (u, l) ∈ w.registry) : l = i := by
    have hfirst := (registered?_eq_some_iff hdistinct).mpr h.first
    rw [(registered?_eq_some_iff hdistinct).mpr hl] at hfirst
    exact Option.some.inj hfirst
  have hij : i ≠ j := by
    rintro rfl
    cases hd.symm.trans he
    exact h.editors (hp.symm.trans hq)
  have huv : u ≠ v := by
    rintro rfl
    exact hij (honly h.second).symm
  refine ⟨huv, hij, htidy, .refl w, ?_, ?_, fun _ => rfl, honly⟩
  · intro d' hd'
    cases hd.symm.trans hd'
    refine ⟨(hnamed hd).1, (hnamed hd).2, ?_⟩
    rw [hp]
    exact h.editors
  · intro e' he'
    cases he.symm.trans he'
    exact hq

/-!
# What is addressed to a document
-/

variable [Link τ]

/-- What is done to a document by its number, to its editor, or under its
address.  It is not opened at the editor of the other document. -/
inductive Addressed (u : Text) (i p q : Nat) (w : Workspace τ) :
    Workspace τ → Prop where
  | edit (g : Editing) : Addressed u i p q w (w.editWith p g.run)
  | moveCursor (offset : Int) : Addressed u i p q w (w.moveCursor p offset)
  | select (anchor position : Int) :
      Addressed u i p q w (w.onEditor p fun e => (e.select anchor position, []))
  | flushAlarm (a : Alarm) : Addressed u i p q w (w.ring (.flush i) a)
  | triggerAlarm (a : Alarm) : Addressed u i p q w (w.ring (.trigger i) a)
  | openCopy : Addressed u i p q w (w.openCopy i).2
  | flush : Addressed u i p q w (w.flush i).2
  | trigger : Addressed u i p q w (w.trigger i).2
  | request (reason : Json) : Addressed u i p q w (w.requestFor i reason).2
  | accept : Addressed u i p q w (w.accept i).2
  | cancel : Addressed u i p q w (w.cancel i).2
  | cycle (places : Int) : Addressed u i p q w (w.cycle i places).2
  | supersede : Addressed u i p q w (w.supersede i)
  | detach : Addressed u i p q w (w.detach i).2
  | answer (ticket : Nat) (message : Json) :
      Addressed u i p q w (w.answer (.completion i ticket) message).2
  | close {path : Text} (hpath : Uri.ofPath w.directory path = .ok (some u)) :
      Addressed u i p q w (w.close (some path)).2
  | reopen {path : Text} {m : Nat}
      (hpath : Uri.ofPath w.directory path = .ok (some u)) (hm : m ≠ q) :
      Addressed u i p q w (w.openDocument m (some path)).2

section

variable {u v : Text} {i j p q : Nat} {w w' : Workspace τ}

theorem Isolated.reopened (h : Isolated u v i j q w w) (huv : u ≠ v)
    (hij : i ≠ j) (hfree : ∀ l, (u, l) ∉ (w.closeUri u).registry) {e : Document}
    (he : w.documents[j]? = some e) {path : Text} {m : Nat}
    (hpath : Uri.ofPath w.directory path = .ok (some u)) (hm : m ≠ q) :
    Spares v j q w (w.openDocument m (some path)).2 := by
  have hclosed : Isolated u v i j q w (w.closeUri u) :=
    (Isolated.kept huv hij).closeUri rfl h
  unfold openDocument
  dsimp only
  rw [hpath]
  dsimp only
  split
  · exact hclosed.spares
  · next d hd =>
      have he' : (w.closeUri u).documents[j]? = some e :=
        hclosed.spares.document.trans he
      rcases hclosed.enlisted hd hm hfree he' with ⟨hspares, hnew⟩
      have hne : (w.closeUri u).documents.length ≠ j :=
        Nat.ne_of_gt (List.getElem?_eq_some_iff.mp he').1
      have hkept (w₀ : Workspace τ) :
          KeptWithin ⟨(· = (w.closeUri u).documents.length), (· ≠ q), (· = u)⟩
            (Isolated u v (w.closeUri u).documents.length j q w₀) :=
              Isolated.kept huv hne
      have hopened := (hkept _).openCopy rfl hnew
      -- the document that was is closed, and what follows happens to the one
      -- that took its address
      refine (hclosed.spares.trans hspares).trans
        ((hkept _).signal rfl ?_).spares
      split
      · exact hopened
      · exact (hkept _).emit rfl hopened

theorem Addressed.spares (h : Addressed u i p q w w')
    (hw : Isolated u v i j q w w) (huv : u ≠ v) (hij : i ≠ j) (hp : p ≠ q)
    (hfree : ∀ l, (u, l) ∉ (w.closeUri u).registry) {e : Document}
    (he : w.documents[j]? = some e) : Spares v j q w w' := by
  have hkept : KeptWithin ⟨(· = i), (· ≠ q), (· = u)⟩ (Isolated u v i j q w) :=
    Isolated.kept huv hij
  cases h with
  | edit g => exact (hkept.editWith hp g.run_sameView hw).spares
  | moveCursor offset => exact (hkept.moveCursor hp offset hw).spares
  | select anchor position => exact (hkept.select hp anchor position hw).spares
  | flushAlarm a => exact (hkept.ringFlush rfl a hw).spares
  | triggerAlarm a => exact (hkept.ringTrigger rfl a hw).spares
  | openCopy => exact (hkept.openCopy rfl hw).spares
  | flush => exact (hkept.flush rfl hw).spares
  | trigger => exact (hkept.trigger rfl hw).spares
  | request reason => exact (hkept.requestFor rfl reason hw).spares
  | accept => exact (hkept.accept rfl hw).spares
  | cancel => exact (hkept.cancel rfl hw).spares
  | cycle places => exact (hkept.cycle rfl places hw).spares
  | supersede => exact (hkept.supersede rfl hw).spares
  | detach => exact (hkept.detach rfl hw).spares
  | answer ticket message => exact (hkept.receive rfl ticket message hw).spares
  | close hpath =>
      refine (hkept.close ?_ hw).spares
      intro path uri heq hpath'
      cases heq
      cases hpath.symm.trans hpath'
      rfl
  | reopen hpath hm => exact hw.reopened huv hij hfree he hpath hm

end

/-!
# Answers
-/

theorem sent_once {es : List Event} (h : (requestIds es).Nodup) {n : Nat}
    {r r' : Request} (hr : .sent (.request n r) ∈ es)
    (hr' : .sent (.request n r') ∈ es) : r = r' := by
  induction es with
  | nil => cases hr
  | cons e rest ih =>
      have hmem {r : Request} (hr : .sent (.request n r) ∈ rest) :
          n ∈ requestIds rest :=
        List.mem_filterMap.mpr ⟨_, hr, rfl⟩
      have hfirst {r : Request} (he : Event.sent (.request n r) = e) :
          n ∉ requestIds rest := by
        rw [← he] at h
        exact (List.nodup_cons.mp h).1
      have hrest : (requestIds rest).Nodup :=
        h.sublist (List.Sublist.filterMap _ (List.sublist_cons_self e rest))
      rcases List.mem_cons.mp hr with heq | hin
      · rcases List.mem_cons.mp hr' with heq' | hin'
        · cases heq.trans heq'.symm
          rfl
        · exact absurd (hmem hin') (hfirst heq)
      · rcases List.mem_cons.mp hr' with heq' | hin'
        · exact absurd (hmem hin) (hfirst heq')
        · exact ih hrest hin hin'

section

variable {u v : Text} {i j p q : Nat} {w : Workspace Connection}

/-- Whatever becomes of the link, nothing is another at the documents, the
editors and the registry. -/
theorem Isolated.onLink (h : Isolated u v i j q w w)
    (f : Connection → Connection) :
    Isolated u v i j q w (w.onLink f) :=
  ⟨⟨h.tidy.enlisted, h.tidy.rested⟩, ⟨rfl, rfl, id, .refl _⟩, h.seat, h.placed,
    h.places, h.only⟩

theorem Isolated.answered (h : Isolated u v i j q w w) (huv : u ≠ v)
    (hij : i ≠ j) {l : Nat}
    (hopen : ∀ {d}, w.documents[l]? = some d → d.closed = false →
    d.editor < w.editors.length →
      l = i) (f : Connection → Connection) (ticket : Nat) (message : Json) :
    Spares v j q w ((w.onLink f).atDesk l (Desk.receive ticket message)) := by
  have hlinked := h.onLink f
  unfold atDesk
  cases hk : (w.onLink f).desk? l with
  | none => exact hlinked.spares
  | some k =>
      have hd := (desk?_eq_some hk).2.1
      -- a closed document may have sat at the editor of the other, but nothing
      -- of it is left there
      cases hclosed : k.document.closed with
      | true =>
          have hquiet := Desk.quiet_receive ticket message k
          have hrests :=
            Desk.receive_inert (h.tidy.rested hd hclosed) ticket message
          exact hlinked.spares.trans (.withDesk hk hquiet.number hquiet.place
            (fun _ => hrests.document) (fun _ => hrests.editor)
              (.of_quietly hquiet.events))
      | false =>
          have heditor := editor_lt hk
          have hl : l = i := hopen hd hclosed heditor
          exact ((Isolated.kept huv hij).operated hl hk
            (.receive ticket message) hlinked).spares

theorem link_receive (l ticket : Nat) (message : Json)
    (w : Workspace Connection) :
    (w.atDesk l (Desk.receive ticket message)).env.link = w.env.link := by
  unfold atDesk
  cases hk : w.desk? l with
  | none => rfl
  | some k =>
      rw [← (desk?_eq_some hk).2.2.2]
      exact (Desk.quiet_receive ticket message k).link

/-- Whoever gets the answer under a number belongs to the request of that
number, and everybody else goes on waiting. -/
theorem Attributed.taken (h : Attributed w) {id : Json} {n : Nat}
    (hid : id.numeral? = some (n : Int)) {waiting : Waiting} {link : Connection}
    (htake : w.env.link.take id = .ok (some waiting, link)) :
    w.Attributes (n, waiting) ∧ ∀ x ∈ w.env.link.waiting, x.1 ≠ n →
      x ∈ link.waiting := by
  rcases Connection.waiter?_of_take htake with ⟨k, hentry, hlink⟩
  rcases Connection.waiter?_eq_some hentry with ⟨hmem, hnumeral⟩
  have hk : k = n := Int.ofNat.inj (Option.some.inj (hnumeral.symm.trans hid))
  subst hk
  refine ⟨h _ hmem, fun x hx hne => ?_⟩
  rw [hlink]
  exact List.mem_filter.mpr ⟨hx, bne_iff_ne.mpr hne⟩

/-- The answer to a request about one document spares the other, and whoever
else waits for an answer goes on waiting. -/
theorem Isolated.handle (h : Isolated u v i j q w w) (huv : u ≠ v) (hij : i ≠ j)
    (hattributed : Attributed w) (honce : (requestIds w.env.trace).Nodup)
    (hopen : ∀ {l d}, w.documents[l]? = some d → d.uri = u → d.closed = false →
      d.editor < w.editors.length → l = i)
    {n : Nat} {position : Position} {kind : TriggerKind}
    (hsent : .sent (.request n (.completion u position kind)) ∈ w.env.trace)
    {id message : Json}
    (hanswer : Connection.classify message = .ok (.answer id))
    (hid : id.numeral? = some (n : Int)) :
    Spares v j q w (w.handle message).2 ∧
      ∀ x ∈ w.env.link.waiting, x.1 ≠ n →
        x ∈ (w.handle message).2.env.link.waiting := by
  have hhandled := handle_cases message w
  revert hhandled
  generalize w.handle message = r
  intro hhandled
  cases hhandled with
  | faulty _ _ _ => exact ⟨.refl w, fun _ hx _ => hx⟩
  | nothing _ _ => exact ⟨.refl w, fun _ hx _ => hx⟩
  | notified hclass => cases hanswer.symm.trans hclass
  | greeted hanswer' htake _ =>
      cases hanswer.symm.trans hanswer'
      cases (hattributed.taken hid htake).1 with
      | greeting hgreeting => cases sent_once honce hsent hgreeting
  | @completed _ l ticket link hanswer' htake =>
      cases hanswer.symm.trans hanswer'
      rcases hattributed.taken hid htake with ⟨hwaits, hleft⟩
      refine ⟨h.answered huv hij ?_ _ ticket message, ?_⟩
      · intro d hd hclosed heditor
        cases hwaits with
        | completion hd' hsent' =>
            cases hd'.symm.trans hd
            cases sent_once honce hsent hsent'
            exact hopen hd rfl hclosed heditor
      · rw [link_receive]
        exact hleft
  | probed _ hanswer' htake =>
      cases hanswer.symm.trans hanswer'
      refine ⟨(h.onLink _).spares.trans
        ⟨rfl, rfl, fun hmem => hmem, .of_quietly (.append _ rfl)⟩, ?_⟩
      exact (hattributed.taken hid htake).2

end

/-!
# Sessions
-/

section

variable {start w : Workspace Connection}

theorem Unused.numbered (h : start.Unused)
    (hnone : requestIds start.env.trace = []) :
    Numbered start.env := by
  rcases h.link with ⟨command, directory, room, hlink⟩
  refine ⟨?_, ?_, ?_⟩
  · rw [hnone]
    exact .nil
  · intro id hid
    rw [hnone] at hid
    cases hid
  · intro e he
    rw [hlink] at he
    cases he

theorem Unused.attributed (h : start.Unused) : Attributed start := by
  rcases h.link with ⟨command, directory, room, hlink⟩
  intro x hx
  rw [hlink] at hx
  cases hx

theorem Session.numbered (h : Session start w) (hstart : Numbered start.env) :
    Numbered w.env := by
  induction h with
  | start => exact hstart
  | @step _ d _ _ ih => exact ih.goOn (.deed d)

theorem Numbered.once {env : Env Connection} (h : Numbered env) :
    (requestIds env.trace).Nodup :=
  h.rising.imp Nat.ne_of_lt

end

theorem Apart.of_served {start w : Workspace τ} {u v : Text} {i j p q : Nat}
    (hstart : start.Untouched) (hserved : Served start w)
    (h : Apart u v i j p q w) :
    u ≠ v ∧ i ≠ j ∧ Isolated u v i j q w w := by
  have henrolled := hserved.enrolled hstart.documents hstart.registry
  have htidy : Tidy w :=
    Tidy.kept.served (fun _ h => ⟨h.enlisted, h.rested⟩) hstart.tidy hserved
  refine h.isolated htidy henrolled.distinct ?_
  intro d hd
  have hcard := card?_of_document hd
  rcases henrolled.registered h.first with ⟨c, hc, huri, _⟩
  cases hcard.symm.trans hc
  exact ⟨huri, (henrolled.named hcard).trans huri⟩

theorem Apart.of_session {start w : Workspace Connection} {u v : Text}
    {i j p q : Nat} (hstart : start.Untouched) (hunused : start.Unused)
    (hsession : Session start w) (h : Apart u v i j p q w) :
    u ≠ v ∧ i ≠ j ∧ Isolated u v i j q w w := by
  have hshelved := (hsession.sound hunused).shelved
  have htidy : Tidy w := Tidy.keptBySession.session hstart.tidy hsession
  refine h.isolated htidy hshelved.distinct ?_
  intro d hd
  have hface : w.face? i = some d.face := congrArg (Option.map Document.face) hd
  rcases hshelved.registered h.first with ⟨f, hf, huri, _⟩
  cases hface.symm.trans hf
  exact ⟨huri, (hshelved.named hface).trans huri⟩

/-- Two documents that are open at different editors are apart.  Whatever is
addressed to one of them, in any run and over any link, leaves the other as it
is, with its editor and its place in the registry, and says nothing that names
its address.  So does, in every session, every answer to a request about the
one, in whatever order answers come; and whoever waits for the answer to another
request goes on waiting. -/
theorem documents_isolated :
    (∀ {τ : Type} [Link τ] {start w w' : Workspace τ} {u v : Text}
        {i j p q : Nat},
      start.Untouched → Served start w → Apart u v i j p q w →
      Addressed u i p q w w' →
        Spares v j q w w') ∧
    ∀ {start w : Workspace Connection} {u v : Text} {i j p q : Nat},
      start.Untouched → start.Unused → requestIds start.env.trace = [] →
      Session start w →
        Apart u v i j p q w →
        (∀ {w'}, Addressed u i p q w w' → Spares v j q w w') ∧
        ∀ {n : Nat} {position : Position} {kind : TriggerKind}
          {id message : Json},
          .sent (.request n (.completion u position kind)) ∈ w.env.trace →
          Connection.classify message = .ok (.answer id) →
            id.numeral? = some (n : Int) →
            Spares v j q w (w.handle message).2 ∧
              ∀ x ∈ w.env.link.waiting, x.1 ≠ n →
                x ∈ (w.handle message).2.env.link.waiting := by
  constructor
  · intro τ _ start w w' u v i j p q hstart hserved hapart haddressed
    rcases hapart.of_served hstart hserved with ⟨huv, hij, hw⟩
    rcases hapart.place' with ⟨e, he, _⟩
    have henrolled := hserved.enrolled hstart.documents hstart.registry
    exact haddressed.spares hw huv hij hapart.editors
      (henrolled.not_mem_closeUri u) he
  · intro start w u v i j p q hstart hunused hnone hsession hapart
    rcases hapart.of_session hstart hunused hsession with ⟨huv, hij, hw⟩
    rcases hapart.place' with ⟨e, he, _⟩
    have hsound := hsession.sound hunused
    refine ⟨fun haddressed => ?_, fun hsent hanswer hid => ?_⟩
    · exact haddressed.spares hw huv hij hapart.editors
        (hsound.not_registered_closeUri u) he
    · have hattributed : Attributed w :=
        attributed_kept.session hunused.attributed hsession
      have honce := (hsession.numbered (hunused.numbered hnone)).once
      refine hw.handle huv hij hattributed honce ?_ hsent hanswer hid
      intro l d hd huri hclosed heditor
      have hface : w.face? l = some d.face :=
        congrArg (Option.map Document.face) hd
      apply hw.only
      rw [← huri]
      exact hsound.shelved.complete hface hclosed heditor

def parallel : Workspace Scripted :=
  (vacant.serve (.openDocument 0 (some "/a.c".toList))).serve
    (.openDocument 1 (some "/b.c".toList))

def neighbors : Workspace Connection :=
  create (.ofLink (.fresh ["agent"] none 100)) .root
    [.plain ['a'] 0, .plain ['b'] 0] .usual

def overlap : List Deed :=
  .openDocument 0 (some "/a.c".toList) ::
    .openDocument 1 (some "/b.c".toList) :: arrival 1 ++
    [.trigger 0, .trigger 1]

def overlapping : Workspace Connection := overlap.foldl undergo neighbors

/-- The first document asks for a completion; and where both have asked, the
second gets its answer first. -/
theorem documents_isolated_overlapping :
    Spares "file:///b.c".toList 1 1 parallel (parallel.trigger 0).2 ∧
      Spares "file:///a.c".toList 0 0 overlapping
        (overlapping.handle (.obj [("id", .int 3), ("result", .null)])).2 ∧
      (2, .completion 0 0) ∈
        (overlapping.handle
          (.obj [("id", .int 3), ("result", .null)])).2.env.link.waiting := by
  have hserved : Served vacant parallel := by
    have hfirst : vacant.Serves (.openDocument 0 (some "/a.c".toList)) :=
      Nat.zero_lt_succ 1
    refine .step (.step .start hfirst) ?_
    show 1 < List.length _
    decide +kernel
  have hparallel :
      Apart "file:///a.c".toList "file:///b.c".toList 0 1 0 1 parallel :=
    ⟨by decide +kernel, by decide +kernel,
      Option.map_eq_some_iff.mp (by decide +kernel),
      Option.map_eq_some_iff.mp (by decide +kernel), nofun⟩
  have hvacant : vacant.Untouched := ⟨rfl, rfl, by decide⟩
  have hsession : Session neighbors overlapping :=
    Session.start.goOn overlap (by decide +kernel)
  have hapart :
      Apart "file:///b.c".toList "file:///a.c".toList 1 0 1 0 overlapping :=
    ⟨by decide +kernel, by decide +kernel,
      Option.map_eq_some_iff.mp (by decide +kernel),
      Option.map_eq_some_iff.mp (by decide +kernel), nofun⟩
  have hneighbors : neighbors.Untouched := ⟨rfl, rfl, by decide⟩
  have hunused : neighbors.Unused := ⟨rfl, rfl, ⟨_, _, _, rfl⟩, .refl _⟩
  have huri :
      (overlapping.documents[1]?).map (·.uri) = some "file:///b.c".toList := by
    decide +kernel
  have hwaits : (3, .completion 1 0) ∈ overlapping.env.link.waiting := by
    decide +kernel
  have hwaits' : (2, .completion 0 0) ∈ overlapping.env.link.waiting := by
    decide +kernel
  cases attributed_kept.session hunused.attributed hsession _ hwaits with
  | completion hd hsent =>
      rw [hd, Option.map_some] at huri
      rw [Option.some.inj huri] at hsent
      have hclass :
          Connection.classify (.obj [("id", .int 3), ("result", .null)]) =
          .ok (.answer (.int 3)) := rfl
      rcases (documents_isolated.2 hneighbors hunused rfl hsession hapart).2
        hsent hclass rfl with
        ⟨hspares, hleft⟩
      exact ⟨documents_isolated.1 hvacant hserved hparallel .trigger, hspares,
        hleft _ hwaits' nofun⟩

end Workspace
end InlineCompletion
