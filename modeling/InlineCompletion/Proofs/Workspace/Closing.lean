import Mathlib.Data.List.Basic
import InlineCompletion.Proofs.Document.ClosedDocuments
import InlineCompletion.Proofs.Document.Ledger
import InlineCompletion.Proofs.Path.Uri
import InlineCompletion.Proofs.Workspace.RegistryFrame

/-!
# Leaving the registry

The documents of a workspace are *enrolled* if the registry lists those that are
not closed, each once and under its own address, and if every such address is
its own address again.  Documents are closed by address, one after the other,
and the agent is offered the closing of each copy that it has.  The main
statements are that a document that is closed leaves the registry without
another leaving it, and that nothing is left when all are closed.
-/

namespace InlineCompletion

/-!
# Offers

What a link takes depends on what it was offered before, and on whether it is
connected then.
-/

/-- Notifications are offered to a link one after the other, each if it is
connected then: those that it takes, and the link behind them. -/
def Link.offer {τ : Type} [Link τ] :
    List Notification → τ → List Notification × τ
  | [], link => ([], link)
  | n :: ns, link =>
      if Link.connected link then
        match Link.notify n link with
        | (none, link) => (n :: (Link.offer ns link).1, (Link.offer ns link).2)
        | (some _, link) => Link.offer ns link
      else Link.offer ns link

/-- Whether a link is connected and takes each of some notifications as they are
offered to it. -/
def Link.Takes {τ : Type} [Link τ] : List Notification → τ → Prop
  | [], _ => True
  | n :: ns, link =>
      Link.connected link = true ∧ (Link.notify n link).1 = none ∧
        Link.Takes ns (Link.notify n link).2

theorem Link.offer_append {τ : Type} [Link τ] (ns ms : List Notification)
    (link : τ) :
    Link.offer (ns ++ ms) link =
      ((Link.offer ns link).1 ++ (Link.offer ms (Link.offer ns link).2).1,
      (Link.offer ms (Link.offer ns link).2).2) := by
  induction ns generalizing link with
  | nil => rfl
  | cons n ns ih =>
      rw [List.cons_append, Link.offer, Link.offer]
      split
      · split
        · rw [ih]
          rfl
        · exact ih _
      · exact ih _

theorem Link.Takes.offer {τ : Type} [Link τ] {ns : List Notification} {link : τ}
    (h : Link.Takes ns link) : (Link.offer ns link).1 = ns := by
  induction ns generalizing link with
  | nil => rfl
  | cons n ns ih =>
      rcases h with ⟨hconnected, htaken, hrest⟩
      unfold Link.offer
      rw [if_pos hconnected]
      split
      · next link' heq =>
          rw [heq] at hrest
          exact congrArg (n :: ·) (ih hrest)
      · next heq =>
          rw [heq] at htaken
          cases htaken

namespace Env

variable {τ : Type} [Link τ]

/-- Whether all that the agent took in the meantime, and all that became of the
link, is by some notifications that were offered. -/
structure Offers (ns : List Notification) (env env' : Env τ) : Prop where
  told : env'.trace.filterMap Event.taken? =
    env.trace.filterMap Event.taken? ++ (Link.offer ns env.link).1
  link : env'.link = (Link.offer ns env.link).2

namespace Offers

variable {ns ms : List Notification} {env env' env'' : Env τ}

theorem nothing (hlink : env'.link = env.link)
    (htold : env'.trace.filterMap Event.taken? =
    env.trace.filterMap Event.taken?) :
    Offers [] env env' :=
  ⟨htold.trans (List.append_nil _).symm, hlink⟩

theorem trans (h : Offers ns env env') (h' : Offers ms env' env'') :
    Offers (ns ++ ms) env env'' := by
  constructor
  · rw [h'.told, h.told, h.link, List.append_assoc, Link.offer_append]
  · rw [h'.link, h.link, Link.offer_append]

end Offers

theorem offers_emit (env : Env τ) {e : Event} (he : e.taken? = none) :
    Offers [] env (env.emit e) := by
  refine .nothing rfl ?_
  show (env.trace ++ [e]).filterMap Event.taken? = _
  rw [List.filterMap_append, List.filterMap_cons_none he]
  exact List.append_nil _

theorem offers_signal (env : Env τ) {e : Event} (he : e.taken? = none) :
    Offers [] env (env.signal e) := by
  have hrefreshed : Offers [] env env.refreshWindow := by
    unfold refreshWindow
    cases env.window with
    | none => exact .nothing rfl rfl
    | some v => exact .nothing rfl (by simp [emits, Event.taken?])
  exact hrefreshed.trans (offers_emit _ he)

end Env

/-!
# Closing a document
-/

namespace Document

def farewell (d : Document) : List Notification :=
  if d.sync.opened then [.didClose d.sync.uri] else []

end Document

theorem Sync.close_offers {τ : Type} [Link τ] (s : Sync) (env : Env τ) :
    env.Offers (if s.opened then [.didClose s.uri] else [])
      (s.close env).2 := by
  have hclosing := closing s env
  revert hclosing
  generalize s.close env = r
  intro hclosing
  cases hclosing with
  | unsaid hsilent =>
      cases hopened : s.opened with
      | false => exact .nothing rfl rfl
      | true =>
          rcases hsilent with hfalse | hoff
          · exact absurd (hfalse.symm.trans hopened) Bool.false_ne_true
          · have hoffer :
                Link.offer [.didClose s.uri] env.link = ([], env.link) := by
              change Link.connected env.link = false at hoff
              simp [Link.offer, hoff]
            constructor
            · rw [if_pos rfl, hoffer, List.append_nil]
            · rw [if_pos rfl, hoffer]
  | refused hopened hconnected hlink =>
      rename_i r link
      have hoffer : Link.offer [.didClose s.uri] env.link = ([], link) := by
        change Link.connected env.link = true at hconnected
        simp [Link.offer, hconnected, hlink]
      rw [if_pos hopened]
      constructor
      · rw [hoffer, List.append_nil]
        simp [Env.seeing, Event.taken?]
      · rw [hoffer]
        rfl
  | taken hopened hconnected hlink =>
      rename_i link
      have hoffer :
          Link.offer [.didClose s.uri] env.link =
            ([.didClose s.uri], link) := by
        change Link.connected env.link = true at hconnected
        simp [Link.offer, hconnected, hlink]
      rw [if_pos hopened]
      constructor
      · rw [hoffer]
        simp [Env.seeing, Event.taken?]
      · rw [hoffer]
        rfl

namespace Desk

variable {τ : Type} [Link τ]

theorem close_offers (k : Desk τ) :
    k.env.Offers k.document.farewell k.close.env := by
  have hquiet := quiet_cleared k
  have hcleared : k.env.Offers [] _ := .nothing hquiet.link hquiet.events.taken
  have hclosed := (hcleared.trans (Sync.close_offers k.document.sync _)).trans
    (Env.offers_emit _ (e := .notice (.closed k.document.name)) rfl)
  rw [List.nil_append, List.append_nil] at hclosed
  exact hclosed

theorem close_card (k : Desk τ) :
    k.close.document.card = { k.document.card with closed := true } := by
  unfold Document.card
  rw [close_sync]
  rfl

end Desk

namespace Workspace

variable {τ : Type}

/-!
# Documents on the roll
-/

/-- Whether the registry lists the documents that are not closed, each once and
under its own address, which is the address of itself. -/
structure Enrolled (w : Workspace τ) : Prop where
  distinct : (w.registry.map (·.1)).Nodup
  registered {uri : Text} {i : Nat} (h : (uri, i) ∈ w.registry) :
    ∃ c, w.card? i = some c ∧ c.uri = uri ∧ c.closed = false
  settled {uri : Text} {i : Nat} (h : (uri, i) ∈ w.registry)
    (dir : Path.Directory) :
    Uri.ofPath dir uri = .ok (some uri)
  named {i : Nat} {c : Card} (h : w.card? i = some c) : c.named = c.uri
  placed {i : Nat} {c : Card} (h : w.card? i = some c) :
      c.editor < w.editors.length
  complete {i : Nat} {c : Card} (h : w.card? i = some c)
    (hclosed : c.closed = false) :
    (c.uri, i) ∈ w.registry

theorem card?_eq_some {w : Workspace τ} {i : Nat} {c : Card}
    (h : w.card? i = some c) :
    ∃ d, w.documents[i]? = some d ∧ d.card = c := Option.map_eq_some_iff.mp h

theorem card?_of_document {w : Workspace τ} {i : Nat} {d : Document}
    (h : w.documents[i]? = some d) : w.card? i = some d.card := by
  unfold card?
  rw [h]
  rfl

theorem desk?_of_document {w : Workspace τ} {i : Nat} {d : Document}
    (hd : w.documents[i]? = some d) (heditor : d.editor < w.editors.length) :
    ∃ k, w.desk? i = some k ∧ k.document = d := by
  unfold desk?
  rw [hd]
  dsimp only
  rw [List.getElem?_eq_getElem heditor]
  exact ⟨_, rfl, rfl⟩

namespace Enrolled

variable {w w' : Workspace τ}

theorem of_empty (hdocuments : w.documents = [])
    (hregistry : w.registry = []) : Enrolled w := by
  have hcard {i : Nat} {c : Card} (hc : w.card? i = some c) : False := by
    unfold card? at hc
    rw [hdocuments] at hc
    cases hc
  have hmem {r : Text × Nat} (hr : r ∈ w.registry) : False := by
    rw [hregistry] at hr
    cases hr
  refine ⟨?_, fun h => (hmem h).elim, fun h => (hmem h).elim,
    fun h => (hcard h).elim, fun h => (hcard h).elim, fun h => (hcard h).elim⟩
  rw [hregistry]
  exact List.nodup_nil

theorem sameRoll (h : Enrolled w) (hsame : SameRoll w w') : Enrolled w' where
  distinct := by
    rw [hsame.registry]
    exact h.distinct
  registered hmem := by
    rw [hsame.registry] at hmem
    rcases h.registered hmem with ⟨c, hcard, hc⟩
    exact ⟨c, (hsame.cards _).trans hcard, hc⟩
  settled hmem := by
    rw [hsame.registry] at hmem
    exact h.settled hmem
  named hcard := h.named ((hsame.cards _).symm.trans hcard)
  placed hcard := by
    rw [hsame.editors]
    exact h.placed ((hsame.cards _).symm.trans hcard)
  complete hcard hclosed := by
    rw [hsame.registry]
    exact h.complete ((hsame.cards _).symm.trans hcard) hclosed

theorem desk (h : Enrolled w) {uri : Text} {i : Nat}
    (hmem : (uri, i) ∈ w.registry) :
    ∃ k, w.desk? i = some k ∧ k.document.uri = uri ∧ k.document.sync.uri = uri ∧
      k.document.closed = false := by
  rcases h.registered hmem with ⟨c, hcard, huri, hclosed⟩
  have hplaced := h.placed hcard
  have hnamed := h.named hcard
  rcases card?_eq_some hcard with ⟨d, hd, rfl⟩
  rcases desk?_of_document hd hplaced with ⟨k, hk, rfl⟩
  exact ⟨k, hk, huri, hnamed.trans huri, hclosed⟩

theorem number_ne (h : Enrolled w) {uri uri' : Text} {i j : Nat}
    (hi : (uri, i) ∈ w.registry) (hj : (uri', j) ∈ w.registry)
    (hne : uri' ≠ uri) : i ≠ j := by
  rintro rfl
  rcases h.registered hi with ⟨c, hc, huri, _⟩
  rcases h.registered hj with ⟨c', hc', huri', _⟩
  rw [hc] at hc'
  cases hc'
  exact hne (huri'.symm.trans huri)

theorem all_closed (h : Enrolled w) (hnone : w.registry = []) :
    ∀ d ∈ w.documents, d.closed = true := by
  intro d hd
  rcases List.mem_iff_getElem?.mp hd with ⟨i, hi⟩
  cases hclosed : d.closed with
  | true => rfl
  | false =>
      have hmem := h.complete (card?_of_document hi) hclosed
      rw [hnone] at hmem
      cases hmem

end Enrolled

/-!
# Closing by address
-/

section Linked

variable [Link τ] {uri : Text} {i : Nat} {d : Document} {w w' : Workspace τ}

/-- Whether a document was closed and is no longer registered, nothing else
became of the documents, and the agent was offered the closing. -/
structure Leaves (uri : Text) (i : Nat) (d : Document) (w w' : Workspace τ) :
    Prop where
  was : w.documents[i]? = some d
  closed : w'.card? i = some { d.card with closed := true }
  others {j : Nat} (h : i ≠ j) : w'.documents[j]? = w.documents[j]?
  documents : w'.documents.length = w.documents.length
  editors : w'.editors.length = w.editors.length
  registry : w'.registry = w.registry.filter fun r => r.1 != uri
  offers : Env.Offers d.farewell w.env w'.env

namespace Leaves

theorem mem_registry (h : Leaves uri i d w w') {r : Text × Nat} :
    r ∈ w'.registry ↔ r ∈ w.registry ∧ r.1 ≠ uri := by
  rw [h.registry, List.mem_filter, bne_iff_ne]

theorem card?_other (h : Leaves uri i d w w') {j : Nat} (hij : i ≠ j) :
    w'.card? j = w.card? j := by
  unfold card?
  rw [h.others hij]

theorem card?_before (h : Leaves uri i d w w') {j : Nat} {c : Card}
    (hc : w'.card? j = some c) :
    ∃ c', w.card? j = some c' ∧ c.uri = c'.uri ∧ c.named = c'.named ∧
      c.editor = c'.editor ∧
      (c.closed = false → i ≠ j ∧ c'.closed = false) := by
  by_cases hij : i = j
  · subst hij
    rw [h.closed] at hc
    cases hc
    exact ⟨d.card, card?_of_document h.was, rfl, rfl, rfl, nofun⟩
  · rw [h.card?_other hij] at hc
    exact ⟨c, hc, rfl, rfl, rfl, fun hclosed => ⟨hij, hclosed⟩⟩

theorem enrolled (h : Leaves uri i d w w') (hw : Enrolled w)
    (hmem : (uri, i) ∈ w.registry) :
    Enrolled w' := by
  refine ⟨?_, ?_, ?_, ?_, ?_, ?_⟩
  · rw [h.registry]
    exact hw.distinct.sublist (List.filter_sublist.map _)
  · intro u j hj
    rcases h.mem_registry.mp hj with ⟨hin, hne⟩
    rcases hw.registered hin with ⟨c, hc, hrest⟩
    exact ⟨c, (h.card?_other (hw.number_ne hmem hin hne)).trans hc, hrest⟩
  · intro u j hj
    exact hw.settled (h.mem_registry.mp hj).1
  · intro j c hc
    rcases h.card?_before hc with ⟨c', hc', huri, hnamed, _, _⟩
    rw [hnamed, huri]
    exact hw.named hc'
  · intro j c hc
    rcases h.card?_before hc with ⟨c', hc', _, _, heditor, _⟩
    rw [heditor, h.editors]
    exact hw.placed hc'
  · intro j c hc hclosed
    rcases h.card?_before hc with ⟨c', hc', huri, _, _, hopen⟩
    rcases hopen hclosed with ⟨hij, hopen⟩
    have hin := hw.complete hc' hopen
    rw [huri]
    refine h.mem_registry.mpr ⟨hin, ?_⟩
    intro heq
    change c'.uri = uri at heq
    rw [heq] at hin
    have hi := (registered?_eq_some_iff hw.distinct).mpr hmem
    rw [(registered?_eq_some_iff hw.distinct).mpr hin] at hi
    exact hij (Option.some.inj hi).symm

theorem signal (h : Leaves uri i d w w') {e : Event} (he : e.taken? = none) :
    Leaves uri i d w { w' with env := w'.env.signal e } := by
  have hoffers := h.offers.trans (Env.offers_signal w'.env he)
  rw [List.append_nil] at hoffers
  exact ⟨h.was, h.closed, h.others, h.documents, h.editors, h.registry, hoffers⟩

end Leaves

/-- Whether an address is no longer registered, the documents are the same, and
the agent was offered nothing. -/
structure Struck (uri : Text) (w w' : Workspace τ) : Prop where
  documents : w'.documents = w.documents
  editors : w'.editors.length = w.editors.length
  registry : w'.registry = w.registry.filter fun r => r.1 != uri
  offers : Env.Offers [] w.env w'.env

namespace Struck

theorem tell (h : Struck uri w w') (n : Notice) : Struck uri w (w'.tell n) :=
  ⟨h.documents, h.editors, h.registry, h.offers.trans (Env.offers_emit _ rfl)⟩

theorem onEditor (h : Struck uri w w') (j : Nat) (f : Editor → Editor) :
    Struck uri w (w'.onEditor j fun e => (f e, [])) := by
  unfold Workspace.onEditor
  cases w'.editors[j]? with
  | none => exact h
  | some e =>
      refine ⟨h.documents, (List.length_set ..).trans h.editors, h.registry, ?_⟩
      exact h.offers.trans (.nothing rfl
        (congrArg (List.filterMap Event.taken?) (List.append_nil w'.env.trace)))

theorem close (h : Struck uri w w') (hd : w.documents[i]? = some d)
    (heditor : d.editor < w.editors.length) :
    Leaves uri i d w (w'.atDesk i Desk.close) := by
  rw [← h.documents] at hd
  rw [← h.editors] at heditor
  rcases desk?_of_document hd heditor with ⟨k, hk, rfl⟩
  have hat : w'.atDesk i Desk.close = w'.withDesk k.close := by
    unfold atDesk
    rw [hk]
  have hnumber : k.close.number = k.number := rfl
  have hdocuments := documents_withDesk hk hnumber
  rw [hat]
  refine ⟨?_, ?_, ?_, ?_, ?_, h.registry, ?_⟩
  · rw [← h.documents]
    exact hd
  · unfold card?
    rw [hdocuments, if_pos rfl, Option.map_some, Desk.close_card]
  · intro j hij
    rw [hdocuments, if_neg hij, h.documents]
  · rw [← h.documents]
    exact List.length_set ..
  · rw [← h.editors]
    exact List.length_set ..
  · have hoffers := k.close_offers
    rw [(desk?_eq_some hk).2.2.2] at hoffers
    exact h.offers.trans hoffers

end Struck

theorem Enrolled.closeUri_leaves (h : Enrolled w)
    (hmem : (uri, i) ∈ w.registry) :
    ∃ d, d.uri = uri ∧ d.sync.uri = uri ∧
      Leaves uri i d w (w.closeUri uri) := by
  rcases h.desk hmem with ⟨k, hk, huri, hnamed, _⟩
  have hstruck :
      Struck uri w
        { w with registry := w.registry.filter fun r => r.1 != uri } :=
    ⟨rfl, rfl, rfl, .nothing rfl rfl⟩
  have hleave {w' : Workspace τ} (hstruck' : Struck uri w w') :
      Leaves uri i k.document w ((w'.onEditor k.document.editor
        fun e => ((e.disconnect i).attach none, [])).atDesk i Desk.close) :=
    (hstruck'.onEditor _ _).close (desk?_eq_some hk).2.1 (editor_lt hk)
  have hdesk : ({ w with registry := w.registry.filter fun r => r.1 != uri } :
      Workspace τ).desk? i = some k := hk
  refine ⟨k.document, huri, hnamed, ?_⟩
  unfold closeUri
  rw [(registered?_eq_some_iff h.distinct).mpr hmem]
  dsimp only
  rw [hdesk]
  refine Leaves.signal ?_ rfl
  split
  · exact hleave hstruck
  · exact hleave (hstruck.tell _)

theorem Enrolled.closeUri_cases (h : Enrolled w) (uri : Text) :
    ((∀ i, (uri, i) ∉ w.registry) ∧ w.closeUri uri = w) ∨
      ∃ i d, (uri, i) ∈ w.registry ∧ Leaves uri i d w (w.closeUri uri) := by
  cases hregistered : w.registered? uri with
  | none =>
      refine Or.inl ⟨?_, ?_⟩
      · intro i hmem
        rw [(registered?_eq_some_iff h.distinct).mpr hmem] at hregistered
        cases hregistered
      · unfold Workspace.closeUri
        rw [hregistered]
  | some i =>
      have hmem := mem_of_registered? hregistered
      rcases h.closeUri_leaves hmem with ⟨d, _, _, hleaves⟩
      exact Or.inr ⟨i, d, hmem, hleaves⟩

theorem Enrolled.closeUri (h : Enrolled w) (uri : Text) :
    Enrolled (w.closeUri uri) := by
  rcases h.closeUri_cases uri with ⟨_, hsame⟩ | ⟨i, d, hmem, hleaves⟩
  · rw [hsame]
    exact h
  · exact hleaves.enrolled h hmem

theorem Enrolled.length_closeUri (h : Enrolled w) (uri : Text) :
    (w.closeUri uri).documents.length = w.documents.length ∧
      (w.closeUri uri).editors.length = w.editors.length := by
  rcases h.closeUri_cases uri with ⟨_, hsame⟩ | ⟨i, d, _, hleaves⟩
  · rw [hsame]
    exact ⟨rfl, rfl⟩
  · exact ⟨hleaves.documents, hleaves.editors⟩

theorem Enrolled.not_mem_closeUri (h : Enrolled w) (uri : Text) (i : Nat) :
    (uri, i) ∉ (w.closeUri uri).registry := by
  rcases h.closeUri_cases uri with ⟨hfree, hsame⟩ | ⟨j, d, _, hleaves⟩
  · rw [hsame]
    exact hfree i
  · exact fun hmem => (hleaves.mem_registry.mp hmem).2 rfl

theorem Enrolled.close (h : Enrolled w) (path : Option Text) :
    Enrolled (w.close path).2 := by
  unfold Workspace.close
  split
  · exact h
  · split
    · exact h
    · exact h
    · exact h.closeUri _

/-!
# Closing all documents
-/

/-- What the agent is to be told as all documents are closed: of each copy that
it has, in the order of opening. -/
def closings (w : Workspace τ) : List Notification :=
  w.registry.filterMap fun r =>
    if (w.documents[r.2]?).any (·.sync.opened) then some (.didClose r.1)
    else none

theorem Leaves.first {rest : List (Text × Nat)} (h : Leaves uri i d w w')
    (hw : Enrolled w) (hnamed : d.sync.uri = uri)
    (hfirst : w.registry = (uri, i) :: rest) :
    w'.registry = rest ∧ w.closings = d.farewell ++ w'.closings := by
  have hdistinct := hw.distinct
  rw [hfirst, List.map_cons, List.nodup_cons] at hdistinct
  have hother {r : Text × Nat} (hr : r ∈ rest) : r.1 ≠ uri :=
    fun heq => hdistinct.1 (List.mem_map.mpr ⟨r, hr, heq⟩)
  have hrest : w'.registry = rest := by
    rw [h.registry, hfirst, List.filter_cons_of_neg (by simp)]
    exact List.filter_eq_self.mpr fun r hr => bne_iff_ne.mpr (hother hr)
  refine ⟨hrest, ?_⟩
  have hkept : rest.filterMap (fun r =>
        if (w'.documents[r.2]?).any (·.sync.opened) then
          some (Notification.didClose r.1) else none) =
      rest.filterMap fun r =>
        if (w.documents[r.2]?).any (·.sync.opened) then
          some (.didClose r.1) else none := by
    refine List.filterMap_congr fun r hr => ?_
    have hne : i ≠ r.2 := hw.number_ne (hfirst ▸ List.mem_cons_self)
      (hfirst ▸ List.mem_cons_of_mem _ hr) (hother hr)
    rw [h.others hne]
  unfold closings Document.farewell
  rw [hrest, hkept, hfirst, hnamed]
  cases hopened : d.sync.opened <;> simp [h.was, hopened]

/-- Whether no document is registered any longer, and the agent was offered the
closings of all that were. -/
structure Empties (w w' : Workspace τ) : Prop where
  enrolled : Enrolled w'
  registry : w'.registry = []
  documents : w'.documents.length = w.documents.length
  offers : Env.Offers w.closings w.env w'.env

/-- Nothing is left when all documents are closed: each address is its own
address, so that it is found in the registry again. -/
theorem Enrolled.closeAll (h : Enrolled w) : Empties w w.closeAll := by
  unfold Workspace.closeAll
  generalize hlisted : w.registry = listed
  induction listed generalizing w with
  | nil =>
      refine ⟨h, hlisted, rfl, ?_⟩
      unfold closings
      rw [hlisted]
      exact .nothing rfl rfl
  | cons r rest ih =>
      rcases r with ⟨uri, i⟩
      have hmem : (uri, i) ∈ w.registry := hlisted ▸ List.mem_cons_self
      rcases h.closeUri_leaves hmem with ⟨d, huri, hnamed, hleaves⟩
      rcases hleaves.first h hnamed hlisted with ⟨hrest, hclosings⟩
      have hclosed : (w.close (some d.uri)).2 = w.closeUri uri := by
        unfold Workspace.close
        rw [huri]
        dsimp only
        rw [h.settled hmem]
      have hempties := ih (hleaves.enrolled h hmem) hrest
      rw [List.map_cons, List.foldl_cons, hleaves.was]
      dsimp only
      rw [hclosed]
      refine ⟨hempties.enrolled, hempties.registry,
        hempties.documents.trans hleaves.documents, ?_⟩
      rw [hclosings]
      exact hleaves.offers.trans hempties.offers

end Linked
end Workspace
end InlineCompletion
