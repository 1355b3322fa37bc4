import InlineCompletion.Proofs.Workspace.SilentSteps

/-!
# The order of messages in a workspace

A workspace is *sound* if its registered documents are those that are not
closed, each under its own address, if what is known of each copy agrees with
what the process heard, and if every message so far is in order or astray.
While the documents are opened on a process that was just announced, the
documents still to be opened do not agree yet; the process was told of none of
them.  The main statements are that opening and closing documents, and whatever
they say, keep a workspace sound.
-/

namespace InlineCompletion
namespace Workspace

/-!
# Sound workspaces
-/

/-- Whether the connection fits the life of the process: it is greeted once,
before anything is said of a document. -/
structure Lively (c : Connection) (es : List Event) : Prop where
  waits (h : c.process.phase ≠ .running) :
      c.greetings = [] ∧ c.initialized = false
  starts (h : c.process.phase = .starting) (uri : Text) :
      heard uri es = .nothing
  greets (h : c.greetings ≠ []) :
      c.initialized = false ∧ ∀ uri, heard uri es = .nothing
  once : c.greetings.length ≤ 1

/-- Whether the registry lists the documents that are not closed, under their
addresses. -/
structure Shelved (w : Workspace Connection) : Prop where
  distinct : (w.registry.map (·.1)).Nodup
  registered {uri : Text} {i : Nat} (h : (uri, i) ∈ w.registry) :
    ∃ f, w.face? i = some f ∧ f.uri = uri ∧ f.closed = false
  named {i : Nat} {f : Face} (h : w.face? i = some f) : f.named = f.uri
  unopened {i : Nat} {f : Face} (h : w.face? i = some f)
    (hgone : f.closed = true ∨ ¬ f.editor < w.editors.length) : f.opened = false
  complete {i : Nat} {f : Face} (h : w.face? i = some f)
    (hclosed : f.closed = false) (heditor : f.editor < w.editors.length) :
        (f.uri, i) ∈ w.registry

/-- Whether the copy of the document registered under an address counts as
open. -/
def countsOpen (uri : Text) (w : Workspace Connection) : Bool :=
  match (w.registered? uri).bind (w.face? ·) with
  | some f => f.opened
  | none => false

/-- Whether all messages so far can be explained, and all that follow will, once
the documents under some remaining addresses are opened. -/
structure Sound (remaining : List Text) (w : Workspace Connection) : Prop where
  lively : Lively w.env.link w.env.trace
  shelved : Shelved w
  explained : Explained w.env.trace
  agreed {uri : Text} (h : uri ∉ remaining) :
    Agreed w.env.connected (w.countsOpen uri) (heard uri w.env.trace)
  untold {uri : Text} (h : uri ∈ remaining) :
      (heard uri w.env.trace).told = false

/-- A connection that lives on stays lively if nothing is said while the agent
cannot be reached. -/
theorem Lively.goOn {c c' : Connection} {es es' : List Event} (h : Lively c es)
    (hlife : c.SameLife c')
    (hheard : Link.connected c = false → ∀ uri, heard uri es' = heard uri es) :
    Lively c' es' where
  waits hphase := by
    rw [hlife.phase] at hphase
    rcases h.waits hphase with ⟨hgreetings, hinitialized⟩
    exact ⟨hlife.greetings_nil hgreetings,
      hlife.initialized.trans hinitialized⟩
  starts hphase uri := by
    rw [hlife.phase] at hphase
    have hoff : Link.connected c = false := by
      have hinitialized := (h.waits (by rw [hphase]; exact nofun)).2
      show (c.initialized && _) = false
      rw [hinitialized, Bool.false_and]
    rw [hheard hoff uri]
    exact h.starts hphase uri
  greets hgreetings := by
    have hne := hlife.greetings_ne hgreetings
    rcases h.greets hne with ⟨hinitialized, hnothing⟩
    have hoff : Link.connected c = false := by
      show (c.initialized && _) = false
      rw [hinitialized, Bool.false_and]
    refine ⟨hlife.initialized.trans hinitialized, ?_⟩
    intro uri
    rw [hheard hoff uri]
    exact hnothing uri
  once := Nat.le_trans hlife.greetings.length_le h.once

namespace Shelved

variable {w w' : Workspace Connection}

theorem registered?_eq_some_iff (h : Shelved w) {uri : Text} {i : Nat} :
    w.registered? uri = some i ↔ (uri, i) ∈ w.registry :=
  Workspace.registered?_eq_some_iff h.distinct

theorem registered?_of_mem (h : Shelved w) {uri : Text} {i : Nat}
    (hmem : (uri, i) ∈ w.registry) :
    w.registered? uri = some i := h.registered?_eq_some_iff.mpr hmem

theorem still (h : Shelved w) (hstill : Still w w') : Shelved w' where
  distinct := by
    rw [hstill.registry]
    exact h.distinct
  registered hmem := by
    rw [hstill.registry] at hmem
    rcases h.registered hmem with ⟨f, hface, hf⟩
    exact ⟨f, (hstill.faces _).trans hface, hf⟩
  named hface := h.named ((hstill.faces _).symm.trans hface)
  unopened hface hgone := by
    rw [hstill.editors] at hgone
    exact h.unopened ((hstill.faces _).symm.trans hface) hgone
  complete hface hclosed heditor := by
    rw [hstill.editors] at heditor
    rw [hstill.registry]
    exact h.complete ((hstill.faces _).symm.trans hface) hclosed heditor

end Shelved

theorem countsOpen_of_registered? {uri : Text} {i : Nat} {f : Face}
    {w : Workspace Connection} (h : w.registered? uri = some i)
    (hface : w.face? i = some f) :
    w.countsOpen uri = f.opened := by
  unfold countsOpen
  rw [h, Option.bind_some, hface]

theorem Still.countsOpen {w w' : Workspace Connection} (h : Still w w')
    (uri : Text) :
    w'.countsOpen uri = w.countsOpen uri := by
  unfold Workspace.countsOpen registered?
  rw [h.registry]
  cases w.registry.lookup uri with
  | none => rfl
  | some i => rw [Option.bind_some, Option.bind_some, h.faces i]

namespace Sound

variable {remaining : List Text} {w w' : Workspace Connection}

theorem still (h : Sound remaining w) (hstill : Still w w') :
    Sound remaining w' where
  lively := h.lively.goOn hstill.life fun _ uri => hstill.events.heard uri
  shelved := h.shelved.still hstill
  explained := h.explained.silently hstill.events
  agreed hmem := by
    have hconnected : w'.env.connected = w.env.connected :=
      hstill.life.connected
    rw [hconnected, hstill.countsOpen, hstill.events.heard]
    exact h.agreed hmem
  untold hmem := by
    rw [hstill.events.heard]
    exact h.untold hmem

/-!
# Speaking
-/

theorem speaks (h : Sound remaining w) {i : Nat} {k : Desk Connection}
    (hdesk : w.desk? i = some k) : Desk.Speaks k k where
  seat := .refl k
  named := h.shelved.named (face?_of_desk? hdesk)
  life := .refl _
  apart _ := rfl
  explained := by
    rw [(desk?_eq_some hdesk).2.2.2]
    exact h.explained

theorem mem_of_desk? (h : Sound remaining w) {i : Nat} {k : Desk Connection}
    (hdesk : w.desk? i = some k) (hclosed : k.document.closed = false) :
    (k.document.uri, i) ∈ w.registry :=
  h.shelved.complete (face?_of_desk? hdesk) hclosed (editor_lt hdesk)

theorem countsOpen_of_desk? (h : Sound remaining w) {i : Nat}
    {k : Desk Connection} (hdesk : w.desk? i = some k)
    (hclosed : k.document.closed = false) :
    w.countsOpen k.document.uri = k.document.sync.opened :=
  countsOpen_of_registered?
    (h.shelved.registered?_of_mem (h.mem_of_desk? hdesk hclosed))
      (face?_of_desk? hdesk)

theorem speaksWell (h : Sound remaining w) {i : Nat} {k : Desk Connection}
    (hdesk : w.desk? i = some k) (hclosed : k.document.closed = false)
    (hmem : k.document.uri ∉ remaining) : Desk.SpeaksWell k k where
  toSpeaks := h.speaks hdesk
  agreed := by
    have hagreed := h.agreed hmem
    rw [h.countsOpen_of_desk? hdesk hclosed] at hagreed
    rw [(desk?_eq_some hdesk).2.2.2]
    exact hagreed

/-- The registry still lists what is not closed after a desk that keeps its
document's address is put back. -/
theorem shelved_withDesk (h : Shelved w) {i : Nat} {k k' : Desk Connection}
    (hdesk : w.desk? i = some k) (hspeaks : Desk.Speaks k k')
    (hclosed : k.document.closed = false)
    (hclosed' : k'.document.closed = false) :
    Shelved (w.withDesk k') := by
  have hfaces := face?_withDesk hdesk hspeaks.seat.number
  have hlength : (w.withDesk k').editors.length = w.editors.length := by
    simp [Workspace.withDesk]
  have hface := face?_of_desk? hdesk
  refine ⟨h.distinct, ?_, ?_, ?_, ?_⟩
  · intro uri j hmem
    rcases h.registered hmem with ⟨f, hf, huri, hopen⟩
    by_cases hij : i = j
    · rw [← hij] at hf
      rw [Option.some.inj (hf.symm.trans hface)] at huri
      refine ⟨k'.document.face, (hfaces j).trans (if_pos hij), ?_, hclosed'⟩
      exact hspeaks.seat.uri.trans huri
    · exact ⟨f, (hfaces j).trans ((if_neg hij).trans hf), huri, hopen⟩
  · intro j f hf
    rw [hfaces] at hf
    by_cases hij : i = j
    · rw [if_pos hij] at hf
      cases hf
      exact hspeaks.named
    · rw [if_neg hij] at hf
      exact h.named hf
  · intro j f hf hgone
    rw [hfaces] at hf
    rw [hlength] at hgone
    by_cases hij : i = j
    · rw [if_pos hij] at hf
      cases hf
      rcases hgone with htrue | hout
      · exact absurd (hclosed'.symm.trans htrue) Bool.false_ne_true
      · have hlt := editor_lt hdesk
        rw [← hspeaks.seat.place] at hlt
        exact absurd hlt hout
    · rw [if_neg hij] at hf
      exact h.unopened hf hgone
  · intro j f hf hopen heditor
    rw [hfaces] at hf
    rw [hlength] at heditor
    by_cases hij : i = j
    · rw [if_pos hij] at hf
      cases hf
      show (k'.document.uri, j) ∈ w.registry
      rw [hspeaks.seat.uri, ← hij]
      exact h.complete hface hclosed (editor_lt hdesk)
    · rw [if_neg hij] at hf
      exact h.complete hf hopen heditor

theorem countsOpen_withDesk (h : Shelved w) {i : Nat} {k k' : Desk Connection}
    (hdesk : w.desk? i = some k) (hnumber : k'.number = k.number) {uri : Text}
    (hne : uri ≠ k.document.uri) :
    (w.withDesk k').countsOpen uri = w.countsOpen uri := by
  have hregistered : (w.withDesk k').registered? uri = w.registered? uri := rfl
  unfold Workspace.countsOpen
  rw [hregistered]
  cases hj : w.registered? uri with
  | none => rfl
  | some j =>
      rw [Option.bind_some, Option.bind_some, face?_withDesk hdesk hnumber,
        if_neg]
      intro hij
      rcases h.registered (mem_of_registered? hj) with ⟨f, hf, huri, _⟩
      rw [← hij, face?_of_desk? hdesk] at hf
      cases hf
      exact hne huri.symm

theorem withDesk (h : Sound remaining w) {i : Nat} {k k' : Desk Connection}
    (hdesk : w.desk? i = some k) (hspeaks : Desk.SpeaksWell k k')
    (hclosed : k.document.closed = false)
    (hclosed' : k'.document.closed = false) {remaining' : List Text}
    (hother : ∀ uri, uri ≠ k.document.uri →
    (uri ∈ remaining' ↔ uri ∈ remaining))
    (hown : k.document.uri ∉ remaining') :
    Sound remaining' (w.withDesk k') := by
  have henv := (desk?_eq_some hdesk).2.2.2
  have hshelved :=
    shelved_withDesk h.shelved hdesk hspeaks.toSpeaks hclosed hclosed'
  have hlife : w.env.link.SameLife k'.env.link := by
    rw [← henv]
    exact hspeaks.life
  have hapart (uri : Text)
      (hu : uri ≠ k'.document.uri ∨ w.env.connected = false) :
      heard uri k'.env.trace = heard uri w.env.trace := by
    rw [← henv] at hu ⊢
    exact hspeaks.apart hu
  have huri := hspeaks.seat.uri
  refine ⟨?_, hshelved, hspeaks.explained, ?_, ?_⟩
  · exact h.lively.goOn hlife fun hoff uri => hapart uri (Or.inr hoff)
  · intro uri hmem
    by_cases heq : uri = k.document.uri
    · have hregistered : (w.withDesk k').registered? uri = some i := by
        rw [heq]
        exact h.shelved.registered?_of_mem (h.mem_of_desk? hdesk hclosed)
      have hface : (w.withDesk k').face? i = some k'.document.face := by
        rw [face?_withDesk hdesk hspeaks.seat.number, if_pos rfl]
      rw [countsOpen_of_registered? hregistered hface, heq, ← huri]
      exact hspeaks.agreed
    · have hconnected : (w.withDesk k').env.connected = w.env.connected :=
        hlife.connected
      have hheard :
          heard uri (w.withDesk k').env.trace = heard uri w.env.trace :=
        hapart uri (Or.inl (by rw [huri]; exact heq))
      rw [countsOpen_withDesk h.shelved hdesk hspeaks.seat.number heq,
        hconnected, hheard]
      exact h.agreed fun hin => hmem ((hother uri heq).mpr hin)
  · intro uri hmem
    have hne : uri ≠ k.document.uri := fun heq => hown (heq ▸ hmem)
    have hheard : heard uri (w.withDesk k').env.trace = heard uri w.env.trace :=
      hapart uri (Or.inl (by rw [huri]; exact hne))
    rw [hheard]
    exact h.untold ((hother uri hne).mp hmem)

/-- A workspace stays sound as a desk does something that brings the agent up to
date or asks. -/
theorem talk (h : Sound [] w) {i : Nat} {k k' : Desk Connection}
    (hdesk : w.desk? i = some k)
    (hkept : ∀ {P : Desk Connection → Prop}, Desk.KeptByTalk P → P k → P k') :
    Sound [] (w.withDesk k') := by
  cases hclosed : k.document.closed with
  | true =>
      have hopened : k.document.sync.opened = false :=
        h.shelved.unopened (face?_of_desk? hdesk) (Or.inl hclosed)
      have hidle := hkept (Desk.idle_kept hclosed hopened) (.refl k)
      exact h.still (.withDesk hdesk hidle)
  | false =>
      have hspeaks := hkept (Desk.speaksWell_kept k)
        (h.speaksWell hdesk hclosed List.not_mem_nil)
      have hclosed' := hkept (Desk.closed_kept false) hclosed
      exact h.withDesk hdesk hspeaks hclosed hclosed' (fun _ _ => Iff.rfl)
        List.not_mem_nil

theorem talk_run {α : Type} (h : Sound [] w) (i : Nat)
    (f : Desk Connection → α × Desk Connection)
    (hkept : ∀ {P : Desk Connection → Prop} (k : Desk Connection),
    Desk.KeptByTalk P → P k →
      P (f k).2) : Sound [] (w.run i f).2 := by
  unfold run
  cases hdesk : w.desk? i with
  | none => exact h
  | some k => exact h.talk hdesk (hkept k)

/-!
# Opening a copy
-/

theorem fit (h : Sound remaining w) {uri : Text}
    (hstale : w.countsOpen uri = true → (heard uri w.env.trace).told = false)
    (hconnected : w.env.connected = true)
    (hholds : (heard uri w.env.trace).holds = true) :
    (heard uri w.env.trace).closeRefused = true := by
  have htold := heard_holds uri w.env.trace hholds
  by_cases hmem : uri ∈ remaining
  · exact absurd ((h.untold hmem).symm.trans htold) Bool.false_ne_true
  · rcases (h.agreed hmem).opens hconnected hholds with hopen | hrefused
    · exact absurd ((hstale hopen).symm.trans htold) Bool.false_ne_true
    · exact hrefused

/-- A workspace stays sound as a registered document is opened that the process
was not told of, or whose copy does not count as open. -/
theorem openCopy (h : Sound remaining w) {uri : Text} {i : Nat}
    (hmem : (uri, i) ∈ w.registry)
    (hstale : w.countsOpen uri = true → (heard uri w.env.trace).told = false)
    {remaining' : List Text}
    (hother : ∀ u, u ≠ uri → (u ∈ remaining' ↔ u ∈ remaining))
    (hown : uri ∉ remaining') : Sound remaining' (w.openCopy i).2 := by
  rcases h.shelved.registered hmem with ⟨f, hface, huri, hclosed⟩
  have hregistered := h.shelved.registered?_of_mem hmem
  cases hdesk : w.desk? i with
  | none =>
      have hsame : (w.openCopy i).2 = w := by
        unfold Workspace.openCopy run
        rw [hdesk]
      rw [hsame]
      -- without an editor there is no desk, and then the copy never counted as
      -- open
      refine ⟨h.lively, h.shelved, h.explained, ?_, ?_⟩
      · intro u hu
        by_cases heq : u = uri
        · rw [heq]
          rcases Option.map_eq_some_iff.mp hface with ⟨d, hd, hf⟩
          have hout := desk?_eq_none hdesk hd
          have hopened : f.opened = false := by
            refine h.shelved.unopened hface (Or.inr ?_)
            rw [← hf]
            exact hout
          have hcounts :=
            (countsOpen_of_registered? hregistered hface).trans hopened
          rw [hcounts]
          exact .closed fun hconnected hholds => h.fit hstale hconnected hholds
        · exact h.agreed fun hin => hu ((hother u heq).mpr hin)
      · intro u hu
        have hne : u ≠ uri := fun heq => hown (heq ▸ hu)
        exact h.untold ((hother u hne).mp hu)
  | some k =>
      have hfaces := (face?_of_desk? hdesk).symm.trans hface
      have hkuri : k.document.uri = uri :=
        (congrArg Face.uri (Option.some.inj hfaces)).trans huri
      have hkclosed : k.document.closed = false :=
        (congrArg Face.closed (Option.some.inj hfaces)).trans hclosed
      have hcounts := h.countsOpen_of_desk? hdesk hkclosed
      have hopened : (w.openCopy i).2 = w.withDesk k.openCopy.2 := by
        unfold Workspace.openCopy run
        rw [hdesk]
      have hspeaks : Desk.SpeaksWell k k.openCopy.2 := by
        refine (h.speaks hdesk).openCopy hkclosed ?_ ?_
        · rw [(desk?_eq_some hdesk).2.2.2, hkuri]
          exact h.fit hstale
        · rw [(desk?_eq_some hdesk).2.2.2, hkuri, ← hcounts, hkuri]
          exact hstale
      have hkept : k.openCopy.2.document.closed = false :=
        (Desk.closed_kept false).toKeptBySync.openCopy (fun hopen _ => hopen)
          hkclosed
      rw [hopened]
      refine h.withDesk hdesk hspeaks hkclosed hkept ?_ ?_
      · rw [hkuri]
        exact hother
      · rw [hkuri]
        exact hown

theorem openAll (h : Sound (w.registry.map (·.1)) w) : Sound [] w.openAll := by
  -- what remains to be opened is what the loop has not come to yet
  have hloop : ∀ (rest : List (Text × Nat)) (w : Workspace Connection),
      (∀ p ∈ rest, p ∈ w.registry) → (rest.map (·.1)).Nodup →
      Sound (rest.map (·.1)) w →
        Sound [] ((rest.map (·.2)).foldl (fun w i => (w.openCopy i).2) w) := by
    intro rest
    induction rest with
    | nil =>
        intro w _ _ h
        exact h
    | cons p rest ih =>
        intro w hmem hdistinct h
        rw [List.map_cons] at hdistinct h
        have hp : (p.1, p.2) ∈ w.registry := hmem p List.mem_cons_self
        have huntold := h.untold List.mem_cons_self
        have hopened : Sound (rest.map (·.1)) (w.openCopy p.2).2 := by
          refine h.openCopy hp (fun _ => huntold) ?_
            (List.nodup_cons.mp hdistinct).1
          intro u hne
          rw [List.mem_cons]
          exact ⟨Or.inr, fun hin => hin.resolve_left hne⟩
        have hregistry : (w.openCopy p.2).2.registry = w.registry := by
          unfold Workspace.openCopy run
          cases w.desk? p.2 with
          | none => rfl
          | some k => rfl
        refine ih _ ?_ (List.nodup_cons.mp hdistinct).2 hopened
        intro q hq
        rw [hregistry]
        exact hmem q (List.mem_cons_of_mem p hq)
  exact hloop w.registry w (fun _ hp => hp) h.shelved.distinct h

end Sound
end Workspace
end InlineCompletion
