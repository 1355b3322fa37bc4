import InlineCompletion.Proofs.Document.Payload
import InlineCompletion.Proofs.Document.GhostRuns

/-!
# Answers

An answer is *admitted* if its completion is live, the agent did not fail, the
text and the caret are as they were when the completion was asked for, and the
answer offers candidates.  What is admitted is shown.  Any other answer leaves
the editor, the copy, what is set to happen, and what is shown; and the
completion is live no longer.  The main statement is that every answer that is
owed in a run does one or the other, whatever it holds, and so does an answer
that is there at once.
-/

namespace InlineCompletion

namespace Desk

variable {τ : Type}

/-- Whether the text, the caret, the copy and what is set to happen stay, and
nothing is sent. -/
structure Undisturbed (k k' : Desk τ) : Prop where
  text : k'.editor.text = k.editor.text
  caret : k'.editor.caret = k.editor.caret
  sync : k'.document.sync = k.document.sync
  trigger : k'.document.trigger = k.document.trigger
  clock : k'.env.clock = k.env.clock
  link : k'.env.link = k.env.link
  events : Quietly k.env.trace k'.env.trace

/-- Whether an answer with given members is admitted, for a completion that was
asked for behind an action: where its candidates are given ones. -/
structure Admits (t : Nat) (members : Json.Members) (k₀ k : Desk τ)
    (cs : List Candidate) :
    Prop where
  live : k.document.completions.live = some t
  faultless : Json.Members.get? "error" members = none
  version : k.document.sync.version = k₀.document.sync.version
  pending : k.document.sync.pending = k₀.document.sync.pending
  cursor : k.editor.cursor = k₀.editor.cursor
  offers : ∃ result, Json.Members.get? "result" members = some result ∧
    result.Offers cs
  nonempty : cs ≠ []

/-- Whether a completion is shown with candidates, the first of which is
current, and nothing else changes in the editor but the annotation. -/
structure Shows (t : Nat) (cs : List Candidate) (k k' : Desk τ) : Prop
    extends Undisturbed k k' where
  shown : k'.document.completions.shown = some t
  live : k'.document.completions.live = some t
  painted : ∃ x visible,
    k.document.completions.get? t = some x ∧
      k'.document.completions.get? t =
        some { x with candidates := cs, index := 0 } ∧
      Completions.visible k'.editor.text k'.document.completions = .ok visible ∧
      k'.editor = { k.editor with ghost := some ⟨x.anchor, visible⟩ }

/-- Whether the editor and what is shown stay, and a completion is live no
longer. -/
structure Leaves (t : Nat) (k k' : Desk τ) : Prop extends Undisturbed k k' where
  editor : k'.editor = k.editor
  shown : k'.document.completions.shown = k.document.completions.shown
  shownOne :
      k'.document.completions.shownOne? = k.document.completions.shownOne?
  live : k'.document.completions.live =
    if k.document.completions.live = some t then none else
      k.document.completions.live

/-- Whether an answer is shown if it is admitted, and leaves everything
otherwise. -/
structure Handles (t : Nat) (members : Json.Members) (k₀ k k' : Desk τ) :
    Prop where
  shows : ∀ cs, Admits t members k₀ k cs → Shows t cs k k'
  leaves : (∀ cs, ¬ Admits t members k₀ k cs) → Leaves t k k'

/-- Whether a completion that is live is not shown, and was asked for as a desk
stood. -/
def Recalls (t : Nat) (k₀ k : Desk τ) : Prop :=
  k.document.completions.live = some t →
    k.document.completions.shown = none ∧ k₀.document.sync.pending = [] ∧
      ∃ x, k.document.completions.get? t = some x ∧
        x.version = k₀.document.sync.version ∧
        x.anchor = k₀.editor.cursor

/-!
# What an answer leaves in any case
-/

theorem receive_undisturbed (t : Nat) (message : Json) (k : Desk τ) :
    Undisturbed k (k.receive t message) := by
  have hquiet := quiet_receive t message k
  rcases receive_stage t message k with ⟨s, hs, hcaret⟩
  constructor
  · exact hquiet.text
  · rw [hs]
    exact hcaret
  · rw [hs]
    rfl
  · rw [hs]
    rfl
  · rw [hs]
    rfl
  · exact hquiet.link
  · exact hquiet.events

/-- Candidates become those of a completion, which is shown with them; without
any, it is live no longer. -/
def offered (t : Nat) (cs : List Candidate) (k : Desk τ) : Desk τ :=
  let update := fun (x : Completion) =>
    if cs.isEmpty then { x with candidates := [] } else
      { x with candidates := cs, index := 0 }
  let completions := k.document.completions.modify t update
  let k := { k with document := { k.document with completions := completions } }
  if cs.isEmpty then k.invalidate else k.onStage (Stage.display t)

section Receive

variable {t : Nat} {members : Json.Members} {k : Desk τ}

theorem leaves_of_stale (message : Json)
    (hlive : k.document.completions.live ≠ some t) :
    Leaves t k (k.receive t message) := by
  have hsame : (k.receive t message).document = k.document ∧
      (k.receive t message).editor = k.editor := by
    unfold receive
    split
    · exact ⟨rfl, rfl⟩
    · rw [if_pos hlive]
      exact ⟨rfl, rfl⟩
  rcases hsame with ⟨hdocument, heditor⟩
  constructor
  · exact receive_undisturbed t message k
  · exact heditor
  · rw [hdocument]
  · rw [hdocument]
  · rw [hdocument, if_neg hlive]

theorem leaves_of_invalid {message : Json}
    (hlive : k.document.completions.live = some t)
    (hcompletions : (k.receive t message).document.completions =
    k.document.completions.invalidate)
    (heditor : (k.receive t message).editor = k.editor) :
    Leaves t k (k.receive t message) := by
  constructor
  · exact receive_undisturbed t message k
  · exact heditor
  · rw [hcompletions]
    rfl
  · rw [hcompletions]
    rfl
  · rw [hcompletions, if_pos hlive]
    rfl

variable {x : Completion} (hlive : k.document.completions.live = some t)
  (hx : k.document.completions.get? t = some x)
include hlive hx

theorem leaves_of_error (herror : Json.Members.get? "error" members ≠ none) :
    Leaves t k (k.receive t (.obj members)) := by
  have hfailed : k.receive t (.obj members) =
      (k.tell (.answerFailed x.id (.obj members))).invalidate := by
    unfold receive
    simp [hx, hlive, Option.isSome_iff_ne_none.mpr herror]
  apply leaves_of_invalid hlive
  · rw [hfailed]
    rfl
  · rw [hfailed]
    rfl

variable (herror : Json.Members.get? "error" members = none)
include herror

theorem leaves_of_outdated (hmoved : ¬ (k.document.sync.version = x.version ∧
    k.document.sync.pending = [] ∧ k.editor.cursor = x.anchor)) :
    Leaves t k (k.receive t (.obj members)) := by
  have hchanged : k.document.sync.version ≠ x.version ∨
      (!k.document.sync.pending.isEmpty) = true ∨
        k.editor.cursor ≠ x.anchor := by
    apply Decidable.byContradiction
    intro hnone
    simp only [not_or, Decidable.not_not, Bool.not_eq_true, Bool.not_eq_false',
      List.isEmpty_iff] at hnone
    exact hmoved hnone
  have houtdated :
      k.receive t (.obj members) = (k.tell .answerOutdated).invalidate := by
    unfold receive
    rw [hx]
    dsimp only
    rw [if_neg (not_not_intro hlive), herror, if_neg (by simp), if_pos hchanged]
  apply leaves_of_invalid hlive
  · rw [houtdated]
    rfl
  · rw [houtdated]
    rfl

variable (hversion : k.document.sync.version = x.version)
    (hpending : k.document.sync.pending = [])
  (hcursor : k.editor.cursor = x.anchor)
include hversion hpending hcursor

theorem receive_offered {cs : List Candidate} {oddity : Option Candidate.Oddity}
    (hresult : Candidate.ofResult
    ((Json.Members.get? "result" members).getD .null) =
      (cs, oddity)) :
    (k.receive t (.obj members)).document.completions =
    (k.offered t cs).document.completions ∧
      (k.receive t (.obj members)).editor = (k.offered t cs).editor := by
  have htimely : ¬ (k.document.sync.version ≠ x.version ∨
      (!k.document.sync.pending.isEmpty) = true ∨
        k.editor.cursor ≠ x.anchor) := by
    simp [hversion, hpending, hcursor]
  unfold receive offered
  rw [hx]
  dsimp only
  rw [if_neg (not_not_intro hlive), herror, if_neg (by simp), if_neg htimely,
    hresult]
  cases oddity with
  | none => cases cs <;> exact ⟨rfl, rfl⟩
  | some o =>
      cases Json.eq_nil_of_odd hresult
      exact ⟨rfl, rfl⟩

theorem leaves_of_nothing
    (hresult : (Candidate.ofResult
    ((Json.Members.get? "result" members).getD .null)).1 = [])
    (hshown : k.document.completions.shown = none) :
    Leaves t k (k.receive t (.obj members)) := by
  rcases receive_offered hlive hx herror hversion hpending hcursor
    (Prod.ext hresult rfl) with
    ⟨hcompletions, heditor⟩
  constructor
  · exact receive_undisturbed t _ k
  · exact heditor
  · rw [hcompletions]
    rfl
  · have hnone (c : Completions) (h : c.shown = none) : c.shownOne? = none := by
      rw [Completions.shownOne?, h]
      rfl
    rw [hcompletions, hnone _ hshown]
    exact hnone _ hshown
  · rw [hcompletions, if_pos hlive]
    rfl

theorem shows_of_candidates {cs : List Candidate} (hcs : cs ≠ [])
    (hresult : (Candidate.ofResult
    ((Json.Members.get? "result" members).getD .null)).1 = cs)
    (hshown : k.document.completions.shown = none) :
    Shows t cs k (k.receive t (.obj members)) := by
  rcases receive_offered hlive hx herror hversion hpending hcursor
    (Prod.ext hresult rfl) with
    ⟨hcompletions, heditor⟩
  let y : Completion := { x with candidates := cs, index := 0 }
  let c : Completions := k.document.completions.modify t fun x =>
    { x with candidates := cs, index := 0 }
  have hoffered : k.offered t cs = ({ k with document := { k.document with
      completions := c } } : Desk τ).onStage (Stage.display t) := by
    cases cs with
    | nil => exact absurd rfl hcs
    | cons c cs => rfl
  have hy : c.get? t = some y := Completions.get?_modify_self _ hx
  have hcurrent : y.current.isNone = false := Stage.current_isSome hcs rfl
  have hdisplay :=
    Stage.display_eq_render (s := ⟨c, k.editor, k.env.trace⟩) hshown hy hcurrent
  have hcompletions : (k.receive t (.obj members)).document.completions =
      { c with shown := some t } := by
    rw [hcompletions, hoffered]
    exact congrArg Stage.completions hdisplay
  rcases y.visiblePart_eq_ok k.editor.text hcs with ⟨visible, hvisible⟩
  have heditor : (k.receive t (.obj members)).editor =
      { k.editor with ghost := some ⟨x.anchor, visible⟩ } := by
    rw [heditor, hoffered]
    refine (congrArg Stage.editor hdisplay).trans ?_
    show Editor.mk _ _
      (some ⟨x.anchor,
        (Completions.visiblePart k.editor.text y).toOption.getD []⟩)
      _ _ _ = _
    rw [hvisible]
    rfl
  refine ⟨receive_undisturbed t _ k, ?_, ?_, x, visible, hx, ?_, ?_, heditor⟩
  · rw [hcompletions]
  · rw [hcompletions]
    exact hlive
  · rw [hcompletions]
    exact hy
  · have hone : Completions.shownOne? { c with shown := some t } = some y :=
      Completions.shownOne?_eq rfl hy
    rw [hcompletions, heditor, Completions.visible, hone]
    exact hvisible

end Receive

theorem receive_handles {t : Nat} {k₀ k : Desk τ} (hrecalls : Recalls t k₀ k)
    (members : Json.Members) :
    Handles t members k₀ k (k.receive t (.obj members)) := by
  by_cases hlive : k.document.completions.live = some t
  · rcases hrecalls hlive with ⟨hshown, hnone, x, hx, hversion, hanchor⟩
    constructor
    · rintro cs
        ⟨_, hfaultless, hsame, hpending, hcursor, ⟨result, hresult, hoffers⟩,
          hcs⟩
      refine shows_of_candidates hlive hx hfaultless (hsame.trans hversion.symm)
        (hpending.trans hnone) (hcursor.trans hanchor.symm) hcs ?_ hshown
      rw [hresult]
      exact (Json.ofResult_eq_iff_offers hcs).mpr hoffers
    · intro hrefused
      by_cases herror : Json.Members.get? "error" members = none
      · by_cases htimely :
            k.document.sync.version = x.version ∧ k.document.sync.pending = [] ∧
            k.editor.cursor = x.anchor
        · rcases htimely with ⟨hsame, hpending, hcursor⟩
          refine leaves_of_nothing hlive hx herror hsame hpending hcursor ?_
            hshown
          apply Decidable.byContradiction
          intro hcs
          have hoffers := (Json.ofResult_eq_iff_offers hcs).mp rfl
          cases hresult : Json.Members.get? "result" members with
          | none =>
              rw [hresult] at hcs
              exact hcs rfl
          | some result =>
              rw [hresult] at hcs hoffers
              exact hrefused _
                ⟨hlive, herror, hsame.trans hversion, hpending.trans hnone.symm,
                  hcursor.trans hanchor, ⟨result, hresult, hoffers⟩, hcs⟩
        · exact leaves_of_outdated hlive hx herror htimely
      · exact leaves_of_error hlive hx herror
  · constructor
    · exact fun cs h => absurd h.live hlive
    · exact fun _ => leaves_of_stale _ hlive

/-!
# Answers that are there at once
-/

section Linked

variable [Link τ]

theorem prepare_pending {k k₀ : Desk τ} (h : k.prepare = (true, k₀)) :
    k₀.document.sync.pending = [] := by
  have hflush := flushing k
  unfold prepare at h
  split at h
  · cases h
  · split at h
    · next k' heq =>
        cases h
        rw [heq] at hflush
        exact hflush.opened.2
    · cases h

theorem ask_handles {k k₀ : Desk τ} (hprepared : k.prepare = (true, k₀))
    {kind : TriggerKind} {id : Nat} {members : Json.Members} {link : τ}
    (hlink : Link.request (k₀.question kind)
    (some (.completion k₀.number k₀.nextTicket))
      k₀.env.link = (.ok ⟨id, some (.obj members)⟩, link)) :
    let posed :=
  (k₀.posed kind).seeing link [.sent (.request id (k₀.question kind))]
    let handled := posed.receive k₀.nextTicket (.obj members)
    k₀.ask kind = (.ok (some k₀.nextTicket), handled.named k₀.nextTicket id) ∧
      Handles k₀.nextTicket members k₀ posed handled := by
  intro posed handled
  constructor
  · have hasking := asking kind k₀
    generalize k₀.ask kind = r at hasking
    cases hasking with
    | oneWay h => cases hlink.symm.trans h
    | refused _ h => cases hlink.symm.trans h
    | deferred h => cases hlink.symm.trans h
    | answered h =>
        cases hlink.symm.trans h
        rfl
  · apply receive_handles
    intro _
    exact ⟨posed_shown kind k₀, prepare_pending hprepared, _,
      posed_ticket kind k₀, rfl, rfl⟩

end Linked
end Desk

/-!
# Answers in a run
-/

namespace Workspace

variable {τ : Type} [Link τ]

/-- Whether an action of a run asked for a completion, and the run went on from
there to a place. -/
inductive AskedAt (allowed : Workspace τ → Action τ → Prop)
    (start : Workspace τ) (t : Nat) :
    Workspace τ → Workspace τ → Prop
  | mk {before w : Workspace τ} {a : Action τ}
      (hbefore : Reachable allowed start before) (ha : allowed before a)
      (hold : before.completions.all.length ≤ t)
      (hnew : t < (before.perform a).completions.all.length)
      (hlater : Reachable allowed (before.perform a) w) :
      AskedAt allowed start t (before.perform a) w

theorem Reachable.weaken {allowed allowed' : Workspace τ → Action τ → Prop}
    {start w : Workspace τ} (hallowed : ∀ w a, allowed w a → allowed' w a)
    (h : Reachable allowed start w) :
    Reachable allowed' start w := by
  induction h with
  | start => exact .start
  | step _ ha ih => exact ih.step (hallowed _ _ ha)

section Run

variable {start w w₀ : Workspace (Accounted τ)} (hstart : start.Starts)
  (howed : start.env.link.owed = [])
  {allowed : Workspace (Accounted τ) → Action (Accounted τ) → Prop}
include hstart howed

theorem Reachable.askedAt (h : Reachable allowed start w) {t : Nat}
    (ht : t < w.completions.all.length) :
    ∃ w₀, AskedAt allowed start t w₀ w := by
  induction h with
  | start =>
      rcases hstart.cast howed with ⟨k, hhosts, hfresh, _⟩
      rw [hhosts.completions_eq, hfresh.completions] at ht
      exact absurd ht (Nat.not_lt_zero t)
  | step hreach ha ih =>
      rename_i w a
      by_cases hold : t < w.completions.all.length
      · rcases ih hold with ⟨w₀, h⟩
        cases h with
        | mk hbefore ha₀ hold hnew hlater =>
            exact ⟨_, .mk hbefore ha₀ hold hnew (hlater.step ha)⟩
      · exact ⟨_, .mk hreach ha (Nat.not_lt.mp hold) ht .start⟩

/-- As long as a completion counts, the desk is as it was when the completion
was asked for, and so is what is recorded of the completion. -/
theorem AskedAt.stands (hallowed : ∀ w a, allowed w a → w.Fair a) {t : Nat}
    (h : AskedAt allowed start t w₀ w) :
    ∃ k₀ k, Hosts w₀ k₀ ∧ Hosts w k ∧ k.Cast ∧ k.Knows ∧
      k.editor.isWidget = k₀.editor.isWidget ∧
      (k.Counts t →
        k.editor.text = k₀.editor.text ∧ k₀.document.sync.pending = [] ∧
        ∃ x, k.document.completions.get? t = some x ∧
          x.version = k₀.document.sync.version ∧
          x.anchor = k₀.editor.cursor) := by
  cases h with
  | mk hbefore ha hold hnew hlater =>
      rename_i before a
      rcases (hbefore.weaken hallowed).chronicle with ⟨ss, hss⟩
      rcases hss.staged hstart howed with ⟨k, hhosts, hk⟩
      have hfair := hallowed _ _ ha k hhosts.desk?
      have hasked := Desk.Goes.perform hk.cast hk.knows hfair
      have hperformed := hhosts.perform a
      rcases (hlater.weaken hallowed).goes hperformed hasked.cast
        (hk.knows.perform a) with
        ⟨k', hhosts', hgoes, hknows', hkind⟩
      rw [hhosts.completions_eq] at hold
      rw [hperformed.completions_eq] at hnew
      refine ⟨k.perform a, k', hperformed, hhosts', hgoes.cast, hknows', hkind,
        ?_⟩
      intro hlater
      rcases hgoes.counts t hnew hlater with ⟨hcounts, htext⟩
      rcases hasked.cast.ready t hcounts with ⟨_, hpending, x, hx, hversion⟩
      rcases hgoes.kept t x hx with ⟨x', hx', hsame⟩
      have hanchor := (Desk.Poised.perform hk.cast hfair).asked t x hold hx
      exact ⟨htext, hpending, x', hx', hsame.version.trans hversion.symm,
        hsame.anchor.trans hanchor⟩

/-- What is recorded of a completion whose answer is owed is how its desk stood
when it was asked for. -/
theorem AskedAt.recalls {t : Nat} (h : AskedAt Fair start t w₀ w) :
    ∃ k₀ k, Hosts w₀ k₀ ∧ Hosts w k ∧ (k.Owes t → Desk.Recalls t k₀ k) := by
  rcases h.stands hstart howed fun _ _ ha => ha with
    ⟨k₀, k, hhosts₀, hhosts, hk, _, _, hstands⟩
  exists k₀, k, hhosts₀, hhosts
  intro howes hlive
  rcases hstands ⟨hlive, Or.inl howes⟩ with ⟨_, hpending, hx⟩
  exact ⟨hk.shown_of_owed howes hlive, hpending, hx⟩

end Run

/-- In every run, each answer that is owed is to a completion that an action of
the run asked for.  Whatever object the answer is, it is handled without a
fault: it is shown if it is admitted, for how the desk stood behind that action,
and leaves everything otherwise.  So is an answer that is there at once. -/
theorem answers_handled {start w : Workspace (Accounted τ)}
    (hstart : start.Starts) (howed : start.env.link.owed = [])
    (h : Reachable Fair start w) :
    (∀ k ∈ w.desk? 0, ∀ t, k.Owes t → ∃ w₀, AskedAt Fair start t w₀ w) ∧
      (∀ t w₀ members note, AskedAt Fair start t w₀ w →
        w.Fair (.answer t (.obj members) note) →
        ((w.relinked note).answer (.completion 0 t) (.obj members)).1 = .ok () ∧
          ∃ k₀ k k', w₀.desk? 0 = some k₀ ∧ w.desk? 0 = some k ∧
            (w.perform (.answer t (.obj members) note)).desk? 0 = some k' ∧
            Desk.Handles t members k₀ (k.relinked note) k') ∧
      ∀ (k k₀ : Desk τ) kind id members link, k.prepare = (true, k₀) →
        Link.request (k₀.question kind)
          (some (.completion k₀.number k₀.nextTicket)) k₀.env.link =
            (.ok ⟨id, some (.obj members)⟩, link) →
        let posed :=
          (k₀.posed kind).seeing link [.sent (.request id (k₀.question kind))]
        let handled := posed.receive k₀.nextTicket (.obj members)
        k₀.ask kind =
          (.ok (some k₀.nextTicket), handled.named k₀.nextTicket id) ∧
          Desk.Handles k₀.nextTicket members k₀ posed handled := by
  refine ⟨?_, ?_, ?_⟩
  · intro k hdesk t howes
    rcases h.chronicle with ⟨ss, hss⟩
    rcases hss.staged hstart howed with ⟨k', hhosts, hk⟩
    cases hhosts.desk?.symm.trans hdesk
    have hknown := hk.cast.known t howes
    rw [← hhosts.completions_eq] at hknown
    exact h.askedAt hstart howed hknown
  · intro t w₀ members note hasked hfair
    rcases hasked.recalls hstart howed with ⟨k₀, k, hhosts₀, hhosts, hrecalls⟩
    have howes := (hfair k hhosts.desk?).1
    have hperformed := hhosts.perform (.answer t (.obj members) note)
    refine ⟨rfl, k₀, k, _, hhosts₀.desk?, hhosts.desk?, hperformed.desk?, ?_⟩
    exact Desk.receive_handles (k := k.relinked note) (hrecalls howes) members
  · intro k k₀ kind id members link hprepared hlink
    exact Desk.ask_handles hprepared hlink

def begun : Workspace (Accounted Scripted) :=
  sample ⟨⟨true, false, false, none, [], false⟩, []⟩

def inquiring : Workspace (Accounted Scripted) :=
  (begun.perform .openCopy).perform .trigger

/-- An item that proposes nothing, one whose range has no end, and one with
truth values for coordinates. -/
def mixed : Json.Members :=
  let range : Json.Members :=
    [("start", .obj [("line", .bool false), ("character", .bool true)]),
      ("end", .obj [("line", .int 0), ("character", .int 3)])]
  [("result", .obj [("items", .arr
    [.int 5, .obj [("insertText", .str "one"), ("range", .obj (range.take 1))],
      .obj [("insertText", .obj [("value", .str "two")]),
      ("range", .obj range)]])])]

/-- What proposes nothing is passed over, and the range without an end is left
out. -/
theorem answers_handled_mixed :
    let note :=
  fun a : Accounted Scripted =>
    { a with owed := a.owed.erase (.completion 0 0) }
    ∃ k k', inquiring.desk? 0 = some k ∧
      (inquiring.perform (.answer 0 (.obj mixed) note)).desk? 0 = some k' ∧
      Desk.Shows 0
        [⟨['o', 'n', 'e'], none⟩, ⟨['t', 'w', 'o'], some ⟨⟨0, 1⟩, ⟨0, 3⟩⟩⟩]
          (k.relinked note) k' := by
  intro note
  have hopened : Reachable Fair begun (begun.perform .openCopy) :=
    .step .start fun _ _ => trivial
  have hasked : AskedAt Fair begun 0 inquiring inquiring :=
    .mk (a := .trigger) hopened (fun _ _ => trivial)
      (by decide) (by decide) .start
  have hfair : inquiring.Fair (.answer 0 (.obj mixed) note) := by
    intro k hk
    cases hk
    exact ⟨by decide, rfl⟩
  have hreach : Reachable Fair begun inquiring :=
    hopened.step (a := .trigger) fun _ _ => trivial
  rcases (answers_handled (sample_starts _) rfl hreach).2.1 0 inquiring mixed
    note hasked hfair with
    ⟨_, k₀, k, k', hk₀, hk, hk', hhandles⟩
  cases hk₀.symm.trans hk
  have hoffers : ∃ result, Json.Members.get? "result" mixed = some result ∧
      result.Offers
        [⟨['o', 'n', 'e'], none⟩,
          ⟨['t', 'w', 'o'], some ⟨⟨0, 1⟩, ⟨0, 3⟩⟩⟩] := by
    refine ⟨_, rfl, (Json.ofResult_eq_iff_offers ?_).mp ?_⟩
    · nofun
    · decide +kernel
  refine ⟨k₀, k', hk, hk',
    hhandles.shows _ ⟨?_, rfl, rfl, rfl, rfl, hoffers, nofun⟩⟩
  cases hk
  decide +kernel

end Workspace
end InlineCompletion
