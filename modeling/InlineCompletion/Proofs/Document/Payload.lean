import InlineCompletion.Candidate

/-!
# What a result offers

The result of an answer is whatever the agent put there.  It offers candidates
if it lists items, itself or as the items of an object: one for each item that
proposes a text, in the order of the items.  A range counts for a candidate only
if both of its ends are given by integers, among which truth values are one and
zero.  The main statement is that the candidates that are read of a result are
those that it offers, and none if it offers none.
-/

namespace InlineCompletion
namespace Json

/-- Whether a value counts as an integer. -/
inductive Counts : Json → Int → Prop
  | int (n : Int) : Counts (.int n) n
  | yes : Counts (.bool true) 1
  | no : Counts (.bool false) 0

theorem counts_iff {v : Json} {n : Int} : v.Counts n ↔ v.asInt? = some n := by
  constructor
  · intro h
    cases h <;> rfl
  · intro h
    cases v with
    | int m =>
        cases h
        exact .int _
    | bool b =>
        cases b with
        | false =>
            cases h
            exact .no
        | true =>
            cases h
            exact .yes
    | _ => cases h

theorem get?_bind_eq_some {α : Type} {v : Json} {key : String}
    {f : Json → Option α} {a : α} :
    (v.get? key).bind f = some a ↔ ∃ m, v.get? key = some m ∧ f m = some a :=
  Option.bind_eq_some_iff

structure Locates (v : Json) (p : Position) : Prop where
  line : ∃ m, v.get? "line" = some m ∧ m.Counts p.line
  character : ∃ m, v.get? "character" = some m ∧ m.Counts p.character

theorem locates_iff {v : Json} {p : Position} :
    v.Locates p ↔ Position.ofJson? v = some p := by
  have hcoordinate (key : String) (n : Int) :
      (∃ m, v.get? key = some m ∧ m.Counts n) ↔
        (v.get? key).bind asInt? = some n := by
    simp only [get?_bind_eq_some, counts_iff]
  unfold Position.ofJson?
  constructor
  · rintro ⟨hline, hcharacter⟩
    rw [hcoordinate] at hline hcharacter
    rw [hline, hcharacter]
  · intro h
    split at h
    · next line character hline hcharacter =>
        cases h
        exact ⟨(hcoordinate _ _).mpr hline, (hcoordinate _ _).mpr hcharacter⟩
    · cases h

structure Spans (v : Json) (r : Range) : Prop where
  start : ∃ m, v.get? "start" = some m ∧ m.Locates r.start
  stop : ∃ m, v.get? "end" = some m ∧ m.Locates r.stop

theorem spans_iff {v : Json} {r : Range} :
    v.Spans r ↔ Range.ofJson? v = some r := by
  have hend (key : String) (p : Position) :
      (∃ m, v.get? key = some m ∧ m.Locates p) ↔
        (v.get? key).bind Position.ofJson? = some p := by
    simp only [get?_bind_eq_some, locates_iff]
  unfold Range.ofJson?
  constructor
  · rintro ⟨hstart, hstop⟩
    rw [hend] at hstart hstop
    rw [hstart, hstop]
  · intro h
    split at h
    · next start stop hstart hstop =>
        cases h
        exact ⟨(hend _ _).mpr hstart, (hend _ _).mpr hstop⟩
    · cases h

/-- Whether a value says a text: as a string, or as an object that holds one as
its value. -/
inductive Says : Json → Text → Prop
  | plain (s : Str) : Says (.str s) s.shown.toList
  | held {members : Members} {s : Str}
      (h : Members.get? "value" members = some (.str s)) :
      Says (.obj members) s.shown.toList

theorem says_iff {v : Json} {t : Text} :
    v.Says t ↔ ∃ s, Candidate.textOf? v = some s ∧ s.shown.toList = t := by
  constructor
  · intro h
    cases h with
    | plain s => exact ⟨s, rfl, rfl⟩
    | held h =>
        rename_i members s
        refine ⟨s, ?_, rfl⟩
        show (Members.get? "value" members).bind asStr? = some s
        rw [h]
        rfl
  · rintro ⟨s, hs, rfl⟩
    unfold Candidate.textOf? at hs
    split at hs
    · cases hs
      exact .plain s
    · rcases get?_bind_eq_some.mp hs with ⟨m, hm, hstr⟩
      cases v with
      | obj members =>
          cases m with
          | str s' =>
              cases hstr
              exact .held hm
          | _ => cases hstr
      | _ => cases hm

/-- Whether an item proposes a candidate; what it says of a range may be of any
form. -/
structure Proposes (item : Json) (c : Candidate) : Prop where
  text : ∃ m, item.get? "insertText" = some m ∧ m.Says c.text
  range : ∀ r, c.range = some r ↔ ∃ m, item.get? "range" = some m ∧ m.Spans r

theorem proposes_iff {item : Json} {c : Candidate} :
    item.Proposes c ↔ Candidate.ofJson? item = some c := by
  have htext (t : Text) : (∃ m, item.get? "insertText" = some m ∧ m.Says t) ↔
      ∃ s, (item.get? "insertText").bind Candidate.textOf? = some s ∧
        s.shown.toList = t := by
    simp only [get?_bind_eq_some, says_iff]
    constructor
    · rintro ⟨m, hm, s, hs, ht⟩
      exact ⟨s, ⟨m, hm, hs⟩, ht⟩
    · rintro ⟨s, ⟨m, hm, hs⟩, ht⟩
      exact ⟨m, hm, s, hs, ht⟩
  have hrange (r : Range) : (∃ m, item.get? "range" = some m ∧ m.Spans r) ↔
      (item.get? "range").bind Range.ofJson? = some r := by
    simp only [get?_bind_eq_some, spans_iff]
  unfold Candidate.ofJson?
  constructor
  · rintro ⟨htold, hspans⟩
    rcases (htext c.text).mp htold with ⟨s, hs, ht⟩
    have hsame : c.range = (item.get? "range").bind Range.ofJson? :=
      Option.ext fun r => (hspans r).trans (hrange r)
    rw [hs, ← hsame]
    show some (Candidate.mk s.shown.toList c.range) = some c
    rw [ht]
  · intro h
    split at h
    · next s hs =>
        cases h
        exact ⟨(htext _).mpr ⟨s, hs, rfl⟩, fun r => (hrange r).symm⟩
    · cases h

/-- The candidates that items propose, in their order; an item that proposes
none is passed over. -/
inductive Proposals : List Json → List Candidate → Prop
  | nil : Proposals [] []
  | taken {item : Json} {items : List Json} {c : Candidate}
      {cs : List Candidate} (hitem : item.Proposes c)
      (hrest : Proposals items cs) : Proposals (item :: items) (c :: cs)
  | passed {item : Json} {items : List Json} {cs : List Candidate}
      (hitem : ∀ c, ¬ item.Proposes c) (hrest : Proposals items cs) :
          Proposals (item :: items) cs

theorem proposals_iff {items : List Json} {cs : List Candidate} :
    Proposals items cs ↔ items.filterMap Candidate.ofJson? = cs := by
  constructor
  · intro h
    induction h with
    | nil => rfl
    | taken hitem _ ih =>
        rw [List.filterMap_cons_some (proposes_iff.mp hitem), ih]
    | passed hitem _ ih =>
        rw [List.filterMap_cons_none, ih]
        exact Option.eq_none_iff_forall_ne_some.mpr fun c hc =>
          hitem c (proposes_iff.mpr hc)
  · rintro rfl
    induction items with
    | nil => exact .nil
    | cons item items ih =>
        cases hitem : Candidate.ofJson? item with
        | none =>
            rw [List.filterMap_cons_none hitem]
            exact .passed
              (fun c hc => nomatch hitem.symm.trans (proposes_iff.mp hc)) ih
        | some c =>
            rw [List.filterMap_cons_some hitem]
            exact .taken (proposes_iff.mpr hitem) ih

/-- Whether a value lists items. -/
inductive Lists : Json → List Json → Prop
  | array (items : List Json) : Lists (.arr items) items
  | held {members : Members} {items : List Json}
      (h : Members.get? "items" members = some (.arr items)) :
          Lists (.obj members) items

def Offers (v : Json) (cs : List Candidate) : Prop :=
  ∃ items, v.Lists items ∧ Proposals items cs

theorem Lists.itemsOf {v : Json} {items : List Json} (h : v.Lists items) :
    Candidate.itemsOf v = .ok items := by
  cases h with
  | array => rfl
  | held h =>
      unfold Candidate.itemsOf
      dsimp only
      rw [h]

theorem lists_of_itemsOf {v : Json} {item : Json} {items : List Json}
    (h : Candidate.itemsOf v = .ok (item :: items)) :
    v.Lists (item :: items) := by
  unfold Candidate.itemsOf at h
  split at h
  · cases h
  · cases h
    exact .array _
  · split at h
    · next hitems =>
        cases h
        exact .held hitems
    · cases h
  · cases h

theorem ofResult_eq_iff_offers {v : Json} {cs : List Candidate}
    (hcs : cs ≠ []) :
    (Candidate.ofResult v).1 = cs ↔ v.Offers cs := by
  unfold Candidate.ofResult
  constructor
  · intro h
    split at h
    · next items hitems =>
        cases items with
        | nil => exact absurd h.symm hcs
        | cons item items =>
            exact ⟨item :: items, lists_of_itemsOf hitems, proposals_iff.mpr h⟩
    · exact absurd h.symm hcs
  · rintro ⟨items, hlists, hproposals⟩
    rw [hlists.itemsOf]
    exact proposals_iff.mp hproposals

/-- An odd result offers nothing. -/
theorem eq_nil_of_odd {v : Json} {cs : List Candidate}
    {oddity : Candidate.Oddity} (h : Candidate.ofResult v = (cs, some oddity)) :
    cs = [] := by
  unfold Candidate.ofResult at h
  split at h
  · cases h
  · cases h
    rfl

end Json
end InlineCompletion
