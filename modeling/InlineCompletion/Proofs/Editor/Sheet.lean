import InlineCompletion.Proofs.Editor.Report

/-!
# Sheets

A sheet is what a text widget writes on.  It counts places in UTF-16 units,
keeps a caret, takes one text in place of another, and reports that it changed.
Whoever counts in code points works on it through an *adapter*, which keeps the
text that it last saw, converts offsets by that text, and reads an edit off each
report.  Of the sheet no more is taken for granted than that it keeps what it is
given, that places between code points are where their units end, and that no
change goes without a report; what a report says does not matter.  The main
statement is that through an adapter every sheet is edited in code points, with
one edit told of for each change, and that so is every widget among the editors.
-/

namespace InlineCompletion

class Sheet (σ : Type) where
  text : σ → Text
  caret : σ → Nat
  place : Nat → σ → σ
  /-- A text takes the place of what stands between two places; the change is
  reported behind it. -/
  splice : Nat → Nat → Text → σ → List Report × σ

/-- What is taken for granted of a sheet. -/
class LawfulSheet (σ : Type) [Sheet σ] : Prop where
  text_place (n : Nat) (s : σ) : Sheet.text (Sheet.place n s) = Sheet.text s
  caret_place {u v : Text} {s : σ} (h : Sheet.text s = u ++ v) :
    Sheet.caret (Sheet.place (Units.length u) s) = Units.length u
  text_splice {u v w : Text} {s : σ} (h : Sheet.text s = u ++ v ++ w)
    (inserted : Text) :
    Sheet.text
      (Sheet.splice (Units.length u) (Units.length (u ++ v)) inserted s).2 =
        u ++ inserted ++ w
  reports_splice {a b : Nat} {t : Text} {s : σ}
    (h : Sheet.text (Sheet.splice a b t s).2 ≠ Sheet.text s) :
        (Sheet.splice a b t s).1 ≠ []

/-- A sheet, and the text that was last seen on it. -/
structure Adapter (σ : Type) where
  snapshot : Text
  sheet : σ

inductive Handling where
  | replace (start stop : Nat) (text : Text)
  | insert (offset : Nat) (text : Text)
  | moveCursor (offset : Int)
  deriving DecidableEq, Repr

namespace Handling

/-- Whether the offsets between which something is replaced stay within a
text. -/
def Within (t : Text) : Handling → Prop
  | .replace start stop _ => start ≤ stop ∧ stop ≤ t.length
  | .insert offset _ => offset ≤ t.length
  | .moveCursor _ => True

instance (t : Text) : (h : Handling) → Decidable (h.Within t)
  | .replace start stop _ =>
      inferInstanceAs (Decidable (start ≤ stop ∧ stop ≤ t.length))
  | .insert offset _ => inferInstanceAs (Decidable (offset ≤ t.length))
  | .moveCursor _ => isTrue trivial

/-- What is asked of a handling in an old text: the new text, the caret, and the
edits that are told of. -/
def Answered (old new : Text) (cursor : Int) (edits : List Edit) :
    Handling → Prop
  | .replace start stop t =>
      new = old.take start ++ t ++ old.drop stop ∧ Told old new edits
  | .insert offset t =>
      new = old.take offset ++ t ++ old.drop offset ∧ Told old new edits
  | .moveCursor offset =>
      new = old ∧ cursor = max 0 (min offset old.length) ∧ edits = []

end Handling

namespace Adapter

variable {σ : Type} [Sheet σ]

/-- Whether what was last seen on a sheet is what stands on it. -/
def Synced (a : Adapter σ) : Prop := a.snapshot = Sheet.text a.sheet

def fresh (s : σ) : Adapter σ := ⟨Sheet.text s, s⟩

def cursor (a : Adapter σ) : Int :=
  Units.indexAt a.snapshot (Sheet.caret a.sheet)

def moveCursor (offset : Int) (a : Adapter σ) : Adapter σ :=
  { a with sheet := Sheet.place (Units.before a.snapshot offset) a.sheet }

def hear (r : Report) (a : Adapter σ) : Option Edit × Adapter σ :=
  (editOfReport a.snapshot (Sheet.text a.sheet) r.position r.removed,
    { a with snapshot := Sheet.text a.sheet })

def hearAll : List Report → Adapter σ → List Edit × Adapter σ
  | [], a => ([], a)
  | r :: rest, a =>
      ((a.hear r).1.toList ++
        (hearAll rest (a.hear r).2).1, (hearAll rest (a.hear r).2).2)

def replace (start stop : Int) (text : Text) (a : Adapter σ) :
    List Edit × Adapter σ :=
  let (reports, sheet) :=
    Sheet.splice (Units.before a.snapshot start) (Units.before a.snapshot stop)
      text a.sheet
  hearAll reports { a with sheet := sheet }

def perform : Handling → Adapter σ → List Edit × Adapter σ
  | .replace start stop t, a => a.replace start stop t
  | .insert offset t, a => a.replace offset offset t
  | .moveCursor offset, a => ([], a.moveCursor offset)

/-- What handlings within the text make of a sheet that was looked at. -/
inductive Reachable : Adapter σ → Prop where
  | fresh (s : σ) : Reachable (fresh s)
  | step {a : Adapter σ} (h : Handling) (hreach : Reachable a)
      (hwithin : h.Within a.snapshot) :
      Reachable (a.perform h).2

/-!
# Reports that are heard

The first report tells of what happened since the sheet was last looked at, and
the others of nothing.
-/

variable {a : Adapter σ}

theorem hearAll_synced (h : a.Synced) (reports : List Report) :
    hearAll reports a = ([], a) := by
  induction reports with
  | nil => rfl
  | cons r rest ih =>
      have hheard : a.hear r = (none, a) := by
        unfold Synced at h
        unfold hear
        rw [← h, editOfReport_self]
      unfold hearAll
      rw [hheard]
      dsimp only
      rw [ih]
      rfl

theorem hearAll_told {reports : List Report}
    (hsome : Sheet.text a.sheet ≠ a.snapshot → reports ≠ []) :
    (hearAll reports a).2 = fresh a.sheet ∧
      Told a.snapshot (Sheet.text a.sheet) (hearAll reports a).1 := by
  cases reports with
  | nil =>
      have hsame : Sheet.text a.sheet = a.snapshot :=
        Decidable.not_not.mp fun hne => hsome hne rfl
      unfold hearAll fresh
      rw [hsame]
      exact ⟨rfl, Told.refl _⟩
  | cons r rest =>
      -- behind the first report the text was seen, so that the others tell of
      -- nothing
      have hrest := hearAll_synced (a := (a.hear r).2) rfl rest
      unfold hearAll
      rw [hrest]
      dsimp only
      rw [List.append_nil]
      exact ⟨rfl, told_editOfReport _ _ _⟩

/-!
# Handlings
-/

variable [LawfulSheet σ]

theorem Synced.replace (h : a.Synced) {start stop : Nat} (horder : start ≤ stop)
    (inserted : Text) :
    (a.replace start stop inserted).2.snapshot =
        a.snapshot.take start ++ inserted ++ a.snapshot.drop stop ∧
      Told a.snapshot (a.replace start stop inserted).2.snapshot
        (a.replace start stop inserted).1 ∧
      (a.replace start stop inserted).2.Synced := by
  rcases Units.exists_parts horder a.snapshot with ⟨v, hparts, hstart, hstop⟩
  unfold Synced at h
  unfold Adapter.replace
  rw [hstart, hstop]
  have htext := LawfulSheet.text_splice (h.symm.trans hparts) inserted
  have hsome :=
    LawfulSheet.reports_splice (a := Units.length (a.snapshot.take start))
    (b := Units.length (a.snapshot.take start ++ v)) (t := inserted)
    (s := a.sheet)
  cases hspliced : Sheet.splice (Units.length (a.snapshot.take start))
    (Units.length (a.snapshot.take start ++ v)) inserted a.sheet with
  | mk reports sheet =>
      rw [hspliced, ← h] at hsome
      rw [hspliced] at htext
      rcases hearAll_told (a := { a with sheet := sheet }) hsome with
        ⟨hheard, htold⟩
      dsimp only at hheard htold htext ⊢
      rw [hheard]
      exact ⟨htext, htold, rfl⟩

theorem Synced.moveCursor (h : a.Synced) (offset : Int) :
    (a.moveCursor offset).Synced ∧
      (a.moveCursor offset).cursor = max 0 (min offset a.snapshot.length) := by
  have hparts : Sheet.text a.sheet =
      a.snapshot.take offset.toNat ++ a.snapshot.drop offset.toNat :=
    h.symm.trans (List.take_append_drop _ _).symm
  have hplaced :
      Sheet.caret (a.moveCursor offset).sheet =
        Units.before a.snapshot offset :=
    LawfulSheet.caret_place hparts
  constructor
  · exact h.trans (LawfulSheet.text_place _ _).symm
  · unfold Adapter.cursor
    rw [hplaced]
    exact Units.indexAt_before_clamped a.snapshot offset

theorem Synced.perform (h : a.Synced) {g : Handling}
    (hwithin : g.Within a.snapshot) :
    g.Answered a.snapshot (a.perform g).2.snapshot (a.perform g).2.cursor
      (a.perform g).1 ∧
      (a.perform g).2.Synced := by
  cases g with
  | replace start stop t =>
      rcases h.replace hwithin.1 t with ⟨htext, htold, hsynced⟩
      exact ⟨⟨htext, htold⟩, hsynced⟩
  | insert offset t =>
      rcases h.replace (Nat.le_refl offset) t with ⟨htext, htold, hsynced⟩
      exact ⟨⟨htext, htold⟩, hsynced⟩
  | moveCursor offset =>
      rcases h.moveCursor offset with ⟨hsynced, hcursor⟩
      exact ⟨⟨rfl, hcursor, rfl⟩, hsynced⟩

theorem Reachable.synced (h : Reachable a) : a.Synced := by
  induction h with
  | fresh s => rfl
  | step g _ hwithin ih => exact (ih.perform hwithin).2

end Adapter

/-!
# Widgets

A widget is a sheet whose reports are right.  Handling a widget among the
editors is handling the sheet that it is, through an adapter that has seen its
text.
-/

namespace Editor

def handle : Handling → Editor → List Edit × Editor
  | .replace start stop t, e =>
      ((e.replace ⟨start, stop, t⟩).1.toList, (e.replace ⟨start, stop, t⟩).2)
  | .insert offset t, e =>
      ((e.replace ⟨offset, offset, t⟩).1.toList,
        (e.replace ⟨offset, offset, t⟩).2)
  | .moveCursor offset, e => ([], (e.moveCursor offset).1)

def handleAll (hs : List Handling) (e : Editor) : Editor :=
  hs.foldl (fun e h => (e.handle h).2) e

@[simp] theorem select_text (anchor position : Int) (e : Editor) :
    (e.select anchor position).text = e.text := by
  unfold select
  split <;> rfl

theorem select_caret {e : Editor} (h : e.isWidget = true)
    (anchor position : Int) :
    (e.select anchor position).caret = .units anchor.toNat position.toNat := by
  rcases exists_caret h with ⟨a, p, hcaret⟩
  unfold select
  rw [hcaret]

theorem select_isWidget {e : Editor} (h : e.isWidget = true)
    (anchor position : Int) :
    (e.select anchor position).isWidget = true := by
  unfold isWidget
  rw [select_caret h]

theorem moveCursor_eq_select {e : Editor} (h : e.isWidget = true)
    (offset : Int) :
    (e.moveCursor offset).1 =
      e.select (Units.before e.text offset) (Units.before e.text offset) := by
  rcases exists_caret h with ⟨a, p, hcaret⟩
  unfold moveCursor select
  rw [hcaret]
  rfl

theorem replaceUnits_nothing (place : Nat) (e : Editor) :
    e.replaceUnits place place [] = (none, e) := by
  unfold replaceUnits
  split
  · rfl
  · exact if_pos ⟨rfl, rfl⟩

theorem replaceUnits_isWidget {e : Editor} (h : e.isWidget = true)
    (start stop : Nat) (inserted : Text) :
    (e.replaceUnits start stop inserted).2.isWidget = true :=
  (replaceUnits_sameView start stop inserted e).2.2.2.trans h

end Editor

abbrev TextWidget := { e : Editor // e.isWidget = true }

namespace TextWidget

/-- What a widget reports when a text takes the place of what stands between two
places: nothing, if nothing takes the place of nothing. -/
def reports (start stop : Nat) (inserted : Text) : List Report :=
  if start = stop ∧ inserted = [] then [] else [⟨start, stop - start⟩]

instance : Sheet TextWidget where
  text s := s.val.text
  caret s :=
    match s.val.caret with
    | .free _ => 0
    | .units _ position => position
  place n s := ⟨s.val.select n n, Editor.select_isWidget s.property n n⟩
  splice a b t s :=
    (reports (min a b) (max a b) t,
      ⟨(s.val.replaceUnits (min a b) (max a b) t).2,
        Editor.replaceUnits_isWidget s.property _ _ _⟩)

instance : LawfulSheet TextWidget where
  text_place n s := Editor.select_text n n s.val
  caret_place {u v s} _ := by
    show (match (s.val.select _ _).caret with
      | .free _ => 0
      | .units _ position => position) = Units.length u
    rw [Editor.select_caret s.property]
    rfl
  text_splice {u v w s} htext inserted := by
    have horder : Units.length u ≤ Units.length (u ++ v) := by
      rw [Units.length_append]
      exact Nat.le_add_right _ _
    show (s.val.replaceUnits _ _ inserted).2.text = _
    rw [Nat.min_eq_left horder, Nat.max_eq_right horder]
    exact Editor.replaceUnits_text s.property htext inserted
  reports_splice {a b t s} hne := by
    intro hnone
    refine hne ?_
    show (s.val.replaceUnits _ _ t).2.text = s.val.text
    change reports _ _ _ = [] at hnone
    unfold reports at hnone
    split at hnone
    · next hnothing => rw [hnothing.1, hnothing.2, Editor.replaceUnits_nothing]
    · cases hnone

theorem hearAll_reports {s s' : TextWidget} {start stop : Nat}
    (horder : start ≤ stop) {inserted : Text}
    (hs' : s'.val = (s.val.replaceUnits start stop inserted).2) :
    Adapter.hearAll (reports start stop inserted) ⟨s.val.text, s'⟩ =
      ((s.val.replaceUnits start stop inserted).1.toList,
        Adapter.fresh s') := by
  unfold reports
  split
  · next hnothing =>
      rcases hnothing with ⟨rfl, rfl⟩
      rw [Editor.replaceUnits_nothing] at hs' ⊢
      obtain rfl : s' = s := Subtype.ext hs'
      rfl
  · next hsome =>
      -- the widget reads its edit off the same report, its size as a difference
      -- of integers
      rcases Editor.exists_caret s.property with ⟨a, p, hcaret⟩
      unfold Editor.replaceUnits at hs' ⊢
      rw [hcaret] at hs' ⊢
      dsimp only at hs' ⊢
      rw [if_neg hsome] at hs'
      unfold Adapter.hearAll Adapter.hear Adapter.hearAll
      show ((editOfReport s.val.text s'.val.text start
        (stop - start : Nat)).toList ++ [], Adapter.fresh s') = _
      rw [hs', if_neg hsome, List.append_nil, Int.natCast_sub horder]

/-- Replacing in a widget is replacing on the sheet that it is. -/
theorem replace_fresh (start stop : Int) (inserted : Text) (s : TextWidget) :
    ∃ s' : TextWidget, s'.val = (s.val.replace ⟨start, stop, inserted⟩).2 ∧
      (Adapter.fresh s).replace start stop inserted =
        ((s.val.replace ⟨start, stop, inserted⟩).1.toList,
          Adapter.fresh s') := by
  rcases Editor.exists_caret s.property with ⟨a, p, hcaret⟩
  unfold Editor.replace
  rw [hcaret]
  exact ⟨⟨_, Editor.replaceUnits_isWidget s.property _ _ _⟩, rfl,
    hearAll_reports (s := s)
    (Nat.le_trans (Nat.min_le_left _ _) (Nat.le_max_left _ _)) rfl⟩

theorem perform_fresh (h : Handling) (s : TextWidget) :
    ∃ s' : TextWidget, s'.val = (s.val.handle h).2 ∧
      (Adapter.fresh s).perform h = ((s.val.handle h).1, Adapter.fresh s') := by
  cases h with
  | replace start stop t => exact replace_fresh start stop t s
  | insert offset t => exact replace_fresh offset offset t s
  | moveCursor offset =>
      refine ⟨Sheet.place (Units.before s.val.text offset) s, ?_, ?_⟩
      · exact (Editor.moveCursor_eq_select s.property offset).symm
      · show ([],
          Adapter.mk (Sheet.text s)
          (Sheet.place (Units.before s.val.text offset) s)) = _
        unfold Adapter.fresh
        rw [LawfulSheet.text_place]
        rfl

theorem cursor_fresh (s : TextWidget) :
    (Adapter.fresh s).cursor = s.val.cursor := by
  rcases Editor.exists_caret s.property with ⟨a, p, hcaret⟩
  unfold Adapter.cursor Editor.cursor
  show (Units.indexAt s.val.text (match s.val.caret with
    | .free _ => 0
    | .units _ position => position : Nat) : Int) = _
  rw [hcaret]

end TextWidget

namespace Editor

theorem handle_isWidget {e : Editor} (h : e.isWidget = true) (g : Handling) :
    (e.handle g).2.isWidget = true := by
  rcases TextWidget.perform_fresh g ⟨e, h⟩ with ⟨s', hs', -⟩
  rw [← hs']
  exact s'.property

theorem handleAll_isWidget {e : Editor} (h : e.isWidget = true)
    (gs : List Handling) :
    (e.handleAll gs).isWidget = true := by
  induction gs generalizing e with
  | nil => exact h
  | cons g rest ih => exact ih (handle_isWidget h g)

theorem handle_answered {e : Editor} (h : e.isWidget = true) {g : Handling}
    (hwithin : g.Within e.text) :
    g.Answered e.text (e.handle g).2.text (e.handle g).2.cursor
      (e.handle g).1 := by
  have hsynced : (Adapter.fresh (⟨e, h⟩ : TextWidget)).Synced := rfl
  rcases TextWidget.perform_fresh g ⟨e, h⟩ with ⟨s', hs', hperform⟩
  have hanswered := (hsynced.perform hwithin).1
  rw [hperform] at hanswered
  rw [← hs', ← TextWidget.cursor_fresh]
  exact hanswered

end Editor

/-- Whoever counts in code points edits every sheet of UTF-16 units: whatever
was done to it before, a replacement within the text replaces what stands
between its offsets, in what was last seen as well as on the sheet, and is told
of by one edit if the text changes and by none if it does not; and a caret
stands where it is sent, or at the nearest end of the text.  So it is with the
widgets among the editors. -/
theorem edited_in_code_points :
    (∀ (σ : Type) [Sheet σ] [LawfulSheet σ] (a : Adapter σ) (h : Handling),
      Adapter.Reachable a → h.Within a.snapshot →
        h.Answered a.snapshot (a.perform h).2.snapshot (a.perform h).2.cursor
          (a.perform h).1 ∧
          (a.perform h).2.snapshot = Sheet.text (a.perform h).2.sheet) ∧
    (∀ (e : Editor) (before : List Handling) (h : Handling), e.isWidget = true →
      h.Within (e.handleAll before).text →
        h.Answered (e.handleAll before).text
          ((e.handleAll before).handle h).2.text
            ((e.handleAll before).handle h).2.cursor
            ((e.handleAll before).handle h).1) := by
  constructor
  · intro σ _ _ a h hreach hwithin
    exact hreach.synced.perform hwithin
  · intro e before h hwidget hwithin
    exact Editor.handle_answered (Editor.handleAll_isWidget hwidget before)
      hwithin

/-- Behind an emoji that was put in before, two more give way to one. -/
theorem edited_in_code_points_astral :
    let e := Editor.widget "a😀b😎c".toList
    let first : Handling := .insert 1 "😀".toList
    let second : Handling := .replace 2 5 "x😎".toList
    let a : Adapter TextWidget := ((Adapter.fresh ⟨e, rfl⟩).perform first).2
    let new := "a😀x😎c".toList
    a.snapshot = "a😀😀b😎c".toList ∧
      (Told a.snapshot new (a.perform second).1 ∧
        Sheet.text (a.perform second).2.sheet = new) ∧
      Told (e.handleAll [first]).text new
        ((e.handleAll [first]).handle second).1 := by
  intro e first second a new
  rcases edited_in_code_points with ⟨hsheet, hwidget⟩
  have hreach : Adapter.Reachable a := .step first (.fresh _) (by decide)
  have hnew : (a.perform second).2.snapshot = new := by decide
  rcases hsheet TextWidget a second hreach (by decide) with
    ⟨⟨-, htold⟩, hsynced⟩
  rw [hnew] at htold hsynced
  refine ⟨by decide, ⟨htold, hsynced.symm⟩, ?_⟩
  have hwidgetNew : ((e.handleAll [first]).handle second).2.text = new := by
    decide
  rw [← hwidgetNew]
  exact (hwidget e [first] second rfl (by decide)).2

end InlineCompletion
