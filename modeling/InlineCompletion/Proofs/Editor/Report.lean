import InlineCompletion.Editor.Basic
import InlineCompletion.Proofs.Text.Units

/-!
# What editors report

An editor that is edited reports an edit of its text before, or nothing if the
text stays as it was.  The main statements are that the smallest splice between
two texts turns one into the other, that the edit read off a widget's report
does so whatever the report says, and that every way of editing an editor
reports what becomes of its text.
-/

namespace InlineCompletion

namespace Edit

/-- Whether an edit stays within a text. -/
def Within (e : Edit) (t : Text) : Prop :=
  0 ≤ e.start ∧ e.start ≤ e.stop ∧ e.stop ≤ t.length

instance (e : Edit) (t : Text) : Decidable (e.Within t) :=
  inferInstanceAs (Decidable (_ ∧ _ ∧ _))

theorem Within.exists_natCast {e : Edit} {t : Text} (h : e.Within t) :
    ∃ start stop : Nat, start ≤ stop ∧ stop ≤ t.length ∧
      e = ⟨start, stop, e.inserted⟩ := by
  rcases h with ⟨hstart, hstop, hlength⟩
  refine ⟨e.start.toNat, e.stop.toNat, by omega, by omega, ?_⟩
  cases e with
  | mk start stop inserted =>
      dsimp only at hstart hstop ⊢
      rw [Int.toNat_of_nonneg hstart, Int.toNat_of_nonneg (by omega)]

end Edit

/-!
# Edits read off two texts

A text is its start, an inserted part, and its end.  If the start and the end
are also those of an older text, inserting the part between them makes the newer
text.
-/

theorem splice_eq {old new : Text} {start stop size : Nat}
    (hstart : new.take start = old.take start)
    (hstop : new.drop (start + size) = old.drop stop) :
    old.take start ++ (new.drop start).take size ++ old.drop stop = new := by
  rw [← hstart, ← hstop, List.append_assoc, ← List.drop_drop,
    List.take_append_drop, List.take_append_drop]

namespace Diff

theorem sharedEnd_comm (old new : Text) :
    sharedEnd old new = sharedEnd new old := by
  unfold sharedEnd
  rw [shared_comm old new, shared_comm (List.reverse _)]

theorem shared_add_sharedEnd_le_right (old new : Text) :
    shared old new + sharedEnd old new ≤ new.length := by
  rw [shared_comm, sharedEnd_comm]
  exact shared_add_sharedEnd_le new old

theorem drop_sharedEnd (old new : Text) :
    old.drop (old.length - sharedEnd old new) =
      new.drop (new.length - sharedEnd old new) := by
  have hshared :=
    take_shared (old.drop (shared old new)).reverse
      (new.drop (shared old new)).reverse
  have hold := shared_add_sharedEnd_le old new
  have hnew := shared_add_sharedEnd_le_right old new
  change List.take (sharedEnd old new) _ =
    List.take (sharedEnd old new) _ at hshared
  rw [List.take_reverse, List.take_reverse, List.reverse_inj, List.drop_drop,
    List.drop_drop, List.length_drop, List.length_drop] at hshared
  have hleft :
      shared old new + (old.length - shared old new - sharedEnd old new) =
      old.length - sharedEnd old new := by
    omega
  have hright :
      shared old new + (new.length - shared old new - sharedEnd old new) =
      new.length - sharedEnd old new := by
    omega
  rwa [hleft, hright] at hshared

theorem edit_apply (old new : Text) : (edit old new).apply old = new := by
  have hnew := shared_add_sharedEnd_le_right old new
  have hsize :
      (new.take (new.length - sharedEnd old new)).drop (shared old new) =
      (new.drop (shared old new)).take
        (new.length - sharedEnd old new - shared old new) := by
    rw [List.drop_take]
  have hend :
      new.drop
        (shared old new + (new.length - sharedEnd old new - shared old new)) =
      old.drop (old.length - sharedEnd old new) := by
    rw [drop_sharedEnd]
    congr 1
    omega
  unfold edit
  rw [Edit.apply_natCast, hsize]
  exact splice_eq (take_shared old new).symm hend

theorem edit_within (old new : Text) : (edit old new).Within old := by
  have hold := shared_add_sharedEnd_le old new
  unfold Edit.Within edit
  simp only
  omega

end Diff

/-- The edit read off a report turns the old text into the new one, whether or
not the report is right. -/
theorem editOfReport_apply {old new : Text} {position removed : Int} {e : Edit}
    (h : editOfReport old new position removed = some e) :
    e.apply old = new := by
  unfold editOfReport at h
  split at h
  · cases h
  · simp only at h
    split at h
    · cases h
      exact Diff.edit_apply old new
    · rename_i hfits
      cases h
      rw [not_or, not_or, Decidable.not_not, Decidable.not_not] at hfits
      rw [Edit.apply_natCast]
      exact splice_eq hfits.2.1 hfits.2.2

theorem editOfReport_eq_none {old new : Text} {position removed : Int}
    (h : editOfReport old new position removed = none) : old = new := by
  unfold editOfReport at h
  split at h
  · assumption
  · simp only at h
    split at h <;> cases h

theorem editOfReport_within {old new : Text} {position removed : Int} {e : Edit}
    (hremoved : 0 ≤ removed)
    (h : editOfReport old new position removed = some e) :
    e.Within old := by
  unfold editOfReport at h
  split at h
  · cases h
  · simp only at h
    split at h
    · cases h
      exact Diff.edit_within old new
    · cases h
      have horder :=
        Units.indexAt_mono old (u := position) (v := position + removed)
        (by omega)
      have hlength := Units.indexAt_le_length old (position + removed)
      unfold Edit.Within
      simp only
      omega

/-!
# One edit or none

An edit is told of where a text changed, and nothing where it did not.
-/

structure Report where
  position : Int
  removed : Nat
  deriving DecidableEq, Repr

/-- Whether edits say what became of a text: one edit within it if it changed,
and none if it did not. -/
def Told (old new : Text) (edits : List Edit) : Prop :=
  (new = old → edits = []) ∧
    (new ≠ old →
      ∃ (start stop : Nat) (inserted : Text), edits =
      [⟨start, stop, inserted⟩] ∧
      start ≤ stop ∧ stop ≤ old.length ∧
        old.take start ++ inserted ++ old.drop stop = new)

theorem Told.refl (t : Text) : Told t t [] :=
  ⟨fun _ => rfl, fun hne => absurd rfl hne⟩

theorem told_editOfReport (old new : Text) (r : Report) :
    Told old new (editOfReport old new r.position r.removed).toList := by
  constructor
  · intro hsame
    rw [hsame, editOfReport_self]
    rfl
  · intro hne
    cases h : editOfReport old new r.position r.removed with
    | none => exact absurd (editOfReport_eq_none h).symm hne
    | some e =>
        have happly := editOfReport_apply h
        rcases (editOfReport_within (Int.natCast_nonneg _)
          h).exists_natCast with
          ⟨start, stop, horder, hstop, he⟩
        rw [he, Edit.apply_natCast] at happly
        exact ⟨start, stop, e.inserted, by rw [he]; rfl, horder, hstop, happly⟩

/-!
# Ways of editing an editor

A plain editor is edited by the program and at its caret.  A widget's selection
can be replaced as well, and a widget may report a change of its own.
-/

inductive Editing where
  | replace (edit : Edit)
  | type (text : Text)
  | selection (text : Text)
  | change (text : Text) (position removed : Int)
  deriving DecidableEq, Repr

def Editing.run : Editing → Editor → Option Edit × Editor
  | .replace edit, e => e.replace edit
  | .type text, e => e.replace ⟨e.cursor, e.cursor, text⟩
  | .selection text, e => e.replaceSelection text
  | .change text position removed, e => e.become text position removed

namespace Editor

def Reported (e : Editor) (r : Option Edit × Editor) : Prop :=
  match r.1 with
  | none => r.2.text = e.text
  | some edit => r.2.text = edit.apply e.text

def SameView (e e' : Editor) : Prop :=
  e'.ghost = e.ghost ∧ e'.listeners = e.listeners ∧ e'.attached = e.attached ∧
    e'.isWidget = e.isWidget

theorem reported_editOfReport {e e' : Editor} {new : Text}
    (hnew : e'.text = new) (position removed : Int) :
    e.Reported (editOfReport e.text new position removed, e') := by
  unfold Reported
  cases h : editOfReport e.text new position removed with
  | none => exact hnew.trans (editOfReport_eq_none h).symm
  | some edit => exact hnew.trans (editOfReport_apply h).symm

theorem replaceUnits_reported (start stop : Nat) (inserted : Text)
    (e : Editor) :
    e.Reported (e.replaceUnits start stop inserted) := by
  unfold replaceUnits
  split
  · rfl
  · split
    · rfl
    · exact reported_editOfReport (by rfl) _ _

theorem exists_caret {e : Editor} (h : e.isWidget = true) :
    ∃ a p, e.caret = .units a p := by
  unfold isWidget at h
  split at h
  · cases h
  · exact ⟨_, _, ‹_›⟩

theorem replaceUnits_text {e : Editor} (hwidget : e.isWidget = true)
    {u v w : Text} (htext : e.text = u ++ v ++ w) (inserted : Text) :
    (e.replaceUnits (Units.length u) (Units.length (u ++ v)) inserted).2.text =
      u ++ inserted ++ w := by
  have hstart : Units.indexAt e.text (Units.length u) = u.length := by
    rw [htext, List.append_assoc]
    exact Units.indexAt_append u (v ++ w)
  have hstop :
      Units.indexAt e.text (Units.length (u ++ v)) = (u ++ v).length := by
    rw [htext]
    exact Units.indexAt_append (u ++ v) w
  rcases exists_caret hwidget with ⟨a, p, hcaret⟩
  unfold replaceUnits
  rw [hcaret]
  dsimp only
  split
  · next hnothing =>
      rcases hnothing with ⟨hsame, hinserted⟩
      have hlength := hstart
      rw [hsame, hstop, List.length_append] at hlength
      have hv : v = [] := List.eq_nil_of_length_eq_zero (by omega)
      rw [htext, hv, hinserted]
  · dsimp only
    rw [hstart, hstop, htext, List.drop_left, List.append_assoc u v w,
      List.take_left]

theorem replaceUnits_sameView (start stop : Nat) (inserted : Text)
    (e : Editor) :
    e.SameView (e.replaceUnits start stop inserted).2 := by
  unfold replaceUnits
  split
  · exact ⟨rfl, rfl, rfl, rfl⟩
  · rename_i h
    split
    · exact ⟨rfl, rfl, rfl, rfl⟩
    · exact ⟨rfl, rfl, rfl, by simp [isWidget, h]⟩

theorem replaceUnits_within {start stop : Nat} {inserted : Text} {e : Editor}
    {edit : Edit} (hle : start ≤ stop)
    (h : (e.replaceUnits start stop inserted).1 = some edit) :
    edit.Within e.text := by
  unfold replaceUnits at h
  split at h
  · cases h
  · split at h
    · cases h
    · exact editOfReport_within (by omega) h

theorem replace_reported (edit : Edit) (e : Editor) :
    e.Reported (e.replace edit) := by
  unfold replace
  split
  · rfl
  · exact replaceUnits_reported _ _ _ e

theorem replace_sameView (edit : Edit) (e : Editor) :
    e.SameView (e.replace edit).2 := by
  unfold replace
  split
  · rename_i h
    exact ⟨rfl, rfl, rfl, by simp [isWidget, h]⟩
  · exact replaceUnits_sameView _ _ _ e

theorem replace_within {edit reported : Edit} {e : Editor}
    (hedit : edit.Within e.text) (h : (e.replace edit).1 = some reported) :
    reported.Within e.text := by
  unfold replace at h
  split at h
  · cases h
    exact hedit
  · exact replaceUnits_within (by omega) h

theorem replaceSelection_reported (inserted : Text) (e : Editor) :
    e.Reported (e.replaceSelection inserted) := by
  unfold replaceSelection
  split
  · rfl
  · exact replaceUnits_reported _ _ _ e

theorem replaceSelection_sameView (inserted : Text) (e : Editor) :
    e.SameView (e.replaceSelection inserted).2 := by
  unfold replaceSelection
  split
  · exact ⟨rfl, rfl, rfl, rfl⟩
  · exact replaceUnits_sameView _ _ _ e

theorem become_reported (new : Text) (position removed : Int) (e : Editor) :
    e.Reported (e.become new position removed) := by
  unfold become
  split
  · rfl
  · exact reported_editOfReport (by rfl) _ _

theorem become_sameView (new : Text) (position removed : Int) (e : Editor) :
    e.SameView (e.become new position removed).2 := by
  unfold become
  split
  · exact ⟨rfl, rfl, rfl, rfl⟩
  · rename_i h
    exact ⟨rfl, rfl, rfl, by simp [isWidget, h]⟩

end Editor

theorem Editing.run_reported (g : Editing) (e : Editor) :
    e.Reported (g.run e) := by
  cases g with
  | replace edit => exact Editor.replace_reported edit e
  | type text => exact Editor.replace_reported _ e
  | selection text => exact Editor.replaceSelection_reported text e
  | change text position removed =>
      exact Editor.become_reported text position removed e

theorem Editing.run_sameView (g : Editing) (e : Editor) :
    e.SameView (g.run e).2 := by
  cases g with
  | replace edit => exact Editor.replace_sameView edit e
  | type text => exact Editor.replace_sameView _ e
  | selection text => exact Editor.replaceSelection_sameView text e
  | change text position removed =>
      exact Editor.become_sameView text position removed e

end InlineCompletion
