import InlineCompletion.Proofs.Editor.Report

/-!
# The smallest splice

A splice keeps a start of the old text and an end of it, and both stand in the
new text as well.  So it keeps no more at the start than the longest start that
the texts share, and no more at both ends together than that start and the
longest end behind it.  The main statement is that of all splices that turn one
text into another, the one between what the texts share takes out the fewest
code points and puts in the fewest.
-/

namespace InlineCompletion
namespace Diff

/-!
# Longest starts and ends
-/

theorem le_shared_iff {s t : Text} {n : Nat} :
    n ≤ shared s t ↔ n ≤ s.length ∧ n ≤ t.length ∧ s.take n = t.take n := by
  constructor
  · intro hn
    have hleft := shared_le_left s t
    have hright := shared_le_left t s
    rw [shared_comm] at hright
    refine ⟨Nat.le_trans hn hleft, Nat.le_trans hn hright, ?_⟩
    calc
      s.take n = (s.take (shared s t)).take n := by
        rw [List.take_take, Nat.min_eq_left hn]
      _ = (t.take (shared s t)).take n := by rw [take_shared]
      _ = t.take n := by rw [List.take_take, Nat.min_eq_left hn]
  · rintro ⟨hs, ht, htake⟩
    induction s generalizing t n with
    | nil => exact Nat.le_trans hs (Nat.zero_le _)
    | cons c s ih =>
        cases n with
        | zero => exact Nat.zero_le _
        | succ n =>
            cases t with
            | nil => exact absurd ht (Nat.not_succ_le_zero n)
            | cons d t =>
                rw [List.take_succ_cons, List.take_succ_cons] at htake
                rcases List.cons.inj htake with ⟨hhead, hrest⟩
                have hshared :=
                  ih (Nat.le_of_succ_le_succ hs) (Nat.le_of_succ_le_succ ht)
                  hrest
                rw [shared, if_pos hhead]
                omega

/-- What two texts share at their ends is the longest end of both that does not
reach into their shared start. -/
theorem le_sharedEnd {old new : Text} {n : Nat}
    (hold : shared old new + n ≤ old.length)
    (hnew : shared old new + n ≤ new.length)
    (hend : old.drop (old.length - n) = new.drop (new.length - n)) :
    n ≤ sharedEnd old new := by
  have hplace {t : Text} (ht : shared old new + n ≤ t.length) :
      shared old new + (t.length - shared old new - n) = t.length - n := by
    omega
  unfold sharedEnd
  rw [le_shared_iff]
  refine ⟨?_, ?_, ?_⟩
  · rw [List.length_reverse, List.length_drop]
    omega
  · rw [List.length_reverse, List.length_drop]
    omega
  · rw [List.take_reverse, List.take_reverse, List.drop_drop, List.drop_drop,
      List.length_drop, List.length_drop, hplace hold, hplace hnew, hend]

/-- A start and an end of both texts that do not overlap are together no longer
than what the texts share.  The end alone may be longer, as a shorter start
leaves more room for it. -/
theorem add_le_shared_add_sharedEnd {old new : Text} {n m : Nat}
    (hstart : n ≤ shared old new) (hold : n + m ≤ old.length)
    (hnew : n + m ≤ new.length)
    (hend : old.drop (old.length - m) = new.drop (new.length - m)) :
    n + m ≤ shared old new + sharedEnd old new := by
  have hfits := shared_add_sharedEnd_le old new
  have hfits' := shared_add_sharedEnd_le_right old new
  -- as much of the end as stands behind the shared start in both texts
  let k := min m (min old.length new.length - shared old new)
  have hpart {t : Text} (ht : n + m ≤ t.length) :
      t.drop (t.length - k) = (t.drop (t.length - m)).drop (m - k) := by
    rw [List.drop_drop]
    congr 1
    omega
  have hk : k ≤ sharedEnd old new := by
    apply le_sharedEnd
    · omega
    · omega
    · rw [hpart hold, hpart hnew, hend]
  omega

/-!
# What a splice keeps
-/

section Splice

variable {old new inserted : Text} {start stop : Nat} (horder : start ≤ stop)
  (hstop : stop ≤ old.length)
  (hsplice : old.take start ++ inserted ++ old.drop stop = new)
include horder hstop hsplice

theorem length_splice :
    start + inserted.length + (old.length - stop) = new.length := by
  rw [← hsplice, List.length_append, List.length_append, List.length_take,
    List.length_drop, Nat.min_eq_left (Nat.le_trans horder hstop)]

theorem kept_le_shared :
    start + (old.length - stop) ≤ shared old new + sharedEnd old new := by
  have hlength := length_splice horder hstop hsplice
  have hfront : (old.take start).length = start := by
    rw [List.length_take, Nat.min_eq_left (Nat.le_trans horder hstop)]
  have hstart : start ≤ shared old new := by
    rw [le_shared_iff]
    refine ⟨Nat.le_trans horder hstop, by omega, ?_⟩
    rw [← hsplice, List.append_assoc, List.take_left' hfront]
  have hplace :
      new.length - (old.length - stop) =
        (old.take start ++ inserted).length := by
    rw [List.length_append, hfront]
    omega
  have hend : old.drop (old.length - (old.length - stop)) =
      new.drop (new.length - (old.length - stop)) := by
    rw [hplace, Nat.sub_sub_self hstop, ← hsplice, List.drop_left]
  exact add_le_shared_add_sharedEnd hstart (by omega) (by omega) hend

end Splice

/-- The edit between what two texts share is a splice within the old text that
makes the new one, and no splice that does so takes out fewer code points or
puts in fewer. -/
theorem smallest_splice (old new : Text) :
    (edit old new).Within old ∧ (edit old new).apply old = new ∧
      ∀ e : Edit, e.Within old → e.apply old = new →
        (edit old new).stop - (edit old new).start ≤ e.stop - e.start ∧
          (edit old new).inserted.length ≤ e.inserted.length := by
  refine ⟨edit_within old new, edit_apply old new, ?_⟩
  intro e hwithin happly
  rcases hwithin.exists_natCast with ⟨start, stop, horder, hstop, he⟩
  rw [he, Edit.apply_natCast] at happly
  have hkept := kept_le_shared horder hstop happly
  have hlength := length_splice horder hstop happly
  have hfits := shared_add_sharedEnd_le old new
  have hfits' := shared_add_sharedEnd_le_right old new
  have hinserted : (edit old new).inserted.length =
      new.length - sharedEnd old new - shared old new := by
    show List.length (List.drop _ (List.take _ new)) = _
    rw [List.length_drop, List.length_take]
    omega
  constructor
  · rw [he]
    show ((old.length - sharedEnd old new : Nat) : Int) -
      (shared old new : Nat) ≤ stop - start
    omega
  · rw [hinserted]
    omega

/-- A letter that is repeated once more, and once less: the start takes all that
can be shared, and a splice that starts before it does more. -/
theorem smallest_splice_repeated :
    let e : Edit := ⟨0, 1, "aa".toList⟩
    (e.Within "aa".toList ∧ e.apply "aa".toList = "aaa".toList) ∧
      edit "aa".toList "aaa".toList = ⟨2, 2, "a".toList⟩ ∧
      edit "aaa".toList "aa".toList = ⟨2, 3, []⟩ ∧
      (2 - 2 : Int) ≤ e.stop - e.start ∧
        "a".toList.length ≤ e.inserted.length := by
  intro e
  have he : e.Within "aa".toList ∧ e.apply "aa".toList = "aaa".toList := by
    decide
  have hedit : edit "aa".toList "aaa".toList = ⟨2, 2, "a".toList⟩ := by decide
  have hsmallest := (smallest_splice "aa".toList "aaa".toList).2.2 e he.1 he.2
  rw [hedit] at hsmallest
  exact ⟨he, hedit, by decide, hsmallest⟩

end Diff
end InlineCompletion
