import InlineCompletion.Text.Units

/-!
# Offsets in units and in code points

Every offset in code points has a place in units that leads back to it, and both
ways of counting rise together.  The main statements are that the place of an
offset means the offset, which offset it means when the offset is outside the
text, and where the parts of a text meet.
-/

namespace InlineCompletion
namespace Units

theorem indexAt_mono (t : Text) {u v : Int} (h : u ≤ v) :
    indexAt t u ≤ indexAt t v := by
  induction t generalizing u v with
  | nil => simp [indexAt]
  | cons c rest ih =>
      unfold indexAt
      by_cases hu : (width c : Int) ≤ u
      · have hv : (width c : Int) ≤ v := by omega
        have hrest := ih (u := u - width c) (v := v - width c) (by omega)
        rw [if_pos hu, if_pos hv]
        omega
      · rw [if_neg hu]
        omega

theorem indexAt_before (t : Text) {n : Nat} (hn : n ≤ t.length) :
    indexAt t (before t n) = n := by
  unfold before
  rw [Int.toNat_natCast]
  induction t generalizing n with
  | nil =>
      obtain rfl : n = 0 := Nat.le_zero.mp hn
      rfl
  | cons c rest ih =>
      cases n with
      | zero =>
          have hwidth := one_le_width c
          have hsome : width c ≠ 0 := by omega
          simp [indexAt, hsome]
      | succ n =>
          have hrest := ih (n := n) (by simpa using hn)
          have hstep :
              ((width c + length (rest.take n) : Nat) : Int) - width c =
              length (rest.take n) := by
            omega
          rw [List.take_succ_cons, length_cons, indexAt, if_pos (by omega),
            hstep, hrest, Nat.add_comm]

theorem indexAt_before_clamped (t : Text) (index : Int) :
    (indexAt t (before t index) : Int) = max 0 (min index t.length) := by
  have hclamped :
      before t index = before t (min index.toNat t.length : Nat) := by
    unfold before
    congr 1
    rw [List.take_eq_take_iff]
    omega
  rw [hclamped, indexAt_before t (Nat.min_le_right _ _)]
  omega

/-!
# Parts of a text

Between two parts of a text stand the units of the first.
-/

theorem before_append (s t : Text) : before (s ++ t) s.length = length s := by
  unfold before
  rw [Int.toNat_natCast, List.take_left]

theorem indexAt_append (s t : Text) :
    indexAt (s ++ t) (length s) = s.length := by
  rw [← before_append s t]
  exact indexAt_before _
    (by rw [List.length_append]; exact Nat.le_add_right _ _)

/-- Between two offsets stands a part of the text, and their places are where it
begins and ends. -/
theorem exists_parts {start stop : Nat} (horder : start ≤ stop) (t : Text) :
    ∃ v, t = t.take start ++ v ++ t.drop stop ∧
      before t start = length (t.take start) ∧
      before t stop = length (t.take start ++ v) := by
  have hparts : t.take start ++ (t.take stop).drop start = t.take stop := by
    calc
      _ = (t.take stop).take start ++ (t.take stop).drop start := by
        rw [List.take_take, Nat.min_eq_left horder]
      _ = _ := List.take_append_drop _ _
  refine ⟨(t.take stop).drop start, ?_, ?_, ?_⟩
  · rw [hparts, List.take_append_drop]
  · unfold before
    rw [Int.toNat_natCast]
  · unfold before
    rw [Int.toNat_natCast, hparts]

end Units
end InlineCompletion
