import Mathlib.Tactic.IntervalCases
import InlineCompletion.Text.Utf8

/-!
# Texts that are read again from their bytes

The first byte of a code point says how many bytes are owed and what the next
one may be, and the bytes behind it pass on six bits each.  The main statement
is that the bytes of every text are read as the text.
-/

namespace InlineCompletion
namespace Utf8

theorem toNat_byte {n : Nat} (h : n < 256) : n.toUInt8.toNat = n := by
  rw [Nat.toUInt8_eq, UInt8.toNat_ofNat']
  exact Nat.mod_eq_of_lt h

/-!
# First bytes
-/

theorem first_of_two {k : Nat} (hleast : 2 ≤ k) (hgreatest : k < 0x20) :
    first (0xC0 + k).toUInt8 = ([], some ⟨k, 1, 0x80, 0xBF⟩) := by
  interval_cases k <;> rfl

theorem first_of_three {k : Nat} (h : k < 0x10) :
    first (0xE0 + k).toUInt8 =
      ([], some
        ⟨k, 2, if k = 0 then 0xA0 else 0x80, if k = 0xD then 0x9F else
          0xBF⟩) := by
  interval_cases k <;> rfl

theorem first_of_four {k : Nat} (h : k < 5) :
    first (0xF0 + k).toUInt8 =
      ([], some
        ⟨k, 3, if k = 0 then 0x90 else 0x80, if k = 4 then 0x8F else
          0xBF⟩) := by
  interval_cases k <;> rfl

/-!
# The bytes behind them
-/

theorem at_most {k : Nat} (h : k < 0x40) : 0x80 + k ≤ UInt8.toNat 0xBF := by
  show 0x80 + k ≤ 0xBF
  omega

section Behind

variable {bits owed k : Nat} {least greatest : UInt8} (hk : k < 0x40)
  (hleast : least.toNat ≤ 0x80 + k) (hgreatest : 0x80 + k ≤ greatest.toNat)

include hk hleast hgreatest

theorem within_bounds :
    least ≤ (0x80 + k).toUInt8 ∧ (0x80 + k).toUInt8 ≤ greatest := by
  rw [UInt8.le_iff_toNat_le, UInt8.le_iff_toNat_le, toNat_byte (by omega)]
  exact ⟨hleast, hgreatest⟩

theorem step_last :
    step (some ⟨bits, 1, least, greatest⟩) (0x80 + k).toUInt8 =
      ([some (Char.ofNat (bits * 0x40 + k))], none) := by
  have hbits : (0x80 + k).toUInt8.toNat - 0x80 = k := by
    rw [toNat_byte (by omega)]
    omega
  unfold step
  dsimp only
  rw [if_pos (within_bounds hk hleast hgreatest), if_pos (Nat.le_refl 1), hbits]

theorem step_amid :
    step (some ⟨bits, owed + 2, least, greatest⟩) (0x80 + k).toUInt8 =
      ([], some ⟨bits * 0x40 + k, owed + 1, 0x80, 0xBF⟩) := by
  have hbits : (0x80 + k).toUInt8.toNat - 0x80 = k := by
    rw [toNat_byte (by omega)]
    omega
  unfold step
  dsimp only
  rw [if_pos (within_bounds hk hleast hgreatest), if_neg (by omega), hbits]
  rfl

end Behind

/-!
# Code points and texts
-/

theorem run_cons (at? : Option Inside) (b : UInt8) (rest : List UInt8) :
    run at? (b :: rest) = (step at? b).1 ++ run (step at? b).2 rest := rfl

theorem run_two {c : Char} (hleast : 0x80 ≤ c.toNat)
    (hgreatest : c.toNat < 0x800) (rest : List UInt8) :
    run none
      ((0xC0 + c.toNat / 0x40).toUInt8 :: (0x80 + c.toNat % 0x40).toUInt8 ::
        rest) =
      some c :: run none rest := by
  have hbits : c.toNat / 0x40 * 0x40 + c.toNat % 0x40 = c.toNat := by omega
  have hlow : c.toNat % 0x40 < 0x40 := by omega
  rw [run_cons]
  show (first _).1 ++ run (first _).2 _ = _
  rw [first_of_two (by omega) (by omega), run_cons,
    step_last hlow (Nat.le_add_right _ _) (at_most hlow), hbits,
    Char.ofNat_toNat]
  rfl

theorem run_three {c : Char} (hleast : 0x800 ≤ c.toNat)
    (hgreatest : c.toNat < 0x10000) (rest : List UInt8) :
    run none
      ((0xE0 + c.toNat / 0x1000).toUInt8 ::
        (0x80 + c.toNat / 0x40 % 0x40).toUInt8 ::
        (0x80 + c.toNat % 0x40).toUInt8 :: rest) =
      some c :: run none rest := by
  have hscalar : c.toNat < 0xD800 ∨ 0xDFFF < c.toNat ∧ c.toNat < 0x110000 :=
    c.valid
  have hbits :
      (c.toNat / 0x1000 * 0x40 + c.toNat / 0x40 % 0x40) * 0x40 + c.toNat %
        0x40 =
      c.toNat := by omega
  have hmiddle : c.toNat / 0x40 % 0x40 < 0x40 := by omega
  have hlow : c.toNat % 0x40 < 0x40 := by omega
  rw [run_cons]
  show (first _).1 ++ run (first _).2 _ = _
  rw [first_of_three (by omega), run_cons, step_amid hmiddle, run_cons,
    step_last hlow (Nat.le_add_right _ _) (at_most hlow), hbits,
    Char.ofNat_toNat]
  · rfl
  · split
    · show 0xA0 ≤ 0x80 + c.toNat / 0x40 % 0x40
      omega
    · exact Nat.le_add_right _ _
  · split
    · show 0x80 + c.toNat / 0x40 % 0x40 ≤ 0x9F
      omega
    · exact at_most hmiddle

theorem run_four {c : Char} (hleast : 0x10000 ≤ c.toNat) (rest : List UInt8) :
    run none
      ((0xF0 + c.toNat / 0x40000).toUInt8 ::
        (0x80 + c.toNat / 0x1000 % 0x40).toUInt8 ::
        (0x80 + c.toNat / 0x40 % 0x40).toUInt8 ::
          (0x80 + c.toNat % 0x40).toUInt8 :: rest) =
      some c :: run none rest := by
  have hscalar : c.toNat < 0xD800 ∨ 0xDFFF < c.toNat ∧ c.toNat < 0x110000 :=
    c.valid
  have hbits : ((c.toNat / 0x40000 * 0x40 + c.toNat / 0x1000 % 0x40) * 0x40 +
      c.toNat / 0x40 % 0x40) * 0x40 + c.toNat % 0x40 = c.toNat := by omega
  have hhigh : c.toNat / 0x1000 % 0x40 < 0x40 := by omega
  have hmiddle : c.toNat / 0x40 % 0x40 < 0x40 := by omega
  have hlow : c.toNat % 0x40 < 0x40 := by omega
  rw [run_cons]
  show (first _).1 ++ run (first _).2 _ = _
  rw [first_of_four (by omega), run_cons, step_amid hhigh, run_cons,
    step_amid hmiddle (Nat.le_add_right _ _) (at_most hmiddle), run_cons,
    step_last hlow (Nat.le_add_right _ _) (at_most hlow), hbits,
    Char.ofNat_toNat]
  · rfl
  · split
    · show 0x90 ≤ 0x80 + c.toNat / 0x1000 % 0x40
      omega
    · exact Nat.le_add_right _ _
  · split
    · show 0x80 + c.toNat / 0x1000 % 0x40 ≤ 0x8F
      omega
    · exact at_most hhigh

theorem run_encodeChar (c : Char) (rest : List UInt8) :
    run none (encodeChar c ++ rest) = some c :: run none rest := by
  unfold encodeChar
  dsimp only
  split
  · next h =>
    rw [List.singleton_append, run_cons, step, first, toNat_byte (by omega),
      if_pos h, Char.ofNat_toNat]
    rfl
  · split
    · exact run_two (by omega) (by omega) rest
    · split
      · exact run_three (by omega) (by omega) rest
      · exact run_four (by omega) rest

theorem items_encode (t : Text) : items (encode t) = t.map some := by
  unfold items encode
  induction t with
  | nil => rfl
  | cons c rest ih => rw [List.flatMap_cons, run_encodeChar, ih, List.map_cons]

theorem decode?_encode (t : Text) : decode? (encode t) = some t := by
  unfold decode?
  rw [items_encode, known?_map_some]

end Utf8
end InlineCompletion
