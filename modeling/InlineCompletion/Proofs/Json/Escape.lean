import InlineCompletion.Json.Reader
import InlineCompletion.Json.Writer

/-!
# Strings that are read again

A code point is written as itself, by a short escape, by its one UTF-16 unit or
by its two.  The main statement is that a quoted string is read as the string,
whatever follows it.
-/

namespace InlineCompletion
namespace Json

/-!
# What stands in quotes
-/

theorem readPoints_quote (high : Option Nat) (rest : Text) :
    readPoints high ('"' :: rest) = some (loneHalf high, rest) := by
  rw [readPoints.eq_def]
  rfl

theorem readPoints_plain {c : Char} (hquote : c ≠ '"') (hslash : c ≠ '\\')
    (hleast : 0x20 ≤ c.toNat) (rest : Text) :
    readPoints none (c :: rest) =
      (readPoints none rest).map fun r => (.char c :: r.1, r.2) := by
  rw [readPoints.eq_def]
  dsimp only
  rw [if_neg hquote, if_neg hslash, if_neg (Nat.not_lt.mpr hleast)]
  rfl

theorem readPoints_short {e c : Char} (hunit : e ≠ 'u')
    (h : unescape? e = some c) (rest : Text) :
    readPoints none ('\\' :: e :: rest) =
      (readPoints none rest).map fun r => (.char c :: r.1, r.2) := by
  rw [readPoints.eq_def]
  dsimp only
  rw [if_neg (by decide), if_pos rfl, if_neg hunit, h]
  rfl

/-!
# UTF-16 units
-/

theorem unit?_digits {n : Nat} (h : n < 0x10000) :
    ∃ x y z w, Hex.digits 4 n = [x, y, z, w] ∧ unit? x y z w = some n := by
  have hvalue (k : Nat) : Hex.value? (Hex.digit (k % 0x10)) = some (k % 0x10) :=
    Hex.value?_digit (Nat.mod_lt k (by decide))
  refine ⟨Hex.digit (n / 0x10 / 0x10 / 0x10 % 0x10),
    Hex.digit (n / 0x10 / 0x10 % 0x10), Hex.digit (n / 0x10 % 0x10),
    Hex.digit (n % 0x10), rfl, ?_⟩
  unfold unit?
  rw [hvalue, hvalue, hvalue, hvalue]
  have hsum :
      ((n / 0x10 / 0x10 / 0x10 % 0x10 * 0x10 + n / 0x10 / 0x10 % 0x10) * 0x10 +
      n / 0x10 % 0x10) * 0x10 + n % 0x10 = n := by omega
  exact congrArg some hsum

theorem escapeUnit_append {n : Nat} (h : n < 0x10000) (rest : Text) :
    ∃ x y z w, unit? x y z w = some n ∧
      escapeUnit n ++ rest = '\\' :: 'u' :: x :: y :: z :: w :: rest := by
  rcases unit?_digits h with ⟨x, y, z, w, hdigits, hunit⟩
  refine ⟨x, y, z, w, hunit, ?_⟩
  unfold escapeUnit
  rw [hdigits]
  rfl

section Units

variable {n : Nat}

theorem readPoints_unit (h : n < 0xD800 ∨ 0xDFFF < n ∧ n < 0x10000)
    (rest : Text) :
    readPoints none (escapeUnit n ++ rest) =
      (readPoints none rest).map fun r =>
        (.char (Char.ofNat n) :: r.1, r.2) := by
  rcases escapeUnit_append (n := n) (by omega) rest with
    ⟨x, y, z, w, hunit, htext⟩
  rw [htext, readPoints.eq_def]
  simp only [hunit, Char.reduceEq, if_true, if_false]
  rw [if_neg (by omega), if_neg (by omega)]
  rfl

theorem readPoints_upper (hleast : 0xD800 ≤ n) (hgreatest : n ≤ 0xDBFF)
    (rest : Text) :
    readPoints none (escapeUnit n ++ rest) = readPoints (some n) rest := by
  rcases escapeUnit_append (n := n) (by omega) rest with
    ⟨x, y, z, w, hunit, htext⟩
  rw [htext, readPoints.eq_def]
  simp only [hunit, Char.reduceEq, if_true, if_false]
  rw [if_neg (by omega), if_pos ⟨hleast, hgreatest⟩]
  exact Option.map_id'

theorem readPoints_lower {h : Nat} (hleast : 0xDC00 ≤ n)
    (hgreatest : n ≤ 0xDFFF) (rest : Text) :
    readPoints (some h) (escapeUnit n ++ rest) =
      (readPoints none rest).map fun r =>
      (.char (Char.ofNat (0x10000 + (h - 0xD800) * 0x400 + (n - 0xDC00))) ::
        r.1, r.2) := by
  rcases escapeUnit_append (n := n) (by omega) rest with
    ⟨x, y, z, w, hunit, htext⟩
  rw [htext, readPoints.eq_def]
  simp only [hunit, Char.reduceEq, if_true, if_false]
  rw [if_pos ⟨hleast, hgreatest⟩]

end Units

/-!
# Code points and strings
-/

theorem readPoints_pair {c : Char} (h : 0x10000 ≤ c.toNat) (rest : Text) :
    readPoints none (escapeUnit (0xD800 + (c.toNat - 0x10000) / 0x400) ++
        (escapeUnit (0xDC00 + (c.toNat - 0x10000) % 0x400) ++ rest)) =
      (readPoints none rest).map fun r => (.char c :: r.1, r.2) := by
  have hscalar : c.toNat < 0xD800 ∨ 0xDFFF < c.toNat ∧ c.toNat < 0x110000 :=
    c.valid
  have hpair :
      0x10000 + (0xD800 + (c.toNat - 0x10000) / 0x400 - 0xD800) * 0x400 +
      (0xDC00 + (c.toNat - 0x10000) % 0x400 - 0xDC00) = c.toNat := by omega
  rw [readPoints_upper (by omega) (by omega),
    readPoints_lower (by omega) (by omega), hpair, Char.ofNat_toNat]

/-- A written code point is read as the code point. -/
theorem readPoints_escapeChar (c : Char) (rest : Text) :
    readPoints none (escapeChar c ++ rest) =
      (readPoints none rest).map fun r => (.char c :: r.1, r.2) := by
  have hscalar : c.toNat < 0xD800 ∨ 0xDFFF < c.toNat ∧ c.toNat < 0x110000 :=
    c.valid
  have hshort {e d : Char} (he : e ≠ 'u') (hd : unescape? e = some d)
      (h : c = d) :
      readPoints none (['\\', e] ++ rest) =
        (readPoints none rest).map fun r => (.char c :: r.1, r.2) := by
    rw [h]
    exact readPoints_short he hd rest
  unfold escapeChar
  split
  · next h => exact hshort (by decide) rfl h
  split
  · next h => exact hshort (by decide) rfl h
  split
  · next h => exact hshort (by decide) rfl h
  split
  · next h => exact hshort (by decide) rfl h
  split
  · next h => exact hshort (by decide) rfl h
  split
  · next h => exact hshort (by decide) rfl h
  split
  · next h => exact hshort (by decide) rfl h
  split
  · next hquote hslash _ _ _ _ _ hprinted =>
      exact readPoints_plain hquote hslash hprinted.1 rest
  split
  · next hsmall =>
    rw [readPoints_unit (by omega), Char.ofNat_toNat]
  · rw [List.append_assoc]
    exact readPoints_pair (by omega) rest

theorem readPoints_escaped (s rest : Text) :
    readPoints none ((s.map .char).flatMap escapePoint ++ '"' :: rest) =
      some (s.map .char, rest) := by
  induction s with
  | nil => exact readPoints_quote none rest
  | cons c s ih =>
      rw [List.map_cons, List.flatMap_cons, List.append_assoc]
      show readPoints none (escapeChar c ++ _) = _
      rw [readPoints_escapeChar, ih]
      rfl

theorem quote_append (s : Str) (rest : Text) :
    quote s ++ rest = '"' :: (s.points.flatMap escapePoint ++ '"' :: rest) := by
  unfold quote
  show '"' :: (s.points.flatMap escapePoint ++ ['"'] ++ rest) = _
  rw [List.append_assoc]
  rfl

theorem ofPointsFrom_map_char (before s : Text) :
    Str.ofPointsFrom before (s.map .char) =
      .text (String.ofList (before.reverse ++ s)) := by
  induction s generalizing before with
  | nil =>
      rw [List.append_nil]
      rfl
  | cons c s ih =>
      show Str.ofPointsFrom (c :: before) (s.map .char) = _
      rw [ih, List.reverse_cons, List.append_assoc]
      rfl

theorem ofPoints_points (s : String) :
    Str.ofPoints (Str.text s).points = .text s := by
  show Str.ofPointsFrom [] (s.toList.map .char) = _
  rw [ofPointsFrom_map_char]
  show Str.text (String.ofList s.toList) = _
  rw [String.ofList_toList]

/-- What a quoted text leaves of its opening quote is read as the text. -/
theorem readString_escaped {s : Str} (h : s.isText = true) (rest : Text) :
    readString (s.points.flatMap escapePoint ++ '"' :: rest) =
      .ok (s, rest) := by
  cases s with
  | broken before half after => cases h
  | text s =>
      have hread :
          readPoints none
            ((Str.text s).points.flatMap escapePoint ++ '"' :: rest) =
          some ((Str.text s).points, rest) := readPoints_escaped s.toList rest
      unfold readString
      rw [hread]
      show Except.ok (Str.ofPoints (Str.text s).points, rest) = _
      rw [ofPoints_points]

end Json
end InlineCompletion
