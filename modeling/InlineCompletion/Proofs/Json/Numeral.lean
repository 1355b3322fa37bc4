import Mathlib.Data.List.TakeWhile
import Mathlib.Tactic.IntervalCases
import InlineCompletion.Json.Reader
import InlineCompletion.Json.Writer
import InlineCompletion.Proofs.Number.Integer

/-!
# Numbers that are read again

A number ends where no digit, point or exponent goes on, and behind a value
stands a comma, a closing bracket or brace, or nothing.  The main statements are
that a number or a word is read in the same way with such a text behind it, and
that a written integer is read as the integer if it does not have too many
digits.
-/

namespace InlineCompletion
namespace Json

inductive Follows : Text → Prop
  | nil : Follows []
  | comma (t : Text) : Follows (',' :: t)
  | bracket (t : Text) : Follows (']' :: t)
  | brace (t : Text) : Follows ('}' :: t)

def leaving {α : Type} (rest : Text) (r : α × Text) : α × Text :=
  (r.1, r.2 ++ rest)

/-!
# Numbers with text behind them
-/

theorem readFraction_point (t : Text) :
    readFraction ('.' :: t) =
      if (t.takeWhile isDigit).isEmpty then ([], '.' :: t)
      else (t.takeWhile isDigit, t.dropWhile isDigit) := rfl

def exponentSign : Text → Bool × Text
  | '-' :: t => (true, t)
  | '+' :: t => (false, t)
  | t => (false, t)

theorem readExponent_mark {e : Char} (he : e = 'e' ∨ e = 'E') (t : Text) :
    readExponent (e :: t) =
      if ((exponentSign t).2.takeWhile isDigit).isEmpty then (none, e :: t)
      else
        let n : Int := digitsValue ((exponentSign t).2.takeWhile isDigit)
        (some (if (exponentSign t).1 then -n else n),
          (exponentSign t).2.dropWhile isDigit) := by
  unfold readExponent
  dsimp only
  rw [if_pos he]
  rfl

section Behind

variable {rest : Text} (hrest : Follows rest)

include hrest

theorem takeWhile_ahead (t : Text) :
    (t ++ rest).takeWhile isDigit = t.takeWhile isDigit := by
  have hnone : rest.takeWhile isDigit = [] := by cases hrest <;> rfl
  rw [List.takeWhile_append, hnone, List.append_nil]
  split
  · next hall => exact ((List.takeWhile_prefix _).eq_of_length hall).symm
  · rfl

theorem dropWhile_ahead (t : Text) :
    (t ++ rest).dropWhile isDigit = t.dropWhile isDigit ++ rest := by
  have hall : rest.dropWhile isDigit = rest := by cases hrest <;> rfl
  rw [List.dropWhile_append, hall]
  split
  · next hnil => rw [List.isEmpty_iff.mp hnil, List.nil_append]
  · rfl

theorem readWhole_ahead (t : Text) :
    readWhole (t ++ rest) = leaving rest (readWhole t) := by
  have hplain {t : Text} (h : ∀ more, t ≠ '0' :: more) :
      readWhole t = (t.takeWhile isDigit, t.dropWhile isDigit) := by
    unfold readWhole
    split
    · next more => exact absurd rfl (h more)
    · rfl
  unfold leaving
  cases t with
  | nil => cases hrest <;> rfl
  | cons c t =>
      by_cases hc : c = '0'
      · rw [hc]
        rfl
      · have hne (t more : Text) : c :: t ≠ '0' :: more :=
          fun heq => hc (List.cons.inj heq).1
        rw [List.cons_append, hplain (hne _),
          hplain (hne _), ← List.cons_append, takeWhile_ahead hrest,
          dropWhile_ahead hrest]

theorem readFraction_ahead (t : Text) :
    readFraction (t ++ rest) = leaving rest (readFraction t) := by
  have hplain {t : Text} (h : ∀ more, t ≠ '.' :: more) :
      readFraction t = ([], t) := by
    unfold readFraction
    split
    · next more => exact absurd rfl (h more)
    · rfl
  unfold leaving
  cases t with
  | nil => cases hrest <;> rfl
  | cons c t =>
      by_cases hc : c = '.'
      · rw [hc, List.cons_append, readFraction_point, readFraction_point,
          takeWhile_ahead hrest, dropWhile_ahead hrest]
        split
        · rfl
        · rfl
      · have hne (t more : Text) : c :: t ≠ '.' :: more :=
          fun heq => hc (List.cons.inj heq).1
        rw [List.cons_append, hplain (hne _), hplain (hne _)]
        rfl

theorem exponentSign_ahead (t : Text) :
    exponentSign (t ++ rest) = leaving rest (exponentSign t) := by
  have hplain {t : Text} (h : ∀ more, t ≠ '-' :: more ∧ t ≠ '+' :: more) :
      exponentSign t = (false, t) := by
    unfold exponentSign
    split
    · next more => exact absurd rfl (h more).1
    · next more => exact absurd rfl (h more).2
    · rfl
  unfold leaving
  cases t with
  | nil => cases hrest <;> rfl
  | cons c t =>
      by_cases hminus : c = '-'
      · rw [hminus]
        rfl
      · by_cases hplus : c = '+'
        · rw [hplus]
          rfl
        · have hne (t more : Text) :
              c :: t ≠ '-' :: more ∧ c :: t ≠ '+' :: more :=
            ⟨fun heq => hminus (List.cons.inj heq).1,
              fun heq => hplus (List.cons.inj heq).1⟩
          rw [List.cons_append, hplain (hne _), hplain (hne _)]
          rfl

theorem readExponent_ahead (t : Text) :
    readExponent (t ++ rest) = leaving rest (readExponent t) := by
  cases t with
  | nil => cases hrest <;> rfl
  | cons e t =>
      rw [List.cons_append]
      by_cases he : e = 'e' ∨ e = 'E'
      · rw [readExponent_mark he, readExponent_mark he,
          exponentSign_ahead hrest]
        unfold leaving
        dsimp only
        rw [takeWhile_ahead hrest, dropWhile_ahead hrest]
        split
        · rfl
        · rfl
      · unfold readExponent
        dsimp only
        rw [if_neg he, if_neg he]
        rfl

theorem readMagnitude_ahead (negative : Bool) (t : Text) :
    readMagnitude negative (t ++ rest) =
      (readMagnitude negative t).map (leaving rest) := by
  simp only [readMagnitude, readWhole_ahead hrest, readFraction_ahead hrest,
    readExponent_ahead hrest, leaving]
  split
  · rfl
  · split
    · split
      · rfl
      · rfl
    · rfl

end Behind

/-!
# Words and numbers with text behind them
-/

theorem readWord_ahead {word : Text} {value v : Json} {t left : Text}
    (h : readWord word value t = .ok (v, left)) (rest : Text) :
    readWord word value (t ++ rest) = .ok (v, left ++ rest) := by
  unfold readWord at h ⊢
  split at h
  · next hword =>
    have hbegins := List.isPrefixOf_iff_prefix.mp hword
    cases h
    rw [if_pos
      (List.isPrefixOf_iff_prefix.mpr
        (hbegins.trans (List.prefix_append t rest))),
      List.drop_append_of_le_length hbegins.length_le]
  · cases h

theorem readPlain_minus {t : Text} (h : ∀ more, t ≠ 'I' :: more) :
    readPlain ('-' :: t) = readMagnitude true t := by
  unfold readPlain
  split
  case h_6 more heq => exact absurd (List.cons.inj heq).2 (h more)
  case h_7 heq => rw [(List.cons.inj heq).2]
  case h_8 hne => exact absurd rfl (hne t)
  all_goals next heq => exact absurd (List.cons.inj heq).1 (by decide)

def openings : Text := ['n', 't', 'f', 'N', 'I', '-']

theorem readPlain_digits {t : Text} (h : ∀ c ∈ t.head?, c ∉ openings) :
    readPlain t = readMagnitude false t := by
  unfold readPlain
  split
  case h_8 => rfl
  all_goals exact absurd (by decide) (h _ rfl)

theorem readPlain_ahead {v : Json} {t left rest : Text}
    (h : readPlain t = .ok (v, left)) (hrest : Follows rest) :
    readPlain (t ++ rest) = .ok (v, left ++ rest) := by
  have hmagnitude {negative : Bool} {t : Text}
      (h : readMagnitude negative t = .ok (v, left)) :
      readMagnitude negative (t ++ rest) = .ok (v, left ++ rest) := by
    rw [readMagnitude_ahead hrest, h]
    rfl
  unfold readPlain at h
  split at h
  case h_7 t hne =>
    rw [List.cons_append, readPlain_minus, hmagnitude h]
    cases t with
    | nil => cases h
    | cons c t => exact fun more heq => hne t (by rw [(List.cons.inj heq).1])
  case h_8 hn ht hf hN hI _ hminus =>
    rw [readPlain_digits, hmagnitude h]
    cases t with
    | nil => cases h
    | cons c t =>
        intro d hd hmem
        rw [← Option.some.inj hd] at hmem
        simp only [openings, List.mem_cons, List.not_mem_nil, or_false] at hmem
        rcases hmem with rfl | rfl | rfl | rfl | rfl | rfl
        · exact hn t rfl
        · exact ht t rfl
        · exact hf t rfl
        · exact hN t rfl
        · exact hI t rfl
        · exact hminus t rfl
  all_goals exact readWord_ahead h rest

theorem readPlain_front {t : Text} {r : Json × Text} (h : readPlain t = .ok r) :
    ∃ c more, t = c :: more ∧ isGap c = false ∧
      c ∉ ['"', '[', '{', ']', '}'] := by
  cases t with
  | nil => cases h
  | cons c t =>
      refine ⟨c, t, rfl, ?_, ?_⟩
      · rw [Bool.eq_false_iff]
        intro hgap
        simp only [isGap, Bool.or_eq_true, beq_iff_eq] at hgap
        rcases hgap with ((rfl | rfl) | rfl) | rfl <;> cases h
      · intro hmark
        simp only [List.mem_cons, List.not_mem_nil, or_false] at hmark
        rcases hmark with rfl | rfl | rfl | rfl | rfl <;> cases h

/-!
# Integers
-/

theorem isDigit_of_mem_digits {n : Nat} {c : Char} (h : c ∈ Integer.digits n) :
    isDigit c = true := Integer.isDigit_of_mem_digits h

theorem eq_zero_of_digits {n : Nat} {t : Text}
    (h : Integer.digits n = '0' :: t) : n = 0 := by
  induction n using Nat.strongRecOn generalizing t with
  | _ n ih =>
      unfold Integer.digits at h
      by_cases hsmall : n < 10
      · rw [Nat.toDigits_of_lt_base hsmall] at h
        interval_cases n
        · rfl
        all_goals exact absurd (List.cons.inj h).1 (by decide)
      · rw [Nat.toDigits_of_base_le (by decide) (by omega)] at h
        cases hdigits : Nat.toDigits 10 (n / 10) with
        | nil => exact absurd hdigits Nat.toDigits_ne_nil
        | cons c more =>
            rw [hdigits] at h
            have hzero : c = '0' := (List.cons.inj h).1
            have htenth : n / 10 = 0 := ih (n / 10) (by omega) (hzero ▸ hdigits)
            omega

theorem readWhole_digits (n : Nat) :
    readWhole (Integer.digits n) = (Integer.digits n, []) := by
  have hall : ∀ c ∈ Integer.digits n, isDigit c = true :=
    fun _ => isDigit_of_mem_digits
  unfold readWhole
  split
  · next t heq =>
    have hn := eq_zero_of_digits heq
    subst hn
    have hnil : [] = t := (List.cons.inj (show '0' :: [] = '0' :: t from heq)).2
    rw [← hnil]
    rfl
  · rw [List.takeWhile_eq_self_iff.mpr hall, List.dropWhile_eq_nil_iff.mpr hall]

theorem digitsValue_digits (n : Nat) : digitsValue (Integer.digits n) = n := by
  have h := Nat.ofDigitChars_ten_toDigits (n := n)
  rw [Nat.ofDigitChars_eq_foldl] at h
  exact h

theorem readMagnitude_digits (negative : Bool) {n : Nat}
    (h : (Integer.digits n).length ≤ Integer.maxDigits) :
    readMagnitude negative (Integer.digits n) =
      .ok (.int (if negative then -(n : Int) else n), []) := by
  have hsome : (Integer.digits n).isEmpty = false :=
    List.isEmpty_eq_false_iff.mpr Nat.toDigits_ne_nil
  unfold readMagnitude
  rw [readWhole_digits]
  dsimp only
  rw [hsome, digitsValue_digits]
  show (if (Integer.digits n).length > Integer.maxDigits then _ else _) = _
  rw [if_neg (Nat.not_lt.mpr h)]
  rfl

theorem length_digits_of_lt {n k : Nat} (hk : 0 < k) (h : n < Nat.pow 10 k) :
    (Integer.digits n).length ≤ k :=
  (Nat.length_toDigits_le_iff (by decide) hk).mpr h

theorem length_digits_of_isShowable {n : Int}
    (h : Integer.isShowable n = true) :
    (Integer.digits n.natAbs).length ≤ Integer.maxDigits := by
  rw [Integer.isShowable, decide_eq_true_eq] at h
  exact length_digits_of_lt (by decide) h

/-- A written integer is read as the integer, if it does not have too many
digits. -/
theorem readPlain_int {n : Int} (h : Integer.isShowable n = true) :
    readPlain (Integer.text n) = .ok (.int n, []) := by
  have hlength := length_digits_of_isShowable h
  cases n with
  | ofNat n =>
      change (Integer.digits n).length ≤ Integer.maxDigits at hlength
      show readPlain (Integer.digits n) = _
      rw [readPlain_digits, readMagnitude_digits false hlength]
      · rfl
      · intro c hc hopening
        have hnone : (openings.all fun c => !isDigit c) = true := by decide
        have hother := List.all_eq_true.mp hnone c hopening
        rw [isDigit_of_mem_digits (List.mem_of_mem_head? hc)] at hother
        cases hother
  | negSucc n =>
      change (Integer.digits (n + 1)).length ≤ Integer.maxDigits at hlength
      show readPlain ('-' :: Integer.digits (n + 1)) = _
      rw [readPlain_minus, readMagnitude_digits true hlength]
      · rfl
      · intro more heq
        have hdigit : isDigit 'I' = true :=
          isDigit_of_mem_digits (heq ▸ List.mem_cons_self)
        exact absurd hdigit (by decide)

end Json
end InlineCompletion
