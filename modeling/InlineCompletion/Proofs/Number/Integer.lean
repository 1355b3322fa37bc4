import InlineCompletion.Number.Integer

/-!
# Digits that are read again

The decimal digits of a number are digits of ASCII only.  The main statement is
that they are read as the number that they were written for, if there are not
too many of them.
-/

namespace InlineCompletion

/-!
# Digits of ASCII
-/

theorem toNat_of_isDigit {c : Char} (h : c.isDigit = true) :
    48 ≤ c.toNat ∧ c.toNat ≤ 57 :=
  Char.isDigit_iff_toNat.mp h

theorem ne_of_isDigit {c d : Char} (h : c.isDigit = true)
    (hd : d.isDigit = false) : c ≠ d := by
  intro heq
  rw [heq, hd] at h
  cases h

theorem digitValue?_of_isDigit {c : Char} (h : c.isDigit = true) :
    digitValue? c = some (c.toNat - 48) := by
  rcases toNat_of_isDigit h with ⟨hleast, hgreatest⟩
  unfold digitValue? zeroDigits
  rw [List.find?_cons_of_pos]
  · rfl
  · simp only [Bool.and_eq_true, decide_eq_true_eq]
    omega

theorem isBlank_of_isDigit {c : Char} (h : c.isDigit = true) :
    isBlank c = false := by
  rcases toNat_of_isDigit h with ⟨hleast, hgreatest⟩
  rw [Bool.eq_false_iff]
  intro hblank
  rcases (inRanges_iff blankRanges c).mp hblank with ⟨r, hr, hfirst, hlast⟩
  simp only [blankRanges, List.mem_cons, List.not_mem_nil, or_false] at hr
  rcases hr with
    rfl | rfl | rfl | rfl | rfl | rfl | rfl | rfl | rfl | rfl <;> omega

namespace Integer

theorem isMargin_of_isDigit {c : Char} (h : c.isDigit = true) :
    isMargin c = false := by
  unfold isMargin
  rw [isBlank_of_isDigit h, Bool.false_and]

theorem wellSpaced_of_isDigit {t : Text} (hne : t ≠ [])
    (h : ∀ c ∈ t, c.isDigit = true) :
    wellSpaced t = true := by
  induction t with
  | nil => exact absurd rfl hne
  | cons c rest ih =>
      have hc : (c == '_') = false :=
        beq_eq_false_iff_ne.mpr (ne_of_isDigit (h c List.mem_cons_self) rfl)
      cases rest with
      | nil =>
          unfold wellSpaced
          exact bne_iff_ne.mpr (beq_eq_false_iff_ne.mp hc)
      | cons d rest =>
          unfold wellSpaced
          rw [hc, ih (List.cons_ne_nil d rest) fun x hx => h x
            (List.mem_cons_of_mem c hx)]
          rfl

theorem valueOf_of_isDigit {t : Text} (h : ∀ c ∈ t, c.isDigit = true) :
    valueOf t = Nat.ofDigitChars 10 t 0 := by
  unfold valueOf
  rw [Nat.ofDigitChars_eq_foldl]
  generalize 0 = n
  induction t generalizing n with
  | nil => rfl
  | cons c rest ih =>
      rw [List.foldl_cons, List.foldl_cons,
        digitValue?_of_isDigit (h c List.mem_cons_self)]
      exact ih (fun d hd => h d (List.mem_cons_of_mem c hd)) _

theorem read_of_isDigit {t : Text} (hne : t ≠ [])
    (h : ∀ c ∈ t, c.isDigit = true) (hlength : t.length ≤ maxDigits) :
    read t = .ok (Nat.ofDigitChars 10 t 0 : Nat) := by
  have htake :
      (t.takeWhile fun c => (digitValue? c).isSome || c == '_') = t := by
    have hall : ∀ c ∈ t, ((digitValue? c).isSome || c == '_') = true := by
      intro c hc
      rw [digitValue?_of_isDigit (h c hc)]
      rfl
    have htaken :
        (t ++ []).takeWhile (fun c => (digitValue? c).isSome || c == '_') =
        t ++ [].takeWhile _ := List.takeWhile_append_of_pos hall
    rwa [List.append_nil, List.takeWhile_nil, List.append_nil] at htaken
  have hfilter : t.filter (· != '_') = t := by
    rw [List.filter_eq_self]
    intro c hc
    exact bne_iff_ne.mpr (ne_of_isDigit (h c hc) rfl)
  have hnat : readNat t = .ok (Nat.ofDigitChars 10 t 0) := by
    unfold readNat
    rw [htake]
    dsimp only
    rw [hfilter, wellSpaced_of_isDigit hne h, valueOf_of_isDigit h,
      List.drop_length, if_neg (Nat.not_lt.mpr hlength), if_neg]
    · rfl
    · cases t with
      | nil => exact absurd rfl hne
      | cons c rest =>
          simpa using ne_of_isDigit (h c List.mem_cons_self) (d := '_') rfl
  cases t with
  | nil => exact absurd rfl hne
  | cons c rest =>
      have hc := h c List.mem_cons_self
      unfold read
      rw [List.dropWhile_cons_of_neg
        (by rw [isMargin_of_isDigit hc]; exact Bool.false_ne_true)]
      split
      · next heq => exact absurd (List.cons.inj heq).1 (ne_of_isDigit hc rfl)
      · next heq => exact absurd (List.cons.inj heq).1 (ne_of_isDigit hc rfl)
      · rw [hnat]
        rfl

theorem isDigit_of_mem_digits {n : Nat} {c : Char} (h : c ∈ digits n) :
    c.isDigit = true :=
  Nat.isDigit_of_mem_toDigits (by decide) (by decide) h

theorem length_digits_le {n : Nat} (h : n ≤ maxDigits) :
    (digits n).length ≤ maxDigits :=
  (Nat.length_toDigits_le_iff (by decide) (by decide)).mpr
    (Nat.lt_of_le_of_lt h (Nat.lt_pow_self (by decide)))

theorem read_digits {n : Nat} (h : (digits n).length ≤ maxDigits) :
    read (digits n) = .ok (n : Int) := by
  have hread :=
    read_of_isDigit Nat.toDigits_ne_nil (fun _ => isDigit_of_mem_digits) h
  rw [Nat.ofDigitChars_ten_toDigits] at hread
  exact hread

end Integer
end InlineCompletion
