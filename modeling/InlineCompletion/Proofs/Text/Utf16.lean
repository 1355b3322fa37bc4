import InlineCompletion.Proofs.Text.Units

/-!
# UTF-16

A text is written in UTF-16 one code point after the other: a code point of the
basic plane as itself, and every other as a surrogate pair, an upper and a lower
half.  No code point of a text is such a half, so the pairs that stand in what
is written are those of its code points.  The main statement is that an offset
in units means the last offset in code points that no more units stand before,
and which units stand before that one.
-/

namespace InlineCompletion
namespace Units

/-!
# Units that are written
-/

def ofChar (c : Char) : List UInt16 :=
  if c.toNat < 0x10000 then [UInt16.ofNat c.toNat]
  else
    [UInt16.ofNat (0xD800 + (c.toNat - 0x10000) / 0x400),
      UInt16.ofNat (0xDC00 + (c.toNat - 0x10000) % 0x400)]

def encode (t : Text) : List UInt16 := t.flatMap ofChar

def IsUpper (unit : UInt16) : Prop := 0xD800 ≤ unit.toNat ∧ unit.toNat < 0xDC00

def IsLower (unit : UInt16) : Prop := 0xDC00 ≤ unit.toNat ∧ unit.toNat < 0xE000

instance (unit : UInt16) : Decidable (IsUpper unit) :=
  inferInstanceAs (Decidable (_ ∧ _))

instance (unit : UInt16) : Decidable (IsLower unit) :=
  inferInstanceAs (Decidable (_ ∧ _))

theorem IsLower.not_isUpper {unit : UInt16} (h : IsLower unit) :
    ¬ IsUpper unit :=
  fun hupper => Nat.not_lt_of_le h.1 hupper.2

@[simp] theorem encode_cons (c : Char) (rest : Text) :
    encode (c :: rest) = ofChar c ++ encode rest := rfl

@[simp] theorem encode_append (s t : Text) :
    encode (s ++ t) = encode s ++ encode t :=
  List.flatMap_append

theorem ofChar_of_width_one {c : Char} (h : width c = 1) :
    ∃ unit, ofChar c = [unit] ∧ ¬ IsUpper unit := by
  have hvalid : c.toNat < 0xD800 ∨ 0xDFFF < c.toNat ∧ c.toNat < 0x110000 :=
    c.valid
  have hbasic : c.toNat < 0x10000 := by
    unfold width at h
    split at h <;> omega
  refine ⟨_, if_pos hbasic, ?_⟩
  unfold IsUpper
  rw [UInt16.toNat_ofNat']
  omega

theorem ofChar_of_width_two {c : Char} (h : width c = 2) :
    ∃ upper lower, ofChar c = [upper, lower] ∧ IsUpper upper ∧
      IsLower lower := by
  have hvalid : c.toNat < 0xD800 ∨ 0xDFFF < c.toNat ∧ c.toNat < 0x110000 :=
    c.valid
  have hbeyond : ¬ c.toNat < 0x10000 := by
    unfold width at h
    split at h <;> omega
  refine ⟨_, _, if_neg hbeyond, ?_, ?_⟩
  · unfold IsUpper
    rw [UInt16.toNat_ofNat']
    omega
  · unfold IsLower
    rw [UInt16.toNat_ofNat']
    omega

theorem width_cases (c : Char) : width c = 1 ∨ width c = 2 := by
  have hleast := one_le_width c
  have hmost := width_le_two c
  omega

theorem length_ofChar (c : Char) : (ofChar c).length = width c := by
  rcases width_cases c with hone | htwo
  · rcases ofChar_of_width_one hone with ⟨unit, hunits, _⟩
    rw [hunits, hone]
    rfl
  · rcases ofChar_of_width_two htwo with ⟨upper, lower, hunits, _, _⟩
    rw [hunits, htwo]
    rfl

theorem length_encode (t : Text) : (encode t).length = length t := by
  induction t with
  | nil => rfl
  | cons c rest ih =>
      rw [encode_cons, List.length_append, length_ofChar, ih, length_cons]

/-!
# Offsets inside pairs
-/

/-- Whether an offset in units is between the halves of a surrogate pair. -/
def InsidePair (t : Text) (units : Nat) : Prop :=
  ∃ before upper lower behind, encode t = before ++ upper :: lower :: behind ∧
    IsUpper upper ∧ IsLower lower ∧ units = before.length + 1

/-- Every pair that stands in what is written is that of a code point.  The
induction is on the text: a pair begins with the first code point's units or
behind them, as a lower half begins none. -/
theorem exists_char_of_pair {t : Text} {before behind : List UInt16}
    {upper lower : UInt16} (h : encode t = before ++ upper :: lower :: behind)
    (hupper : IsUpper upper) :
    ∃ s c rest, t = s ++ c :: rest ∧ width c = 2 ∧
      length s = before.length := by
  induction t generalizing before with
  | nil =>
      exact absurd h.symm
        (List.append_ne_nil_of_right_ne_nil _ (List.cons_ne_nil _ _))
  | cons c rest ih =>
      rw [encode_cons] at h
      have hbehind {more : List UInt16} (hbefore : before = ofChar c ++ more)
          (hmore : encode rest = more ++ upper :: lower :: behind) :
          ∃ s d r, c :: rest = s ++ d :: r ∧ width d = 2 ∧
            length s = before.length := by
        rcases ih hmore with ⟨s, d, r, hsplit, hwidth, hlength⟩
        refine ⟨c :: s, d, r, by rw [hsplit]; rfl, hwidth, ?_⟩
        rw [hbefore, List.length_append, length_ofChar, length_cons, hlength]
      rcases width_cases c with hone | htwo
      · rcases ofChar_of_width_one hone with ⟨unit, hunits, hnot⟩
        rw [hunits] at h
        cases before with
        | nil =>
            rw [(List.cons.inj h).1] at hnot
            exact absurd hupper hnot
        | cons first more =>
            rcases List.cons.inj h with ⟨hfirst, hmore⟩
            exact hbehind (by rw [hunits, hfirst]; rfl) hmore
      · rcases ofChar_of_width_two htwo with ⟨high, low, hunits, _, hlow⟩
        rw [hunits] at h
        cases before with
        | nil => exact ⟨[], c, rest, rfl, htwo, rfl⟩
        | cons first more =>
            rcases List.cons.inj h with ⟨hfirst, hmore⟩
            cases more with
            | nil =>
                rw [(List.cons.inj hmore).1] at hlow
                exact absurd hupper hlow.not_isUpper
            | cons second more =>
                rcases List.cons.inj hmore with ⟨hsecond, hmore⟩
                exact hbehind (by rw [hunits, hfirst, hsecond]; rfl) hmore

theorem insidePair_iff {t : Text} {units : Nat} :
    InsidePair t units ↔
      ∃ s c rest, t = s ++ c :: rest ∧ width c = 2 ∧ units = length s + 1 := by
  constructor
  · rintro ⟨before, upper, lower, behind, h, hupper, _, hunits⟩
    rcases exists_char_of_pair h hupper with
      ⟨s, c, rest, hsplit, hwidth, hlength⟩
    exact ⟨s, c, rest, hsplit, hwidth, by rw [hunits, hlength]⟩
  · rintro ⟨s, c, rest, hsplit, hwidth, hunits⟩
    rcases ofChar_of_width_two hwidth with ⟨upper, lower, hpair, hupper, hlower⟩
    refine ⟨encode s, upper, lower, encode rest, ?_, hupper, hlower, ?_⟩
    · rw [hsplit, encode_append, encode_cons, hpair]
      rfl
    · rw [hunits, length_encode]

/-!
# The offset that an offset in units means
-/

theorem before_cons_succ (c : Char) (rest : Text) (n : Nat) :
    before (c :: rest) (n + 1 : Nat) = width c + before rest n := rfl

theorem before_le_iff {t : Text} {i : Nat} (hi : i ≤ t.length) {units : Int}
    (hunits : 0 ≤ units) :
    (before t i : Int) ≤ units ↔ i ≤ indexAt t units := by
  induction t generalizing i units with
  | nil =>
      obtain rfl : i = 0 := Nat.le_zero.mp hi
      exact iff_of_true hunits (Nat.le_refl 0)
  | cons c rest ih =>
      cases i with
      | zero => exact iff_of_true hunits (Nat.zero_le _)
      | succ n =>
          rw [before_cons_succ, indexAt]
          by_cases hfits : (width c : Int) ≤ units
          · have hrest :=
              ih (Nat.le_of_succ_le_succ hi) (show 0 ≤ units - width c by omega)
            rw [if_pos hfits]
            omega
          · rw [if_neg hfits]
            omega

theorem before_length (t : Text) : before t t.length = length t := by
  unfold before
  rw [Int.toNat_natCast, List.take_length]

theorem before_behind (s : Text) (c : Char) (rest : Text) :
    before (s ++ c :: rest) (s.length + 1 : Nat) = length s + width c := by
  have h := before_append (s ++ [c]) rest
  rw [List.append_assoc, List.length_append, length_append] at h
  exact h

/-- The offset that is meant is the one of a code point if the units from there
on do not hold the code point. -/
theorem indexAt_eq_length {s rest : Text} {c : Char} {units : Nat}
    (hleast : length s ≤ units) (hmost : units < length s + width c) :
    indexAt (s ++ c :: rest) units = s.length := by
  have hthere : s.length + 1 ≤ (s ++ c :: rest).length := by
    rw [List.length_append, List.length_cons]
    omega
  have hreached :=
    before_le_iff (Nat.le_of_succ_le hthere) (Int.natCast_nonneg units)
  have hpassed := before_le_iff hthere (Int.natCast_nonneg units)
  rw [before_append] at hreached
  rw [before_behind] at hpassed
  omega

/-- The units before the offset that is meant are those asked for, or one less
if the offset is inside a surrogate pair. -/
theorem before_indexAt {t : Text} {units : Nat} (h : units ≤ length t) :
    before t (indexAt t units) = units ∨
      InsidePair t units ∧ before t (indexAt t units) + 1 = units := by
  have hle := indexAt_le_length t units
  have hreached :=
    (before_le_iff hle (Int.natCast_nonneg units)).mpr (Nat.le_refl _)
  rcases Nat.lt_or_eq_of_le hle with hlt | heq
  · have hpassed :=
      before_le_iff (i := indexAt t units + 1) hlt (Int.natCast_nonneg units)
    have hsplit :
        t.take (indexAt t units) ++ t[indexAt t units] ::
          t.drop (indexAt t units + 1) =
        t := by
      rw [← List.drop_eq_getElem_cons hlt, List.take_append_drop]
    have hfront : (t.take (indexAt t units)).length = indexAt t units := by
      rw [List.length_take, Nat.min_eq_left hle]
    have hbefore := before_append (t.take (indexAt t units))
      (t[indexAt t units] :: t.drop (indexAt t units + 1))
    have hbehind := before_behind (t.take (indexAt t units)) t[indexAt t units]
      (t.drop (indexAt t units + 1))
    rw [hsplit, hfront] at hbefore hbehind
    rcases width_cases t[indexAt t units] with hone | htwo
    · omega
    · by_cases hsame : before t (indexAt t units) = units
      · exact Or.inl hsame
      · refine Or.inr ⟨?_, by omega⟩
        rw [insidePair_iff]
        exact ⟨_, _, _, hsplit.symm, htwo, by omega⟩
  · rw [heq, before_length] at hreached ⊢
    omega

/-- The length in units is that of the text in UTF-16.  Offsets in units and in
code points are compared alike: an offset in units means the last offset that no
more units stand before.  So the offset of the place of an offset is that
offset, or the nearest end of the text; and the place of what an offset in units
means is that offset, or one less inside a surrogate pair, or the end of the
text behind it. -/
theorem indexAt_is_floor (t : Text) :
    length t = (encode t).length ∧
      (∀ i units : Nat, i ≤ t.length →
        (before t i ≤ units ↔ i ≤ indexAt t units)) ∧
      (∀ i : Int, (indexAt t (before t i) : Int) = max 0 (min i t.length)) ∧
      (∀ units : Nat, InsidePair t units →
        before t (indexAt t units) = units - 1) ∧
      (∀ units : Nat, length t < units →
        before t (indexAt t units) = length t) ∧
      (∀ units : Nat, units ≤ length t → ¬ InsidePair t units →
        before t (indexAt t units) = units) := by
  refine ⟨(length_encode t).symm, ?_, indexAt_before_clamped t, ?_, ?_, ?_⟩
  · intro i units hi
    rw [← before_le_iff hi (Int.natCast_nonneg units)]
    exact Int.ofNat_le.symm
  · intro units hinside
    rcases insidePair_iff.mp hinside with ⟨s, c, rest, hsplit, hwidth, hunits⟩
    rw [hsplit, indexAt_eq_length (by omega) (by omega), before_append]
    omega
  · intro units hbehind
    have hall := before_le_iff (Nat.le_refl t.length) (Int.natCast_nonneg units)
    rw [before_length] at hall
    have hend : indexAt t units = t.length :=
      Nat.le_antisymm (indexAt_le_length t units) (hall.mp (by omega))
    rw [hend, before_length]
  · intro units hwithin hinside
    rcases before_indexAt hwithin with hsame | ⟨hin, _⟩
    · exact hsame
    · exact absurd hin hinside

/-- A letter, a code point of two units and another letter: before, inside and
behind the pair, and behind the text. -/
theorem indexAt_is_floor_astral :
    let t := "a😀b".toList
    encode t = [0x61, 0xD83D, 0xDE00, 0x62] ∧
      (InsidePair t 2 ∧ before t (indexAt t 2) = 1) ∧
      (length t < 9 ∧ before t (indexAt t 9) = 4) ∧
      (1 ≤ t.length ∧ (before t 1 ≤ 2 ↔ 1 ≤ indexAt t 2)) ∧
      (3 ≤ length t ∧ ¬ InsidePair t 3 ∧ before t (indexAt t 3) = 3) := by
  intro t
  have hencode : encode t = [0x61, 0xD83D, 0xDE00, 0x62] := by decide
  have hinside : InsidePair t 2 :=
    ⟨[0x61], 0xD83D, 0xDE00, [0x62], hencode, by decide, by decide, rfl⟩
  have hnot : ¬ InsidePair t 3 := by
    rintro ⟨before, upper, lower, behind, h, hupper, hlower, hunits⟩
    match before, hunits with
    | [x, y], _ =>
        rw [hencode] at h
        cases h
        exact absurd hupper (by decide)
  rcases indexAt_is_floor t with ⟨_, hcompare, _, hpair, hend, hplace⟩
  exact ⟨hencode, ⟨hinside, hpair 2 hinside⟩, ⟨by decide, hend 9 (by decide)⟩,
    ⟨by decide, hcompare 1 2 (by decide)⟩,
    ⟨by decide, hnot, hplace 3 (by decide) hnot⟩⟩

end Units
end InlineCompletion
