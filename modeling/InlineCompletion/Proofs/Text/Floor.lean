import InlineCompletion.Proofs.Text.Position

/-!
# The offset that a position means

A position that no offset has, as its column is inside a code point or behind
the end of its line, or its line behind the last, means the last offset whose
position is not behind it.  So offsets and positions are compared alike on both
sides.  The main statement is that the walk down the lines finds this offset,
and which offset it finds for coordinates that are negative.
-/

namespace InlineCompletion
namespace Position

/-!
# Positions that are not behind others
-/

/-- Whether a position is not behind another: on a line before, or on the same
line in no later column. -/
def AtMost (p q : Position) : Prop :=
  p.line < q.line ∨ (p.line = q.line ∧ p.character ≤ q.character)

instance (p q : Position) : Decidable (p.AtMost q) :=
  inferInstanceAs (Decidable (_ ∨ _))

instance (p q : Position) : Decidable (p.Before q) :=
  inferInstanceAs (Decidable (_ ∨ _))

theorem Before.not_atMost {p q : Position} (h : p.Before q) : ¬ q.AtMost p := by
  unfold Before at h
  unfold AtMost
  omega

theorem Before.trans_atMost {p q r : Position} (hpq : p.Before q)
    (hqr : q.AtMost r) :
    p.Before r := by
  unfold Before AtMost at *
  omega

theorem atMost_behind (p : Position) (t : Text) : p.AtMost (p.behind t) := by
  cases t with
  | nil => exact Or.inr ⟨rfl, Int.le_refl _⟩
  | cons c rest =>
      have hbefore := before_behind_cons p c rest
      unfold Before at hbefore
      unfold AtMost
      omega

/-- A position that is so many lines on from another, and so many units on from
it or from the start of the line. -/
def onward (p : Position) (line : Nat) (column : Int) : Position :=
  ⟨p.line + line, if line = 0 then p.character + column else column⟩

theorem atMost_onward (p : Position) (line : Nat) {column : Int}
    (hcolumn : 0 ≤ column) :
    p.AtMost (p.onward line column) := by
  unfold AtMost onward
  dsimp only
  split <;> omega

theorem onward_newline (p : Position) (line : Nat) (column : Int) :
    (p.advance '\n').onward line column = p.onward (line + 1) column := by
  unfold onward advance
  simp only [if_true, Position.mk.injEq]
  constructor
  · omega
  · split <;> simp

theorem onward_line (p : Position) {c : Char} (hc : c ≠ '\n') (line : Nat)
    (column : Int) :
    (p.advance c).onward (line + 1) column = p.onward (line + 1) column := by
  simp [onward, advance, hc]

theorem onward_column (p : Position) {c : Char} (hc : c ≠ '\n') (column : Int) :
    (p.advance c).onward 0 (column - Units.width c) = p.onward 0 column := by
  have hsum :
      p.character + Units.width c + (column - Units.width c) =
        p.character + column := by
    omega
  unfold onward advance
  rw [if_neg hc, if_pos rfl, if_pos rfl]
  dsimp only
  rw [hsum]

/-!
# The walk
-/

/-- Of the offsets of a text that stands behind a position, those that the walk
reaches are those whose positions are not behind the one looked for.  The walk
goes by the text, and so does the induction: each code point moves the position
on, and leaves fewer lines or units to be passed. -/
theorem atMost_iff_le_offsetOn {t : Text} {o : Nat} (ho : o ≤ t.length)
    (p : Position) (line : Nat) {column : Int} (hcolumn : 0 ≤ column) :
    (p.behind (t.take o)).AtMost
    (p.onward line column) ↔ o ≤ offsetOn t line column := by
  induction t generalizing o p line column with
  | nil =>
      rw [List.take_nil, behind_nil]
      exact iff_of_true (atMost_onward p line hcolumn) ho
  | cons c rest ih =>
      cases o with
      | zero => exact iff_of_true (atMost_onward p line hcolumn) (Nat.zero_le _)
      | succ o =>
          have hrest : o ≤ rest.length := Nat.le_of_succ_le_succ ho
          have hahead := atMost_behind (p.advance c) (rest.take o)
          rw [List.take_succ_cons, behind_cons]
          cases line with
          | zero =>
              -- nothing behind this code point can be meant if it does not fit
              -- into the column
              have hstop (hstop : (p.onward 0 column).Before (p.advance c)) :
                  ¬ ((p.advance c).behind (rest.take o)).AtMost
                    (p.onward 0 column) :=
                (hstop.trans_atMost hahead).not_atMost
              unfold offsetOn
              by_cases hc : c = '\n'
              · subst hc
                rw [if_pos rfl]
                refine iff_of_false (hstop (Or.inl ?_)) (Nat.not_succ_le_zero o)
                simp only [onward, advance, if_true]
                omega
              · rw [if_neg hc]
                by_cases hwidth : (Units.width c : Int) ≤ column
                · rw [if_pos hwidth, ← onward_column p hc,
                    ih hrest _ 0 (by omega)]
                  omega
                · rw [if_neg hwidth]
                  refine iff_of_false (hstop (Or.inr ?_))
                    (Nat.not_succ_le_zero o)
                  simp [onward, advance, hc]
                  omega
          | succ line =>
              unfold offsetOn
              by_cases hc : c = '\n'
              · subst hc
                rw [if_pos rfl, ← onward_newline, ih hrest _ line hcolumn]
                omega
              · rw [if_neg hc, ← onward_line p hc,
                  ih hrest _ (line + 1) hcolumn]
                omega

theorem offsetOn_negative (t : Text) (line : Nat) {column : Int}
    (hcolumn : column < 0) :
    offsetOn t line column = offsetOn t line 0 := by
  induction t generalizing line with
  | nil => rfl
  | cons c rest ih =>
      cases line with
      | zero =>
          have hwidth := Units.one_le_width c
          unfold offsetOn
          rw [if_neg (show ¬ (Units.width c : Int) ≤ column by omega),
            if_neg (show ¬ (Units.width c : Int) ≤ 0 by omega)]
      | succ line =>
          unfold offsetOn
          rw [ih]

theorem behind_offsetOn_zero {t : Text} {line : Nat}
    (hline : line ≤ t.count '\n') (p : Position) :
    p.behind (t.take (offsetOn t line 0)) = if line = 0 then p else
      ⟨p.line + line, 0⟩ := by
  induction t generalizing line p with
  | nil =>
      have hzero : line = 0 := by simpa using hline
      rw [hzero]
      rfl
  | cons c rest ih =>
      cases line with
      | zero =>
          have hwidth := Units.one_le_width c
          unfold offsetOn
          rw [if_neg (show ¬ (Units.width c : Int) ≤ 0 by omega), ite_self]
          rfl
      | succ line =>
          unfold offsetOn
          rw [Nat.add_comm 1, List.take_succ_cons, behind_cons]
          by_cases hc : c = '\n'
          · subst hc
            rw [List.count_cons_self] at hline
            rw [if_pos rfl, ih (by omega)]
            cases line with
            | zero => simp [advance]
            | succ line =>
                simp [advance]
                omega
          · have hcount : (c :: rest).count '\n' = rest.count '\n' := by
              simp [hc]
            rw [hcount] at hline
            rw [if_neg hc, ih hline]
            simp [advance, hc]

theorem offsetOn_of_count_lt {t : Text} {line : Nat}
    (hline : t.count '\n' < line) (column : Int) :
    offsetOn t line column = t.length := by
  induction t generalizing line with
  | nil => rfl
  | cons c rest ih =>
      cases line with
      | zero => exact absurd hline (Nat.not_lt_zero _)
      | succ line =>
          unfold offsetOn
          rw [List.length_cons, Nat.add_comm rest.length]
          congr 1
          by_cases hc : c = '\n'
          · subst hc
            rw [List.count_cons_self] at hline
            rw [if_pos rfl]
            exact ih (by omega)
          · have hcount : (c :: rest).count '\n' = rest.count '\n' := by
              simp [hc]
            rw [hcount] at hline
            rw [if_neg hc]
            exact ih hline

/-!
# Offsets of positions
-/

theorem toOffset_of_line_nonneg {p : Position} (hline : 0 ≤ p.line) (t : Text) :
    toOffset t p = offsetOn t p.line.toNat p.character :=
  if_neg (Int.not_lt.mpr hline)

theorem toOffset_of_line_neg {p : Position} (hline : p.line < 0) (t : Text) :
    toOffset t p = 0 :=
  if_pos hline

/-- An offset is not behind the one that a position means exactly if its
position is not behind that position. -/
theorem atMost_iff_le_toOffset {t : Text} {o : Nat} (ho : o ≤ t.length)
    {p : Position} (hline : 0 ≤ p.line) (hcharacter : 0 ≤ p.character) :
    (ofOffset t o).AtMost p ↔ o ≤ toOffset t p := by
  have honward : origin.onward p.line.toNat p.character = p := by
    cases p with
    | mk line character =>
        dsimp only at hline ⊢
        simp only [onward, origin, Position.mk.injEq]
        constructor
        · omega
        · split <;> omega
  rw [ofOffset_natCast, toOffset_of_line_nonneg hline,
    ← atMost_iff_le_offsetOn ho origin p.line.toNat hcharacter, honward]

theorem ofOffset_clamped (t : Text) (o : Int) :
    ofOffset t o = ofOffset t (min o.toNat t.length : Nat) := by
  unfold ofOffset
  congr 1
  rw [List.take_eq_take_iff]
  omega

/-- A negative column means the start of its line, or the end of the text if
there is no such line. -/
theorem toOffset_of_character_neg {p : Position} (hline : 0 ≤ p.line)
    (hcharacter : p.character < 0) (t : Text) :
    (p.line ≤ t.count '\n' ∧ ofOffset t (toOffset t p) = ⟨p.line, 0⟩) ∨
      ((t.count '\n' : Int) < p.line ∧ toOffset t p = t.length) := by
  rw [toOffset_of_line_nonneg hline]
  by_cases hthere : p.line ≤ t.count '\n'
  · have hcount : p.line.toNat ≤ t.count '\n' := by omega
    have hstart := behind_offsetOn_zero hcount origin
    refine Or.inl ⟨hthere, ?_⟩
    rw [ofOffset_natCast, offsetOn_negative t _ hcharacter, hstart]
    split
    · simp only [origin, Position.mk.injEq, and_true]
      omega
    · simp only [origin, Position.mk.injEq, and_true]
      omega
  · exact Or.inr ⟨by omega, offsetOn_of_count_lt (by omega) _⟩

/-- Offsets and positions are compared alike: a position means the last offset
whose position is not behind it.  Later offsets have later positions, so that
the offset of the position of an offset is that offset, or the nearest end of
the text.  Every position means an offset within the text: the start of the text
if its line is negative, and the start of its line if its column is. -/
theorem offset_is_floor (t : Text) :
    (∀ o : Nat, o ≤ t.length → ∀ p : Position, 0 ≤ p.line → 0 ≤ p.character →
      ((ofOffset t o).AtMost p ↔ o ≤ toOffset t p)) ∧
    (∀ o q : Nat, o < q → q ≤ t.length → (ofOffset t o).Before (ofOffset t q)) ∧
    (∀ o : Int, (toOffset t (ofOffset t o) : Int) = max 0 (min o t.length)) ∧
    (∀ p : Position, toOffset t p ≤ t.length) ∧
    (∀ p : Position, p.line < 0 → toOffset t p = 0) ∧
    (∀ p : Position, 0 ≤ p.line → p.character < 0 →
      (p.line ≤ t.count '\n' ∧ ofOffset t (toOffset t p) = ⟨p.line, 0⟩) ∨
        ((t.count '\n' : Int) < p.line ∧ toOffset t p = t.length)) := by
  refine ⟨?_, fun o q => ofOffset_before, ?_, toOffset_le_length t, ?_, ?_⟩
  · intro o ho p hline hcharacter
    exact atMost_iff_le_toOffset ho hline hcharacter
  · intro o
    rw [ofOffset_clamped, toOffset_ofOffset (Nat.min_le_right _ _)]
    omega
  · intro p hline
    exact toOffset_of_line_neg hline t
  · intro p hline hcharacter
    exact toOffset_of_character_neg hline hcharacter t

/-- A column inside a code point of two units, the end of the line behind it, a
line before the first, and columns before the start of an empty line and of a
line that is not there. -/
theorem offset_is_floor_within_pair :
    let t : Text := ['a', '😀', '\n', '\n']
    (¬ (ofOffset t 2).AtMost ⟨0, 2⟩ ∧ toOffset t ⟨0, 2⟩ = 1) ∧
      ((ofOffset t 2).AtMost ⟨0, 9⟩ ∧ 2 ≤ toOffset t ⟨0, 9⟩) ∧
      (ofOffset t 2).Before (ofOffset t 3) ∧ toOffset t ⟨-1, 5⟩ = 0 ∧
      ofOffset t (toOffset t ⟨1, -3⟩) = ⟨1, 0⟩ ∧ toOffset t ⟨7, -3⟩ = 4 := by
  intro t
  rcases offset_is_floor t with ⟨hfloor, hrises, _, _, hnegative, hstart⟩
  have hinside := hfloor 2 (by decide) ⟨0, 2⟩ (by decide) (by decide)
  have hbehind := hfloor 2 (by decide) ⟨0, 9⟩ (by decide) (by decide)
  refine ⟨⟨fun h => absurd (hinside.mp h) (by decide), by decide⟩,
    ⟨hbehind.mpr (by decide), by decide⟩, hrises 2 3 (by decide) (by decide),
    hnegative ⟨-1, 5⟩ (by decide), ?_, ?_⟩
  · rcases hstart ⟨1, -3⟩ (by decide) (by decide) with ⟨_, hthere⟩ | ⟨hnone, _⟩
    · exact hthere
    · exact absurd hnone (by decide)
  · rcases hstart ⟨7, -3⟩ (by decide) (by decide) with ⟨hthere, _⟩ | ⟨_, hnone⟩
    · exact absurd hthere (by decide)
    · exact hnone

end Position
end InlineCompletion
