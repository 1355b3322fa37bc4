import InlineCompletion.Text.Position

/-!
# Positions by the protocol's rule

The protocol counts a position's line by the line ends before it and its column
by the UTF-16 units behind the last of them.  The main statements are that the
position of an offset follows this rule, that later offsets have later
positions, and that both ways of finding an offset, the protocol's search and
the walk down the lines, undo the position of an offset.
-/

namespace InlineCompletion
namespace Position

/-!
# Lines and columns

Both coordinates of a position depend on the text before it only.
-/

def lastLine : Text → Text
  | [] => []
  | c :: rest => if c = '\n' ∨ '\n' ∈ rest then lastLine rest else c :: rest

theorem lastLine_of_not_mem {t : Text} (h : '\n' ∉ t) : lastLine t = t := by
  cases t with
  | nil => rfl
  | cons c rest =>
      have hc : c ≠ '\n' := by
        intro hc
        exact h (by simp [hc])
      have hrest : '\n' ∉ rest := by
        intro hrest
        exact h (List.mem_cons_of_mem c hrest)
      simp [lastLine, hc, hrest]

theorem lastLine_cons_of_mem {c : Char} {rest : Text} (h : '\n' ∈ rest) :
    lastLine (c :: rest) = lastLine rest := by
  simp [lastLine, h]

theorem lastLine_newline_cons (rest : Text) :
    lastLine ('\n' :: rest) = lastLine rest := by
  simp [lastLine]

theorem behind_line (p : Position) (t : Text) :
    (p.behind t).line = p.line + t.count '\n' := by
  induction t generalizing p with
  | nil => simp
  | cons c rest ih =>
      rw [behind_cons, ih]
      by_cases hc : c = '\n'
      · subst hc
        simp only [advance, if_true, List.count_cons_self]
        omega
      · simp [advance, hc]

theorem behind_character_of_not_mem (p : Position) {t : Text} (h : '\n' ∉ t) :
    (p.behind t).character = p.character + Units.length t := by
  induction t generalizing p with
  | nil => simp
  | cons c rest ih =>
      have hc : c ≠ '\n' := by
        intro hc
        exact h (by simp [hc])
      have hrest : '\n' ∉ rest := by
        intro hrest
        exact h (List.mem_cons_of_mem c hrest)
      rw [behind_cons, ih (p.advance c) hrest]
      simp only [advance, hc, if_false, Units.length_cons]
      omega

theorem behind_character_of_mem (p : Position) {t : Text} (h : '\n' ∈ t) :
    (p.behind t).character = Units.length (lastLine t) := by
  induction t generalizing p with
  | nil => cases h
  | cons c rest ih =>
      rw [behind_cons]
      by_cases hrest : '\n' ∈ rest
      · rw [ih (p.advance c) hrest, lastLine_cons_of_mem hrest]
      · have hc : c = '\n' := by
          rcases List.mem_cons.mp h with hc | hmem
          · exact hc.symm
          · exact absurd hmem hrest
        subst hc
        rw [behind_character_of_not_mem _ hrest, lastLine_newline_cons,
          lastLine_of_not_mem hrest]
        simp [advance]

theorem behind_origin_character (t : Text) :
    (origin.behind t).character = Units.length (lastLine t) := by
  by_cases h : '\n' ∈ t
  · exact behind_character_of_mem origin h
  · rw [behind_character_of_not_mem origin h, lastLine_of_not_mem h]
    simp [origin]

/-!
# Order

Positions are compared by their lines and then by their columns.
-/

/-- Whether a position comes before another. -/
def Before (p q : Position) : Prop :=
  p.line < q.line ∨ (p.line = q.line ∧ p.character < q.character)

theorem Before.trans {p q r : Position} (hpq : p.Before q) (hqr : q.Before r) :
    p.Before r := by
  unfold Before at *
  omega

theorem Before.ne {p q : Position} (h : p.Before q) : p ≠ q := by
  intro heq
  subst heq
  unfold Before at h
  omega

theorem before_advance (p : Position) (c : Char) : p.Before (p.advance c) := by
  have hwidth := Units.one_le_width c
  unfold Before advance
  split
  · left
    show p.line < p.line + 1
    omega
  · right
    constructor
    · rfl
    · show p.character < p.character + (Units.width c : Int)
      omega

theorem before_behind_cons (p : Position) (c : Char) (rest : Text) :
    p.Before (p.behind (c :: rest)) := by
  induction rest generalizing p c with
  | nil => exact before_advance p c
  | cons d rest ih => exact (before_advance p c).trans (ih (p.advance c) d)

theorem ofOffset_natCast (t : Text) (o : Nat) :
    ofOffset t o = origin.behind (t.take o) := by
  simp [ofOffset]

theorem ofOffset_before {t : Text} {o q : Nat} (hoq : o < q)
    (hq : q ≤ t.length) :
    (ofOffset t o).Before (ofOffset t q) := by
  have hsplit : t.take q = t.take o ++ (t.drop o).take (q - o) := by
    have h := List.take_add (l := t) (i := o) (j := q - o)
    rwa [show o + (q - o) = q by omega] at h
  have hlength : ((t.drop o).take (q - o)).length = q - o := by
    simp only [List.length_take, List.length_drop]
    omega
  rw [ofOffset_natCast, ofOffset_natCast, hsplit, behind_append]
  cases hrest : (t.drop o).take (q - o) with
  | nil =>
      rw [hrest] at hlength
      simp at hlength
      omega
  | cons c rest => exact before_behind_cons _ c rest

/-!
# The protocol's search

A position addresses the offset before which as many lines end as its line says,
and behind whose last line end as many units stand as its column says.  There
may be none: a column inside a code point or behind the end of its line
addresses nothing.
-/

def addresses (t : Text) (p : Position) (o : Nat) : Bool :=
  p.line == ((t.take o).count '\n' : Int) &&
    p.character == (Units.length (lastLine (t.take o)) : Int)

def find? (t : Text) (p : Position) : Option Nat :=
  (List.range (t.length + 1)).find? (addresses t p)

theorem addresses_iff {t : Text} {p : Position} {o : Nat} :
    addresses t p o = true ↔ ofOffset t o = p := by
  have hline := behind_line origin (t.take o)
  have hcharacter := behind_origin_character (t.take o)
  rw [ofOffset_natCast]
  cases p with
  | mk line character =>
      cases hp : origin.behind (t.take o) with
      | mk l c =>
          rw [hp] at hline hcharacter
          simp only [origin] at hline hcharacter
          simp only [addresses, Bool.and_eq_true, beq_iff_eq, Position.mk.injEq]
          omega

theorem find?_ofOffset {t : Text} {o : Nat} (h : o ≤ t.length) :
    find? t (ofOffset t o) = some o := by
  unfold find?
  rw [List.find?_range_eq_some]
  refine ⟨addresses_iff.mpr rfl, by simp; omega, ?_⟩
  intro q hq
  have hne : ofOffset t q ≠ ofOffset t o := (ofOffset_before hq h).ne
  rw [Bool.not_eq_true', Bool.eq_false_iff]
  intro haddresses
  exact hne (addresses_iff.mp haddresses)

/-!
# The walk down the lines

The walk passes the line ends that the line asks for and then the units that the
column asks for.
-/

theorem offsetOn_behind (s t : Text) :
    offsetOn (s ++ t) (s.count '\n') (Units.length (lastLine s)) =
      s.length := by
  induction s with
  | nil =>
      cases t with
      | nil => rfl
      | cons c rest =>
          have hwidth : Units.width c ≠ 0 := by
            have hone := Units.one_le_width c
            omega
          simp [offsetOn, lastLine, hwidth]
  | cons c s ih =>
      by_cases hc : c = '\n'
      · subst hc
        rw [List.count_cons_self, lastLine_newline_cons, List.cons_append,
          offsetOn, if_pos rfl, ih, List.length_cons, Nat.add_comm]
      · have hcount : (c :: s).count '\n' = s.count '\n' := by
          simp [hc]
        rw [hcount, List.cons_append]
        by_cases hs : '\n' ∈ s
        · cases hn : s.count '\n' with
          | zero =>
              exact absurd hs (List.count_eq_zero.mp hn)
          | succ n =>
              rw [hn] at ih
              rw [lastLine_cons_of_mem hs, offsetOn, if_neg hc, ih,
                List.length_cons, Nat.add_comm]
        · have hcons : '\n' ∉ c :: s := by
            intro hmem
            rcases List.mem_cons.mp hmem with heq | hmem
            · exact hc heq.symm
            · exact hs hmem
          rw [List.count_eq_zero.mpr hs, lastLine_of_not_mem hs] at ih
          have hfits :
              (Units.width c : Int) ≤
                ((Units.length (c :: s) : Nat) : Int) := by
            rw [Units.length_cons]
            omega
          have hleft :
              ((Units.length (c :: s) : Nat) : Int) - Units.width c =
                Units.length s := by
            rw [Units.length_cons]
            omega
          rw [List.count_eq_zero.mpr hs, lastLine_of_not_mem hcons, offsetOn,
            if_neg hc, if_pos hfits, hleft, ih, List.length_cons, Nat.add_comm]

theorem toOffset_ofOffset {t : Text} {o : Nat} (h : o ≤ t.length) :
    toOffset t (ofOffset t o) = o := by
  have hline := behind_line origin (t.take o)
  have hcharacter := behind_origin_character (t.take o)
  have hwalk := offsetOn_behind (t.take o) (t.drop o)
  rw [List.take_append_drop, List.length_take, Nat.min_eq_left h] at hwalk
  rw [ofOffset_natCast]
  have horigin : origin.line = 0 := rfl
  rw [horigin] at hline
  have hnonneg : ¬ (origin.behind (t.take o)).line < 0 := by omega
  have htoNat :
      (origin.behind (t.take o)).line.toNat = (t.take o).count '\n' := by omega
  rw [toOffset, if_neg hnonneg, htoNat, hcharacter, hwalk]

end Position
end InlineCompletion
