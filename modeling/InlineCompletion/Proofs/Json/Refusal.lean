import InlineCompletion.Json.Reader

/-!
# Refused texts

What a reader leaves is an end of the text that it reads.  The main statement is
that a text is refused for a reason: an integer in it has too many digits, or
more arrays and objects begin in it than may stand inside one another.
-/

namespace InlineCompletion
namespace Json

/-- How many arrays and objects begin in a text at most. -/
def brackets (t : Text) : Nat := t.countP fun c => c == '[' || c == '{'

/-- Whether a text gives reason for an error where so many arrays and objects
may stand inside one another. -/
def ReadError.Earned (room : Nat) (t : Text) : ReadError → Prop
  | .malformed => True
  | .tooLong n =>
      Integer.maxDigits < n ∧ ∃ ds, ds <:+: t ∧ ds.length = n ∧
        ∀ c ∈ ds, isDigit c = true
  | .tooDeep => room < brackets t

/-- Whether a result of reading a text leaves an end of it, or is an error with
a reason. -/
def Reads {α : Type} (room : Nat) (t : Text) :
    Except ReadError (α × Text) → Prop
  | .ok r => r.2 <:+ t
  | .error e => e.Earned room t

theorem brackets_le {s t : Text} (h : s <:+ t) : brackets s ≤ brackets t :=
  h.sublist.countP_le

theorem brackets_cons {c : Char} (hc : c = '[' ∨ c = '{') (t : Text) :
    brackets (c :: t) = brackets t + 1 := by
  refine List.countP_cons_of_pos ?_
  rcases hc with rfl | rfl
  · rfl
  · rfl

theorem ReadError.Earned.of_suffix {room : Nat} {s t : Text} (hsuffix : s <:+ t)
    {e : ReadError} (h : e.Earned room s) : e.Earned room t := by
  cases e with
  | malformed => exact trivial
  | tooLong n =>
      rcases h with ⟨hmany, ds, hds, hlength, hdigits⟩
      exact ⟨hmany, ds, hds.trans hsuffix.isInfix, hlength, hdigits⟩
  | tooDeep => exact Nat.lt_of_lt_of_le h (brackets_le hsuffix)

theorem ReadError.Earned.nest {room : Nat} {t : Text} {c : Char}
    (hc : c = '[' ∨ c = '{') {e : ReadError} (h : e.Earned (room - 1) t) :
    e.Earned room (c :: t) := by
  cases e with
  | malformed => exact trivial
  | tooLong n => exact ReadError.Earned.of_suffix (List.suffix_cons c t) h
  | tooDeep =>
      have hbracket := brackets_cons hc t
      have hinside : room - 1 < brackets t := h
      show room < brackets (c :: t)
      omega

namespace Reads

variable {α β : Type} {room : Nat} {t : Text}

theorem of_suffix {s : Text} (hsuffix : s <:+ t)
    {r : Except ReadError (α × Text)} (h : Reads room s r) :
    Reads room t r := by
  cases r with
  | ok r => exact List.IsSuffix.trans h hsuffix
  | error e => exact ReadError.Earned.of_suffix hsuffix h

theorem bind {r : Except ReadError (α × Text)} (h : Reads room t r)
    {f : α × Text → Except ReadError (β × Text)}
    (hf : ∀ a rest, Reads room rest (f (a, rest))) :
    Reads room t (r >>= f) := by
  cases r with
  | ok r => exact (hf r.1 r.2).of_suffix h
  | error e => exact h

theorem nest {c : Char} (hc : c = '[' ∨ c = '{')
    {r : Except ReadError (α × Text)} (h : Reads (room - 1) t r) :
    Reads room (c :: t) r := by
  cases r with
  | ok r => exact List.IsSuffix.trans h (List.suffix_cons c t)
  | error e => exact ReadError.Earned.nest hc h

end Reads

/-!
# Strings, numbers and words
-/

theorem skipGap_suffix (t : Text) : skipGap t <:+ t := List.dropWhile_suffix _

theorem readPoints_suffix {high : Option Nat} {t rest : Text} {ps : List Point}
    (h : readPoints high t = some (ps, rest)) : rest <:+ t := by
  fun_induction readPoints high t generalizing ps with
  | case1 | case3 | case4 | case8 | case9 | case11 => cases h
  | case2 =>
      cases h
      exact List.suffix_cons _ _
  | case5 | case6 | case7 =>
      rename_i ih
      rcases Option.map_eq_some_iff.mp h with ⟨r, hr, heq⟩
      cases heq
      exact (ih hr).trans (List.suffix_append [_, _, _, _, _, _] _)
  | case10 =>
      rename_i ih
      rcases Option.map_eq_some_iff.mp h with ⟨r, hr, heq⟩
      cases heq
      exact (ih hr).trans (List.suffix_append [_, _] _)
  | case12 =>
      rename_i ih
      rcases Option.map_eq_some_iff.mp h with ⟨r, hr, heq⟩
      cases heq
      exact (ih hr).trans (List.suffix_cons _ _)

theorem reads_string (room : Nat) (t : Text) : Reads room t (readString t) := by
  unfold readString
  cases h : readPoints none t with
  | none => exact trivial
  | some r => exact readPoints_suffix h

theorem readWhole_append (t : Text) :
    (readWhole t).1 ++ (readWhole t).2 = t := by
  unfold readWhole
  split
  · rfl
  · exact List.takeWhile_append_dropWhile

theorem isDigit_of_mem_readWhole {t : Text} {c : Char}
    (h : c ∈ (readWhole t).1) :
    isDigit c = true := by
  unfold readWhole at h
  split at h
  · rw [List.mem_singleton.mp h]
    rfl
  · exact List.all_eq_true.mp List.all_takeWhile c h

theorem readFraction_suffix (t : Text) : (readFraction t).2 <:+ t := by
  unfold readFraction
  split
  · dsimp only
    split
    · exact List.suffix_refl _
    · exact (List.dropWhile_suffix _).trans (List.suffix_cons _ _)
  · exact List.suffix_refl _

theorem readExponent_suffix (t : Text) : (readExponent t).2 <:+ t := by
  unfold readExponent
  split
  · next e rest =>
    split
    · split
      next negative digits hsign =>
      have hdigits : digits <:+ rest := by
        split at hsign
        · cases hsign
          exact List.suffix_cons _ _
        · cases hsign
          exact List.suffix_cons _ _
        · cases hsign
          exact List.suffix_refl _
      dsimp only
      split
      · exact List.suffix_refl _
      · exact ((List.dropWhile_suffix _).trans hdigits).trans
          (List.suffix_cons _ _)
    · exact List.suffix_refl _
  · exact List.suffix_refl _

theorem reads_magnitude (room : Nat) (negative : Bool) (t : Text) :
    Reads room t (readMagnitude negative t) := by
  have hwhole := readWhole_append t
  have hrest : (readWhole t).2 <:+ t := ⟨_, hwhole⟩
  have hfraction := readFraction_suffix (readWhole t).2
  have hexponent := readExponent_suffix (readFraction (readWhole t).2).2
  unfold readMagnitude
  dsimp only
  split
  · exact trivial
  · split
    · split
      · next hmany =>
          exact ⟨hmany, (readWhole t).1, ⟨[], (readWhole t).2, hwhole⟩, rfl,
            fun _ => isDigit_of_mem_readWhole⟩
      · exact (hexponent.trans hfraction).trans hrest
    · exact (hexponent.trans hfraction).trans hrest

theorem reads_word (room : Nat) (word : Text) (value : Json) (t : Text) :
    Reads room t (readWord word value t) := by
  unfold readWord
  split
  · exact List.drop_suffix _ _
  · exact trivial

theorem reads_plain (room : Nat) (t : Text) : Reads room t (readPlain t) := by
  unfold readPlain
  split
  · exact reads_word ..
  · exact reads_word ..
  · exact reads_word ..
  · exact reads_word ..
  · exact reads_word ..
  · exact reads_word ..
  · exact (reads_magnitude room true _).of_suffix (List.suffix_cons _ _)
  · exact reads_magnitude room false _

/-!
# Values
-/

namespace Reads

variable {α : Type} {room : Nat} {t : Text} {r : Except ReadError (α × Text)}

theorem behind_gap (h : Reads room (skipGap t) r) : Reads room t r :=
  h.of_suffix (skipGap_suffix t)

theorem closed {c : Char} {rest : Text} (heq : t = c :: rest) (a : α) :
    Reads room t (.ok (a, rest)) := by
  rw [heq]
  exact List.suffix_cons c rest

theorem behind_mark {c : Char} {rest : Text} (heq : t = c :: rest)
    (h : Reads room (skipGap rest) r) : Reads room t r := by
  rw [heq]
  exact h.behind_gap.of_suffix (List.suffix_cons c rest)

theorem opened {c : Char} (hc : c = '[' ∨ c = '{')
    (h : Reads (room - 1) (skipGap t) r) :
    Reads room (c :: t) (if room = 0 then .error .tooDeep else r) := by
  split
  · next hroom =>
    show room < brackets (c :: t)
    rw [hroom, brackets_cons hc]
    exact Nat.succ_pos _
  · exact h.behind_gap.nest hc

end Reads

/-- Whether reading a value, items or members, in so many steps, leaves an end
or has a reason to fail. -/
structure ReadsWithin (steps : Nat) : Prop where
  value (room : Nat) (t : Text) : Reads room t (readValue steps room t)
  items (room : Nat) (t : Text) : Reads room t (readItems steps room t)
  members (room : Nat) (before : Members) (t : Text) :
    Reads room t (readMembers steps room before t)

namespace ReadsWithin

theorem zero : ReadsWithin 0 where
  value room t := by
    rw [readValue]
    exact trivial
  items room t := by
    rw [readItems]
    exact trivial
  members room before t := by
    rw [readMembers]
    exact trivial

variable {steps : Nat} (h : ReadsWithin steps)
include h

theorem value_succ (room : Nat) (t : Text) :
    Reads room t (readValue (steps + 1) room t) := by
  rw [readValue.eq_def]
  dsimp only
  split
  · next rest =>
    refine .of_suffix (List.suffix_cons _ rest)
      (.bind (reads_string room rest) ?_)
    exact fun _ rest => List.suffix_refl rest
  · refine .opened (Or.inl rfl) ?_
    split
    · next heq => exact .closed heq _
    · refine .bind (h.items (room - 1) _) ?_
      exact fun _ rest => List.suffix_refl rest
  · refine .opened (Or.inr rfl) ?_
    split
    · next heq => exact .closed heq _
    · refine .bind (h.members (room - 1) [] _) ?_
      exact fun _ rest => List.suffix_refl rest
  · exact reads_plain room t

theorem items_succ (room : Nat) (t : Text) :
    Reads room t (readItems (steps + 1) room t) := by
  rw [readItems.eq_def]
  dsimp only
  refine .bind (h.value room t) ?_
  intro v rest
  refine .behind_gap ?_
  dsimp only
  split
  · next heq => exact .closed heq _
  · next heq =>
    refine .behind_mark heq (.bind (h.items room _) ?_)
    exact fun _ rest => List.suffix_refl rest
  · exact trivial

theorem members_succ (room : Nat) (before : Members) (t : Text) :
    Reads room t (readMembers (steps + 1) room before t) := by
  rw [readMembers.eq_def]
  dsimp only
  split
  · next rest =>
    refine .of_suffix (List.suffix_cons _ rest)
      (.bind (reads_string room rest) ?_)
    intro k rest
    refine .behind_gap ?_
    dsimp only
    split
    · next heq =>
      refine .behind_mark heq (.bind (h.value room _) ?_)
      intro v rest
      refine .behind_gap ?_
      dsimp only
      split
      · next heq => exact .closed heq _
      · next heq => exact .behind_mark heq (h.members room _ _)
      · exact trivial
    · exact trivial
  · exact trivial

theorem succ : ReadsWithin (steps + 1) :=
  ⟨h.value_succ, h.items_succ, h.members_succ⟩

end ReadsWithin

theorem readsWithin (steps : Nat) : ReadsWithin steps := by
  induction steps with
  | zero => exact .zero
  | succ steps ih => exact ih.succ

/-- A text is refused for a reason. -/
theorem read_earned {room : Nat} {t : Text} {e : ReadError}
    (h : read room t = .error e) :
    e.Earned room t := by
  have hvalue := (readsWithin (enoughSteps t)).value room (skipGap t)
  unfold read at h
  cases hr : readValue (enoughSteps t) room (skipGap t) with
  | error e' =>
      rw [hr] at h hvalue
      cases h
      exact ReadError.Earned.of_suffix (skipGap_suffix t) hvalue
  | ok r =>
      rw [hr] at h
      replace h :
          (if (skipGap r.2).isEmpty then Except.ok r.1 else .error .malformed) =
          .error e := h
      split at h
      · cases h
      · cases h
        exact trivial

end Json
end InlineCompletion
