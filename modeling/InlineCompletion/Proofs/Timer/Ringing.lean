import InlineCompletion.Clock

/-!
# Alarms that go off one after the other

As time goes on, alarms go off one after the other, and each may write something
down.  The main statements are that what each of them keeps is kept as all of
them go off, with what is written down then; that the last of so many goes off
behind the others; and that what goes alike for each goes alike for all.
-/

namespace InlineCompletion
namespace Alarm

theorem lt_due_of_nextBy_eq_none {κ : Type} {time : Int}
    {alarms : List (κ × Alarm)} (h : nextBy time alarms = none) {key : κ}
    {a : Alarm} (ha : (key, a) ∈ alarms) :
    time < a.due := by
  refine Int.not_le.mp fun hdue => ?_
  have hmem : (key, a) ∈ alarms.filter fun b => b.2.due ≤ time :=
    List.mem_filter.mpr ⟨ha, decide_eq_true hdue⟩
  unfold nextBy at h
  cases hby : alarms.filter fun b => b.2.due ≤ time with
  | nil =>
      rw [hby] at hmem
      cases hmem
  | cons b rest =>
      rw [hby] at h
      unfold earliest at h
      cases hrest : earliest rest with
      | none =>
          rw [hrest] at h
          cases h
      | some c =>
          rw [hrest] at h
          cases h

def record {κ σ ε : Type} (alarms : σ → List (κ × Alarm))
    (goOff : κ → Alarm → σ → σ) (note : σ → σ → List ε) (time : Int) :
    Nat → σ → List ε
  | 0, _ => []
  | most + 1, s =>
      match nextBy time (alarms s) with
      | none => []
      | some (key, a) =>
          note s (goOff key a s) ++
            record alarms goOff note time most (goOff key a s)

/-- What each alarm that is set and due keeps, with what is written down then,
is kept as all of them go off. -/
theorem ring_record {κ σ ε : Type} {P : σ → List ε → Prop}
    {alarms : σ → List (κ × Alarm)} {goOff : κ → Alarm → σ → σ}
    (note : σ → σ → List ε) {time : Int}
    (hgo : ∀ s es key a, P s es → (key, a) ∈ alarms s → a.due ≤ time →
      P (goOff key a s) (es ++ note s (goOff key a s)))
    (most : Nat) {s : σ} {es : List ε} (h : P s es) :
    P (ring alarms goOff time most s)
      (es ++ record alarms goOff note time most s) := by
  induction most generalizing s es with
  | zero =>
      show P s (es ++ [])
      rw [List.append_nil]
      exact h
  | succ most ih =>
      unfold ring record
      cases hnext : nextBy time (alarms s) with
      | none =>
          show P s (es ++ [])
          rw [List.append_nil]
          exact h
      | some next =>
          rcases nextBy_due hnext with ⟨hset, hdue⟩
          dsimp only
          rw [← List.append_assoc]
          exact ih (hgo s es next.1 next.2 h hset hdue)

theorem ring_succ {κ σ : Type} (alarms : σ → List (κ × Alarm))
    (goOff : κ → Alarm → σ → σ) (time : Int) (most : Nat) (s : σ) :
    ring alarms goOff time (most + 1) s =
      match nextBy time (alarms (ring alarms goOff time most s)) with
      | none => ring alarms goOff time most s
      | some (key, a) => goOff key a (ring alarms goOff time most s) := by
  induction most generalizing s with
  | zero => rfl
  | succ most ih =>
      rw [ring]
      cases hnext : nextBy time (alarms s) with
      | none =>
          have hstays : ring alarms goOff time (most + 1) s = s := by
            rw [ring, hnext]
          dsimp only
          rw [hstays, hnext]
      | some next =>
          have hgoes : ring alarms goOff time (most + 1) s =
              ring alarms goOff time most (goOff next.1 next.2 s) := by
                rw [ring, hnext]
          dsimp only
          rw [ih, hgoes]

/-- What goes alike for each alarm goes alike as all of them go off, and the
same is written down. -/
theorem ring_alike {κ σ ε : Type} {R : σ → σ → Prop}
    {alarms : σ → List (κ × Alarm)} {goOff goOff' : κ → Alarm → σ → σ}
    {note note' : σ → σ → List ε}
    (halarms : ∀ s s', R s s' → alarms s' = alarms s)
    (hgo : ∀ s s' key a, R s s' → R (goOff key a s) (goOff' key a s') ∧
      note' s' (goOff' key a s') = note s (goOff key a s))
    (time : Int) (most : Nat) {s s' : σ} (h : R s s') :
    R (ring alarms goOff time most s) (ring alarms goOff' time most s') ∧
      record alarms goOff' note' time most s' =
        record alarms goOff note time most s := by
  induction most generalizing s s' with
  | zero => exact ⟨h, rfl⟩
  | succ most ih =>
      unfold ring record
      rw [halarms s s' h]
      cases hnext : nextBy time (alarms s) with
      | none => exact ⟨h, rfl⟩
      | some next =>
          rcases hgo s s' next.1 next.2 h with ⟨hrelated, hnote⟩
          rcases ih hrelated with ⟨hring, hrecord⟩
          refine ⟨hring, ?_⟩
          dsimp only
          rw [hnote, hrecord]

end Alarm
end InlineCompletion
