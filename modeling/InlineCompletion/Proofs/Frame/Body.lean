import InlineCompletion.Frame
import InlineCompletion.Proofs.Json.Refusal

/-!
# Bodies

A body that is the text of a value means that value, and any other body is
dropped.  The main statements are that a body is taken for what it means unless
it is refused for its size, and that only a large body is.
-/

namespace InlineCompletion
namespace Frame

def value? (room : Nat) (body : Bytes) : Option Json :=
  (Utf8.decode? body).bind fun text => (Json.read room text).toOption

def meant (room : Nat) (body : Bytes) : Found :=
  match value? room body with
  | some v => .message v
  | none => .undecodable body

/-- Whether a body is refused for its size, and not for what it holds. -/
inductive Exceeds (room : Nat) (body : Bytes) : Prop
  | digits {text : Text} {n : Nat} (decoded : Utf8.decode? body = some text)
      (refused : Json.read room text = .error (.tooLong n))
  | depth {text : Text} (decoded : Utf8.decode? body = some text)
      (refused : Json.read room text = .error .tooDeep)

variable {room : Nat}

theorem Exceeds.decodeBody {body : Bytes} (h : Exceeds room body) :
    (∃ n, Frame.decodeBody room body = .error (.tooManyDigits n)) ∨
      Frame.decodeBody room body = .error .tooDeep := by
  unfold Frame.decodeBody
  cases h with
  | digits decoded refused =>
      rw [decoded]
      dsimp only
      rw [refused]
      exact Or.inl ⟨_, rfl⟩
  | depth decoded refused =>
      rw [decoded]
      dsimp only
      rw [refused]
      exact Or.inr rfl

theorem decodeBody_error {body : Bytes} {f : Fault}
    (h : decodeBody room body = .error f) :
    ∃ text, Utf8.decode? body = some text ∧
      ((∃ n, f = .tooManyDigits n ∧
        Json.read room text = .error (.tooLong n)) ∨
      f = .tooDeep ∧ Json.read room text = .error .tooDeep) := by
  unfold decodeBody at h
  split at h
  · cases h
  · next text hdecode =>
      refine ⟨text, hdecode, ?_⟩
      split at h
      · cases h
      · cases h
      · next n hread =>
          cases h
          exact Or.inl ⟨n, rfl, hread⟩
      · next hread =>
          cases h
          exact Or.inr ⟨rfl, hread⟩

theorem decodeBody_of_not_exceeds {body : Bytes} (h : ¬ Exceeds room body) :
    decodeBody room body = .ok (meant room body) := by
  unfold decodeBody meant value?
  cases hdecode : Utf8.decode? body with
  | none => rfl
  | some text =>
      dsimp only
      rw [Option.bind_some]
      cases hread : Json.read room text with
      | ok v => rfl
      | error e =>
          cases e with
          | malformed => rfl
          | tooLong n => exact absurd (.digits hdecode hread) h
          | tooDeep => exact absurd (.depth hdecode hread) h

/-- Only a body with very many digits behind one another, or with very many
arrays and objects, is refused for its size. -/
theorem Exceeds.large {body : Bytes} (h : Exceeds room body) :
    ∃ text, Utf8.decode? body = some text ∧
      ((∃ ds, ds <:+: text ∧ (∀ c ∈ ds, isDigit c = true) ∧
        Integer.maxDigits < ds.length) ∨
        room < Json.brackets text) := by
  cases h with
  | digits decoded refused =>
      rcases Json.read_earned refused with ⟨hmany, ds, hds, hlength, hdigits⟩
      exact ⟨_, decoded, Or.inl ⟨ds, hds, hdigits, hlength ▸ hmany⟩⟩
  | depth decoded refused =>
      exact ⟨_, decoded, Or.inr (Json.read_earned refused)⟩

end Frame
end InlineCompletion
