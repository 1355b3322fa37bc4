import InlineCompletion.Proofs.Frame.Packet

/-!
# What reading comes to

Bytes are read frame by frame, and each message that is found is handed on;
reading stops where acting on a message fails, and goes on with the next bytes.
What is handed on and what is left are said by the bytes alone, once it is known
where acting failed.  The main statements are that, and that a frame of which
some bytes are missing takes them from whatever follows.
-/

namespace InlineCompletion

structure Handed where
  message : Json
  well : Bool

namespace Frame

def Found.message? : Found → Option Json
  | .message .null => none
  | .message v => some v
  | _ => none

/-- What is taken off the front of bytes, if anything is: a message, or what is
skipped; and what is left of them. -/
def front (room : Nat) (data : Bytes) : Option (Option Json × Bytes) :=
  match extract room data with
  | .error _ => none
  | .ok e =>
      if e.rest.length = data.length then none else
        some (e.found.message?, e.rest)

theorem front_eq_some {room : Nat} {data : Bytes} {taken : Option Json × Bytes}
    (h : front room data = some taken) :
    ∃ e, extract room data = .ok e ∧ e.rest.length ≠ data.length ∧
      taken = (e.found.message?, e.rest) := by
  unfold front at h
  split at h
  · cases h
  · next e hextract =>
      split at h
      · cases h
      · next hlength => exact ⟨e, hextract, hlength, (Option.some.inj h).symm⟩

inductive Reading (room : Nat) : Bytes → List Handed → Bytes → Prop where
  | stops {data : Bytes} (h : front room data = none) :
      Reading room data [] data
  | skipped {data rest rest' : Bytes} {hs : List Handed}
      (h : front room data = some (none, rest))
      (hrest : Reading room rest hs rest') :
      Reading room data hs rest'
  | failed {data rest : Bytes} {v : Json}
      (h : front room data = some (some v, rest)) :
      Reading room data [⟨v, false⟩] rest
  | handed {data rest rest' : Bytes} {v : Json} {hs : List Handed}
      (h : front room data = some (some v, rest))
      (hrest : Reading room rest hs rest') :
      Reading room data (⟨v, true⟩ :: hs) rest'

/-- Reading comes to one thing only, once it is known where acting failed, also
if it is known for what is read behind that. -/
theorem Reading.unique {room : Nat} {data rest rest' : Bytes}
    {hs hs' : List Handed} (h : Reading room data hs rest)
    (h' : Reading room data hs' rest') {behind behind' : List Bool}
    (hwell : hs.map Handed.well ++ behind = hs'.map Handed.well ++ behind') :
    hs = hs' ∧ rest = rest' ∧ behind = behind' := by
  induction h generalizing hs' with
  | stops hfront =>
      cases h' with
      | stops _ => exact ⟨rfl, rfl, hwell⟩
      | skipped hother _ => cases hfront.symm.trans hother
      | failed hother => cases hfront.symm.trans hother
      | handed hother _ => cases hfront.symm.trans hother
  | skipped hfront _ ih =>
      cases h' with
      | stops hother => cases hfront.symm.trans hother
      | skipped hother hrest =>
          cases hfront.symm.trans hother
          exact ih hrest hwell
      | failed hother => cases hfront.symm.trans hother
      | handed hother _ => cases hfront.symm.trans hother
  | failed hfront =>
      cases h' with
      | stops hother => cases hfront.symm.trans hother
      | skipped hother _ => cases hfront.symm.trans hother
      | failed hother =>
          cases hfront.symm.trans hother
          exact ⟨rfl, rfl, (List.cons.inj hwell).2⟩
      | handed _ _ => cases (List.cons.inj hwell).1
  | handed hfront _ ih =>
      cases h' with
      | stops hother => cases hfront.symm.trans hother
      | skipped hother _ => cases hfront.symm.trans hother
      | failed _ => cases (List.cons.inj hwell).1
      | handed hother hrest =>
          cases hfront.symm.trans hother
          rcases ih hrest (List.cons.inj hwell).2 with ⟨hsame, hleft⟩
          exact ⟨congrArg _ hsame, hleft⟩

/-- What reading chunks of bytes hands on, one chunk behind the other, and what
it leaves. -/
inductive Readings (room : Nat) :
    Bytes → List Bytes → List Handed → Bytes → Prop where
  | nil (buffer : Bytes) : Readings room buffer [] [] buffer
  | cons {buffer chunk rest rest' : Bytes} {chunks : List Bytes}
      {hs hs' : List Handed} (h : Reading room (buffer ++ chunk) hs rest)
        (h' : Readings room rest chunks hs' rest') :
      Readings room buffer (chunk :: chunks) (hs ++ hs') rest'

namespace Readings

variable {room : Nat}

theorem of_nil {buffer rest : Bytes} {hs : List Handed}
    (h : Readings room buffer [] hs rest) :
    hs = [] ∧ rest = buffer := by
  cases h with
  | nil _ => exact ⟨rfl, rfl⟩

theorem ne_nil {buffer chunk rest : Bytes} {chunks : List Bytes}
    {hs : List Handed} (h : Readings room buffer (chunk :: chunks) hs rest)
    (hfront : ((front room (buffer ++ chunk)).bind (·.1)).isSome = true) :
    hs ≠ [] := by
  cases h with
  | cons hreading _ =>
      cases hreading with
      | stops hother =>
          rw [hother] at hfront
          cases hfront
      | skipped hother _ =>
          rw [hother] at hfront
          cases hfront
      | failed _ => exact List.cons_ne_nil _ _
      | handed _ _ => exact List.cons_ne_nil _ _

theorem single {buffer chunk rest : Bytes} {hs : List Handed}
    (h : Reading room (buffer ++ chunk) hs rest) :
    Readings room buffer [chunk] hs rest := by
  have hreadings := Readings.cons h (.nil rest)
  rw [List.append_nil] at hreadings
  exact hreadings

theorem append {buffer rest rest' : Bytes} {chunks chunks' : List Bytes}
    {hs hs' : List Handed} (h : Readings room buffer chunks hs rest)
    (h' : Readings room rest chunks' hs' rest') :
    Readings room buffer (chunks ++ chunks') (hs ++ hs') rest' := by
  induction h with
  | nil _ => exact h'
  | cons hreading _ ih =>
      rw [List.append_assoc]
      exact .cons hreading (ih h')

/-- What is handed on of chunks is said by the buffer that they come to and by
the chunks alone, once it is known where acting failed. -/
theorem unique {buffer rest rest' : Bytes} {chunks : List Bytes}
    {hs hs' : List Handed} (h : Readings room buffer chunks hs rest)
    (h' : Readings room buffer chunks hs' rest')
    (hwell : hs.map Handed.well = hs'.map Handed.well) :
    hs = hs' ∧ rest = rest' := by
  induction h generalizing hs' with
  | nil _ =>
      cases h' with
      | nil _ => exact ⟨rfl, rfl⟩
  | cons hreading _ ih =>
      cases h' with
      | cons hother hrest =>
          rw [List.map_append, List.map_append] at hwell
          rcases hreading.unique hother hwell with ⟨hsame, hleft, hbehind⟩
          subst hleft
          rcases ih hrest hbehind with ⟨hsame', hleft'⟩
          rw [hsame, hsame']
          exact ⟨rfl, hleft'⟩

end Readings
end Frame

end InlineCompletion
