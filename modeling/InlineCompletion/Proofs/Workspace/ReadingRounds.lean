import InlineCompletion.Proofs.Frame.Extent
import InlineCompletion.Proofs.Workspace.Restart

/-!
# Rounds of reading

Reading goes in rounds: each takes off the front of the buffer what it finds
there and hands it on, until a round finds nothing to take off or something
fails.  How often that is does not show from the loop, and a length that a
header names may even be negative.  But what a round leaves is an end of the
buffer, and only a shorter one is read on.  The main statement is that reading
comes to an end after no more rounds than there are bytes, whatever the bytes
are and whoever gets what is found in them, as long as they feed nothing
themselves.
-/

namespace InlineCompletion
namespace Workspace

abbrev Handler :=
  Frame.Found → Workspace Connection → Except Fault Unit × Workspace Connection

/-- Whether no bytes are fed by whoever gets what was found. -/
def FeedsNothing (handler : Handler) : Prop :=
  ∀ found w, (handler found w).2.env.link.buffer = w.env.link.buffer

inductive Round where
  | last (result : Except Fault Unit) (w : Workspace Connection)
  | next (w : Workspace Connection)

/-- Takes a frame off the front of the buffer and hands on what was found in it.
The buffer is as long as before if there was nothing to take off. -/
def round (room : Nat) (handler : Handler) (w : Workspace Connection) : Round :=
  match Frame.extract room w.env.link.buffer with
  | .error f => .last (.error f) w
  | .ok e =>
      if e.rest.length = w.env.link.buffer.length then
        .last (.ok ()) (w.tellDropped e.found)
      else
        match handler e.found (w.taken e) with
        | (.error f, w) => .last (.error f) w
        | (.ok (), w) => .next w

/-- Round follows round; there is no result if the last of so many was not the
last of all. -/
def rounds (room : Nat) (handler : Handler) :
    Nat → Workspace Connection →
      Option (Except Fault Unit × Workspace Connection)
  | 0, _ => none
  | most + 1, w =>
      match w.round room handler with
      | .last r w => some (r, w)
      | .next w => rounds room handler most w

theorem act_feedsNothing : FeedsNothing act :=
  fun found w => (act_buffer_room found w).1

variable {room : Nat}

/-!
# One round
-/

section Round

variable {handler : Handler} (hhandler : FeedsNothing handler)
    {w w' : Workspace Connection}
include hhandler

theorem round_next (h : w.round room handler = .next w') :
    w'.env.link.buffer <:+ w.env.link.buffer ∧
      w'.env.link.buffer.length < w.env.link.buffer.length := by
  unfold round at h
  split at h
  · cases h
  · next e hextract =>
      have hrest := Frame.extract_rest_suffix hextract
      split at h
      · cases h
      · next hlength =>
          have hbuffer := hhandler e.found (w.taken e)
          split at h
          · cases h
          · next heq =>
              cases h
              rw [heq] at hbuffer
              change w'.env.link.buffer = e.rest at hbuffer
              rw [hbuffer]
              exact ⟨hrest, Nat.lt_of_le_of_ne hrest.length_le hlength⟩

/-- The last round leaves an end of the buffer; and if nothing failed, there is
nothing to take off what it leaves. -/
theorem round_last {r : Except Fault Unit}
    (h : w.round room handler = .last r w') :
    w'.env.link.buffer <:+ w.env.link.buffer ∧
      (r = .ok () → Frame.Waits room w'.env.link.buffer) := by
  unfold round at h
  split at h
  · cases h
    refine ⟨List.suffix_refl _, ?_⟩
    intro hok
    cases hok
  · next e hextract =>
      have hrest := Frame.extract_rest_suffix hextract
      split at h
      · next hlength =>
          cases h
          have hbuffer := (notifications_tellDropped e.found w).2
          have hsame := hrest.eq_of_length hlength
          cases e with
          | mk found rest =>
              dsimp only at hbuffer hsame
              rw [hsame] at hextract
              rw [hbuffer]
              exact ⟨List.suffix_refl _, fun _ => ⟨found, hextract⟩⟩
      · next hlength =>
          have hbuffer := hhandler e.found (w.taken e)
          split at h
          · next heq =>
              cases h
              rw [heq] at hbuffer
              change w'.env.link.buffer = e.rest at hbuffer
              rw [hbuffer]
              refine ⟨hrest, ?_⟩
              intro hok
              cases hok
          · cases h

/-- Rounds come to an end.  Every round but the last takes a byte at least, so
the induction is on how many more there may be than bytes. -/
theorem rounds_end {most : Nat} (hmost : w.env.link.buffer.length < most) :
    ∃ r w', rounds room handler most w = some (r, w') ∧
      w'.env.link.buffer <:+ w.env.link.buffer ∧
      (r = .ok () → Frame.Waits room w'.env.link.buffer) := by
  induction most generalizing w with
  | zero => exact absurd hmost (Nat.not_lt_zero _)
  | succ most ih =>
      unfold rounds
      cases hround : w.round room handler with
      | last r w' => exact ⟨r, w', rfl, round_last hhandler hround⟩
      | next w' =>
          rcases round_next hhandler hround with ⟨hsuffix, hshorter⟩
          rcases ih (Nat.lt_of_lt_of_le hshorter (Nat.le_of_lt_succ hmost)) with
            ⟨r, w'', hrounds, hleft, hwaits⟩
          exact ⟨r, w'', hrounds, hleft.trans hsuffix, hwaits⟩

end Round

/-!
# Reading
-/

theorem rounds_eq_consume {most : Nat} {w : Workspace Connection}
    (hmost : w.env.link.buffer.length < most) :
    rounds room act most w = some (w.consume room w.env.link.buffer) := by
  induction most generalizing w with
  | zero => exact absurd hmost (Nat.not_lt_zero _)
  | succ most ih =>
      unfold rounds round
      cases hextract : Frame.extract room w.env.link.buffer with
      | error f => exact congrArg some (consume_of_error hextract).symm
      | ok e =>
          dsimp only
          by_cases hlength : e.rest.length = w.env.link.buffer.length
          · rw [if_pos hlength, consume_of_same hextract hlength]
          · have hbuffer := (act_buffer_room e.found (w.taken e)).1
            have hconsume :
                w.consume room w.env.link.buffer =
                  match (w.taken e).act e.found with
              | (.error f, w) => (.error f, w)
              | (.ok (), w) => w.consume room e.rest :=
                consume_of_extract hextract hlength
            have hshorter : e.rest.length < most :=
              Nat.lt_of_lt_of_le
                (Nat.lt_of_le_of_ne (Frame.extract_rest_length_le hextract)
                  hlength)
                (Nat.le_of_lt_succ hmost)
            rw [if_neg hlength, hconsume]
            cases hacted : (w.taken e).act e.found with
            | mk r w' =>
                rw [hacted] at hbuffer
                change w'.env.link.buffer = e.rest at hbuffer
                cases r with
                | error f => rfl
                | ok u =>
                    rw [← hbuffer] at hshorter ⊢
                    exact ih hshorter

/-- What is left of bytes is an end of them, and all of them if it is as long.
So every round is the last or leaves a shorter end of the buffer, and reading
comes to an end, with an end of the buffer left, after as many rounds as there
are bytes and one more; unless something fails, there is nothing to take off
what is left.  That is so whatever is done with what is found, as long as it
feeds nothing, and feeding a chunk is such a reading of the buffer with the
chunk behind it. -/
theorem reading_ends :
    (∀ room data e, Frame.extract room data = .ok e →
      e.rest <:+ data ∧ (e.rest.length = data.length → e.rest = data)) ∧
    (∀ room handler, FeedsNothing handler → ∀ w : Workspace Connection,
      (∀ w', w.round room handler = .next w' →
      w'.env.link.buffer <:+ w.env.link.buffer ∧
        w'.env.link.buffer.length < w.env.link.buffer.length) ∧
      ∃ r w', rounds room handler (w.env.link.buffer.length + 1) w =
        some (r, w') ∧
        w'.env.link.buffer <:+ w.env.link.buffer ∧
        (r = .ok () → Frame.Waits room w'.env.link.buffer)) ∧
    ∀ (w : Workspace Connection) (chunk : Bytes),
      let all := w.env.link.buffer ++ chunk
      rounds w.env.link.room act (all.length + 1) (w.buffered all) =
        some (w.feed chunk) ∧
        (w.feed chunk).2.env.link.buffer <:+ all ∧
        ((w.feed chunk).1 = .ok () →
          Frame.Waits w.env.link.room (w.feed chunk).2.env.link.buffer) := by
  refine ⟨?_, ?_, ?_⟩
  · intro room data e hextract
    have hrest := Frame.extract_rest_suffix hextract
    exact ⟨hrest, hrest.eq_of_length⟩
  · intro room handler hhandler w
    exact ⟨fun w' => round_next hhandler,
      rounds_end hhandler (Nat.lt_succ_self _)⟩
  · intro w chunk all
    have hfeed :
        rounds w.env.link.room act (all.length + 1) (w.buffered all) =
          some (w.feed chunk) :=
      rounds_eq_consume (w := w.buffered all) (Nat.lt_succ_self all.length)
    rcases rounds_end act_feedsNothing (w := w.buffered all)
      (Nat.lt_succ_self all.length) with
      ⟨r, w', hrounds, hleft⟩
    rw [hfeed, Option.some.injEq] at hrounds
    refine ⟨hfeed, ?_⟩
    rw [hrounds]
    exact hleft

/-- A length that is less than nothing, so that the frame ends before its empty
line and a part of the header is read again; and whoever gets what is found
fails. -/
theorem reading_ends_rewound :
    let data := Utf8.encode "Content-Length: -5".toList ++ Frame.emptyLine
    let failing : Handler := fun _ w => (.error .wrongKind, w)
    Frame.extract 100 data = .ok ⟨.undecodable [], 53 :: Frame.emptyLine⟩ ∧
      53 :: Frame.emptyLine <:+ data ∧ FeedsNothing failing ∧
      (∃ r w', rounds 100 failing (data.length + 1) (unfed.buffered data) =
        some (r, w') ∧
        w'.env.link.buffer <:+ data) ∧
      (unfed.feed data).2.env.link.buffer <:+ data := by
  intro data failing
  have hheader : Frame.IsHeader (Utf8.encode "Content-Length: -5".toList) := by
    decide +kernel
  have hextract :
      Frame.extract 100 data =
        .ok ⟨.undecodable [], 53 :: Frame.emptyLine⟩ := by
    have hleft :=
      hheader.extract_rewound 100 (by decide +kernel) (by decide +kernel) []
    rw [List.append_nil] at hleft
    rw [hleft]
    rfl
  have hfailing : FeedsNothing failing := fun _ _ => rfl
  rcases reading_ends with ⟨hsuffix, hends, hfeeds⟩
  rcases (hends 100 failing hfailing (unfed.buffered data)).2 with
    ⟨r, w', hrounds, hleft, _⟩
  exact ⟨hextract, (hsuffix 100 data _ hextract).1, hfailing,
    ⟨r, w', hrounds, hleft⟩, (hfeeds unfed data).2.1⟩

end Workspace
end InlineCompletion
