import InlineCompletion.Proofs.Frame.Packet

/-!
# Streams of packets

Packets are sent one behind the other, and the last of them may still be on its
way.  The main statement is that wherever such a stream is cut, what stands
before the cut is whole packets and the beginning of one.
-/

namespace InlineCompletion

def stream (ps : List Packet) : Bytes := (ps.map Packet.bytes).flatten

/-- Whether bytes are the beginning of a packet, but not a whole one. -/
def IsBeginning (data : Bytes) : Prop :=
  ∃ p : Packet, p.Sendable ∧ data <+: p.bytes ∧ data ≠ p.bytes

theorem stream_cons (p : Packet) (ps : List Packet) :
    stream (p :: ps) = p.bytes ++ stream ps := rfl

namespace IsBeginning

theorem extract {data : Bytes} (h : IsBeginning data) (room : Nat) :
    Frame.extract room data = .ok ⟨.incomplete, data⟩ := by
  rcases h with ⟨p, hp, hbegins, hne⟩
  exact hp.extract_of_prefix hbegins hne

theorem of_prefix {data more : Bytes} (h : IsBeginning more)
    (hbegins : data <+: more) :
    IsBeginning data := by
  rcases h with ⟨p, hp, hmore, hne⟩
  refine ⟨p, hp, hbegins.trans hmore, ?_⟩
  intro heq
  rw [heq] at hbegins
  exact hne (hmore.eq_of_length_le hbegins.length_le)

theorem nil : IsBeginning [] := by
  exact ⟨Packet.plain [], Packet.plain_sendable (by decide), List.nil_prefix,
    nofun⟩

theorem eq_nil {ps : List Packet} {tail : Bytes} (hps : ∀ p ∈ ps, p.Sendable)
    (h : IsBeginning (stream ps ++ tail)) : ps = [] := by
  cases ps with
  | nil => rfl
  | cons p rest =>
      -- how deep a value may be nested makes no difference, so none at all is
      -- as good as any
      have hwhole :=
        (hps p List.mem_cons_self).extract_bytes 0 (stream rest ++ tail)
      have hnone := h.extract 0
      rw [stream_cons, List.append_assoc, hwhole] at hnone
      cases hbody : Frame.decodeBody 0 p.body with
      | error f =>
          rw [hbody] at hnone
          cases hnone
      | ok found =>
          rw [hbody] at hnone
          have hrest := congrArg (fun e => e.rest.length) (Except.ok.inj hnone)
          dsimp only at hrest
          simp only [List.length_append, p.length_bytes] at hrest
          omega

end IsBeginning

/-- Wherever a stream is cut, whole packets and the beginning of one stand
before the cut. -/
theorem split_stream {ps : List Packet} (hps : ∀ p ∈ ps, p.Sendable)
    {tail data more : Bytes} (htail : IsBeginning tail)
    (h : data ++ more = stream ps ++ tail) :
    ∃ before after rest, ps = before ++ after ∧ data = stream before ++ rest ∧
      IsBeginning rest ∧
      rest ++ more = stream after ++ tail := by
  induction ps generalizing data with
  | nil => exact ⟨[], [], data, rfl, rfl, htail.of_prefix ⟨more, h⟩, h⟩
  | cons p ps ih =>
      have hp := hps p List.mem_cons_self
      rw [stream_cons, List.append_assoc] at h
      -- the cut lies behind the first packet, or in it
      by_cases hwhole : p.bytes <+: data
      · rcases hwhole with ⟨data', hdata'⟩
        rw [← hdata', List.append_assoc] at h
        have hrest := List.append_cancel_left h
        rcases ih (fun q hq => hps q (List.mem_cons_of_mem p hq)) hrest with
          ⟨before, after, rest, hsplit, hbefore, hbeginning, hafter⟩
        refine ⟨p ::
          before, after, rest, by rw [hsplit]; rfl, ?_, hbeginning, hafter⟩
        rw [← hdata', hbefore, stream_cons, List.append_assoc]
      · have hdata : data <+: p.bytes := by
          rcases List.prefix_or_prefix_of_prefix ⟨more, h⟩
            (List.prefix_append p.bytes (stream ps ++ tail)) with
              hbegins | hbegins
          · exact hbegins
          · exact absurd hbegins hwhole
        have hne : data ≠ p.bytes := by
          intro heq
          rw [heq] at hwhole
          exact hwhole (List.prefix_refl _)
        refine ⟨[], p :: ps, data, rfl, rfl, ⟨p, hp, hdata, hne⟩, ?_⟩
        rw [stream_cons, List.append_assoc]
        exact h

end InlineCompletion
