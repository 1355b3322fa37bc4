import InlineCompletion.Proofs.Frame.Packet
import InlineCompletion.Proofs.Json.RoundTrip
import InlineCompletion.Proofs.Text.Utf8

/-!
# Frames that are read again

A value is framed unless it is nested too deeply or its text is too long to say
so.  The main statement is that every value that is framed is found at the front
of bytes, whatever follows it, and that nothing is found in what its frame
begins with.  How deep a value may be nested is a number like any other here:
some value is nested more deeply, whichever it is.
-/

namespace InlineCompletion
namespace Frame

/-- Whether a value has a text whose length in bytes can be shown. -/
def HasLength (p : Json) : Prop :=
  Integer.isShowable (Utf8.encode p.text).length = true

def ofText (p : Json) : Packet := Packet.plain (Utf8.encode p.text)

theorem HasLength.sendable {p : Json} (h : HasLength p) : (ofText p).Sendable :=
  Packet.plain_sendable (Json.length_digits_of_isShowable h)

theorem encode_tooDeep {p : Json} (h : p.Faithful) {room : Nat}
    (hdepth : room < p.depth) : encode room p = .error .tooDeep := by
  unfold encode
  rw [h.write_eq, Json.within, if_neg (Nat.not_le.mpr hdepth)]
  rfl

theorem encode_eq_ok_iff_of_faithful {p : Json} (h : p.Faithful) {room : Nat}
    {bytes : Bytes} :
    encode room p = .ok bytes ↔
      p.depth ≤ room ∧ HasLength p ∧ bytes = (ofText p).bytes := by
  rw [Packet.encode_eq_ok_iff, h.write_eq, Json.within]
  by_cases hdepth : p.depth ≤ room
  · rw [if_pos hdepth, and_iff_right hdepth]
    constructor
    · rintro ⟨_, ⟨⟩, hframed⟩
      exact hframed
    · exact fun hframed => ⟨p.text, rfl, hframed⟩
  · rw [if_neg hdepth]
    exact iff_of_false (fun ⟨_, hwritten, _⟩ => nomatch hwritten)
      fun hframed => hdepth hframed.1

theorem decodeBody_text {p : Json} (h : p.Faithful) (room : Nat) :
    decodeBody room (Utf8.encode p.text) =
      if p.depth ≤ room then .ok (.message p) else .error .tooDeep := by
  unfold decodeBody
  rw [Utf8.decode?_encode]
  dsimp only
  rw [h.read_text, Json.within]
  by_cases hdepth : p.depth ≤ room
  · rw [if_pos hdepth, if_pos hdepth]
  · rw [if_neg hdepth, if_neg hdepth]

theorem extract_ofText {p : Json} (h : p.Faithful) (hlength : HasLength p)
    (room : Nat) (rest : Bytes) :
    extract room ((ofText p).bytes ++ rest) =
      if p.depth ≤ room then .ok ⟨.message p, rest⟩ else .error .tooDeep := by
  rw [hlength.sendable.extract_bytes]
  show (decodeBody room (Utf8.encode p.text)).map _ = _
  rw [decodeBody_text h]
  split
  · rfl
  · rfl

/-- A value is framed exactly if it is not nested too deeply and its length can
be shown.  Then it is found as it was framed, whatever follows it, and at other
limits as well unless it is nested more deeply than they allow.  Nothing is
found in what its frame begins with. -/
theorem framed_found_whole {p : Json} (h : p.Faithful) (room : Nat) :
    ((∃ bytes, encode room p = .ok bytes) ↔ p.depth ≤ room ∧ HasLength p) ∧
      (room < p.depth → encode room p = .error .tooDeep) ∧
      ∀ bytes, encode room p = .ok bytes →
        (∀ rest, extract room (bytes ++ rest) = .ok ⟨.message p, rest⟩) ∧
        (∀ limit rest, extract limit (bytes ++ rest) =
          if p.depth ≤ limit then .ok ⟨.message p, rest⟩
          else .error .tooDeep) ∧
        ∀ limit data, data <+: bytes → data ≠ bytes →
          extract limit data = .ok ⟨.incomplete, data⟩ := by
  refine ⟨?_, encode_tooDeep h, ?_⟩
  · simp only [encode_eq_ok_iff_of_faithful h]
    exact ⟨fun ⟨_, hdepth, hlength, _⟩ => ⟨hdepth, hlength⟩,
      fun ⟨hdepth, hlength⟩ => ⟨_, hdepth, hlength, rfl⟩⟩
  · intro bytes hframed
    rcases (encode_eq_ok_iff_of_faithful h).mp hframed with
      ⟨hdepth, hlength, rfl⟩
    refine ⟨?_, ?_, ?_⟩
    · intro rest
      rw [extract_ofText h hlength, if_pos hdepth]
    · exact extract_ofText h hlength
    · exact fun _ _ hbegins hne =>
        hlength.sendable.extract_of_prefix hbegins hne

/-- Escapes, a pair of surrogates, a number below zero and one in part, and
empty values. -/
def assorted : Json :=
  .obj [("id", .int (-12)),
    ("a\n\"b\\", .arr [.str "é€😀", .null, .arr [], .obj []]),
    ("half", .float (.finite false 4503599627370496 (-53))), ("", .bool true)]

theorem assorted_faithful : assorted.Faithful := by
  refine .obj (by decide) (by decide) ?_
  intro m hm
  simp only [List.mem_cons, List.not_mem_nil, or_false] at hm
  rcases hm with rfl | rfl | rfl | rfl
  · exact .int (by decide +kernel)
  · refine .arr ?_
    intro v hv
    simp only [List.mem_cons, List.not_mem_nil, or_false] at hv
    rcases hv with rfl | rfl | rfl | rfl
    · exact .str rfl
    · exact .null
    · exact .arr fun _ hw => nomatch hw
    · exact .obj List.nodup_nil (fun _ hw => nomatch hw) fun _ hw => nomatch hw
  · exact .float rfl
  · exact .bool true

theorem framed_found_whole_assorted :
    ∃ bytes, encode 3 assorted = .ok bytes ∧
      extract 3 (bytes ++ [67, 111]) = .ok ⟨.message assorted, [67, 111]⟩ ∧
      extract 3 bytes.dropLast = .ok ⟨.incomplete, bytes.dropLast⟩ ∧
      encode 2 assorted = .error .tooDeep := by
  have hdepth : assorted.depth = 3 := by decide +kernel
  have hlength : HasLength assorted := by
    unfold HasLength
    decide +kernel
  have h := framed_found_whole assorted_faithful 3
  rcases h.1.mpr ⟨Nat.le_of_eq hdepth, hlength⟩ with ⟨bytes, hframed⟩
  rcases h.2.2 bytes hframed with ⟨hfound, _, hbegins⟩
  have hne : bytes.dropLast ≠ bytes := by
    rcases (encode_eq_ok_iff_of_faithful assorted_faithful).mp hframed with
      ⟨_, _, rfl⟩
    decide +kernel
  refine ⟨bytes, hframed, hfound _,
    hbegins 3 _ (List.dropLast_prefix bytes) hne,
    (framed_found_whole assorted_faithful 2).2.1 ?_⟩
  rw [hdepth]
  decide

/-- However deep a value may be nested, one more array than that, one inside the
other, is neither framed nor found. -/
theorem tower_not_found :
    ¬ ∃ room, ∀ p : Json, p ≠ .null → p.Faithful → ∀ rest,
      (encode room p).bind (fun bytes => extract room (bytes ++ rest)) =
        .ok ⟨.message p, rest⟩ := by
  rintro ⟨room, hall⟩
  have hfaithful := Json.tower_faithful room
  have hdeep : room < (Json.tower room).depth := by
    rw [Json.depth_tower]
    exact Nat.lt_succ_self room
  have hne : Json.tower room ≠ .null := by
    intro hnull
    rw [hnull] at hdeep
    exact Nat.not_lt_zero room hdeep
  have hfound := hall _ hne hfaithful []
  rw [encode_tooDeep hfaithful hdeep] at hfound
  exact nomatch hfound

end Frame
end InlineCompletion
