import InlineCompletion.Proofs.Frame.Packet

/-!
# How far a frame goes

The length that a header names says where the body ends, and it may be any
number.  If it is not negative, what is found depends on the frame alone: the
header goes with the body, further bytes change nothing, and a whole frame is
not waited for any longer.  The main statement is that this is so for no other
length, and what is left of the bytes behind a header with a negative one.
-/

namespace InlineCompletion
namespace Frame

/-- Whether bytes are all that stands before the first empty line, when one
follows them. -/
def IsHeader (header : Bytes) : Prop :=
  splitHeader (header ++ emptyLine) = some (header, [])

instance (header : Bytes) : Decidable (IsHeader header) :=
  inferInstanceAs (Decidable (_ = _))

/-- Whether nothing is taken off the front of bytes. -/
def Waits (room : Nat) (data : Bytes) : Prop :=
  ∃ found, extract room data = .ok ⟨found, data⟩

/-- Whether what is found behind a header depends on its own frame only: what is
left stood behind the header, further bytes are left as they come, and behind
enough bytes something is taken off. -/
structure KeepsToFrame (room : Nat) (header : Bytes) : Prop where
  rest_suffix :
      ∀ behind e, extract room (header ++ emptyLine ++ behind) = .ok e →
    ¬ Waits room (header ++ emptyLine ++ behind) → e.rest <:+ behind
  extract_more :
      ∀ behind, ¬ Waits room (header ++ emptyLine ++ behind) → ∀ more,
    extract room (header ++ emptyLine ++ behind ++ more) =
      (extract room (header ++ emptyLine ++ behind)).map fun e =>
        ⟨e.found, e.rest ++ more⟩
  enough : ∃ n, ∀ behind, n ≤ behind.length →
    ¬ Waits room (header ++ emptyLine ++ behind)

variable {room : Nat}

theorem IsHeader.splitHeader_behind {header : Bytes} (h : IsHeader header)
    (behind : Bytes) :
    splitHeader (header ++ emptyLine ++ behind) = some (header, behind) :=
  splitHeader_append h behind

theorem length_behind (header behind : Bytes) :
    (header ++ emptyLine ++ behind).length =
    header.length + 4 + behind.length := by
  rw [List.length_append, List.length_append]
  rfl

theorem not_waits_of_length_lt {data : Bytes} {e : Extracted}
    (he : extract room data = .ok e) (hrest : e.rest.length < data.length) :
    ¬ Waits room data := by
  rintro ⟨found, hfound⟩
  rw [he] at hfound
  have hlength := congrArg (fun e => e.rest.length) (Except.ok.inj hfound)
  dsimp only at hlength
  omega

/-!
# Lengths that are not negative
-/

theorem IsHeader.extract_nonneg {header : Bytes} (h : IsHeader header)
    (room : Nat) {n : Nat} (hlength : bodyLength header = n) (behind : Bytes) :
    extract room (header ++ emptyLine ++ behind) =
      if behind.length < n then .ok ⟨.incomplete, header ++ emptyLine ++ behind⟩
      else (decodeBody room (behind.take n)).map fun found =>
        ⟨found, behind.drop n⟩ :=
  Packet.extract_behind rfl (h.splitHeader_behind behind) hlength

theorem IsHeader.waits_iff {header : Bytes} (h : IsHeader header) {n : Nat}
    (hlength : bodyLength header = n) (behind : Bytes) :
    Waits room (header ++ emptyLine ++ behind) ↔ behind.length < n := by
  have hextract := h.extract_nonneg room hlength behind
  by_cases hshort : behind.length < n
  · rw [if_pos hshort] at hextract
    exact iff_of_true ⟨_, hextract⟩ hshort
  · rw [if_neg hshort] at hextract
    refine iff_of_false ?_ hshort
    cases hbody : decodeBody room (behind.take n) with
    | error f =>
        rintro ⟨found, hfound⟩
        rw [hextract, hbody] at hfound
        cases hfound
    | ok found =>
        rw [hbody] at hextract
        refine not_waits_of_length_lt hextract ?_
        dsimp only
        rw [length_behind, List.length_drop]
        omega

theorem IsHeader.keepsToFrame {header : Bytes} (h : IsHeader header) {n : Nat}
    (hlength : bodyLength header = n) : KeepsToFrame room header := by
  refine ⟨?_, ?_, n, ?_⟩
  · intro behind e he hfound
    rw [h.waits_iff hlength] at hfound
    rw [h.extract_nonneg room hlength, if_neg hfound] at he
    cases hbody : decodeBody room (behind.take n) with
    | error f =>
        rw [hbody] at he
        cases he
    | ok found =>
        rw [hbody] at he
        cases he
        exact List.drop_suffix n behind
  · intro behind hfound more
    rw [h.waits_iff hlength] at hfound
    have hmore : ¬ (behind ++ more).length < n := by
      rw [List.length_append]
      omega
    have hwhole : n ≤ behind.length := Nat.not_lt.mp hfound
    rw [List.append_assoc _ behind more, h.extract_nonneg room hlength,
      h.extract_nonneg room hlength, if_neg hfound, if_neg hmore,
      List.take_append_of_le_length hwhole,
      List.drop_append_of_le_length hwhole]
    cases decodeBody room (behind.take n) with
    | error f => rfl
    | ok found => rfl
  · intro behind hwhole
    rw [h.waits_iff hlength]
    exact Nat.not_lt.mpr hwhole

/-!
# Negative lengths
-/

/-- Where a frame ends, as a signed offset into the bytes that it stands in
front of. -/
def stop (header : Bytes) : Int := header.length + 4 + bodyLength header

/-- A negative length is never waited for, so its end is taken for what it
says. -/
theorem IsHeader.extract_negative {header : Bytes} (h : IsHeader header)
    (room : Nat) (hlength : bodyLength header < 0) (behind : Bytes) :
    extract room (header ++ emptyLine ++ behind) =
      (decodeBody room
        (Slice.between (header ++ emptyLine ++ behind) (header.length + 4)
          (stop header))).map fun found =>
          ⟨found, Slice.after (header ++ emptyLine ++ behind)
            (stop header)⟩ := by
  unfold extract
  rw [h.splitHeader_behind behind]
  dsimp only
  rw [if_neg]
  · rfl
  · rw [length_behind]
    omega

theorem IsHeader.extract_rewound {header : Bytes} (h : IsHeader header)
    (room : Nat) (hlength : bodyLength header < 0) (hstop : 0 ≤ stop header)
    (behind : Bytes) :
    extract room (header ++ emptyLine ++ behind) =
      .ok ⟨.undecodable [],
        (header ++ emptyLine ++ behind).drop (stop header).toNat⟩ := by
  have hend : stop header = ((stop header).toNat : Int) :=
    (Int.toNat_of_nonneg hstop).symm
  have hshort : (stop header).toNat ≤ header.length + 4 := by
    unfold stop at hstop ⊢
    omega
  have hall := length_behind header behind
  have hnone : Slice.between (header ++ emptyLine ++ behind) (header.length + 4)
      (stop header) = [] := by
    have hstart :
        (header.length : Int) + 4 = ((header.length + 4 : Nat) : Int) := rfl
    unfold Slice.between
    rw [hend, hstart, Slice.before_natCast, Slice.place_natCast]
    refine List.drop_eq_nil_of_le ?_
    rw [List.length_take]
    omega
  have hrest :=
    Slice.after_natCast (header ++ emptyLine ++ behind) (stop header).toNat
  rw [← hend] at hrest
  rw [h.extract_negative room hlength, hnone, hrest]
  rfl

theorem IsHeader.rest_from_end {header : Bytes} (h : IsHeader header)
    (hstop : stop header < 0) {behind : Bytes} {e : Extracted}
    (he : extract room (header ++ emptyLine ++ behind) = .ok e) :
    e.rest <:+ header ++ emptyLine ++ behind ∧
      e.rest.length =
        min (stop header).natAbs (header ++ emptyLine ++ behind).length := by
  refine ⟨extract_rest_suffix he, ?_⟩
  have hlength : bodyLength header < 0 := by
    unfold stop at hstop
    omega
  rw [h.extract_negative room hlength] at he
  cases hbody :
      decodeBody room
        (Slice.between (header ++ emptyLine ++ behind) (header.length + 4)
      (stop header)) with
  | error f =>
      rw [hbody] at he
      cases he
  | ok found =>
      rw [hbody] at he
      cases he
      unfold Slice.after Slice.place
      dsimp only
      rw [if_pos hstop, List.length_drop]
      omega

/-- A frame with a negative length gives back a part of its header, or is there
forever, or leaves something else as soon as more bytes come. -/
theorem IsHeader.not_keepsToFrame {header : Bytes} (h : IsHeader header)
    (hlength : bodyLength header < 0) : ¬ KeepsToFrame room header := by
  intro hkeeps
  rcases Int.lt_trichotomy (stop header) 0 with hstop | hstop | hstop
  · -- so many bytes that the end is just behind the header, and then one more
    have hempty :
        Slice.between
          (header ++ emptyLine ++ List.replicate (stop header).natAbs 0)
        (header.length + 4) (stop header) = [] := by
      refine List.drop_eq_nil_of_le ?_
      unfold Slice.before Slice.place
      rw [List.length_take, length_behind, List.length_replicate]
      split <;> split <;> omega
    have he :=
      h.extract_negative room hlength (List.replicate (stop header).natAbs 0)
    rw [hempty] at he
    have hrest := (h.rest_from_end hstop he).2
    have hall := length_behind header (List.replicate (stop header).natAbs 0)
    rw [List.length_replicate] at hall
    have hfound := not_waits_of_length_lt he (by rw [hrest]; omega)
    have hmore := hkeeps.extract_more _ hfound [0]
    rw [he, List.append_assoc _ _ [0]] at hmore
    have hlonger := (h.rest_from_end hstop hmore).2
    rw [List.length_append, hrest] at hlonger
    simp only [List.length_singleton] at hlonger
    omega
  · rcases hkeeps.enough with ⟨n, hn⟩
    have he :=
      h.extract_rewound room hlength (Int.le_of_eq hstop.symm)
      (List.replicate n 0)
    rw [hstop] at he
    exact hn (List.replicate n 0) (Nat.le_of_eq List.length_replicate.symm)
      ⟨_, he⟩
  · have he := h.extract_rewound room hlength (Int.le_of_lt hstop) []
    have hall := length_behind header []
    have hleft : ((header ++ emptyLine ++ []).drop (stop header).toNat).length =
        (bodyLength header).natAbs := by
      unfold stop at hstop ⊢
      rw [List.length_drop, hall, List.length_nil]
      omega
    have hfound :=
      not_waits_of_length_lt he
      (by rw [hleft, hall]; unfold stop at hstop; omega)
    have hsuffix := (hkeeps.rest_suffix [] _ he hfound).length_le
    rw [hleft, List.length_nil] at hsuffix
    omega

/-- What is found behind a header depends on its own frame only exactly if the
length that it names is not negative.  Otherwise the frame ends before its body
starts, and all from there on is left, be it the whole of the bytes; or it ends
so many bytes before the last, and as many are left. -/
theorem keepsToFrame_iff {header : Bytes} (h : IsHeader header) :
    (KeepsToFrame room header ↔ 0 ≤ bodyLength header) ∧
      (bodyLength header < 0 → 0 ≤ stop header → ∀ behind,
        extract room (header ++ emptyLine ++ behind) =
          .ok ⟨.undecodable [],
            (header ++ emptyLine ++ behind).drop (stop header).toNat⟩) ∧
      (stop header < 0 →
        ∀ behind e, extract room (header ++ emptyLine ++ behind) = .ok e →
        e.rest <:+ header ++ emptyLine ++ behind ∧
          e.rest.length =
            min (stop header).natAbs
            (header ++ emptyLine ++ behind).length) := by
  refine ⟨⟨?_, ?_⟩,
    fun hlength hstop behind => h.extract_rewound room hlength hstop behind,
      fun hstop behind e he => h.rest_from_end hstop he⟩
  · intro hkeeps
    exact Int.not_lt.mp fun hlength => h.not_keepsToFrame hlength hkeeps
  · intro hlength
    exact h.keepsToFrame (Int.toNat_of_nonneg hlength).symm

/-- The header of a message with a length of two bytes, and one that names less
than nothing. -/
theorem keepsToFrame_iff_lengths :
    KeepsToFrame 100 (Utf8.encode "content-length: 2".toList) ∧
      ¬ KeepsToFrame 100 (Utf8.encode "Content-Length: -40".toList) ∧
      ∀ e, extract 100
        (Utf8.encode "Content-Length: -40".toList ++ emptyLine ++
          List.replicate 20 48) =
        .ok e → e.rest.length = 17 := by
  have hnamed : IsHeader (Utf8.encode "content-length: 2".toList) := by
    decide +kernel
  have hless : IsHeader (Utf8.encode "Content-Length: -40".toList) := by
    decide +kernel
  have hfar : stop (Utf8.encode "Content-Length: -40".toList) = -17 := by
    decide +kernel
  rcases keepsToFrame_iff hless with ⟨hiff, _, hend⟩
  refine ⟨(keepsToFrame_iff hnamed).1.mpr (by decide +kernel), fun hkeeps => ?_,
    fun e he => ?_⟩
  · exact absurd (hiff.mp hkeeps) (by decide +kernel)
  · have hleft := (hend (by rw [hfar]; decide) _ e he).2
    rw [hfar, length_behind] at hleft
    exact hleft

/-- With nothing behind the header, the last digit of the length and the empty
line are left; and however much comes behind one that names just as much less
than nothing, all of it is left. -/
theorem negative_length_not_kept :
    (IsHeader (Utf8.encode "Content-Length: -5".toList) ∧ ∀ room,
      extract room (Utf8.encode "Content-Length: -5".toList ++ emptyLine) =
        .ok ⟨.undecodable [], 53 :: emptyLine⟩ ∧
      ¬ KeepsToFrame room (Utf8.encode "Content-Length: -5".toList)) ∧
    IsHeader (Utf8.encode "Content-Length: -23".toList) ∧
      ∀ room behind,
        Waits room
        (Utf8.encode "Content-Length: -23".toList ++ emptyLine ++ behind) := by
  have hfive : IsHeader (Utf8.encode "Content-Length: -5".toList) := by
    decide +kernel
  have hall : IsHeader (Utf8.encode "Content-Length: -23".toList) := by
    decide +kernel
  have hlength : bodyLength (Utf8.encode "Content-Length: -5".toList) < 0 := by
    decide +kernel
  have hstop : stop (Utf8.encode "Content-Length: -23".toList) = 0 := by
    decide +kernel
  refine ⟨⟨hfive, fun room => ⟨?_, hfive.not_keepsToFrame hlength⟩⟩, hall,
    fun room behind => ⟨.undecodable [], ?_⟩⟩
  · have hleft := hfive.extract_rewound room hlength (by decide +kernel) []
    rw [List.append_nil] at hleft
    rw [hleft]
    rfl
  · have hleft := hall.extract_rewound room (by decide +kernel)
      (Int.le_of_eq hstop.symm) behind
    rw [hstop] at hleft
    exact hleft

end Frame
end InlineCompletion
