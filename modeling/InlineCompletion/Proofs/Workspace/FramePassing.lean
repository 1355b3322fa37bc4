import InlineCompletion.Proofs.Frame.Extent
import InlineCompletion.Proofs.Json.RoundTrip
import InlineCompletion.Proofs.Text.Utf8
import InlineCompletion.Proofs.Workspace.Feed

/-!
# Passing a frame

A whole frame at the front of the buffer is passed when it is taken off with its
body, be it that the value of the body is acted on, or that the body is no value
and dropped.  What stands behind it is read next, and it is all that can be left
in the buffer, whether or not anything fails.  The main statement is that every
frame is passed but those with a body that is refused for its size, and that
such a frame stays at the front of the buffer: each chunk fails, and only makes
the buffer longer.
-/

namespace InlineCompletion

namespace Json

section Digits

variable {t : Text} (hdigits : ∀ c ∈ t, isDigit c = true)
include hdigits

theorem head_not_mem_of_isDigit {c : Char} (hc : c ∈ t.head?) {others : Text}
    (hothers : others.all (fun c => !isDigit c) = true) : c ∉ others := by
  intro hmem
  have hother := List.all_eq_true.mp hothers c hmem
  rw [hdigits c (List.mem_of_mem_head? hc)] at hother
  cases hother

theorem readWhole_of_isDigit (hzero : ∀ more, t ≠ '0' :: more) :
    readWhole t = (t, []) := by
  unfold readWhole
  split
  · next more => exact absurd rfl (hzero more)
  · rw [List.takeWhile_eq_self_iff.mpr hdigits,
      List.dropWhile_eq_nil_iff.mpr hdigits]

theorem read_tooLong (hzero : ∀ more, t ≠ '0' :: more)
    (hlong : Integer.maxDigits < t.length) (room : Nat) :
    read room t = .error (.tooLong t.length) := by
  have hplain : readPlain t = .error (.tooLong t.length) := by
    rw [readPlain_digits fun c hc => head_not_mem_of_isDigit hdigits hc
      (by decide)]
    unfold readMagnitude
    rw [readWhole_of_isDigit hdigits hzero]
    cases t with
    | nil => exact absurd hlong (Nat.not_lt_zero _)
    | cons c more => exact if_pos hlong
  cases t with
  | nil => exact absurd hlong (Nat.not_lt_zero _)
  | cons c more =>
      have hopens : Opens (c :: more) := by
        refine ⟨c, more, rfl, ?_, ?_⟩
        · have hgap : c ∉ [' ', '\n', '\r', '\t'] :=
            head_not_mem_of_isDigit hdigits rfl (by decide)
          simpa [isGap, and_assoc] using hgap
        · have hmark : c ∉ [']'] :=
            head_not_mem_of_isDigit hdigits rfl (by decide)
          simpa using hmark
      unfold read
      rw [hopens.skipGap, enoughSteps, readValue_plain, hplain]
      · rfl
      · exact head_not_mem_of_isDigit hdigits rfl (by decide)

end Digits

end Json

theorem Utf8.encode_replicate {c : Char} (h : c.toNat < 128) (n : Nat) :
    encode (List.replicate n c) = List.replicate n c.toNat.toUInt8 := by
  induction n with
  | zero => rfl
  | succ n ih =>
      rw [List.replicate_succ, encode_cons_ascii h, ih, List.replicate_succ]

/-!
# Whole frames
-/

namespace Frame

variable {room : Nat}

theorem exceeds_digits {t : Text} (hdigits : ∀ c ∈ t, isDigit c = true)
    (hzero : ∀ more, t ≠ '0' :: more) (hlong : Integer.maxDigits < t.length) :
    Exceeds room (Utf8.encode t) :=
  .digits (Utf8.decode?_encode t) (Json.read_tooLong hdigits hzero hlong room)

section Whole

variable {header body : Bytes} (h : IsHeader header)
    (hlength : bodyLength header = body.length)
include h hlength

theorem IsHeader.extract_whole (room : Nat) (behind : Bytes) :
    extract room (header ++ emptyLine ++ (body ++ behind)) =
      (decodeBody room body).map fun found => ⟨found, behind⟩ := by
  rw [h.extract_nonneg room hlength, if_neg (by simp), List.take_left,
    List.drop_left]

theorem IsHeader.extract_passed (hfit : ¬ Exceeds room body) (behind : Bytes) :
    extract room (header ++ emptyLine ++ (body ++ behind)) =
      .ok ⟨meant room body, behind⟩ := by
  rw [h.extract_whole hlength room, decodeBody_of_not_exceeds hfit]
  rfl

theorem IsHeader.extract_exceeding (hlarge : Exceeds room body)
    (behind : Bytes) :
    ∃ f, extract room (header ++ emptyLine ++ (body ++ behind)) = .error f := by
  rw [h.extract_whole hlength room]
  rcases hlarge.decodeBody with ⟨n, hbody⟩ | hbody
  · rw [hbody]
    exact ⟨_, rfl⟩
  · rw [hbody]
    exact ⟨_, rfl⟩

end Whole

theorem length_frame_gt (header body behind : Bytes) :
    behind.length < (header ++ emptyLine ++ (body ++ behind)).length := by
  rw [length_behind, List.length_append]
  omega

end Frame

/-!
# The buffer
-/

namespace Workspace

theorem buffered_self (w : Workspace Connection) :
    w.buffered w.env.link.buffer = w := rfl

theorem consume_buffer_suffix {room : Nat} {data : Bytes}
    {w : Workspace Connection} (hw : w.env.link.buffer = data) :
    (w.consume room data).2.env.link.buffer <:+ data := by
  induction hn : data.length using Nat.strongRecOn generalizing data w with
  | ind n ih =>
  subst hn
  have htold (found : Frame.Found) :
      (w.tellDropped found).env.link.buffer = data := by
    cases found with
    | undecodable body => exact hw
    | _ => exact hw
  cases hextract : Frame.extract room data with
  | error f =>
      rw [consume_of_error hextract]
      exact hw ▸ List.suffix_refl _
  | ok e =>
      by_cases hsame : e.rest.length = data.length
      · rw [consume_of_same hextract hsame]
        exact htold e.found ▸ List.suffix_refl _
      · have hrest := Frame.extract_rest_suffix hextract
        have hshorter : e.rest.length < data.length :=
          Nat.lt_of_le_of_ne hrest.length_le hsame
        rw [consume_of_extract hextract hsame, act_buffered]
        cases hact : (w.tellDropped e.found).act e.found with
        | mk r w' =>
            cases r with
            | error f => exact hrest
            | ok u =>
                exact (ih e.rest.length hshorter (w := w'.buffered e.rest) rfl
                  rfl).trans hrest

def feedOn (w : Workspace Connection) (chunks : List Bytes) :
    Workspace Connection :=
  chunks.foldl (fun w chunk => (w.feed chunk).2) w

/-- Whether nothing is ever taken off the front of the buffer again: every chunk
fails, and nothing changes but that its bytes stand in the buffer. -/
def Stuck (w : Workspace Connection) : Prop :=
  ∀ chunks, w.feedOn chunks = w.buffered (w.env.link.buffer ++ chunks.flatten) ∧
    ∀ chunk, ((w.feedOn chunks).feed chunk).1 ≠ .ok ()

section Frame

variable {header body behind : Bytes} (h : Frame.IsHeader header)
  (hlength : Frame.bodyLength header = body.length)
  {w : Workspace Connection} {chunk : Bytes}
  (harrived : w.env.link.buffer ++ chunk =
    header ++ Frame.emptyLine ++ (body ++ behind))
include h hlength harrived

theorem feed_passed (hfit : ¬ Frame.Exceeds w.env.link.room body) :
    w.feed chunk =
      match (w.tellDropped (Frame.meant w.env.link.room body)).act
        (Frame.meant w.env.link.room body) with
      | (.error f, w) => (.error f, w.buffered behind)
      | (.ok (), w) => (w.buffered []).feed behind := by
  have hextract := h.extract_passed hlength hfit behind
  have hshorter := Frame.length_frame_gt header body behind
  show (w.buffered (w.env.link.buffer ++ chunk)).consume w.env.link.room
    (w.env.link.buffer ++ chunk) = _
  rw [harrived, consume_of_extract hextract (Nat.ne_of_lt hshorter),
    act_buffered]
  have htold (bytes : Bytes) (found : Frame.Found) :
      (w.buffered bytes).tellDropped found =
        (w.tellDropped found).buffered bytes := by
    cases found with
    | undecodable body => rfl
    | _ => rfl
  have hroom : ((w.tellDropped (Frame.meant w.env.link.room body)).act
      (Frame.meant w.env.link.room body)).2.env.link.room =
        w.env.link.room := by
    rw [(act_buffer_room _ _).2]
    cases Frame.meant w.env.link.room body with
    | undecodable body => rfl
    | _ => rfl
  rw [htold, act_buffered]
  cases hact : (w.tellDropped (Frame.meant w.env.link.room body)).act
      (Frame.meant w.env.link.room body) with
  | mk r w' =>
      rw [hact] at hroom
      cases r with
      | error f => rfl
      | ok u =>
          show (w'.buffered behind).consume w.env.link.room behind =
            (w'.buffered behind).consume w'.env.link.room behind
          rw [hroom]

theorem feed_exceeding (hlarge : Frame.Exceeds w.env.link.room body) :
    (w.feed chunk).1 ≠ .ok () ∧
      (w.feed chunk).2 =
        w.buffered (header ++ Frame.emptyLine ++ (body ++ behind)) := by
  rcases h.extract_exceeding hlength hlarge behind with ⟨f, hextract⟩
  have hfeed : w.feed chunk =
      (.error f,
        w.buffered (header ++ Frame.emptyLine ++ (body ++ behind))) := by
    show (w.buffered (w.env.link.buffer ++ chunk)).consume w.env.link.room
      (w.env.link.buffer ++ chunk) = _
    rw [harrived]
    exact consume_of_error hextract
  rw [hfeed]
  exact ⟨nofun, rfl⟩

end Frame

theorem stuck_of_exceeds {header body behind : Bytes}
    (h : Frame.IsHeader header)
    (hlength : Frame.bodyLength header = body.length) {w : Workspace Connection}
    (hlarge : Frame.Exceeds w.env.link.room body)
    (hbuffer : w.env.link.buffer =
    header ++ Frame.emptyLine ++ (body ++ behind)) : w.Stuck := by
  have harrives {w : Workspace Connection} {behind : Bytes} (chunk : Bytes)
      (hbuffer : w.env.link.buffer =
        header ++ Frame.emptyLine ++ (body ++ behind)) :
      w.env.link.buffer ++ chunk =
        header ++ Frame.emptyLine ++ (body ++ (behind ++ chunk)) := by
    rw [hbuffer]
    simp only [List.append_assoc]
  intro chunks
  induction chunks generalizing w behind with
  | nil =>
      constructor
      · rw [List.flatten_nil, List.append_nil, buffered_self]
        rfl
      · exact fun chunk =>
          (feed_exceeding h hlength (harrives chunk hbuffer) hlarge).1
  | cons chunk more ih =>
      have hfed := (feed_exceeding h hlength (harrives chunk hbuffer) hlarge).2
      have hnext : (w.feed chunk).2.env.link.buffer =
          header ++ Frame.emptyLine ++ (body ++ (behind ++ chunk)) := by
        rw [hfed]
        rfl
      have hroom : (w.feed chunk).2.env.link.room = w.env.link.room := by
        rw [hfed]
        rfl
      rcases ih (hroom ▸ hlarge) hnext with ⟨hmore, hfails⟩
      constructor
      · show (w.feed chunk).2.feedOn more = _
        rw [hmore, hnext, ← harrives chunk hbuffer, hfed, List.flatten_cons,
          List.append_assoc]
        rfl
      · exact hfails

theorem stuck_behind {header body behind : Bytes} (h : Frame.IsHeader header)
    (hlength : Frame.bodyLength header = body.length) {w : Workspace Connection}
    {chunk : Bytes}
    (harrived : w.env.link.buffer ++ chunk =
    header ++ Frame.emptyLine ++ (body ++ behind))
    (hlarge : Frame.Exceeds w.env.link.room body) : (w.feed chunk).2.Stuck := by
  have hstays := (feed_exceeding h hlength harrived hlarge).2
  have hbuffer := congrArg (fun w => w.env.link.buffer) hstays
  have hroom : (w.feed chunk).2.env.link.room = w.env.link.room := by
    rw [hstays]
    rfl
  exact stuck_of_exceeds h hlength (hroom ▸ hlarge) hbuffer

theorem stuck_at_once {header body : Bytes} (h : Frame.IsHeader header)
    (hlength : Frame.bodyLength header = body.length) {w : Workspace Connection}
    (hlarge : Frame.Exceeds w.env.link.room body)
    (hw : w.env.link.buffer = []) :
    (∀ e, Frame.extract w.env.link.room (header ++ Frame.emptyLine ++ body) ≠
    .ok e) ∧
      (w.feed (header ++ Frame.emptyLine ++ body)).1 ≠ .ok () ∧
      (w.feed (header ++ Frame.emptyLine ++ body)).2.Stuck := by
  have harrived : w.env.link.buffer ++ (header ++ Frame.emptyLine ++ body) =
      header ++ Frame.emptyLine ++ (body ++ []) := by
    rw [hw, List.nil_append, List.append_nil]
  rcases feed_exceeding h hlength harrived hlarge with ⟨hfails, hstays⟩
  refine ⟨?_, hfails, stuck_behind h hlength harrived hlarge⟩
  intro e hextract
  rcases h.extract_exceeding hlength hlarge [] with ⟨f, hf⟩
  rw [List.append_nil] at hf
  cases hextract.symm.trans hf

/-- Whatever the body of a whole frame holds, the frame is taken off with it and
what stands behind is read next, if and only if the body is not refused for its
size.  Then nothing but an end of what stood behind it is left in the buffer.
Otherwise very many digits, or very many arrays and objects, stand in the body;
nothing changes, and the frame is never passed. -/
theorem frame_passed_iff {header body : Bytes} (h : Frame.IsHeader header)
    (hlength : Frame.bodyLength header = body.length) (behind : Bytes)
    (room : Nat) :
    (Frame.extract room (header ++ Frame.emptyLine ++ (body ++ behind)) =
        .ok ⟨Frame.meant room body, behind⟩ ↔ ¬ Frame.Exceeds room body) ∧
      (Frame.Exceeds room body → ∃ text, Utf8.decode? body = some text ∧
        ((∃ ds, ds <:+: text ∧ (∀ c ∈ ds, isDigit c = true) ∧
          Integer.maxDigits < ds.length) ∨
          room < Json.brackets text)) ∧
      ∀ (w : Workspace Connection) (chunk : Bytes), w.env.link.room = room →
        w.env.link.buffer ++ chunk =
          header ++ Frame.emptyLine ++ (body ++ behind) →
        ((w.feed chunk).2.env.link.buffer <:+ behind ↔
          ¬ Frame.Exceeds room body) ∧
        (¬ Frame.Exceeds room body →
          w.feed chunk =
            match (w.tellDropped (Frame.meant room body)).act
              (Frame.meant room body) with
            | (.error f, w) => (.error f, w.buffered behind)
            | (.ok (), w) => (w.buffered []).feed behind) ∧
        (Frame.Exceeds room body →
          (w.feed chunk).1 ≠ .ok () ∧
            (w.feed chunk).2 = w.buffered (w.env.link.buffer ++ chunk) ∧
            (w.feed chunk).2.Stuck) := by
  refine ⟨?_, Frame.Exceeds.large, ?_⟩
  · constructor
    · intro hextract hlarge
      rcases h.extract_exceeding hlength hlarge behind with ⟨f, hf⟩
      cases hextract.symm.trans hf
    · exact fun hfit => h.extract_passed hlength hfit behind
  · intro w chunk hroom harrived
    subst hroom
    have hpassed := feed_passed h hlength harrived
    have hfailed := feed_exceeding h hlength harrived
    refine ⟨⟨?_, ?_⟩, hpassed, ?_⟩
    · intro hsuffix hlarge
      have hlength := hsuffix.length_le
      rw [(hfailed hlarge).2] at hlength
      exact Nat.not_le_of_lt (Frame.length_frame_gt header body behind) hlength
    · intro hfit
      rw [hpassed hfit]
      cases (w.tellDropped (Frame.meant w.env.link.room body)).act
          (Frame.meant w.env.link.room body) with
      | mk r w' =>
          cases r with
          | error f => exact List.suffix_refl _
          | ok u => exact consume_buffer_suffix (w := w'.buffered behind) rfl
    · intro hlarge
      rcases hfailed hlarge with ⟨hfails, hstays⟩
      exact ⟨hfails, harrived ▸ hstays, stuck_behind h hlength harrived hlarge⟩

/-- A frame with a body that is not UTF-8, of which a part has arrived, and a
value behind it. -/
theorem frame_passed_iff_garbled :
    let header := Utf8.encode "Content-Length: 2".toList
    let behind :=
  (Packet.plain (Utf8.encode "\x7b\"method\": \"m\"\x7d".toList)).bytes
    let w := unfed.buffered (header ++ [13, 10])
    Frame.IsHeader header ∧
      (w.feed ([13, 10] ++ ([255, 34] ++ behind))).2.env.link.buffer <:+
        behind := by
  intro header behind w
  have hheader : Frame.IsHeader header := by decide +kernel
  have hlength : Frame.bodyLength header = ([255, 34] : Bytes).length := by
    decide +kernel
  have hfit : ¬ Frame.Exceeds 100 [255, 34] := by
    have hgarbled : Utf8.decode? [255, 34] = none := by decide +kernel
    intro hlarge
    cases hlarge with
    | digits decoded _ => cases hgarbled.symm.trans decoded
    | depth decoded _ => cases hgarbled.symm.trans decoded
  exists hheader
  exact ((frame_passed_iff hheader hlength behind 100).2.2 w _ rfl rfl).1.mpr
    hfit

/-- One integer is the whole body, and it has a digit too many. -/
def tooLong : Bytes := Utf8.encode (List.replicate 4301 '9')

theorem tooLong_exceeds (room : Nat) : Frame.Exceeds room tooLong := by
  apply Frame.exceeds_digits
  · intro c hc
    rw [List.eq_of_mem_replicate hc]
    decide
  · intro more heq
    have hhead := (List.cons.inj (List.replicate_succ ▸ heq)).1
    exact absurd hhead (by decide)
  · rw [List.length_replicate]
    decide

/-- A body that is well-formed is neither read nor dropped, and its frame is
never passed. -/
theorem long_integer_not_passed :
    let header := Utf8.encode "Content-Length: 4301".toList
    Frame.IsHeader header ∧ Frame.bodyLength header = tooLong.length ∧
      (∀ e, Frame.extract 100 (header ++ Frame.emptyLine ++ tooLong) ≠ .ok e) ∧
      (unfed.feed (header ++ Frame.emptyLine ++ tooLong)).1 ≠ .ok () ∧
      (unfed.feed (header ++ Frame.emptyLine ++ tooLong)).2.Stuck := by
  intro header
  have hheader : Frame.IsHeader header := by decide +kernel
  have hlength : Frame.bodyLength header = tooLong.length := by
    rw [tooLong, Utf8.encode_replicate (by decide), List.length_replicate]
    decide +kernel
  exact ⟨hheader, hlength,
    stuck_at_once (w := unfed) hheader hlength (tooLong_exceeds 100) rfl⟩

end Workspace
end InlineCompletion
