import InlineCompletion.Proofs.Frame.Body
import InlineCompletion.Proofs.Frame.Stream
import InlineCompletion.Proofs.Workspace.Buffer

/-!
# Feeding

The agent sends packets one behind the other, and their bytes arrive in chunks
that may be cut anywhere.  What is done is said by the packets alone: each value
but null is acted on, and each body that is no value is told of and dropped.
The main statement is that feeding the chunks does that and leaves the beginning
of the last packet in the buffer, if and only if nothing fails over a value and
no body is nested too deeply.  Such a body is never dropped: it stays at the
front of the buffer, and whatever arrives behind it is not read.
-/

namespace InlineCompletion

namespace Packet

def value? (room : Nat) (p : Packet) : Option Json :=
  Frame.value? room p.body

/-- Whether reading the body meets no integer with too many digits. -/
def Countable (room : Nat) (p : Packet) : Prop :=
  ∀ digits, Frame.decodeBody room p.body ≠ .error (.tooManyDigits digits)

/-- Whether the body is nested too deeply to be read. -/
def TooDeep (room : Nat) (p : Packet) : Prop :=
  Frame.decodeBody room p.body = .error .tooDeep

variable {room : Nat}

theorem countable_of_isOk {p : Packet}
    (h : (Frame.decodeBody room p.body).isOk = true) :
    p.Countable room := by
  intro digits hbody
  rw [hbody] at h
  cases h

instance (p : Packet) : Decidable (p.TooDeep room) :=
  match h : Frame.decodeBody room p.body with
  | .ok _ => isFalse fun hdeep => nomatch h.symm.trans hdeep
  | .error f =>
      if hf : f = .tooDeep then isTrue (h.trans (congrArg Except.error hf))
      else isFalse fun hdeep => hf (Except.error.inj (h.symm.trans hdeep))

theorem not_exceeds {p : Packet} (hcountable : p.Countable room)
    (hdeep : ¬ p.TooDeep room) : ¬ Frame.Exceeds room p.body := by
  intro hlarge
  rcases hlarge.decodeBody with ⟨n, hbody⟩ | hbody
  · exact hcountable n hbody
  · exact hdeep hbody

theorem decodeBody_cases {p : Packet} (hcountable : p.Countable room)
    (hdeep : ¬ p.TooDeep room) :
    (Frame.decodeBody room p.body = .ok (.undecodable p.body) ∧
    p.value? room = none) ∨
      ∃ v, Frame.decodeBody room p.body = .ok (.message v) ∧
        p.value? room = some v := by
  rw [Frame.decodeBody_of_not_exceeds (p.not_exceeds hcountable hdeep),
    Frame.meant]
  unfold value?
  cases Frame.value? room p.body with
  | none => exact Or.inl ⟨rfl, rfl⟩
  | some v => exact Or.inr ⟨v, rfl, rfl⟩

/-- No integer of a body has too many digits where there are never so many
behind one another. -/
theorem countable_of_digits {p : Packet}
    (h : ∀ text, Utf8.decode? p.body = some text → ∀ ds, ds <:+: text →
      (∀ c ∈ ds, isDigit c = true) → ds.length ≤ Integer.maxDigits) :
    p.Countable room := by
  intro digits hbody
  rcases Frame.decodeBody_error hbody with
    ⟨text, hdecode, ⟨n, -, hread⟩ | ⟨hf, -⟩⟩
  · rcases Json.read_earned hread with ⟨hmany, ds, hds, hlength, hdigits⟩
    have hfew := h text hdecode ds hds hdigits
    omega
  · cases hf

theorem not_tooDeep_of_brackets {p : Packet}
    (h : ∀ text, Utf8.decode? p.body = some text → Json.brackets text ≤ room) :
    ¬ p.TooDeep room := by
  intro hbody
  rcases Frame.decodeBody_error hbody with
    ⟨text, hdecode, ⟨n, hf, -⟩ | ⟨-, hread⟩⟩
  · cases hf
  · have hmany : room < Json.brackets text := Json.read_earned hread
    have hfew := h text hdecode
    omega

end Packet

namespace Workspace

variable {room : Nat}

/-- Packets are acted on one after the other, until something fails: a value
other than null goes to whatever waits for it, and a body that is no value is
dropped. -/
def dispatch (room : Nat) (w : Workspace Connection) :
    List Packet → Except Fault Unit × Workspace Connection
  | [] => (.ok (), w)
  | p :: rest =>
      match p.value? room with
      | none => (w.tell (.undecodable p.body)).dispatch room rest
      | some .null => w.dispatch room rest
      | some message =>
          match w.handle message with
          | (.error f, w) => (.error f, w)
          | (.ok (), w) => w.dispatch room rest

def feedAll (w : Workspace Connection) :
    List Bytes → Except Fault Unit × Workspace Connection
  | [] => (.ok (), w)
  | chunk :: rest =>
      match w.feed chunk with
      | (.error f, w) => (.error f, w)
      | (.ok (), w) => w.feedAll rest

theorem dispatch_append (ps qs : List Packet) (w : Workspace Connection) :
    w.dispatch room (ps ++ qs) =
      match w.dispatch room ps with
      | (.error f, w) => (.error f, w)
      | (.ok (), w) => w.dispatch room qs := by
  induction ps generalizing w with
  | nil => rfl
  | cons p rest ih =>
      rw [List.cons_append, dispatch, dispatch]
      split
      · exact ih _
      · exact ih _
      · split
        · rfl
        · exact ih _

/-!
# One packet
-/

theorem consume_of_error {w : Workspace Connection} {data : Bytes} {f : Fault}
    (h : Frame.extract room data = .error f) :
    w.consume room data = (.error f, w) := by
  rw [consume]
  split
  · next f' h' =>
      rw [h] at h'
      cases h'
      rfl
  · next e h' =>
      rw [h] at h'
      cases h'

theorem consume_of_extract {w : Workspace Connection} {data : Bytes}
    {e : Frame.Extracted} (h : Frame.extract room data = .ok e)
    (hlength : e.rest.length ≠ data.length) :
    w.consume room data =
      match ((w.tellDropped e.found).buffered e.rest).act e.found with
      | (.error f, w) => (.error f, w)
      | (.ok (), w) => w.consume room e.rest := by
  rw [consume]
  split
  · next f h' =>
      rw [h] at h'
      cases h'
  · next e' h' =>
      rw [h] at h'
      cases h'
      dsimp only
      rw [dif_neg hlength]
      rfl

theorem consume_of_same {w : Workspace Connection} {data : Bytes}
    {e : Frame.Extracted} (h : Frame.extract room data = .ok e)
    (hlength : e.rest.length = data.length) :
    w.consume room data = (.ok (), w.tellDropped e.found) := by
  rw [consume]
  split
  · next f h' =>
      rw [h] at h'
      cases h'
  · next e' h' =>
      rw [h] at h'
      cases h'
      exact dif_pos hlength

theorem consume_beginning {w : Workspace Connection} {data : Bytes}
    (h : IsBeginning data) :
    w.consume room data = (.ok (), w) := consume_of_same (h.extract room) rfl

theorem consume_tooDeep {w : Workspace Connection} {p : Packet}
    (hp : p.Sendable) (hdeep : p.TooDeep room) (more : Bytes) :
    w.consume room (p.bytes ++ more) = (.error .tooDeep, w) := by
  have hextract := hp.extract_bytes room more
  rw [hdeep] at hextract
  exact consume_of_error hextract

theorem dispatch_undecodable {p : Packet} (hvalue : p.value? room = none)
    (w : Workspace Connection) (rest : List Packet) :
    w.dispatch room (p :: rest) =
      (w.tell (.undecodable p.body)).dispatch room rest := by
  rw [dispatch, hvalue]

theorem dispatch_message {p : Packet} {v : Json}
    (hvalue : p.value? room = some v) (w : Workspace Connection)
    (rest : List Packet) :
    w.dispatch room (p :: rest) =
      match w.act (.message v) with
      | (.error f, w) => (.error f, w)
      | (.ok (), w) => w.dispatch room rest := by
  rw [dispatch, hvalue]
  cases v with
  | null => rfl
  | _ => rfl

theorem feed_tooDeep {w : Workspace Connection} {p : Packet} (hp : p.Sendable)
    (hdeep : p.TooDeep w.env.link.room)
    {more : Bytes} (hbuffer : w.env.link.buffer = p.bytes ++ more)
    (data : Bytes) :
    w.feed data =
      (.error .tooDeep, w.buffered (p.bytes ++ (more ++ data))) := by
  have hall : w.env.link.buffer ++ data = p.bytes ++ (more ++ data) := by
    rw [hbuffer, List.append_assoc]
  show (w.buffered (w.env.link.buffer ++ data)).consume w.env.link.room
    (w.env.link.buffer ++ data) = _
  rw [hall]
  exact consume_tooDeep hp hdeep (more ++ data)

theorem consume_packet {p : Packet} (hp : p.Sendable)
    (hcountable : p.Countable room) (hdeep : ¬ p.TooDeep room)
    (w : Workspace Connection) (bytes more : Bytes) :
    (w.buffered bytes).consume room (p.bytes ++ more) =
      match w.dispatch room [p] with
      | (.error f, w) => (.error f, w.buffered more)
      | (.ok (), w) => (w.buffered more).consume room more := by
  have hlength : more.length ≠ (p.bytes ++ more).length := by
    rw [List.length_append, p.length_bytes]
    omega
  have hextract := hp.extract_bytes room more
  rcases p.decodeBody_cases hcountable hdeep with
    ⟨hbody, hvalue⟩ | ⟨v, hbody, hvalue⟩
  · rw [hbody] at hextract
    rw [consume_of_extract hextract hlength, dispatch_undecodable hvalue]
    rfl
  · rw [hbody] at hextract
    have hact :
        (((w.buffered bytes).tellDropped (.message v)).buffered more).act
          (.message v) =
        _ := act_buffered more (.message v) w
    rw [consume_of_extract hextract hlength, dispatch_message hvalue]
    dsimp only
    rw [hact]
    cases w.act (.message v) with
    | mk r w' =>
        cases r with
        | error f => rfl
        | ok u => rfl

/-!
# Chunks
-/

/-- Whether packets are acted on without a fault and none of them is nested too
deeply. -/
def Smooth (room : Nat) (w : Workspace Connection) (ps : List Packet) : Prop :=
  (w.dispatch room ps).1 = .ok () ∧ ∀ p ∈ ps, ¬ p.TooDeep room

/-- Whether bytes that hold packets and the beginning of another were taken in
as the packets say, or failed because they could not be. -/
def TakenIn (room : Nat) (w : Workspace Connection) (ps : List Packet)
    (tail : Bytes) (result : Except Fault Unit × Workspace Connection) : Prop :=
  (w.Smooth room ps → result = (.ok (), (w.dispatch room ps).2.buffered tail)) ∧
    (¬ w.Smooth room ps → result.1 ≠ .ok ())

theorem dispatch_room (ps : List Packet) (w : Workspace Connection) :
    (w.dispatch room ps).2.env.link.room = w.env.link.room := by
  induction ps generalizing w with
  | nil => rfl
  | cons p rest ih =>
      cases hvalue : p.value? room with
      | none =>
          rw [dispatch_undecodable hvalue]
          exact ih _
      | some v =>
          have hact := (act_buffer_room (.message v) w).2
          rw [dispatch_message hvalue]
          cases hmessage : w.act (.message v) with
          | mk r w' =>
              rw [hmessage] at hact
              cases r with
              | error f => exact hact
              | ok u => exact (ih w').trans hact

theorem dispatch_append_ok {w : Workspace Connection} {ps : List Packet}
    (h : (w.dispatch room ps).1 = .ok ()) (qs : List Packet) :
    w.dispatch room (ps ++ qs) = (w.dispatch room ps).2.dispatch room qs := by
  rw [dispatch_append]
  cases hps : w.dispatch room ps with
  | mk r w' =>
      rw [hps] at h
      cases h
      rfl

theorem smooth_nil (room : Nat) (w : Workspace Connection) : w.Smooth room [] :=
  ⟨rfl, fun _ hp => nomatch hp⟩

theorem smooth_append (room : Nat) (w : Workspace Connection)
    (ps qs : List Packet) :
    w.Smooth room (ps ++ qs) ↔
      w.Smooth room ps ∧ (w.dispatch room ps).2.Smooth room qs := by
  constructor
  · intro h
    have hps : (w.dispatch room ps).1 = .ok () := by
      have hall := h.1
      rw [dispatch_append] at hall
      cases hps : w.dispatch room ps with
      | mk r w' =>
          rw [hps] at hall
          cases r with
          | error f => cases hall
          | ok u => rfl
    have hqs := h.1
    rw [dispatch_append_ok hps] at hqs
    exact ⟨⟨hps, fun p hp => h.2 p (List.mem_append_left qs hp)⟩, hqs,
      fun q hq => h.2 q (List.mem_append_right ps hq)⟩
  · rintro ⟨hps, hqs⟩
    constructor
    · rw [dispatch_append_ok hps.1]
      exact hqs.1
    · intro p hp
      rcases List.mem_append.mp hp with hp | hp
      · exact hps.2 p hp
      · exact hqs.2 p hp

namespace TakenIn

variable {w : Workspace Connection} {ps qs : List Packet} {tail : Bytes}
  {result : Except Fault Unit × Workspace Connection}

theorem failed (hps : ¬ w.Smooth room ps) (h : result.1 ≠ .ok ()) :
    TakenIn room w (ps ++ qs) tail result := by
  constructor
  · intro hall
    exact absurd ((smooth_append room w ps qs).mp hall).1 hps
  · exact fun _ => h

theorem behind (hps : w.Smooth room ps)
    (h : TakenIn room (w.dispatch room ps).2 qs tail result) :
    TakenIn room w (ps ++ qs) tail result := by
  have hall := smooth_append room w ps qs
  constructor
  · intro hsmooth
    rw [dispatch_append_ok hps.1]
    exact h.1 (hall.mp hsmooth).2
  · intro hrough
    exact h.2 fun hqs => hrough (hall.mpr ⟨hps, hqs⟩)

end TakenIn

theorem consume_stream {ps : List Packet}
    (hps : ∀ p ∈ ps, p.Sendable ∧ p.Countable room) {rest : Bytes}
    (hrest : IsBeginning rest) (w : Workspace Connection) :
    TakenIn room w ps rest
      ((w.buffered (stream ps ++ rest)).consume room (stream ps ++ rest)) := by
  induction ps generalizing w with
  | nil =>
      show TakenIn room w [] rest ((w.buffered rest).consume room rest)
      rw [consume_beginning hrest]
      exact ⟨fun _ => rfl, fun h => absurd (smooth_nil room w) h⟩
  | cons p ps ih =>
      rcases hps p List.mem_cons_self with ⟨hp, hcountable⟩
      have htail := ih fun q hq => hps q (List.mem_cons_of_mem p hq)
      rw [stream_cons, List.append_assoc]
      show TakenIn room w ([p] ++ ps) rest _
      by_cases hdeep : p.TooDeep room
      · rw [consume_tooDeep hp hdeep]
        refine .failed ?_ nofun
        exact fun h => h.2 p List.mem_cons_self hdeep
      · rw [consume_packet hp hcountable hdeep]
        cases hone : w.dispatch room [p] with
        | mk r w' =>
            cases r with
            | error f =>
                refine .failed ?_ nofun
                intro h
                have hok := h.1
                rw [hone] at hok
                cases hok
            | ok u =>
                refine .behind ⟨?_, ?_⟩ ?_
                · rw [hone]
                · intro q hq
                  rw [List.mem_singleton.mp hq]
                  exact hdeep
                · rw [hone]
                  exact htail w'

theorem feedAll_stream {chunks : List Bytes} {ps : List Packet}
    (hps : ∀ p ∈ ps, p.Sendable ∧ p.Countable room) {tail rest : Bytes}
    (htail : IsBeginning tail) (hrest : IsBeginning rest)
    (h : rest ++ chunks.flatten = stream ps ++ tail) (w : Workspace Connection)
    (hroom : w.env.link.room = room) :
    TakenIn room w ps tail ((w.buffered rest).feedAll chunks) := by
  induction chunks generalizing ps rest w with
  | nil =>
      -- all bytes are the beginning of one packet, so that there is no whole
      -- one
      rw [List.flatten_nil, List.append_nil] at h
      have hnil : ps = [] := by
        rw [h] at hrest
        exact hrest.eq_nil fun p hp => (hps p hp).1
      subst hnil
      rw [show rest = tail from h]
      exact ⟨fun _ => rfl, fun h => absurd (smooth_nil room w) h⟩
  | cons chunk more ih =>
      rw [List.flatten_cons, ← List.append_assoc] at h
      rcases split_stream (fun p hp => (hps p hp).1) htail h with
        ⟨before, after, rest', hsplit, hbefore, hrest', hafter⟩
      subst hsplit
      have hfed :=
        consume_stream (fun p hp => hps p (List.mem_append_left after hp))
        hrest' w
      have hchunk : (w.buffered rest).feed chunk =
          (w.buffered (stream before ++ rest')).consume room
            (stream before ++ rest') := by
        rw [← hbefore, ← hroom]
        rfl
      rw [feedAll, hchunk]
      -- a chunk that fails ends the feeding, whatever packets come behind it
      by_cases hsmooth : w.Smooth room before
      · rw [hfed.1 hsmooth]
        have hlater :=
          ih (fun p hp => hps p (List.mem_append_right before hp)) hrest' hafter
        exact .behind hsmooth (hlater _ ((dispatch_room before w).trans hroom))
      · have hfailed := hfed.2 hsmooth
        split
        · exact .failed hsmooth nofun
        · next heq =>
            rw [heq] at hfailed
            exact absurd rfl hfailed

theorem takenIn_feedAll {w : Workspace Connection} (hw : w.env.link.buffer = [])
    (hroom : w.env.link.room = room)
    {ps : List Packet} (hps : ∀ p ∈ ps, p.Sendable ∧ p.Countable room)
    {tail : Bytes} (htail : IsBeginning tail) {chunks : List Bytes}
    (hchunks : chunks.flatten = stream ps ++ tail) :
    TakenIn room w ps tail (w.feedAll chunks) := by
  have hempty : w.buffered [] = w := by
    rw [← hw]
    rfl
  have htaken := feedAll_stream hps htail .nil hchunks w hroom
  rw [hempty] at htaken
  exact htaken

theorem feedAll_shallow {w : Workspace Connection} (hw : w.env.link.buffer = [])
    (hroom : w.env.link.room = room)
    {ps : List Packet} (hps : ∀ p ∈ ps, p.Sendable ∧ p.Countable room)
    (hshallow : ∀ p ∈ ps, ∀ text, Utf8.decode? p.body = some text →
      Json.brackets text ≤ room)
    {tail : Bytes} (htail : IsBeginning tail) {chunks : List Bytes}
    (hchunks : chunks.flatten = stream ps ++ tail) :
    (w.feedAll chunks).1 = .ok () ↔ (w.dispatch room ps).1 = .ok () := by
  have htaken := takenIn_feedAll hw hroom hps htail hchunks
  have hdeep : ∀ p ∈ ps, ¬ p.TooDeep room :=
    fun p hp => p.not_tooDeep_of_brackets (hshallow p hp)
  constructor
  · intro h
    by_cases hsmooth : w.Smooth room ps
    · exact hsmooth.1
    · exact absurd h (htaken.2 hsmooth)
  · intro h
    rw [htaken.1 ⟨h, hdeep⟩]

/-- However the bytes of packets are cut into chunks, feeding them acts on the
packets one after the other and leaves the beginning of the next one in the
buffer, if and only if nothing fails over a value and no body is nested too
deeply. -/
theorem feedAll_eq_dispatch_iff {w : Workspace Connection}
    (hw : w.env.link.buffer = []) {ps : List Packet}
    (hsendable : ∀ p ∈ ps, p.Sendable)
    (hcountable : ∀ p ∈ ps, p.Countable w.env.link.room) {tail : Bytes}
    (htail : IsBeginning tail) {chunks : List Bytes}
    (hchunks : chunks.flatten = stream ps ++ tail) :
    w.feedAll chunks =
      (.ok (), (w.dispatch w.env.link.room ps).2.buffered tail) ↔
      (w.dispatch w.env.link.room ps).1 = .ok () ∧
        ∀ p ∈ ps, ¬ p.TooDeep w.env.link.room := by
  have hps : ∀ p ∈ ps, p.Sendable ∧ p.Countable w.env.link.room :=
    fun p hp => ⟨hsendable p hp, hcountable p hp⟩
  have htaken := takenIn_feedAll hw rfl hps htail hchunks
  constructor
  · intro h
    by_cases hsmooth : w.Smooth w.env.link.room ps
    · exact hsmooth
    · have hfailed := htaken.2 hsmooth
      rw [h] at hfailed
      exact absurd rfl hfailed
  · exact htaken.1

instance (r : Except Fault Unit) : Decidable (r = .ok ()) :=
  match r with
  | .ok () => isTrue rfl
  | .error _ => isFalse nofun

def unfed : Workspace Connection :=
  create (.ofLink (.fresh ["agent"] none 100)) .root [] .usual

/-- Packets with a body that is no value, with null behind a longer header, and
with a notification that looks like a header. -/
def assortment : List Packet :=
  [.plain [255, 13, 10, 13, 10],
    ⟨["Kind: any".toList, "CONTENT-length: 4".toList],
    Utf8.encode "null".toList⟩,
    .plain (Utf8.encode
      "\x7b\"method\": \r\n\r\n\"Content-Length: é\"\x7d".toList)]

theorem assortment_sendable : ∀ p ∈ assortment, p.Sendable := by
  intro p hp
  simp only [assortment, List.mem_cons, List.not_mem_nil, or_false] at hp
  rcases hp with rfl | rfl | rfl
  · exact Packet.plain_sendable (Integer.length_digits_le (by decide))
  · refine ⟨?_, ?_, ?_, ⟨["Kind: any".toList], _, [], rfl, ?_, ?_⟩, ?_⟩
    · intro line hline
      apply Utf8.isAscii_of_all
      revert line
      decide
    · intro line hline
      revert line
      decide
    · intro line hline
      revert line
      decide
    · decide
    · decide
    · exact Integer.length_digits_le (by decide)
  · exact Packet.plain_sendable (Integer.length_digits_le (by decide))

/-- The packets arrive byte by byte, and a few bytes of another one behind
them. -/
theorem feedAll_eq_dispatch_iff_bytewise :
    (unfed.dispatch 100 assortment).2.env.trace.length = 2 ∧
      unfed.feedAll
          ((stream assortment ++ (Packet.plain []).bytes.take 9).map
            fun b => [b]) =
        (.ok (),
          (unfed.dispatch 100 assortment).2.buffered
          ((Packet.plain []).bytes.take 9)) := by
  have hcountable :
      ∀ p ∈ assortment, (Frame.decodeBody 100 p.body).isOk = true := by
        decide +kernel
  have hdeep : ∀ p ∈ assortment, ¬ p.TooDeep 100 := by decide +kernel
  have hbegins : IsBeginning ((Packet.plain []).bytes.take 9) := by
    refine ⟨.plain [],
      Packet.plain_sendable (Integer.length_digits_le (by decide)), ?_, ?_⟩
    · exact List.take_prefix 9 _
    · decide
  have hchunks (bytes : Bytes) : (bytes.map fun b => [b]).flatten = bytes := by
    induction bytes with
    | nil => rfl
    | cons b rest ih => exact congrArg (b :: ·) ih
  constructor
  · decide +kernel
  · exact (feedAll_eq_dispatch_iff rfl assortment_sendable
      (fun p hp => Packet.countable_of_isOk (hcountable p hp)) hbegins
        (hchunks _)).mpr
      ⟨by decide +kernel, hdeep⟩

def nested : Packet := .plain (List.replicate 1000 91)

/-- A body that is nested too deeply is not dropped. -/
theorem nested_not_dispatched :
    unfed.env.link.buffer = [] ∧ nested.Sendable ∧ nested.Countable 100 ∧
      (unfed.dispatch 100 [nested]).1 = .ok () ∧
      unfed.feedAll [nested.bytes] ≠
        (.ok (), (unfed.dispatch 100 [nested]).2.buffered []) := by
  have hsendable : nested.Sendable := by
    refine Packet.plain_sendable (Integer.length_digits_le ?_)
    rw [List.length_replicate]
    decide
  have hdeep : nested.TooDeep 100 := by decide +kernel
  have hcountable : nested.Countable 100 := by
    intro digits hbody
    rw [hdeep] at hbody
    cases hbody
  refine ⟨rfl, hsendable, hcountable, by decide +kernel, ?_⟩
  have hfed :
      (unfed.buffered nested.bytes).consume 100 (nested.bytes ++ []) = _ :=
    consume_tooDeep hsendable hdeep []
  rw [List.append_nil] at hfed
  change unfed.feed nested.bytes = _ at hfed
  intro heq
  rw [feedAll, hfed] at heq
  have hresult := congrArg Prod.fst heq
  cases hresult

end Workspace
end InlineCompletion
