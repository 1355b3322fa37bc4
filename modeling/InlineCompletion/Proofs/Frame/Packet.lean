import InlineCompletion.Frame
import InlineCompletion.Proofs.Number.Integer

/-!
# Packets

A packet is a frame as an agent sends it: lines of ASCII, one of which names the
length of the body, an empty line, and the body.  The main statements are that a
packet is found whole at the front of bytes, whatever follows it and whatever
its body looks like, and that nothing is found in what a packet begins with.
-/

namespace InlineCompletion

/-!
# Bytes of ASCII
-/

namespace Utf8

def IsAscii (t : Text) : Prop := ∀ c ∈ t, c.toNat < 128

theorem isAscii_of_all {t : Text}
    (h : (t.all fun c => decide (c.toNat < 128)) = true) :
    IsAscii t := fun c hc => of_decide_eq_true (List.all_eq_true.mp h c hc)

theorem encode_append (s t : Text) :
    encode (s ++ t) = encode s ++ encode t := by
  unfold encode
  exact List.flatMap_append

theorem encodeChar_ascii {c : Char} (h : c.toNat < 128) :
    encodeChar c = [c.toNat.toUInt8] := by
  unfold encodeChar
  exact if_pos h

theorem encode_cons_ascii {c : Char} (h : c.toNat < 128) (rest : Text) :
    encode (c :: rest) = c.toNat.toUInt8 :: encode rest := by
  show encodeChar c ++ encode rest = _
  rw [encodeChar_ascii h]
  rfl

theorem toNat_ascii {c : Char} (h : c.toNat < 128) :
    c.toNat.toUInt8.toNat = c.toNat := by
  rw [Nat.toUInt8_eq, UInt8.toNat_ofNat']
  exact Nat.mod_eq_of_lt (Nat.lt_of_lt_of_le h (by decide))

theorem ne_return_of_ascii {c : Char} (h : c.toNat < 128) (hc : c ≠ '\r') :
    c.toNat.toUInt8 ≠ 13 := by
  intro heq
  have hnat := congrArg UInt8.toNat heq
  rw [toNat_ascii h] at hnat
  exact hc (Char.toNat_inj.mp hnat)

theorem ne_return_of_mem_encode {t : Text} (h : IsAscii t) (hreturn : '\r' ∉ t)
    {b : UInt8} (hb : b ∈ encode t) : b ≠ 13 := by
  rcases List.mem_flatMap.mp hb with ⟨c, hc, hbc⟩
  rw [encodeChar_ascii (h c hc), List.mem_singleton] at hbc
  rw [hbc]
  exact ne_return_of_ascii (h c hc) fun heq => hreturn (heq ▸ hc)

theorem first_ascii {c : Char} (h : c.toNat < 128) :
    first c.toNat.toUInt8 = ([some c], none) := by
  unfold first
  rw [toNat_ascii h]
  dsimp only
  rw [if_pos h, Char.ofNat_toNat]

theorem decodeKnown_encode_ascii {t : Text} (h : IsAscii t) :
    decodeKnown (encode t) = t := by
  unfold decodeKnown items
  induction t with
  | nil => rfl
  | cons c rest ih =>
      have hc := h c List.mem_cons_self
      have hrest := ih fun d hd => h d (List.mem_cons_of_mem c hd)
      rw [encode_cons_ascii hc, run, step, first_ascii hc]
      show c :: (run none (encode rest)).filterMap id = c :: rest
      rw [hrest]

end Utf8

namespace Frame

/-!
# The empty line

The bytes before the first empty line are found wherever bytes go on behind it.
-/

def emptyLine : Bytes := [13, 10, 13, 10]

theorem splitHeader_next {b : UInt8} {rest : Bytes}
    (h : ¬ emptyLine <+: b :: rest) :
    splitHeader (b :: rest) = (splitHeader rest).map fun p => (b :: p.1, p.2) :=
  if_neg fun hbegins => h (List.isPrefixOf_iff_prefix.mp hbegins)

theorem splitHeader_here (rest : Bytes) :
    splitHeader (emptyLine ++ rest) = some ([], rest) := rfl

theorem splitHeader_eq_some {data header rest : Bytes}
    (h : splitHeader data = some (header, rest)) :
    data = header ++ emptyLine ++ rest := by
  induction data generalizing header with
  | nil => cases h
  | cons b more ih =>
      by_cases hbegins : emptyLine <+: b :: more
      · rcases hbegins with ⟨x, hx⟩
        rw [← hx, splitHeader_here] at h
        cases h
        exact hx.symm
      · rw [splitHeader_next hbegins] at h
        rcases Option.map_eq_some_iff.mp h with ⟨p, hp, heq⟩
        cases heq
        rw [ih hp]
        rfl

theorem splitHeader_append {data header rest : Bytes}
    (h : splitHeader data = some (header, rest)) (more : Bytes) :
    splitHeader (data ++ more) = some (header, rest ++ more) := by
  induction data generalizing header with
  | nil => cases h
  | cons b tail ih =>
      by_cases hbegins : emptyLine <+: b :: tail
      · rcases hbegins with ⟨x, hx⟩
        rw [← hx, splitHeader_here] at h
        cases h
        rw [← hx, List.append_assoc, splitHeader_here]
      · rw [splitHeader_next hbegins] at h
        rcases Option.map_eq_some_iff.mp h with ⟨p, hp, heq⟩
        cases heq
        -- an empty line at the front would end within the bytes that hold
        -- another one
        have hlong : emptyLine.length ≤ (b :: tail).length := by
          rw [splitHeader_eq_some hp, List.length_cons, List.length_append,
            List.length_append]
          omega
        have hnext : ¬ emptyLine <+: b :: (tail ++ more) := by
          intro hmore
          have hprefix := List.prefix_append (b :: tail) more
          exact hbegins (List.prefix_of_prefix_length_le hmore hprefix hlong)
        show splitHeader (b :: (tail ++ more)) = _
        rw [splitHeader_next hnext, ih hp]
        rfl

theorem splitHeader_line {line : Bytes} (h : ∀ b ∈ line, b ≠ 13)
    (data : Bytes) :
    splitHeader (line ++ data) =
      (splitHeader data).map fun p => (line ++ p.1, p.2) := by
  induction line with
  | nil =>
      show splitHeader data = _
      cases splitHeader data with
      | none => rfl
      | some p => rfl
  | cons b rest ih =>
      have hb : ¬ emptyLine <+: b :: (rest ++ data) := by
        rintro ⟨x, hx⟩
        exact h b List.mem_cons_self (List.cons.inj hx).1.symm
      show splitHeader (b :: (rest ++ data)) = _
      rw [splitHeader_next hb, ih fun c hc => h c (List.mem_cons_of_mem b hc),
        Option.map_map]
      rfl

theorem splitHeader_lineEnd {b : UInt8} (hb : b ≠ 13) (data : Bytes) :
    splitHeader (13 :: 10 :: b :: data) =
      (splitHeader (b :: data)).map fun p => (13 :: 10 :: p.1, p.2) := by
  have hreturn : ¬ emptyLine <+: 13 :: 10 :: b :: data := by
    rintro ⟨x, hx⟩
    simp only [emptyLine, List.cons_append, List.cons.injEq] at hx
    exact hb hx.2.2.1.symm
  have hfeed : ¬ emptyLine <+: 10 :: b :: data := by
    rintro ⟨x, hx⟩
    exact absurd (List.cons.inj hx).1 (by decide)
  rw [splitHeader_next hreturn, splitHeader_next hfeed, Option.map_map]
  rfl

/-!
# Lines
-/

theorem lines_lineEnd (t : Text) : lines ('\r' :: '\n' :: t) = [] :: lines t :=
  rfl

theorem lines_cons {c : Char} (hc : c ≠ '\r') {t line : Text} {more : List Text}
    (h : lines t = line :: more) : lines (c :: t) = (c :: line) :: more := by
  rw [lines]
  · rw [h]
  · intro rest heq _
    exact hc heq

theorem lines_append {s : Text} (hs : ∀ c ∈ s, c ≠ '\r') {t line : Text}
    {more : List Text} (h : lines t = line :: more) :
    lines (s ++ t) = (s ++ line) :: more := by
  induction s with
  | nil => exact h
  | cons c rest ih =>
      exact lines_cons (hs c List.mem_cons_self)
        (ih fun d hd => hs d (List.mem_cons_of_mem c hd))

theorem lines_join {ls : List Text} (hne : ls ≠ [])
    (h : ∀ l ∈ ls, ∀ c ∈ l, c ≠ '\r') :
    lines (Text.join ['\r', '\n'] ls) = ls := by
  induction ls with
  | nil => exact absurd rfl hne
  | cons l rest ih =>
      have hl := h l List.mem_cons_self
      cases rest with
      | nil =>
          have hline : lines [] = [] :: [] := rfl
          have happend := lines_append hl hline
          rwa [List.append_nil] at happend
      | cons m rest =>
          have hrest :=
            ih (List.cons_ne_nil m rest) fun k hk =>
            h k (List.mem_cons_of_mem l hk)
          have hend := lines_lineEnd (Text.join ['\r', '\n'] (m :: rest))
          rw [hrest] at hend
          have happend := lines_append hl hend
          have hjoin : Text.join ['\r', '\n'] (l :: m :: rest) =
              l ++ '\r' :: '\n' :: Text.join ['\r', '\n'] (m :: rest) :=
                List.append_assoc ..
          rw [hjoin, happend, List.append_nil]

/-!
# Lengths
-/

def isLengthLine (line : Text) : Bool :=
  "content-length".toList.isPrefixOf line.lowerAscii

theorem lengthOf?_other {line : Text} (h : isLengthLine line = false) :
    lengthOf? line = none := by
  unfold lengthOf?
  exact if_neg (Bool.eq_false_iff.mp h)

theorem eq_of_toLower {c d : Char} (h : c.toLower = d)
    (hd : ¬ ('a' ≤ d ∧ d ≤ 'z')) : c = d := by
  unfold Char.toLower at h
  split at h
  · next hc =>
      have hsmall : 'a' ≤ d ∧ d ≤ 'z' := by
        rw [← h, Char.le_def, Char.le_def]
        show 'a'.val ≤ c.val + 32 ∧ c.val + 32 ≤ 'z'.val
        have hleast : 65 ≤ c.val.toNat := hc.1
        have hgreatest : c.val.toNat ≤ 90 := hc.2
        have hsum : (c.val + 32).toNat = c.val.toNat + 32 := by
          have hcase : (32 : UInt32).toNat = 32 := rfl
          rw [UInt32.toNat_add, hcase]
          exact Nat.mod_eq_of_lt (by omega)
        rw [UInt32.le_iff_toNat_le, UInt32.le_iff_toNat_le, hsum]
        show 97 ≤ c.val.toNat + 32 ∧ c.val.toNat + 32 ≤ 122
        omega
      exact absurd hsmall hd
  · exact h

theorem eq_of_map_toLower {t u : Text} (h : t.map Char.toLower = u)
    (hu : ∀ d ∈ u, ¬ ('a' ≤ d ∧ d ≤ 'z')) : t = u := by
  induction t generalizing u with
  | nil => exact h
  | cons c rest ih =>
      cases u with
      | nil => cases h
      | cons d more =>
          rcases List.cons.inj h with ⟨hc, hrest⟩
          rw [eq_of_toLower hc (hu d List.mem_cons_self),
            ih hrest fun e he => hu e (List.mem_cons_of_mem d he)]

theorem trim_blank_digits (n : Nat) :
    Text.trim isBlank (' ' :: Integer.digits n) = Integer.digits n := by
  have hkeep (t : Text) (ht : ∀ c ∈ t, c.isDigit = true) :
      t.dropWhile isBlank = t := by
    cases t with
    | nil => rfl
    | cons c rest =>
        refine List.dropWhile_cons_of_neg ?_
        rw [isBlank_of_isDigit (ht c List.mem_cons_self)]
        exact Bool.false_ne_true
  have hdigits : ∀ c ∈ Integer.digits n, c.isDigit = true :=
    fun _ => Integer.isDigit_of_mem_digits
  have hblank : isBlank ' ' = true := by decide
  unfold Text.trim
  rw [List.dropWhile_cons_of_pos hblank, hkeep _ hdigits, hkeep,
    List.reverse_reverse]
  intro c hc
  exact hdigits c (List.mem_reverse.mp hc)

theorem lowerAscii_digits (n : Nat) :
    (Integer.digits n).lowerAscii = Integer.digits n := by
  have hkept : ∀ c ∈ Integer.digits n, c.toLower = id c := by
    intro c hc
    unfold Char.toLower
    rw [dif_neg]
    · rfl
    · intro hcapital
      have hleast : 65 ≤ c.toNat := hcapital.1
      have hdigit := toNat_of_isDigit (Integer.isDigit_of_mem_digits hc)
      omega
  unfold Text.lowerAscii
  rw [List.map_congr_left hkept, List.map_id]

theorem named_eq (t : Text) :
    "content-length: ".toList ++ t =
      "content-length".toList ++ ':' :: ' ' :: t := by
  have hname :
      "content-length: ".toList = "content-length".toList ++ [':', ' '] := by
        decide
  rw [hname, List.append_assoc]
  rfl

theorem splitOn_named {line : Text} {n : Nat}
    (h : line.lowerAscii =
    "content-length".toList ++ ':' :: ' ' :: Integer.digits n) :
    ∃ name, Text.splitOn ':' line = [name, ' ' :: Integer.digits n] := by
  have hdigits : ∀ d ∈ Integer.digits n, d.isDigit = true :=
    fun _ => Integer.isDigit_of_mem_digits
  rcases List.map_eq_append_iff.mp h with ⟨name, rest, hline, hname, hrest⟩
  have hcolon : ':' ∉ name := by
    intro hmem
    have hlower : (':').toLower ∈ "content-length".toList := by
      rw [← hname]
      exact List.mem_map_of_mem hmem
    revert hlower
    decide
  -- what stands behind the name has no letters that could be capitals
  have hvalue : rest = ':' :: ' ' :: Integer.digits n := by
    apply eq_of_map_toLower hrest
    intro d hd
    rcases List.mem_cons.mp hd with rfl | hd
    · decide
    · rcases List.mem_cons.mp hd with rfl | hd
      · decide
      · rintro ⟨hleast, _⟩
        have hletter : 97 ≤ d.toNat := hleast
        have hdigit := (toNat_of_isDigit (hdigits d hd)).2
        omega
  have hcolon' : ':' ∉ ' ' :: Integer.digits n := by
    intro hmem
    rcases List.mem_cons.mp hmem with heq | hmem
    · exact absurd heq (by decide)
    · exact absurd (hdigits ':' hmem) (by decide)
  exists name
  rw [hline, hvalue, Text.splitOn_append hcolon,
    Text.splitOn_of_not_mem hcolon']

theorem lengthOf?_named {line : Text} {n : Nat}
    (h : line.lowerAscii = "content-length: ".toList ++ Integer.digits n)
    (hn : (Integer.digits n).length ≤ Integer.maxDigits) :
    lengthOf? line = some (n : Int) := by
  rw [named_eq] at h
  have hlength : "content-length".toList.isPrefixOf line.lowerAscii = true := by
    rw [h]
    exact List.isPrefixOf_iff_prefix.mpr (List.prefix_append _ _)
  rcases splitOn_named h with ⟨name, hsplit⟩
  unfold lengthOf?
  rw [if_pos hlength, hsplit]
  dsimp only
  rw [trim_blank_digits, Integer.read_digits hn]
  rfl

end Frame

/-!
# Packets
-/

/-- The header lines of a frame and its body. -/
structure Packet where
  lines : List Text
  body : Bytes

namespace Packet

/-- Whether a packet is one that an agent sends: lines of ASCII without line
ends, none but the first of them empty, of which exactly one is about the length
of the body and says it.  The length has no more digits than an integer may have
that is read. -/
structure Sendable (p : Packet) : Prop where
  ascii {line : Text} (h : line ∈ p.lines) : Utf8.IsAscii line
  unbroken {line : Text} (h : line ∈ p.lines) : '\r' ∉ line ∧ '\n' ∉ line
  filled {line : Text} (h : line ∈ p.lines.tail) : line ≠ []
  named : ∃ before line after, p.lines = before ++ line :: after ∧
    line.lowerAscii =
      "content-length: ".toList ++ Integer.digits p.body.length ∧
    ∀ other ∈ before ++ after, Frame.isLengthLine other = false
  short : (Integer.digits p.body.length).length ≤ Integer.maxDigits

def header (p : Packet) : Bytes := Utf8.encode (Text.join ['\r', '\n'] p.lines)

def bytes (p : Packet) : Bytes := p.header ++ Frame.emptyLine ++ p.body

theorem join_starts (sep : Text) (c : Char) (line : Text) (more : List Text) :
    ∃ t, Text.join sep ((c :: line) :: more) = c :: t := by
  cases more with
  | nil => exact ⟨line, rfl⟩
  | cons k more => exact ⟨_, rfl⟩

theorem splitHeader_join {ls : List Text} (hascii : ∀ l ∈ ls, Utf8.IsAscii l)
    (hunbroken : ∀ l ∈ ls, '\r' ∉ l) (hfilled : ∀ l ∈ ls.tail, l ≠ [])
    (rest : Bytes) :
    Frame.splitHeader
      (Utf8.encode (Text.join ['\r', '\n'] ls) ++ Frame.emptyLine ++ rest) =
        some (Utf8.encode (Text.join ['\r', '\n'] ls), rest) := by
  induction ls with
  | nil => rfl
  | cons l more ih =>
      have hl : ∀ b ∈ Utf8.encode l, b ≠ 13 := fun _ =>
        Utf8.ne_return_of_mem_encode (hascii l List.mem_cons_self)
          (hunbroken l List.mem_cons_self)
      cases more with
      | nil =>
          show Frame.splitHeader (Utf8.encode l ++ Frame.emptyLine ++ rest) =
            some (Utf8.encode l, rest)
          rw [List.append_assoc, Frame.splitHeader_line hl,
            Frame.splitHeader_here]
          show some (Utf8.encode l ++ [], rest) = _
          rw [List.append_nil]
      | cons m more =>
          have hrest := ih (fun k hk => hascii k (List.mem_cons_of_mem l hk))
            (fun k hk => hunbroken k (List.mem_cons_of_mem l hk))
            fun k hk => hfilled k (List.mem_cons_of_mem m hk)
          have hm : m ∈ l :: m :: more :=
            List.mem_cons_of_mem l List.mem_cons_self
          cases m with
          | nil => exact absurd rfl (hfilled [] List.mem_cons_self)
          | cons c m =>
              rcases join_starts ['\r', '\n'] c m more with ⟨t, ht⟩
              have hc : c.toNat < 128 := hascii _ hm c List.mem_cons_self
              have hreturn : c ≠ '\r' :=
                fun heq => hunbroken _ hm (heq ▸ List.mem_cons_self)
              have hencode :
                  Utf8.encode (Text.join ['\r', '\n'] (l :: (c :: m) :: more)) =
                  Utf8.encode l ++ 13 :: 10 :: c.toNat.toUInt8 ::
                    Utf8.encode t := by
                show Utf8.encode (l ++ ['\r', '\n'] ++
                  Text.join ['\r', '\n'] ((c :: m) :: more)) = _
                rw [Utf8.encode_append, Utf8.encode_append, ht,
                  Utf8.encode_cons_ascii hc, List.append_assoc]
                rfl
              rw [ht, Utf8.encode_cons_ascii hc] at hrest
              rw [hencode, List.append_assoc, List.append_assoc,
                Frame.splitHeader_line hl]
              show (Frame.splitHeader
                (13 :: 10 :: c.toNat.toUInt8 ::
                  (Utf8.encode t ++ (Frame.emptyLine ++ rest)))).map _ = _
              rw [Frame.splitHeader_lineEnd
                (Utf8.ne_return_of_ascii hc hreturn)]
              rw [List.append_assoc] at hrest
              change Frame.splitHeader (c.toNat.toUInt8 :: (Utf8.encode t ++
                (Frame.emptyLine ++ rest))) = _ at hrest
              rw [hrest]
              rfl

theorem join_ascii {ls : List Text} (h : ∀ l ∈ ls, Utf8.IsAscii l) :
    Utf8.IsAscii (Text.join ['\r', '\n'] ls) := by
  have hend : Utf8.IsAscii ['\r', '\n'] := Utf8.isAscii_of_all (by decide)
  induction ls with
  | nil => exact fun c hc => nomatch hc
  | cons l rest ih =>
      have hrest := ih fun k hk => h k (List.mem_cons_of_mem l hk)
      cases rest with
      | nil => exact h l List.mem_cons_self
      | cons m rest =>
          intro c hc
          rcases List.mem_append.mp hc with hc | hc
          · rcases List.mem_append.mp hc with hc | hc
            · exact h l List.mem_cons_self c hc
            · exact hend c hc
          · exact hrest c hc

theorem foldl_lengthOf?_other {ls : List Text}
    (h : ∀ l ∈ ls, Frame.isLengthLine l = false) (n : Int) :
    ls.foldl (fun n line => (Frame.lengthOf? line).getD n) n = n := by
  induction ls with
  | nil => rfl
  | cons l rest ih =>
      rw [List.foldl_cons, Frame.lengthOf?_other (h l List.mem_cons_self)]
      exact ih fun k hk => h k (List.mem_cons_of_mem l hk)

theorem Sendable.bodyLength_header {p : Packet} (h : p.Sendable) :
    Frame.bodyLength p.header = p.body.length := by
  rcases h.named with ⟨before, line, after, hlines, hline, hothers⟩
  have hne : p.lines ≠ [] := by
    rw [hlines]
    exact List.append_ne_nil_of_right_ne_nil _ (List.cons_ne_nil line after)
  have hreturn : ∀ l ∈ p.lines, ∀ c ∈ l, c ≠ '\r' :=
    fun l hl c hc heq => (h.unbroken hl).1 (heq ▸ hc)
  unfold Frame.bodyLength header
  rw [Utf8.decodeKnown_encode_ascii (join_ascii fun _ => h.ascii),
    Frame.lines_join hne hreturn, hlines, List.foldl_append, List.foldl_cons,
    Frame.lengthOf?_named hline h.short]
  have hafter : ∀ l ∈ after, Frame.isLengthLine l = false :=
    fun l hl => hothers l (List.mem_append_right before hl)
  exact foldl_lengthOf?_other hafter _

theorem Sendable.splitHeader_bytes {p : Packet} (h : p.Sendable)
    (rest : Bytes) :
    Frame.splitHeader (p.bytes ++ rest) = some (p.header, p.body ++ rest) := by
  unfold bytes
  rw [List.append_assoc]
  exact splitHeader_join (fun _ => h.ascii) (fun _ hl => (h.unbroken hl).1)
    (fun _ => h.filled) _

theorem length_bytes (p : Packet) :
    p.bytes.length = p.header.length + 4 + p.body.length := by
  unfold bytes
  rw [List.length_append, List.length_append]
  rfl

theorem extract_behind {room : Nat} {header rest : Bytes} {n : Nat}
    {data : Bytes} (hdata : data = header ++ Frame.emptyLine ++ rest)
    (hsplit : Frame.splitHeader data = some (header, rest))
    (hlength : Frame.bodyLength header = n) :
    Frame.extract room data =
      if rest.length < n then .ok ⟨.incomplete, data⟩
      else (Frame.decodeBody room (rest.take n)).map fun found =>
        ⟨found, rest.drop n⟩ := by
  have hempty : Frame.emptyLine.length = 4 := rfl
  have hfront : (header ++ Frame.emptyLine).length = header.length + 4 := by
    rw [List.length_append, hempty]
  have hall : data.length = header.length + 4 + rest.length := by
    rw [hdata, List.length_append, hfront]
  have hstart : (header.length : Int) + 4 = ((header.length + 4 : Nat) : Int) :=
    rfl
  have hstop : ((header.length + 4 : Nat) : Int) + (n : Int) =
      ((header.length + 4 + n : Nat) : Int) := rfl
  unfold Frame.extract
  rw [hsplit]
  dsimp only
  rw [hlength, hstart, hstop]
  by_cases hshort : rest.length < n
  · rw [if_pos hshort, if_pos]
    rw [hall]
    omega
  · rw [if_neg hshort, if_neg]
    · have hbetween : Slice.between data ((header.length + 4 : Nat) : Int)
          ((header.length + 4 + n : Nat) : Int) = rest.take n := by
        unfold Slice.between
        rw [Slice.before_natCast, Slice.place_natCast,
          Nat.min_eq_left (by omega), ← hfront, hdata,
          List.take_length_add_append, List.drop_left]
      have hafter :
          Slice.after data ((header.length + 4 + n : Nat) : Int) =
            rest.drop n := by
        rw [Slice.after_natCast, ← hfront, hdata, List.drop_length_add_append]
      rw [hbetween, hafter]
    · rw [hall]
      omega

/-- A packet is found at the front of bytes, whatever follows. -/
theorem Sendable.extract_bytes {p : Packet} (h : p.Sendable) (room : Nat)
    (rest : Bytes) :
    Frame.extract room (p.bytes ++ rest) =
      (Frame.decodeBody room p.body).map fun found => ⟨found, rest⟩ := by
  have hdata :
      p.bytes ++ rest = p.header ++ Frame.emptyLine ++ (p.body ++ rest) :=
    List.append_assoc ..
  have hlong : ¬ (p.body ++ rest).length < p.body.length := by
    rw [List.length_append]
    omega
  rw [extract_behind hdata (h.splitHeader_bytes rest) h.bodyLength_header,
    if_neg hlong, List.take_left, List.drop_left]

/-- Nothing is found in what a packet begins with. -/
theorem Sendable.extract_of_prefix {room : Nat} {p : Packet} (h : p.Sendable)
    {data : Bytes} (hbegins : data <+: p.bytes) (hne : data ≠ p.bytes) :
    Frame.extract room data = .ok ⟨.incomplete, data⟩ := by
  rcases hbegins with ⟨more, hmore⟩
  have hfull := h.splitHeader_bytes []
  rw [List.append_nil, List.append_nil] at hfull
  cases hsplit : Frame.splitHeader data with
  | none => exact Frame.extract_of_splitHeader_eq_none hsplit
  | some split =>
      rcases split with ⟨header, rest⟩
      have hdata := Frame.splitHeader_eq_some hsplit
      have hagain := Frame.splitHeader_append hsplit more
      rw [hmore, hfull] at hagain
      rcases Prod.mk.inj (Option.some.inj hagain) with ⟨hheader, hbody⟩
      have hpositive : 0 < more.length := by
        refine List.length_pos_iff.mpr ?_
        intro hnil
        rw [hnil, List.append_nil] at hmore
        exact hne hmore
      have hshort : rest.length < p.body.length := by
        rw [hbody, List.length_append]
        omega
      have hlength := h.bodyLength_header
      rw [hheader] at hlength
      rw [extract_behind hdata hsplit hlength, if_pos hshort]

/-!
# Packets with a plain header
-/

def plain (body : Bytes) : Packet :=
  ⟨["Content-Length: ".toList ++ Integer.digits body.length], body⟩

theorem plain_line {n : Nat} {c : Char}
    (h : c ∈ "Content-Length: ".toList ++ Integer.digits n) :
    32 ≤ c.toNat ∧ c.toNat < 128 := by
  rcases List.mem_append.mp h with hname | hdigits
  · have hprinted : ("Content-Length: ".toList.all fun c =>
        decide (32 ≤ c.toNat ∧ c.toNat < 128)) = true := by decide
    exact of_decide_eq_true (List.all_eq_true.mp hprinted c hname)
  · have hdigit := toNat_of_isDigit (Integer.isDigit_of_mem_digits hdigits)
    omega

theorem plain_sendable {body : Bytes}
    (h : (Integer.digits body.length).length ≤ Integer.maxDigits) :
    (plain body).Sendable := by
  refine ⟨?_, ?_, ?_, ⟨[], _, [], rfl, ?_, ?_⟩, h⟩
  · intro line hline c hc
    rw [List.mem_singleton.mp hline] at hc
    exact (plain_line hc).2
  · intro line hline
    rw [List.mem_singleton.mp hline]
    constructor
    · intro hreturn
      exact absurd (plain_line hreturn).1 (by decide)
    · intro hfeed
      exact absurd (plain_line hfeed).1 (by decide)
  · exact fun hline => nomatch hline
  · have hdigits := Frame.lowerAscii_digits body.length
    unfold Text.lowerAscii at hdigits ⊢
    rw [List.map_append, hdigits]
    rfl
  · exact fun other hother => nomatch hother

theorem framed_eq_ok_iff {body bytes : Bytes} :
    Frame.framed body = .ok bytes ↔
      Integer.isShowable body.length = true ∧ bytes = (plain body).bytes := by
  have hbytes :
      Utf8.encode (Frame.header body.length) ++ body = (plain body).bytes := by
    unfold Frame.header
    rw [Utf8.encode_append]
    rfl
  unfold Frame.framed
  rw [hbytes]
  split
  · next hlength =>
      rw [Except.ok.injEq, eq_comm]
      exact (and_iff_right hlength).symm
  · next hlength => exact ⟨nofun, fun h => absurd h.1 hlength⟩

theorem encode_eq_ok_iff {room : Nat} {message : Json} {bytes : Bytes} :
    Frame.encode room message = .ok bytes ↔
      ∃ t, message.write room = .ok t ∧
        Integer.isShowable (Utf8.encode t).length = true ∧
        bytes = (plain (Utf8.encode t)).bytes := by
  unfold Frame.encode
  cases message.write room with
  | error f => exact ⟨nofun, fun ⟨_, h, _⟩ => nomatch h⟩
  | ok t =>
      simp only [Except.bind, framed_eq_ok_iff]
      constructor
      · exact fun h => ⟨t, rfl, h⟩
      · rintro ⟨_, ⟨⟩, h⟩
        exact h

end Packet
end InlineCompletion
