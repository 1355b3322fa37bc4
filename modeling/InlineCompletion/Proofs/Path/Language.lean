import InlineCompletion.Agent.Connection
import InlineCompletion.Path.Language
import InlineCompletion.Proofs.Path.Uri
import InlineCompletion.Workspace.Basic

/-!
# Languages of addresses

A document's language is looked up by the extension of the path or the address
that it was opened by, as that was given.  In an address the extension stands
escaped, and a backslash separates nothing.  The main statement says which
absolute paths have the language of their addresses, whatever the extensions
that languages are given for: those whose extension needs no escapes and is
found behind the last slash.
-/

namespace InlineCompletion
namespace Path

/-!
# Names
-/

theorem exists_last {kind : Char → Bool} {t : Text}
    (h : ∃ c ∈ t, kind c = true) :
    ∃ front c tail, t = front ++ c :: tail ∧ kind c = true ∧
      ∀ c ∈ tail, kind c = false := by
  induction t with
  | nil => simp at h
  | cons d rest ih =>
      by_cases hrest : ∃ c ∈ rest, kind c = true
      · rcases ih hrest with ⟨front, c, tail, hsplit, hc, htail⟩
        exact ⟨d :: front, c, tail, by simp [hsplit], hc, htail⟩
      · have hnone : ∀ c ∈ rest, kind c = false := by simpa using hrest
        rcases h with ⟨c, hmem, hc⟩
        rcases List.mem_cons.mp hmem with heq | hmem
        · exact ⟨[], d, rest, by simp, by rw [← heq]; exact hc, hnone⟩
        · simp [hnone c hmem] at hc

theorem exists_last_point {name : Text} (h : '.' ∈ name) :
    ∃ front tail, name = front ++ '.' :: tail ∧ '.' ∉ tail := by
  rcases exists_last ⟨'.', h, beq_self_eq_true '.'⟩ with
    ⟨front, c, tail, hsplit, hc, hnone⟩
  rw [← eq_of_beq hc] at hsplit
  refine ⟨front, tail, hsplit, ?_⟩
  intro hmem
  simpa using hnone '.' hmem

theorem reverse_takeWhile_behind {keep : Char → Bool} {c : Char}
    (hc : keep c = false) {tail : Text} (h : ∀ d ∈ tail, keep d = true)
    (front : Text) :
    ((front ++ c :: tail).reverse.takeWhile keep).reverse = tail := by
  have hall : ∀ d ∈ tail.reverse, keep d = true :=
    fun d hd => h d (List.mem_reverse.mp hd)
  rw [List.reverse_append, List.reverse_cons, List.append_assoc,
    List.takeWhile_append_of_pos hall]
  simp [hc]

theorem reverse_takeWhile_whole {keep : Char → Bool} {t : Text}
    (h : ∀ d ∈ t, keep d = true) :
    (t.reverse.takeWhile keep).reverse = t := by
  have hall : t.reverse.takeWhile keep = t.reverse := by
    apply List.takeWhile_eq_self_iff.mpr
    intro d hd
    exact h d (List.mem_reverse.mp hd)
  rw [hall, List.reverse_reverse]

theorem bne_point_of_mem {t : Text} (h : '.' ∉ t) :
    ∀ c ∈ t, (c != '.') = true := by
  intro c hc
  rw [bne_iff_ne]
  intro heq
  rw [heq] at hc
  exact h hc

theorem extension_of_no_point {name : Text} (h : '.' ∉ name) :
    extension name = [] := by
  unfold extension
  rw [reverse_takeWhile_whole (bne_point_of_mem h)]
  simp

theorem extension_point {tail : Text} (h : '.' ∉ tail) (front : Text) :
    extension (front ++ '.' :: tail) = if front.all (· == '.') then [] else
      '.' :: tail := by
  unfold extension
  rw [reverse_takeWhile_behind (by simp) (bne_point_of_mem h)]
  have hlength : tail.length ≠ (front ++ '.' :: tail).length := by simp; omega
  have hbefore :
      (front ++ '.' :: tail).length - tail.length - 1 = front.length := by
        simp; omega
  simp only [if_neg hlength, hbefore, List.take_left]

theorem exists_of_extension_ne_nil {name : Text} (h : extension name ≠ []) :
    ∃ front tail, name = front ++ '.' :: tail ∧ '.' ∉ tail ∧
      front.all (· == '.') = false ∧
      extension name = '.' :: tail := by
  by_cases hpoint : '.' ∈ name
  · rcases exists_last_point hpoint with ⟨front, tail, rfl, htail⟩
    rw [extension_point htail] at h ⊢
    by_cases hall : front.all (· == '.') = true
    · simp [hall] at h
    · exact ⟨front, tail, rfl, htail, by simpa using hall, by simp [hall]⟩
  · exact absurd (extension_of_no_point hpoint) h

/-!
# Last components
-/

theorem lastPart_of_no_slash {t : Text} (h : ∀ c ∈ t, isSlash c = false) :
    lastPart t = t := by
  apply reverse_takeWhile_whole
  intro c hc
  simp [h c hc]

theorem lastPart_append {c : Char} (hc : isSlash c = true) {tail : Text}
    (h : ∀ c ∈ tail, isSlash c = false) (front : Text) :
    lastPart (front ++ c :: tail) = tail := by
  apply reverse_takeWhile_behind
  · simp [hc]
  · intro d hd
    simp [h d hd]

theorem lastPart_append_part (front : Text) {tail : Text}
    (h : ∀ c ∈ tail, isSlash c = false) :
    lastPart (front ++ tail) = lastPart front ++ tail := by
  by_cases hfront : ∃ c ∈ front, isSlash c = true
  · rcases exists_last hfront with ⟨before, c, part, rfl, hc, hpart⟩
    rw [lastPart_append hc hpart, List.append_assoc, List.cons_append,
      lastPart_append hc]
    intro d hd
    rcases List.mem_append.mp hd with hd | hd
    · exact hpart d hd
    · exact h d hd
  · have hnone : ∀ c ∈ front, isSlash c = false := by simpa using hfront
    rw [lastPart_of_no_slash hnone, lastPart_of_no_slash]
    intro d hd
    rcases List.mem_append.mp hd with hd | hd
    · exact hnone d hd
    · exact h d hd

theorem trimEnd_append_cons {skip : Char → Bool} {c : Char} (h : skip c = false)
    (front tail : Text) :
    Text.trimEnd skip (front ++ c :: tail) =
      front ++ c :: Text.trimEnd skip tail := by
  unfold Text.trimEnd
  rw [List.reverse_append, List.reverse_cons, List.append_assoc,
    List.dropWhile_append]
  split
  · next hempty => simp [h, List.isEmpty_iff.mp hempty]
  · simp

theorem exists_trimEnd (skip : Char → Bool) (t : Text) :
    ∃ cut, t = Text.trimEnd skip t ++ cut := by
  refine ⟨(t.reverse.takeWhile skip).reverse, ?_⟩
  unfold Text.trimEnd
  rw [← List.reverse_append, List.takeWhile_append_dropWhile,
    List.reverse_reverse]

/-- Of a text with a point, the extension that is found is the text's, but for
slashes at its end, or none is found. -/
theorem extension_basename (text : Text) :
    extension (basename text) = [] ∨ extension text = [] ∨
      ∃ cut, extension text = extension (basename text) ++ cut := by
  by_cases hnone : extension text = []
  · exact Or.inr (Or.inl hnone)
  rcases exists_of_extension_ne_nil hnone with
    ⟨front, tail, rfl, htail, _, hextension⟩
  rcases exists_trimEnd isSlash tail with ⟨cut, hcut⟩
  have hkept : '.' ∉ Text.trimEnd isSlash tail := by
    intro hmem
    rw [hcut] at htail
    exact htail (List.mem_append_left _ hmem)
  have hbase : basename (front ++ '.' :: tail) =
      lastPart (front ++ '.' :: Text.trimEnd isSlash tail) := by
    unfold basename
    rw [trimEnd_append_cons (by decide)]
  rw [hbase, hextension]
  by_cases hslash : ∃ c ∈ Text.trimEnd isSlash tail, isSlash c = true
  · -- the name stands behind that slash, and the last point before it
    rcases exists_last hslash with ⟨before, c, part, hsplit, hc, hpart⟩
    apply Or.inl
    rw [hsplit, ← List.cons_append, ← List.append_assoc,
      lastPart_append hc hpart]
    apply extension_of_no_point
    intro hmem
    rw [hsplit] at hkept
    exact hkept (List.mem_append_right _ (List.mem_cons_of_mem _ hmem))
  · have hbare : ∀ c ∈ '.' :: Text.trimEnd isSlash tail, isSlash c = false := by
      intro c hc
      rcases List.mem_cons.mp hc with heq | hmem
      · rw [heq]
        decide
      · simpa using fun h => hslash ⟨c, hmem, h⟩
    rw [lastPart_append_part front hbare, extension_point hkept]
    split
    · exact Or.inl rfl
    · apply Or.inr
      apply Or.inr
      refine ⟨cut, ?_⟩
      rw [List.cons_append, ← hcut]

theorem extension_append_slash {last : Text} (h : extension last ≠ [])
    (front : Text) :
    extension (front ++ '/' :: last) = extension last := by
  rcases exists_of_extension_ne_nil h with
    ⟨name, tail, rfl, htail, _, hextension⟩
  rw [hextension, ← List.cons_append, ← List.append_assoc,
    extension_point htail, if_neg]
  simp

theorem basename_append_slash {last : Text} (hfilled : last ≠ [])
    (h : ∀ c ∈ last, isSlash c = false) (front : Text) :
    basename (front ++ '/' :: last) = last := by
  have hend :
      Text.trimEnd isSlash (front ++ '/' :: last) = front ++ '/' :: last := by
    rcases List.eq_nil_or_concat last with hnil | ⟨most, c, rfl⟩
    · exact absurd hnil hfilled
    · have hc : isSlash c = false := h c (by simp)
      have hcut := trimEnd_append_cons hc (front ++ '/' :: most) []
      simpa [Text.trimEnd] using hcut
  rw [basename_eq, hend, lastPart_append (by decide) h]

theorem join_concat {parts : List Text} (h : parts ≠ []) (last : Text) :
    Text.join ['/'] (parts ++ [last]) =
      Text.join ['/'] parts ++ '/' :: last := by
  induction parts with
  | nil => exact absurd rfl h
  | cons part rest ih =>
      cases rest with
      | nil => simp [Text.join]
      | cons next more =>
          have hmore := ih (List.cons_ne_nil next more)
          simp only [List.cons_append, Text.join] at hmore ⊢
          simp [hmore]

theorem exists_last_component {dir : Directory} {path : Text}
    (h : absolute dir path = path) :
    ((components path).getLast? = none ∧ (path = ['/'] ∨ path = ['/', '/'])) ∨
      ∃ front last, (components path).getLast? = some last ∧
        path = front ++ '/' :: last ∧
        Proper last := by
  have hhead : path.head? = some '/' := by
    rw [← h]
    exact absolute_head? dir path
  have hresolved : path = root path ++ Text.join ['/'] (components path) := by
    rw [absolute_of_head? hhead] at h
    exact h.symm
  have hroot : ∃ front, root path = front ++ ['/'] := by
    rcases root_of_head? hhead with hone | htwo
    · exact ⟨[], hone⟩
    · exact ⟨['/'], htwo⟩
  cases hlast : (components path).getLast? with
  | none =>
      rw [List.getLast?_eq_none_iff.mp hlast] at hresolved
      apply Or.inl
      constructor
      · rfl
      · rcases root_of_head? hhead with hone | htwo
        · exact Or.inl (by simpa [hone, Text.join] using hresolved)
        · exact Or.inr (by simpa [htwo, Text.join] using hresolved)
  | some last =>
      rcases List.getLast?_eq_some_iff.mp hlast with ⟨parts, hparts⟩
      have hproper : Proper last := by
        apply components_proper path
        rw [hparts]
        simp
      rcases hroot with ⟨front, hfront⟩
      apply Or.inr
      rw [hparts, hfront] at hresolved
      by_cases hnone : parts = []
      · refine ⟨front, last, rfl, ?_, hproper⟩
        rw [hresolved, hnone]
        simp [Text.join]
      · refine ⟨front ++ '/' :: Text.join ['/'] parts, last, rfl, ?_, hproper⟩
        rw [hresolved, join_concat hnone]
        simp

end Path

namespace Uri

/-!
# Escaped names
-/

theorem escape_append (s t : Text) :
    escape (s ++ t) = escape s ++ escape t := by
  simp [escape, Utf8.encode]

theorem escape_cons (c : Char) (t : Text) :
    escape (c :: t) = escape [c] ++ escape t :=
  escape_append [c] t

@[simp] theorem escape_nil : escape [] = [] := by
  simp [escape, Utf8.encode]

theorem encodeChar_ne_nil (c : Char) : Utf8.encodeChar c ≠ [] := by
  unfold Utf8.encodeChar
  dsimp only
  split
  · simp
  split
  · simp
  split
  · simp
  · simp

theorem encodeChar_of_mem {c : Char} {b : UInt8} (h : b ∈ Utf8.encodeChar c)
    (hb : b.toNat < 0x80) : c.toNat = b.toNat := by
  have hscalar : c.toNat < 0xD800 ∨ 0xDFFF < c.toNat ∧ c.toNat < 0x110000 :=
    c.valid
  have hhigh {n : Nat} (hleast : 0x80 ≤ n) (hgreatest : n < 0x100) :
      b ≠ n.toUInt8 := by
    intro heq
    rw [heq, Utf8.toNat_byte (by omega)] at hb
    omega
  unfold Utf8.encodeChar at h
  dsimp only at h
  split at h
  · rw [List.mem_singleton.mp h, Utf8.toNat_byte (by omega)]
  split at h
  · simp only [List.mem_cons, List.not_mem_nil, or_false] at h
    rcases h with h | h
    · exact absurd h (hhigh (by omega) (by omega))
    · exact absurd h (hhigh (by omega) (by omega))
  split at h
  · simp only [List.mem_cons, List.not_mem_nil, or_false] at h
    rcases h with h | h | h
    · exact absurd h (hhigh (by omega) (by omega))
    · exact absurd h (hhigh (by omega) (by omega))
    · exact absurd h (hhigh (by omega) (by omega))
  · simp only [List.mem_cons, List.not_mem_nil, or_false] at h
    rcases h with h | h | h | h
    · exact absurd h (hhigh (by omega) (by omega))
    · exact absurd h (hhigh (by omega) (by omega))
    · exact absurd h (hhigh (by omega) (by omega))
    · exact absurd h (hhigh (by omega) (by omega))

theorem escapeByte_marks (b : UInt8) :
    ('.' ∈ escapeByte b → b.toNat = 0x2E) ∧
    ('/' ∈ escapeByte b → b.toNat = 0x2F) ∧
      '\\' ∉ escapeByte b := by
  refine forall_byte (P := fun b => ('.' ∈ escapeByte b → b.toNat = 0x2E) ∧
    ('/' ∈ escapeByte b → b.toNat = 0x2F) ∧ '\\' ∉ escapeByte b) ?_ b
  decide +kernel

theorem mem_of_mem_escape {c : Char} {t : Text} (hc : c = '.' ∨ c = '/')
    (h : c ∈ escape t) :
    c ∈ t := by
  rcases List.mem_flatMap.mp h with ⟨b, hb, hcb⟩
  rcases List.mem_flatMap.mp hb with ⟨d, hd, hbd⟩
  have hmark : b.toNat = c.toNat ∧ c.toNat < 0x80 := by
    rcases hc with rfl | rfl
    · exact ⟨(escapeByte_marks b).1 hcb, by decide⟩
    · exact ⟨(escapeByte_marks b).2.1 hcb, by decide⟩
  have hcd : d.toNat = c.toNat := by
    rw [encodeChar_of_mem hbd (by omega), hmark.1]
  rw [← Char.toNat_inj.mp hcd]
  exact hd

theorem backslash_not_mem_escape (t : Text) : '\\' ∉ escape t := by
  intro h
  rcases List.mem_flatMap.mp h with ⟨b, _, hb⟩
  exact (escapeByte_marks b).2.2 hb

theorem escape_no_slash {t : Text} (h : '/' ∉ t) :
    ∀ c ∈ escape t, Path.isSlash c = false := by
  intro c hc
  unfold Path.isSlash
  rw [Bool.or_eq_false_iff]
  constructor
  · rw [beq_eq_false_iff_ne]
    intro heq
    rw [heq] at hc
    exact h (mem_of_mem_escape (Or.inr rfl) hc)
  · rw [beq_eq_false_iff_ne]
    intro heq
    rw [heq] at hc
    exact backslash_not_mem_escape t hc

@[simp] theorem escape_point : escape ['.'] = ['.'] := by
  decide

@[simp] theorem escape_slash : escape ['/'] = ['/'] := by
  decide

theorem escape_ne_nil {t : Text} (h : t ≠ []) : escape t ≠ [] := by
  intro hnil
  have := unescape_escape t
  rw [hnil] at this
  exact h this.symm

theorem escape_all_points (t : Text) :
    (escape t).all (· == '.') = t.all (· == '.') := by
  induction t with
  | nil => simp
  | cons c rest ih =>
      rw [escape_cons, List.all_append, ih, List.all_cons]
      by_cases hc : c = '.'
      · simp [hc]
      · have hpoint : (escape [c]).all (· == '.') = false := by
          rw [Bool.eq_false_iff]
          intro hall
          rcases List.exists_mem_of_ne_nil _
            (escape_ne_nil (List.cons_ne_nil c [])) with ⟨d, hd⟩
          rw [eq_of_beq (List.all_eq_true.mp hall d hd)] at hd
          have := mem_of_mem_escape (Or.inl rfl) hd
          simp only [List.mem_singleton] at this
          exact hc this.symm
        simp [hpoint, hc]

theorem extension_escape (name : Text) :
    Path.extension (escape name) = escape (Path.extension name) := by
  by_cases hpoint : '.' ∈ name
  · rcases Path.exists_last_point hpoint with ⟨front, tail, rfl, htail⟩
    have hescaped : '.' ∉ escape tail :=
      fun hmem => htail (mem_of_mem_escape (Or.inl rfl) hmem)
    rw [escape_append, escape_cons, escape_point, List.singleton_append,
      Path.extension_point hescaped, Path.extension_point htail,
      escape_all_points]
    split
    · simp
    · rw [escape_cons, escape_point, List.singleton_append]
  · have hescaped : '.' ∉ escape name :=
      fun hmem => hpoint (mem_of_mem_escape (Or.inl rfl) hmem)
    rw [Path.extension_of_no_point hpoint, Path.extension_of_no_point hescaped,
      escape_nil]

/-!
# Small letters
-/

theorem escape_eq_of_length {c : Char} (h : (escape [c]).length = 1) :
    escape [c] = [c] := by
  have hbytes : escape [c] = (Utf8.encodeChar c).flatMap escapeByte := by
    simp [escape, Utf8.encode]
  rw [hbytes] at h ⊢
  cases hencoded : Utf8.encodeChar c with
  | nil => exact absurd hencoded (encodeChar_ne_nil c)
  | cons b rest =>
      rw [hencoded, List.flatMap_cons, List.length_append] at h
      have hb : isPlain b = true ∧ (rest.flatMap escapeByte).length = 0 := by
        by_cases hplain : isPlain b = true
        · have : (escapeByte b).length = 1 := by simp [escapeByte, hplain]
          exact ⟨hplain, by omega⟩
        · have : (escapeByte b).length = 3 := by simp [escapeByte, hplain]
          omega
      have hnat : c.toNat = b.toNat := by
        apply encodeChar_of_mem
        · rw [hencoded]
          exact List.mem_cons_self
        · exact (plain_byte hb.1).2.1
      rw [List.flatMap_cons, List.eq_nil_of_length_eq_zero hb.2,
        List.append_nil, escapeByte, if_pos hb.1, ← hnat, Char.ofNat_toNat]

theorem dotted_not_mem_escape (t : Text) : '\u0130' ∉ escape t := by
  intro h
  rcases List.mem_flatMap.mp h with ⟨b, _, hb⟩
  refine forall_byte (P := fun b => '\u0130' ∉ escapeByte b) ?_ b hb
  decide +kernel

/-- A code point has no more small letters than its escape has code points, and
fewer if that is not the code point itself. -/
theorem length_smallLetters (backwards : Text) (c : Char) (rest : Text) :
    (smallLetters backwards c rest).length ≤ (escape [c]).length ∧
      (escape [c] ≠ [c] →
        (smallLetters backwards c rest).length < (escape [c]).length) := by
  have hpos : 0 < (escape [c]).length :=
    List.length_pos_iff.mpr (escape_ne_nil (List.cons_ne_nil c []))
  have hone (h : escape [c] ≠ [c]) : (escape [c]).length ≠ 1 :=
    fun h1 => h (escape_eq_of_length h1)
  by_cases hdotted : c = '\u0130'
  · have htwo : (smallLetters backwards c rest).length = 2 := by
      simp [smallLetters, hdotted]
    have hsix : (escape [c]).length = 6 := by
      rw [hdotted]
      decide
    omega
  · have hsingle : (smallLetters backwards c rest).length = 1 := by
      unfold smallLetters
      rw [if_neg hdotted]
      split
      · simp
      · simp
    constructor
    · omega
    · intro h
      have := hone h
      omega

theorem length_lowerFrom (backwards t : Text) :
    (Text.lowerFrom backwards t).length ≤ (escape t).length ∧
      (escape t ≠ t →
        (Text.lowerFrom backwards t).length < (escape t).length) := by
  induction t generalizing backwards with
  | nil => simp [Text.lowerFrom]
  | cons c rest ih =>
      rcases length_smallLetters backwards c rest with ⟨hle, hlt⟩
      rcases ih (c :: backwards) with ⟨hrestle, hrestlt⟩
      rw [escape_cons, Text.lowerFrom, List.length_append, List.length_append]
      constructor
      · omega
      · intro hne
        by_cases hc : escape [c] = [c]
        · have hrest : escape rest ≠ rest := by
            intro heq
            rw [hc, heq] at hne
            exact hne rfl
          have := hrestlt hrest
          omega
        · have := hlt hc
          omega

theorem length_lowerFrom_of_not_mem {t : Text} (h : '\u0130' ∉ t)
    (backwards : Text) :
    (Text.lowerFrom backwards t).length = t.length := by
  induction t generalizing backwards with
  | nil => simp [Text.lowerFrom]
  | cons c rest ih =>
      rw [List.mem_cons, not_or] at h
      have hc : (smallLetters backwards c rest).length = 1 := by
        unfold smallLetters
        rw [if_neg fun heq => h.1 heq.symm]
        split
        · simp
        · simp
      rw [Text.lowerFrom, List.length_append, ih h.2, hc, List.length_cons]
      omega

/-- The small letters of a text are those of what begins with its escape only if
the text needs no escapes and is all of that. -/
theorem lower_eq_lower_escape_append {s t : Text} :
    s.lower = (escape (s ++ t)).lower ↔ escape s = s ∧ t = [] := by
  constructor
  · intro h
    have hlengths : s.lower.length = (escape s).length + (escape t).length := by
      rw [h, Text.lower, length_lowerFrom_of_not_mem (dotted_not_mem_escape _),
        escape_append, List.length_append]
    rcases length_lowerFrom [] s with ⟨hle, hlt⟩
    rw [Text.lower] at hlengths
    constructor
    · by_contra hne
      have := hlt hne
      omega
    · by_contra hne
      have := List.length_pos_iff.mpr (escape_ne_nil hne)
      omega
  · rintro ⟨hs, rfl⟩
    rw [List.append_nil, hs]

end Uri

namespace Workspace

variable {τ : Type} [Link τ]

theorem options_closeUri (uri : Text) (w : Workspace τ) :
    (w.closeUri uri).options = w.options := by
  have honEditor (j : Nat) (f : Editor → Editor × List Event)
      (w : Workspace τ) :
      (w.onEditor j f).options = w.options := by
    unfold onEditor
    split
    · rfl
    · rfl
  have hatDesk (i : Nat) (f : Desk τ → Desk τ) (w : Workspace τ) :
      (w.atDesk i f).options = w.options := by
    unfold atDesk
    split
    · rfl
    · rfl
  unfold closeUri
  split
  · rfl
  · next i _ =>
      dsimp only
      split
      · rfl
      · next k _ =>
          dsimp only
          rw [hatDesk, honEditor]
          split
          · rfl
          · rfl

end Workspace

namespace Language

/-!
# The extension that a language is looked up by
-/

def keyOf : Text → Option Text
  | [] => none
  | ext => some ext.lower

def key? (path : Text) : Option Text :=
  keyOf (Path.extension (Path.basename path))

theorem ofPath_eq_key? (path : Text) (map : List (Text × String)) :
    ofPath path map =
      ((key? path).bind fun key => map.lookup key).getD plain := by
  unfold ofPath find? key?
  cases Path.extension (Path.basename path) with
  | nil => simp [keyOf]
  | cons c rest => simp [keyOf]

/-- Two paths have one language whatever extensions languages are given for
exactly if they are looked up alike. -/
theorem forall_ofPath_eq_iff {p q : Text} :
    (∀ map, ofPath p map = ofPath q map) ↔ key? p = key? q := by
  have hfound {p q : Text} {key : Text} (hp : key? p = some key)
      (h : ∀ map, ofPath p map = ofPath q map) : key? q = some key := by
    have hone := h [(key, "")]
    rw [ofPath_eq_key?, ofPath_eq_key?, hp] at hone
    cases hq : key? q with
    | none => simp [hq, plain] at hone
    | some other =>
        by_cases heq : other = key
        · rw [heq]
        · have hne : (other == key) = false := by simpa using heq
          simp [hq, hne, plain, List.lookup_cons] at hone
  constructor
  · intro h
    cases hp : key? p with
    | some key => exact (hfound hp h).symm
    | none =>
        cases hq : key? q with
        | none => rfl
        | some key =>
            rw [hfound hq fun map => (h map).symm] at hp
            exact hp.symm
  · intro h map
    rw [ofPath_eq_key?, ofPath_eq_key?, h]

def lastComponent (path : Text) : Text :=
  (Path.components path).getLast?.getD []

theorem key?_ofAbsolute {dir : Path.Directory} {path : Text}
    (h : Path.absolute dir path = path) :
    key? (Uri.ofAbsolute path) =
      keyOf (Uri.escape (Path.extension (lastComponent path))) := by
  unfold key? lastComponent
  rcases Path.exists_last_component h with
    ⟨hnone, hroot⟩ | ⟨front, last, hlast, hpath, hproper⟩
  · rw [hnone]
    rcases hroot with rfl | rfl
    · decide
    · decide
  · have haddress : Uri.ofAbsolute path =
        (Uri.scheme ++ '/' :: '/' :: Uri.escape front) ++ '/' ::
          Uri.escape last := by
      rw [hpath, Uri.ofAbsolute, Uri.escape_append, Uri.escape_cons,
        Uri.escape_slash]
      simp
    rw [haddress, Path.basename_append_slash (Uri.escape_ne_nil hproper.filled)
      (Uri.escape_no_slash hproper.whole), Uri.extension_escape, hlast]
    simp

theorem keyOf_eq_keyOf_iff {s t : Text} :
    keyOf s = keyOf t ↔ (s = [] ↔ t = []) ∧ s.lower = t.lower := by
  cases s with
  | nil =>
      cases t with
      | nil => simp
      | cons d more => simp [keyOf]
  | cons c rest =>
      cases t with
      | nil => simp [keyOf]
      | cons d more => simp [keyOf]

/-- The extension of the last component is the one that is found in an absolute
path, but for what is cut there. -/
theorem exists_cut {dir : Path.Directory} {path : Text}
    (h : Path.absolute dir path = path)
    (hfound : Path.extension (Path.basename path) ≠ [])
    (hlast : Path.extension (lastComponent path) ≠ []) :
    ∃ cut, Path.extension (lastComponent path) =
      Path.extension (Path.basename path) ++ cut := by
  have hwhole :
      Path.extension path = Path.extension (lastComponent path) := by
    rcases Path.exists_last_component h with
      ⟨hnone, _⟩ | ⟨front, last, hsome, hpath, _⟩
    · simp [lastComponent, hnone, Path.extension] at hlast
    · simp only [lastComponent, hsome, Option.getD_some] at hlast ⊢
      rw [hpath]
      exact Path.extension_append_slash hlast front
  rw [← hwhole] at hlast ⊢
  rcases Path.extension_basename path with hnil | hnil | hcut
  · exact absurd hnil hfound
  · exact absurd hnil hlast
  · exact hcut

/-- An absolute path is looked up as its address exactly if the extension that
is found is that of the last component, and needs no escapes. -/
theorem key?_eq_key?_ofAbsolute_iff {dir : Path.Directory} {path : Text}
    (h : Path.absolute dir path = path) :
    key? path = key? (Uri.ofAbsolute path) ↔
      Path.extension (Path.basename path) =
        Path.extension (lastComponent path) ∧
        Uri.escape (Path.extension (lastComponent path)) =
          Path.extension (lastComponent path) := by
  rw [key?_ofAbsolute h, key?, keyOf_eq_keyOf_iff]
  constructor
  · rintro ⟨hempty, hlower⟩
    by_cases hfound : Path.extension (Path.basename path) = []
    · have hnone : Path.extension (lastComponent path) = [] := by
        by_contra hlast
        exact Uri.escape_ne_nil hlast (hempty.mp hfound)
      rw [hfound, hnone]
      exact ⟨rfl, rfl⟩
    · have hlast : Path.extension (lastComponent path) ≠ [] := by
        intro hnil
        rw [hnil] at hempty
        exact hfound (hempty.mpr rfl)
      rcases exists_cut h hfound hlast with ⟨cut, hcut⟩
      rw [hcut] at hlower
      rcases Uri.lower_eq_lower_escape_append.mp hlower with ⟨hplain, hnil⟩
      rw [hcut, hnil, List.append_nil]
      exact ⟨rfl, hplain⟩
  · rintro ⟨hfound, hplain⟩
    rw [hplain, hfound]
    exact ⟨Iff.rfl, rfl⟩

section

variable {τ : Type} [Link τ]

/-- A path that is absolute and resolved has the language of its address,
whatever extensions languages are given for, exactly if the extension that is
found in it is that of its last component and needs no escapes.  The address is
looked up by the escaped extension.  Where the two have one language, it does
not matter by which of them a document is opened. -/
theorem language_of_address {dir : Path.Directory} {p : Text}
    (h : Uri.normalize dir p = .ok (some p)) :
    let ext := Path.extension (lastComponent p)
    let uri := Uri.ofAbsolute p
    Uri.ofPath dir p = .ok (some uri) ∧
      (∀ map, ofPath uri map =
        ((keyOf (Uri.escape ext)).bind fun key => map.lookup key).getD plain) ∧
      ((∀ map, ofPath p map = ofPath uri map) ↔
        Path.extension (Path.basename p) = ext ∧ Uri.escape ext = ext) ∧
      ∀ (w : Workspace τ) (j : Nat),
        ofPath p w.options.languages = ofPath uri w.options.languages →
        w.openDocument j (some p) = w.openDocument j (some uri) := by
  intro ext uri
  rcases Uri.normalize_absolute h with ⟨q, hq⟩
  have habsolute : Path.absolute dir p = p := by
    conv_lhs => rw [hq]
    rw [Path.absolute_absolute]
    exact hq.symm
  have hhead : p.head? = some '/' := by
    rw [hq]
    exact Path.absolute_head? dir q
  -- the working directory of a workspace need not be the one by which the path
  -- was found resolved
  have huri (dir' : Path.Directory) : Uri.ofPath dir' p = .ok (some uri) := by
    apply Uri.ofPath_of_normalize
    rw [Uri.normalize_of_head? hhead, ← Uri.normalize_of_head? hhead dir]
    exact h
  constructor
  · exact huri dir
  constructor
  · intro map
    rw [ofPath_eq_key?, key?_ofAbsolute habsolute]
  constructor
  · rw [forall_ofPath_eq_iff]
    exact key?_eq_key?_ofAbsolute_iff habsolute
  · intro w j hlanguage
    have hsame : Uri.ofPath w.directory uri = .ok (some uri) :=
      Uri.ofPath_ofPath (huri dir) _
    unfold Workspace.openDocument
    dsimp only
    rw [huri, hsame]
    dsimp only
    rw [Workspace.options_closeUri, hlanguage]

end

/-- A name that is escaped before its extension only. -/
theorem language_of_address_plain :
    let p := "/work/b c/ä.PY".toList
    Uri.normalize .root p = .ok (some p) ∧
      Uri.ofPath .root p = .ok (some "file:///work/b%20c/%C3%A4.PY".toList) ∧
      ∀ map, ofPath p map =
        ofPath "file:///work/b%20c/%C3%A4.PY".toList map := by
  intro p
  have hp : Uri.normalize .root p = .ok (some p) := by decide +kernel
  have huri : Uri.ofAbsolute p = "file:///work/b%20c/%C3%A4.PY".toList := by
    decide +kernel
  rcases @language_of_address Connection _ .root p hp with
    ⟨haddress, _, hiff, _⟩
  rw [huri] at haddress hiff
  constructor
  · exact hp
  constructor
  · exact haddress
  · apply hiff.mpr
    decide +kernel

/-- The extension of this path has to be escaped, and its address is given
another language. -/
theorem escaped_extension_lost :
    let p := "/work/a.c++".toList
    let uri := "file:///work/a.c%2B%2B".toList
    let map := [(".c++".toList, "cpp")]
    Uri.normalize .root p = .ok (some p) ∧ Uri.ofPath .root p = .ok (some uri) ∧
      Uri.ofPath .root uri = .ok (some uri) ∧ ofPath p map = "cpp" ∧
        ofPath uri map = "plaintext" := by
  decide +kernel

end Language
end InlineCompletion
