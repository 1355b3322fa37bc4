import Mathlib.Data.List.TakeWhile
import InlineCompletion.Path.Uri
import InlineCompletion.Proofs.Text.Utf8

/-!
# Addresses of addresses

A path may be spelled in many ways: with components that stand for "here" or
"one up", with slashes to spare, or as an address with any of its characters
escaped.  Resolving a path and escaping it leave nothing to resolve and nothing
to escape again.  The main statements are that the address of a path is its own
address, and that two paths have one address exactly if they stand for one
place.
-/

namespace InlineCompletion
namespace Path

/-!
# Resolved paths
-/

/-- Whether a component stands for itself in an absolute path. -/
structure Proper (component : Text) : Prop where
  filled : component ≠ []
  notHere : component ≠ ['.']
  notUp : component ≠ ['.', '.']
  whole : '/' ∉ component

theorem Proper.resolveStep {component : Text} (h : Proper component)
    (resolved : List Text) :
    Path.resolveStep resolved component = component :: resolved := by
  unfold Path.resolveStep
  rw [if_neg, if_neg h.notUp]
  exact fun hor => hor.elim h.filled h.notHere

theorem resolveStep_proper {resolved : List Text} (h : ∀ c ∈ resolved, Proper c)
    {component : Text} (hwhole : '/' ∉ component) :
    ∀ c ∈ resolveStep resolved component, Proper c := by
  unfold resolveStep
  intro c hc
  split at hc
  · exact h c hc
  · next hkept =>
      split at hc
      · exact h c (List.mem_of_mem_tail hc)
      · next hup =>
          rcases List.mem_cons.mp hc with heq | hold
          · rw [heq]
            exact ⟨fun hnil => hkept (Or.inl hnil),
              fun hhere => hkept (Or.inr hhere), hup, hwhole⟩
          · exact h c hold

theorem components_proper (path : Text) : ∀ c ∈ components path, Proper c := by
  have hfold (parts resolved : List Text) (hparts : ∀ p ∈ parts, '/' ∉ p)
      (hresolved : ∀ c ∈ resolved, Proper c) :
      ∀ c ∈ parts.foldl resolveStep resolved, Proper c := by
    induction parts generalizing resolved with
    | nil => exact hresolved
    | cons p rest ih =>
        exact ih (resolveStep resolved p)
          (fun q hq => hparts q (List.mem_cons_of_mem p hq))
            (resolveStep_proper hresolved (hparts p List.mem_cons_self))
  intro c hc
  exact hfold (Text.splitOn '/' path) [] (fun _ => Text.not_mem_of_mem_splitOn)
    nofun c (List.mem_reverse.mp hc)

theorem foldl_resolveStep {parts : List Text} (h : ∀ p ∈ parts, Proper p)
    (resolved : List Text) :
    parts.foldl resolveStep resolved = parts.reverse ++ resolved := by
  induction parts generalizing resolved with
  | nil => rfl
  | cons p rest ih =>
      rw [List.foldl_cons, (h p List.mem_cons_self).resolveStep,
        ih (fun q hq => h q (List.mem_cons_of_mem p hq)), List.reverse_cons,
        List.append_assoc]
      rfl

theorem components_join {parts : List Text} (h : ∀ p ∈ parts, Proper p) :
    components (Text.join ['/'] parts) = parts := by
  cases parts with
  | nil => rfl
  | cons p rest =>
      unfold components
      rw [Text.splitOn_join (List.cons_ne_nil p rest)
        (fun q hq => (h q hq).whole), foldl_resolveStep h, List.append_nil,
          List.reverse_reverse]

theorem components_slash (path : Text) :
    components ('/' :: path) = components path := rfl

theorem root_of_head? {path : Text} (h : path.head? = some '/') :
    root path = ['/'] ∨ root path = ['/', '/'] := by
  cases path with
  | nil => cases h
  | cons c rest =>
      cases h
      have htake :
          ('/' :: rest).takeWhile (· == '/') =
            '/' :: rest.takeWhile (· == '/') := rfl
      unfold root
      rw [htake]
      split
      · next hnil => cases hnil
      · exact Or.inr rfl
      · exact Or.inl rfl

theorem join_proper_head? {parts : List Text} (h : ∀ p ∈ parts, Proper p) :
    (Text.join ['/'] parts).head? ≠ some '/' := by
  cases parts with
  | nil => exact nofun
  | cons p rest =>
      have hp := h p List.mem_cons_self
      cases p with
      | nil => exact absurd rfl hp.filled
      | cons c more =>
          have hhead :
              (Text.join ['/'] ((c :: more) :: rest)).head? = some c := by
            cases rest <;> rfl
          rw [hhead]
          intro heq
          cases heq
          exact hp.whole List.mem_cons_self

theorem takeWhile_slash {path : Text} (h : path.head? ≠ some '/') :
    path.takeWhile (· == '/') = [] := by
  cases path with
  | nil => rfl
  | cons c rest =>
      refine List.takeWhile_cons_of_neg ?_
      intro heq
      rw [eq_of_beq heq] at h
      exact h rfl

theorem resolve_resolve {path : Text} (h : path.head? = some '/') :
    resolve (resolve path) = resolve path := by
  have hproper := components_proper path
  have hbare := takeWhile_slash (join_proper_head? hproper)
  unfold resolve
  rcases root_of_head? h with hroot | hroot
  · have hagain : root ('/' :: Text.join ['/'] (components path)) = ['/'] := by
      unfold root
      rw [List.takeWhile_cons_of_pos rfl, hbare]
      rfl
    rw [hroot, List.singleton_append, hagain, components_slash,
      components_join hproper]
    rfl
  · have hagain :
        root ('/' :: '/' :: Text.join ['/'] (components path)) =
          ['/', '/'] := by
      unfold root
      rw [List.takeWhile_cons_of_pos rfl, List.takeWhile_cons_of_pos rfl, hbare]
      rfl
    rw [hroot, List.cons_append, List.singleton_append, hagain,
      components_slash, components_slash, components_join hproper]
    rfl

theorem anchored_head? (dir : Directory) (path : Text) :
    (anchored dir path).head? = some '/' := by
  have hbehind (more : Text) : (dir.path ++ more).head? = some '/' := by
    rw [List.head?_append, dir.rooted]
    rfl
  unfold anchored
  split
  · next h => exact h
  · split
    · exact hbehind path
    · exact hbehind ('/' :: path)

theorem absolute_head? (dir : Directory) (path : Text) :
    (absolute dir path).head? = some '/' := by
  unfold absolute resolve
  rcases root_of_head? (anchored_head? dir path) with hroot | hroot
  · rw [hroot]
    rfl
  · rw [hroot]
    rfl

theorem absolute_of_head? {path : Text} (h : path.head? = some '/')
    (dir : Directory) :
    absolute dir path = resolve path := by
  unfold absolute anchored
  rw [if_pos h]

theorem absolute_absolute (dir dir' : Directory) (path : Text) :
    absolute dir' (absolute dir path) = absolute dir path := by
  rw [absolute_of_head? (absolute_head? dir path)]
  unfold absolute
  rw [resolve_resolve (anchored_head? dir path)]

end Path

namespace Uri

/-!
# Escapes
-/

/-- Whether a code point of an address means itself wherever it stands: it is
neither left out nor taken for a delimiter. -/
def isSteady (c : Char) : Bool :=
  c != '\t' && c != '\n' && c != '\r' && c != '?' && c != '#'

theorem forall_byte {P : UInt8 → Prop} (h : ∀ n : Fin 256, P (UInt8.ofNat n))
    (b : UInt8) :
    P b := by
  have hb := h ⟨b.toNat, b.toNat_lt⟩
  rw [UInt8.ofNat_toNat] at hb
  exact hb

theorem escapeByte_steady (b : UInt8) : (escapeByte b).all isSteady = true := by
  refine forall_byte (P := fun b => (escapeByte b).all isSteady = true) ?_ b
  decide +kernel

theorem escape_steady (t : Text) : ∀ c ∈ escape t, isSteady c = true := by
  intro c hc
  rcases List.mem_flatMap.mp hc with ⟨b, _, hb⟩
  exact List.all_eq_true.mp (escapeByte_steady b) c hb

theorem plain_byte {b : UInt8} (h : isPlain b = true) :
    (Char.ofNat b.toNat).toNat = b.toNat ∧ b.toNat < 0x80 ∧
    Char.ofNat b.toNat ≠ '%' := by
  refine forall_byte
    (P := fun b => isPlain b = true → (Char.ofNat b.toNat).toNat = b.toNat ∧
    b.toNat < 0x80 ∧ Char.ofNat b.toNat ≠ '%') ?_ b h
  decide +kernel

theorem escaped?_digits (b : UInt8) (rest : Text) :
    escaped?
      (Hex.capital (b.toNat / 16) :: Hex.capital (b.toNat % 16) :: rest) =
      some b := by
  have hlt := b.toNat_lt
  have hsum : 16 * (b.toNat / 16) + b.toNat % 16 = b.toNat := by omega
  unfold escaped?
  dsimp only
  rw [Hex.value?_capital (by omega), Hex.value?_capital (by omega)]
  dsimp only
  rw [hsum, Nat.toUInt8_eq, UInt8.ofNat_toNat]

theorem unescapeFrom_escapeByte (b : UInt8) (waiting : List UInt8)
    (rest : Text) :
    unescapeFrom 0 waiting (escapeByte b ++ rest) =
      unescapeFrom 0 (waiting ++ [b]) rest := by
  unfold escapeByte
  split
  · next hplain =>
      rcases plain_byte hplain with ⟨hnat, hlt, hpercent⟩
      rw [List.singleton_append, unescapeFrom, if_neg (by omega),
        if_neg hpercent, hnat, Nat.toUInt8_eq, UInt8.ofNat_toNat]
  · rw [List.cons_append, List.cons_append, List.singleton_append, unescapeFrom,
      if_neg (by decide), if_pos rfl, escaped?_digits]
    rfl

/-- What was escaped is resolved again. -/
theorem unescape_escape (t : Text) : unescape (escape t) = t := by
  have hbytes (bytes waiting : List UInt8) :
      unescapeFrom 0 waiting (bytes.flatMap escapeByte) =
      Utf8.decodeLossy (waiting ++ bytes) := by
    induction bytes generalizing waiting with
    | nil =>
        rw [List.append_nil]
        rfl
    | cons b rest ih =>
        rw [List.flatMap_cons, unescapeFrom_escapeByte, ih, List.append_assoc]
        rfl
  show unescapeFrom 0 [] ((Utf8.encode t).flatMap escapeByte) = t
  rw [hbytes, List.nil_append]
  unfold Utf8.decodeLossy
  rw [Utf8.items_encode, List.map_map]
  exact List.map_id t

/-!
# Addresses
-/

theorem escape_head? {path : Text} (h : path.head? = some '/') :
    ∃ rest, escape path = '/' :: rest := by
  cases path with
  | nil => cases h
  | cons c rest =>
      cases h
      exact ⟨escape rest, rfl⟩

theorem pathOf_ofAbsolute {path : Text} (h : path.head? = some '/') :
    pathOf (ofAbsolute path) = .ok (some (escape path)) := by
  rcases escape_head? h with ⟨rest, hrest⟩
  have hsteady := escape_steady path
  rw [hrest] at hsteady
  simp only [isSteady, Bool.and_eq_true] at hsteady
  have hkept : ('/' :: '/' :: '/' :: rest).filter
      (fun c => c != '\t' && c != '\n' && c != '\r') =
        '/' :: '/' :: '/' :: rest := by
    refine List.filter_eq_self.mpr ?_
    intro c hc
    rw [Bool.and_eq_true, Bool.and_eq_true]
    rcases List.mem_cons.mp hc with heq | hc
    · rw [heq]
      decide
    · rcases List.mem_cons.mp hc with heq | hc
      · rw [heq]
        decide
      · exact (hsteady c hc).1.1
  have hfragment : ('/' :: rest).takeWhile (· != '#') = '/' :: rest :=
    List.takeWhile_eq_self_iff.mpr fun c hc => (hsteady c hc).2
  have hquestion : ('/' :: rest).takeWhile (· != '?') = '/' :: rest :=
    List.takeWhile_eq_self_iff.mpr fun c hc => (hsteady c hc).1.2
  have hhost : Host.check [] = .ok () := rfl
  unfold pathOf ofAbsolute
  rw [List.drop_left, hrest, hkept]
  show (do
    Host.check []
    let path := (('/' :: rest).takeWhile (· != '#')).takeWhile (· != '?')
    return if path.isEmpty then none else some path) = _
  rw [hfragment, hquestion, hhost]
  rfl

theorem normalize_ofAbsolute {path : Text} (h : path.head? = some '/')
    (dir : Path.Directory) :
    normalize dir (ofAbsolute path) = .ok (some (Path.absolute dir path)) := by
  have hscheme : scheme.isPrefixOf (ofAbsolute path) = true :=
    List.isPrefixOf_iff_prefix.mpr (List.prefix_append _ _)
  unfold normalize
  rw [if_neg (by exact Bool.false_ne_true), if_pos hscheme, pathOf_ofAbsolute h]
  show Except.ok (some (Path.absolute dir (unescape (escape path)))) = _
  rw [unescape_escape]

variable {dir : Path.Directory}

theorem normalize_absolute {path a : Text}
    (h : normalize dir path = .ok (some a)) :
    ∃ q, a = Path.absolute dir q := by
  unfold normalize at h
  split at h
  · cases h
  · split at h
    · cases hpath : pathOf path with
      | error f =>
          rw [hpath] at h
          cases h
      | ok p =>
          rw [hpath] at h
          cases h
          exact ⟨_, rfl⟩
    · cases h
      exact ⟨path, rfl⟩

theorem normalize_of_head? {path : Text} (h : path.head? = some '/')
    (dir : Path.Directory) :
    normalize dir path = .ok (some (Path.resolve path)) := by
  cases path with
  | nil => cases h
  | cons c rest =>
      cases h
      show Except.ok (some (Path.absolute dir ('/' :: rest))) = _
      rw [Path.absolute_of_head? rfl]

/-- The address of a path stands for the same as the path, whatever the working
directory is. -/
theorem normalize_ofPath {path uri : Text}
    (h : ofPath dir path = .ok (some uri)) (dir' : Path.Directory) :
    normalize dir' uri = normalize dir path ∧
      ∃ a, normalize dir path = .ok (some a) := by
  unfold ofPath at h
  cases ha : normalize dir path with
  | error f =>
      rw [ha] at h
      cases h
  | ok a? =>
      rw [ha] at h
      cases a? with
      | none => cases h
      | some a =>
          cases h
          rcases normalize_absolute ha with ⟨q, hq⟩
          refine ⟨?_, a, rfl⟩
          rw [normalize_ofAbsolute
            (by rw [hq]; exact Path.absolute_head? dir q), hq,
              Path.absolute_absolute]

/-- The address of a path is its own address, whatever the working directory
is. -/
theorem ofPath_ofPath {path uri : Text} (h : ofPath dir path = .ok (some uri))
    (dir' : Path.Directory) : ofPath dir' uri = .ok (some uri) := by
  rw [ofPath, (normalize_ofPath h dir').1]
  exact h

/-- The address of a path in a longer spelling, with components that go nowhere,
a slash to spare, an escape that needs none and a fragment; it is its own
address. -/
example : ofPath .root "file:/work//dir/x/../%61%20é.py?q#f".toList =
      .ok (some "file:///work/dir/a%20%C3%A9.py".toList) ∧
    ofPath .root "file:///work/dir/a%20%C3%A9.py".toList =
      .ok (some "file:///work/dir/a%20%C3%A9.py".toList) := by
  decide +kernel

theorem ofPath_of_normalize {p a : Text} (h : normalize dir p = .ok (some a)) :
    ofPath dir p = .ok (some (ofAbsolute a)) := by
  unfold ofPath
  rw [h]
  rfl

/-- A path that stands for a place has an address, which stands for the same
place and is its own address.  So two paths have one address exactly if they
stand for one place. -/
theorem ofPath_identifies {dir : Path.Directory} {p q a b : Text}
    (hp : normalize dir p = .ok (some a))
    (hq : normalize dir q = .ok (some b)) :
    ∃ u v, ofPath dir p = .ok (some u) ∧ ofPath dir q = .ok (some v) ∧
      normalize dir u = normalize dir p ∧ ofPath dir u = .ok (some u) ∧
      (u = v ↔ normalize dir p = normalize dir q) := by
  have hu := ofPath_of_normalize hp
  have hv := ofPath_of_normalize hq
  refine ⟨_, _, hu, hv, (normalize_ofPath hu dir).1, ofPath_ofPath hu dir, ?_⟩
  constructor
  · intro heq
    rw [← (normalize_ofPath hu dir).1, heq, (normalize_ofPath hv dir).1]
  · intro heq
    rw [hp, hq] at heq
    cases heq
    rfl

/-- A name with a percent sign and a delimiter of parameters below a root of two
slashes, and an address that spells it otherwise and asks a question. -/
theorem ofPath_identifies_respelled :
    let dir := Path.Directory.root
    let p := "//a/../%;\t😀".toList
    let q := "file:////%25;%09%F0%9F%98%80?r".toList
    let place := "//%;\t😀".toList
    (normalize dir p = .ok (some place) ∧ normalize dir q = .ok (some place)) ∧
      ofPath dir p = .ok (some "file:////%25%3B%09%F0%9F%98%80".toList) ∧
      ofPath dir p = ofPath dir q := by
  intro dir p q place
  have hp : normalize dir p = .ok (some place) := by decide +kernel
  have hq : normalize dir q = .ok (some place) := by decide +kernel
  rcases ofPath_identifies hp hq with ⟨u, v, hu, hv, _, _, hiff⟩
  refine ⟨⟨hp, hq⟩, by decide +kernel, ?_⟩
  rw [hu, hv, hiff.mpr (hp.trans hq.symm)]

end Uri
end InlineCompletion
