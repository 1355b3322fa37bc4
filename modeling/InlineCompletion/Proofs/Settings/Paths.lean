import InlineCompletion.Proofs.Settings.Merge

/-!
# Merged settings along paths

A path of keys leads from a mapping through the mappings in it.  Two mappings
with the same keys in the same order, under which the same is found, are one
mapping: that is how merged settings are compared.  The main statements say
which keys merged settings have, what is found in them along every path, and
that laying settings over what they were merged from gives them again.
-/

namespace InlineCompletion
namespace Settings

/-- Whether each mapping that mappings lead to has each of its keys once. -/
inductive Value.Keyed : Value → Prop
  | atom (a : Atom) : Keyed (.atom a)
  | seq (items : List Value) : Keyed (.seq items)
  | map {members : Members} (hkeys : members.Distinct)
      (h : ∀ m ∈ members, Keyed m.2) :
      Keyed (.map members)

/-- What a path of keys leads to. -/
def Value.at? : List Atom → Value → Option Value
  | [], v => some v
  | key :: path, .map members => (Members.get? key members).bind (at? path)
  | _ :: _, _ => none

namespace Value

theorem Keyed.distinct {ms : Members} (h : (Value.map ms).Keyed) :
    ms.Distinct := by
  cases h with
  | map hkeys _ => exact hkeys

theorem Keyed.member {ms : Members} (h : (Value.map ms).Keyed) {key : Atom}
    {v : Value} (hv : Members.get? key ms = some v) : v.Keyed := by
  cases h with
  | map _ hvalues =>
      rcases Members.mem_of_get? hv with ⟨k, hmem⟩
      exact hvalues (k, v) hmem

@[simp] theorem at?_nil (v : Value) : v.at? [] = some v := by
  simp [at?]

@[simp] theorem at?_cons_map (key : Atom) (path : List Atom) (ms : Members) :
    (Value.map ms).at? (key :: path) = (Members.get? key ms).bind
    (at? path) := by
  simp [at?]

theorem at?_append (path rest : List Atom) (v : Value) :
    v.at? (path ++ rest) = (v.at? path).bind (at? rest) := by
  induction path generalizing v with
  | nil => simp
  | cons key path ih =>
      cases v with
      | atom a => simp [at?]
      | seq items => simp [at?]
      | map ms =>
          simp only [List.cons_append, at?_cons_map, Option.bind_assoc]
          congr
          funext w
          exact ih w

theorem Keyed.at? {v w : Value} (h : v.Keyed) {path : List Atom}
    (hw : v.at? path = some w) :
    w.Keyed := by
  induction path generalizing v with
  | nil =>
      simp at hw
      rw [← hw]
      exact h
  | cons key path ih =>
      cases v with
      | atom a => simp [Value.at?] at hw
      | seq items => simp [Value.at?] at hw
      | map ms =>
          simp only [at?_cons_map, Option.bind_eq_some_iff] at hw
          rcases hw with ⟨u, hu, hw⟩
          exact ih (h.member hu) hw

end Value

/-!
# Members with the same keys
-/

namespace Members

variable {below above : Members}

theorem ext_get? {ms ns : Members} (hkeys : ms.map Prod.fst = ns.map Prod.fst)
    (hdistinct : ms.Distinct) (h : ∀ key, get? key ms = get? key ns) :
    ms = ns := by
  induction ms generalizing ns with
  | nil =>
      cases ns with
      | nil => simp
      | cons n rest => simp at hkeys
  | cons m rest ih =>
      cases ns with
      | nil => simp at hkeys
      | cons n rest' =>
          rcases m with ⟨k, v⟩
          rcases n with ⟨l, w⟩
          simp only [List.map_cons, List.cons.injEq] at hkeys
          rcases hkeys with ⟨rfl, hrest⟩
          unfold Distinct at hdistinct
          rw [List.map_cons, List.pairwise_cons] at hdistinct
          have hvalue : v = w := by
            have hk := h k
            simp [get?] at hk
            exact hk
          have hsame : rest = rest' := by
            apply ih hrest hdistinct.2
            intro key
            cases hk : k.same key with
            | true =>
                -- the first key stands in neither rest
                have hnone {ns : Members}
                    (hns : ns.map Prod.fst = rest.map Prod.fst) :
                    get? key ns = none := by
                  rw [← get?_of_same hk]
                  apply get?_eq_none
                  rw [hns]
                  exact hdistinct.1
                rw [hnone rfl, hnone hrest.symm]
            | false =>
                have hkey := h key
                rw [get?_cons_other hk, get?_cons_other hk] at hkey
                exact hkey
          rw [hvalue, hsame]

theorem Distinct.merge (h : below.Distinct) (above : Members) :
    (Settings.merge below above).Distinct := by
  induction above generalizing below with
  | nil => simpa using h
  | cons m rest ih =>
      rw [merge_cons]
      apply ih
      exact h.set m.1 _

theorem keys_lacking (ms : Members) :
    ((ms.map Prod.fst).filter fun k => (get? k ms).isNone) = [] := by
  rw [List.filter_eq_nil_iff]
  intro k hk hnone
  have hother := other_of_get?_eq_none (Option.isNone_iff_eq_none.mp hnone) k hk
  simp at hother

/-- Merged settings have the lower keys in their places, and behind them the
upper keys that are none of those. -/
theorem keys_merge (h : above.Distinct) (below : Members) :
    (Settings.merge below above).map Prod.fst =
      below.map Prod.fst ++
        (above.map Prod.fst).filter fun k => (get? k below).isNone := by
  induction above generalizing below with
  | nil => simp
  | cons m rest ih =>
      rcases m with ⟨k, v⟩
      unfold Distinct at h
      rw [List.map_cons, List.pairwise_cons] at h
      rcases h with ⟨hfirst, hrest⟩
      have hlater (w : Value) :
          ((rest.map Prod.fst).filter
            fun k' => (get? k' (set k w below)).isNone) =
              (rest.map Prod.fst).filter fun k' => (get? k' below).isNone := by
        apply List.filter_congr
        intro k' hk'
        rw [get?_set_other (hfirst k' hk')]
      rw [merge_cons, ih hrest, hlater, keys_set]
      cases hfound : get? k below with
      | none => simp [hfound]
      | some b => simp [hfound]

end Members

/-!
# Laying settings over what they were merged from
-/

theorem layOver_self {v : Value} (h : v.Keyed) : layOver (some v) v = v := by
  induction h with
  | atom a => simp
  | seq items => simp
  | @map ms hkeys hvalues ih =>
      rw [layOver_map]
      congr
      apply Members.ext_get?
      · rw [Members.keys_merge hkeys, Members.keys_lacking, List.append_nil]
      · exact hkeys.merge ms
      · intro key
        cases hfound : Members.get? key ms with
        | none => rw [get?_merge_of_none hkeys ms hfound, hfound]
        | some v =>
            rcases Members.mem_of_get? hfound with ⟨k, hmem⟩
            rw [get?_merge_of_some hkeys ms hfound, hfound, ih (k, v) hmem]

theorem merge_merge_of {below above : Members}
    (hbelow : (Value.map below).Keyed) (habove : above.Distinct)
    (h : ∀ key v, Members.get? key above = some v →
      layOver (Members.get? key below) (layOver (Members.get? key below) v) =
        layOver (Members.get? key below) v) :
    merge below (merge below above) = merge below above := by
  have hmerged : (merge below above).Distinct := hbelow.distinct.merge above
  apply Members.ext_get?
  · rw [Members.keys_merge hmerged, Members.keys_merge habove,
      List.filter_append, Members.keys_lacking, List.filter_filter]
    simp
  · exact hbelow.distinct.merge _
  · intro key
    cases hupper : Members.get? key above with
    | some v =>
        have hv := get?_merge_of_some habove below hupper
        rw [get?_merge_of_some hmerged below hv, hv, h key v hupper]
    | none =>
        have hv := get?_merge_of_none habove below hupper
        cases hlower : Members.get? key below with
        | none =>
            rw [get?_merge_of_none hmerged below (hv.trans hlower), hlower, hv,
              hlower]
        | some b =>
            rw [get?_merge_of_some hmerged below (hv.trans hlower), hlower,
              layOver_self (hbelow.member hlower), hv, hlower]

theorem layOver_layOver {v : Value} (h : v.Keyed) {below : Option Value}
    (hbelow : ∀ b, below = some b → b.Keyed) :
    layOver below (layOver below v) = layOver below v := by
  induction h generalizing below with
  | atom a => simp
  | seq items => simp
  | @map above hkeys hvalues ih =>
      by_cases hmap : ∃ ms, below = some (.map ms)
      · rcases hmap with ⟨ms, rfl⟩
        have hms : (Value.map ms).Keyed := hbelow _ rfl
        simp only [layOver_map]
        congr 1
        apply merge_merge_of hms hkeys
        intro key v hv
        rcases Members.mem_of_get? hv with ⟨k, hmem⟩
        exact ih (k, v) hmem fun b hb => hms.member hb
      · have hnone (v : Value) : layOver below v = v :=
          layOver_eq_right (fun ms hms => hmap ⟨ms, hms⟩) v
        simp only [hnone]

theorem merge_merge {below above : Members} (hbelow : (Value.map below).Keyed)
    (habove : (Value.map above).Keyed) :
    merge below (merge below above) = merge below above := by
  apply merge_merge_of hbelow habove.distinct
  intro key v hv
  exact layOver_layOver (habove.member hv) fun b hb => hbelow.member hb

/-!
# Along a path
-/

theorem at?_merge {below above : Members} (habove : (Value.map above).Keyed)
    {path : List Atom} {bs os : Members}
    (hbs : (Value.map below).at? path = some (.map bs))
    (hos : (Value.map above).at? path = some (.map os)) :
    (Value.map (merge below above)).at? path = some (.map (merge bs os)) := by
  induction path generalizing below above with
  | nil =>
      simp at hbs hos
      simp [hbs, hos]
  | cons key path ih =>
      simp only [Value.at?_cons_map, Option.bind_eq_some_iff] at hbs hos
      rcases hbs with ⟨b, hb, hbs⟩
      rcases hos with ⟨o, ho, hos⟩
      -- a value that a path leads on from to a mapping is a mapping
      have hmap {v : Value} {ms : Members} (h : v.at? path = some (.map ms)) :
          ∃ vs, v = .map vs := by
        cases path with
        | nil => exact ⟨ms, by simpa using h⟩
        | cons key' path =>
            cases v with
            | atom a => simp [Value.at?] at h
            | seq items => simp [Value.at?] at h
            | map vs => exact ⟨vs, rfl⟩
      rcases hmap hbs with ⟨bs', rfl⟩
      rcases hmap hos with ⟨os', rfl⟩
      have hmerged := get?_merge_of_some habove.distinct below ho
      rw [hb, layOver_map] at hmerged
      rw [Value.at?_cons_map, hmerged]
      exact ih (habove.member ho) hbs hos

section

variable {below above : Members} {path : List Atom} {bs os : Members}
    {key : Atom}

theorem at?_merge_lower (habove : (Value.map above).Keyed)
    (hbs : (Value.map below).at? path = some (.map bs))
    (hos : (Value.map above).at? path = some (.map os))
    (hnone : Members.get? key os = none) (rest : List Atom) :
    (Value.map (merge below above)).at? (path ++ key :: rest) =
      (Value.map below).at? (path ++ key :: rest) := by
  have hkeys : os.Distinct := (habove.at? hos).distinct
  rw [Value.at?_append, Value.at?_append, at?_merge habove hbs hos, hbs]
  simp [get?_merge_of_none hkeys bs hnone]

theorem at?_merge_upper (habove : (Value.map above).Keyed)
    (hbs : (Value.map below).at? path = some (.map bs))
    (hos : (Value.map above).at? path = some (.map os)) {v : Value}
    (hv : Members.get? key os = some v)
    (hone : ∀ b o, Members.get? key bs = some (.map b) → v ≠ .map o)
    (rest : List Atom) :
    (Value.map (merge below above)).at? (path ++ key :: rest) =
      (Value.map above).at? (path ++ key :: rest) := by
  have hkeys : os.Distinct := (habove.at? hos).distinct
  have hlaid : layOver (Members.get? key bs) v = v := by
    cases v with
    | atom a => simp
    | seq items => simp
    | map o =>
        apply layOver_eq_right
        intro b hb
        exact hone b o hb rfl
  rw [Value.at?_append, Value.at?_append, at?_merge habove hbs hos, hos]
  simp [get?_merge_of_some hkeys bs hv, hlaid, hv]

end

end Settings
end InlineCompletion
