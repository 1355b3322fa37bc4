import InlineCompletion.Proofs.Settings.Paths

/-!
# Merging mappings that are shared

Here mappings stand in storage and are referred to by their numbers, so that one
mapping can be part of many.  Merging copies the row of the lower mapping and
writes into the copy; what it finds on either side is referred to, and only two
mappings under one key are merged in turn.  The main statement says that merged
settings are those of the trees, along every path, and that no row that stood in
storage before is written.
-/

namespace InlineCompletion
namespace Settings

/-- What stands under a key of a stored mapping.  Sequences are not entered when
mappings are merged, so they stand for themselves. -/
inductive Slot where
  | atom (a : Atom)
  | seq (items : List Value)
  | map (number : Nat)
  deriving Repr

abbrev Row := List (Atom × Slot)

abbrev Storage := List Row

namespace Row

def get? (key : Atom) : Row → Option Slot
  | [] => none
  | (k, s) :: rest => if k.same key then some s else get? key rest

def set (key : Atom) (slot : Slot) : Row → Row
  | [] => [(key, slot)]
  | (k, s) :: rest =>
      if k.same key then (k, slot) :: rest else (k, s) :: set key slot rest

end Row

namespace Storage

/-- Lays a slot over another: a merged mapping where both are mappings, and else
the upper one. -/
def laySlot (mergeMaps : Nat → Nat → Storage → Option (Nat × Storage))
    (below : Option Slot) (above : Slot) (st : Storage) :
    Option (Slot × Storage) :=
  match below, above with
  | some (.map b), .map o => (mergeMaps b o st).map fun r => (.map r.1, r.2)
  | _, s => some (s, st)

def layRow (mergeMaps : Nat → Nat → Storage → Option (Nat × Storage))
    (into : Nat) :
    Row → Storage → Option Storage
  | [], st => some st
  | (k, s) :: rest, st => do
      let row ← st[into]?
      let (s', st') ← laySlot mergeMaps (Row.get? k row) s st
      layRow mergeMaps into rest (st'.modify into (Row.set k s'))

/-- Merges two stored mappings into a new one, through as many levels as the
depth allows. -/
def mergeMaps : Nat → Nat → Nat → Storage → Option (Nat × Storage)
  | 0, _, _, _ => none
  | depth + 1, base, override, st => do
      let low ← st[base]?
      let high ← st[override]?
      let st' ← layRow (mergeMaps depth) st.length high (st ++ [low])
      return (st.length, st')

end Storage

mutual

/-- How deep mappings stand in mappings. -/
def Value.levels : Value → Nat
  | .map members => membersLevels members + 1
  | _ => 0

def Value.membersLevels : List (Atom × Value) → Nat
  | [] => 0
  | (_, v) :: rest => max v.levels (membersLevels rest)

end

mutual

/-- What a slot means in storage, by mappings that are none of those that are
being written. -/
inductive Means (st : Storage) (written : List Nat) : Slot → Value → Prop
  | atom (a : Atom) : Means st written (.atom a) (.atom a)
  | seq (items : List Value) : Means st written (.seq items) (.seq items)
  | map {n : Nat} {row : Row} {members : Members} (hn : n ∉ written)
      (hrow : st[n]? = some row) (h : Lists st written row members) :
          Means st written (.map n) (.map members)

inductive Lists (st : Storage) (written : List Nat) : Row → Members → Prop
  | nil : Lists st written [] []
  | cons (k : Atom) {s : Slot} {v : Value} {row : Row} {members : Members}
      (h : Means st written s v) (hrest : Lists st written row members) :
      Lists st written ((k, s) :: row) ((k, v) :: members)

end

/-!
# What slots mean
-/

section

variable {st st' : Storage} {written written' : List Nat} {row : Row}
    {ms : Members}

mutual

theorem Means.keep
    (hkeep : ∀ n row, n ∉ written → st[n]? = some row →
    n ∉ written' ∧ st'[n]? = some row) :
    ∀ {s : Slot} {v : Value}, Means st written s v → Means st' written' s v
  | _, _, .atom a => .atom a
  | _, _, .seq items => .seq items
  | _, _, .map hn hrow h =>
      .map (hkeep _ _ hn hrow).1 (hkeep _ _ hn hrow).2 (h.keep hkeep)

theorem Lists.keep
    (hkeep : ∀ n row, n ∉ written → st[n]? = some row →
    n ∉ written' ∧ st'[n]? = some row) :
    ∀ {row : Row} {ms : Members}, Lists st written row ms →
      Lists st' written' row ms
  | _, _, .nil => .nil
  | _, _, .cons k h hrest => .cons k (h.keep hkeep) (hrest.keep hkeep)

end

theorem Lists.get? (h : Lists st written row ms) (key : Atom) :
    (Row.get? key row = none ∧ Members.get? key ms = none) ∨
      ∃ s v, Row.get? key row = some s ∧ Members.get? key ms = some v ∧
        Means st written s v := by
  induction ms generalizing row with
  | nil =>
      cases h with
      | nil => simp [Row.get?, Members.get?]
  | cons m rest ih =>
      cases h with
      | @cons k s v row _ h hrest =>
          unfold Row.get? Members.get?
          by_cases hk : k.same key = true
          · apply Or.inr
            simpa [hk] using h
          · simpa [hk] using ih hrest

theorem Lists.set (h : Lists st written row ms) (key : Atom) {s : Slot}
    {v : Value} (hs : Means st written s v) :
    Lists st written (Row.set key s row) (Members.set key v ms) := by
  induction ms generalizing row with
  | nil =>
      cases h with
      | nil => exact .cons key hs .nil
  | cons m rest ih =>
      cases h with
      | @cons k s v row _ h hrest =>
          unfold Row.set Members.set
          by_cases hk : k.same key = true
          · simp only [hk, if_true]
            exact .cons k hs hrest
          · simp only [hk]
            exact .cons k h (ih hrest)

end

/-!
# Merging in storage
-/

theorem getElem?_of_grown {st st' : Storage} (h : st <+: st') {n : Nat}
    {r : Row} (hr : st[n]? = some r) : st'[n]? = some r := by
  rcases h with ⟨more, rfl⟩
  have hlt : n < st.length := (List.getElem?_eq_some_iff.mp hr).1
  rw [List.getElem?_append_left hlt, hr]

def SameBut (into : Nat) (st st' : Storage) : Prop :=
  ∀ n r, n ≠ into → st[n]? = some r → st'[n]? = some r

theorem sameBut_of_grown (into : Nat) {st st' : Storage} (h : st <+: st') :
    SameBut into st st' := by
  intro n r _ hr
  exact getElem?_of_grown h hr

theorem sameBut_modify (into : Nat) (write : Row → Row) (st : Storage) :
    SameBut into st (st.modify into write) := by
  intro n r hn hr
  simpa [List.getElem?_modify, hn.symm] using hr

theorem SameBut.trans {into : Nat} {st st' st'' : Storage}
    (h : SameBut into st st') (h' : SameBut into st' st'') :
    SameBut into st st'' := by
  intro n r hn hr
  exact h' n r hn (h n r hn hr)

theorem SameBut.keep {into : Nat} {st st' : Storage} (h : SameBut into st st')
    {written : List Nat} (hinto : into ∈ written) :
    ∀ n row, n ∉ written → st[n]? = some row →
      n ∉ written ∧ st'[n]? = some row := by
  intro n row hn hrow
  constructor
  · exact hn
  · apply h n row _ hrow
    intro heq
    rw [heq] at hn
    exact hn hinto

/-- Whether mappings down to a depth are merged as their trees are, in storage
that only grows. -/
def MergesTrees (depth : Nat)
    (merging : Nat → Nat → Storage → Option (Nat × Storage)) : Prop :=
  ∀ {st written b o bs os}, (∀ n ∈ written, n < st.length) →
    Means st written (.map b) (.map bs) →
    Means st written (.map o) (.map os) → (Value.map os).levels ≤ depth →
    ∃ n st', merging b o st = some (n, st') ∧ st <+: st' ∧
      Means st' written (.map n) (.map (merge bs os))

section

variable {depth : Nat} {merging : Nat → Nat → Storage → Option (Nat × Storage)}
    {st : Storage}
  {written : List Nat}

theorem laySlot_means (hmerge : MergesTrees depth merging)
    (hwritten : ∀ n ∈ written, n < st.length) {row : Row} {ms : Members}
    (hrow : Lists st written row ms) (k : Atom) {s : Slot} {v : Value}
    (hs : Means st written s v) (hlevels : v.levels ≤ depth) :
    ∃ s' st', Storage.laySlot merging (Row.get? k row) s st = some (s', st') ∧
      st <+: st' ∧
      Means st' written s' (layOver (Members.get? k ms) v) := by
  have hupper (h : layOver (Members.get? k ms) v = v) :
      Means st written s (layOver (Members.get? k ms) v) := by
    rw [h]
    exact hs
  cases hs with
  | atom a =>
      exact ⟨_, _, by simp [Storage.laySlot], List.prefix_rfl, hupper (by simp)⟩
  | seq items =>
      exact ⟨_, _, by simp [Storage.laySlot], List.prefix_rfl, hupper (by simp)⟩
  | map hn ho h =>
      rcases hrow.get? k with ⟨hnone, hlower⟩ | ⟨s, w, hsome, hlower, hw⟩
      · rw [hnone]
        exact ⟨_, _, by simp [Storage.laySlot], List.prefix_rfl,
          hupper (by simp [hlower])⟩
      · rw [hsome]
        cases hw with
        | atom a =>
            refine ⟨_, _, by simp [Storage.laySlot], List.prefix_rfl, hupper ?_⟩
            apply layOver_eq_right
            simp [hlower]
        | seq items =>
            refine ⟨_, _, by simp [Storage.laySlot], List.prefix_rfl, hupper ?_⟩
            apply layOver_eq_right
            simp [hlower]
        | map hb hbrow hbs =>
            rcases hmerge hwritten (.map hb hbrow hbs) (.map hn ho h)
              hlevels with
              ⟨n, st', hmerging, hgrown, hmeans⟩
            rw [hlower, layOver_map]
            exact ⟨.map n, st', by simp [Storage.laySlot, hmerging], hgrown,
              hmeans⟩

theorem layRow_lists (hmerge : MergesTrees depth merging) {into : Nat}
    (hinto : into ∈ written) {upper : Row} {above : Members}
    (hupper : Lists st written upper above)
    (hlevels : Value.membersLevels above ≤ depth)
    (hwritten : ∀ n ∈ written, n < st.length) {row : Row} {ms : Members}
    (hrow : st[into]? = some row) (hlists : Lists st written row ms) :
    ∃ st' row', Storage.layRow merging into upper st = some st' ∧
      SameBut into st st' ∧
      st'[into]? = some row' ∧ Lists st' written row' (merge ms above) := by
  induction above generalizing st upper row ms with
  | nil =>
      cases hupper with
      | nil =>
          exact ⟨st, row, by simp [Storage.layRow], fun _ _ _ hr => hr, hrow,
            by simpa⟩
  | cons m rest ih =>
      cases hupper with
      | @cons k s v upper _ hs hrest =>
          rw [Value.membersLevels] at hlevels
          rcases laySlot_means hmerge hwritten hlists k hs (by omega) with
            ⟨s', st₁, hslot, hgrown, hs'⟩
          let st₂ := st₁.modify into (Row.set k s')
          have hwrite : SameBut into st₁ st₂ := sameBut_modify into _ st₁
          have hsame : SameBut into st st₂ :=
            (sameBut_of_grown into hgrown).trans hwrite
          have hrow' : st₂[into]? = some (Row.set k s' row) := by
            have hold : st₁[into]? = some row := getElem?_of_grown hgrown hrow
            simp [st₂, hold]
          have hlists' : Lists st₂ written (Row.set k s' row)
              (Members.set k (layOver (Members.get? k ms) v) ms) := by
            apply Lists.set
            · exact hlists.keep (hsame.keep hinto)
            · exact hs'.keep (hwrite.keep hinto)
          have hwritten' : ∀ n ∈ written, n < st₂.length := by
            intro n hn
            have hlength := hgrown.length_le
            have := hwritten n hn
            simp only [st₂, List.length_modify]
            omega
          rcases ih (hrest.keep (hsame.keep hinto)) (by omega) hwritten' hrow'
            hlists' with
            ⟨st', row', hlaid, hbehind, hrow', hmerged⟩
          have hread :
              Storage.layRow merging into ((k, s) :: upper) st = some st' := by
            rw [Storage.layRow, hrow]
            simp only [Option.bind_eq_bind, Option.bind_some, hslot]
            exact hlaid
          rw [merge_cons]
          exact ⟨st', row', hread, hsame.trans hbehind, hrow', hmerged⟩

end

theorem mergeMaps_trees (depth : Nat) :
    MergesTrees depth (Storage.mergeMaps depth) := by
  induction depth with
  | zero =>
      intro st written b o bs os hwritten hb ho hlevels
      simp [Value.levels] at hlevels
  | succ depth ih =>
      intro st written b o bs os hwritten hb ho hlevels
      cases hb with
      | @map _ low _ hb hlow hbs =>
          cases ho with
          | @map _ high _ ho hhigh hos =>
              rw [Value.levels] at hlevels
              -- the copy is written from now on, and nothing means anything by
              -- it
              have hopen : ∀ n r, n ∉ written → st[n]? = some r →
                  n ∉ st.length :: written ∧ (st ++ [low])[n]? = some r := by
                intro n r hn hr
                have hlt : n < st.length := (List.getElem?_eq_some_iff.mp hr).1
                constructor
                · simp only [List.mem_cons, not_or]
                  exact ⟨by omega, hn⟩
                · rw [List.getElem?_append_left hlt]
                  exact hr
              have hwritten' :
                  ∀ n ∈ st.length :: written, n < (st ++ [low]).length := by
                intro n hn
                rw [List.length_append, List.length_singleton]
                rcases List.mem_cons.mp hn with heq | hmem
                · omega
                · have := hwritten n hmem
                  omega
              rcases layRow_lists ih List.mem_cons_self (hos.keep hopen)
                (by omega) hwritten' (by simp) (hbs.keep hopen) with
                  ⟨st', row, hlaid, hsame, hrow, hmerged⟩
              have hread :
                  Storage.mergeMaps (depth + 1) b o st =
                    some (st.length, st') := by
                simp [Storage.mergeMaps, hlow, hhigh, hlaid]
              have hgrown : st <+: st' := by
                rw [List.prefix_iff_getElem?]
                intro n hn
                apply hsame n _ (by omega)
                rw [List.getElem?_append_left hn, List.getElem?_eq_getElem hn]
              have hmeans :
                  Means st' written (.map st.length) (.map (merge bs os)) := by
                apply Means.map
                · intro hmem
                  have := hwritten _ hmem
                  omega
                · exact hrow
                · apply hmerged.keep
                  intro n r hn hr
                  simp only [List.mem_cons, not_or] at hn
                  exact ⟨hn.2, hr⟩
              exact ⟨st.length, st', hread, hgrown, hmeans⟩

/-- What merged settings are, along every path through mappings on both sides:
the two mappings merged, with their keys and no others; the lower settings
behind a key that the upper ones lack; and the upper settings behind a key under
which not both have mappings. -/
structure MergedAlong (below above merged : Value) : Prop where
  both : ∀ {path bs os}, below.at? path = some (.map bs) →
    above.at? path = some (.map os) →
    merged.at? path = some (.map (merge bs os))
  keys : ∀ {path bs os}, below.at? path = some (.map bs) →
    above.at? path = some (.map os) →
    ∃ ms, merged.at? path = some (.map ms) ∧ ms.map Prod.fst =
      bs.map Prod.fst ++
        (os.map Prod.fst).filter fun k => (Members.get? k bs).isNone
  lower : ∀ {path bs os}, below.at? path = some (.map bs) →
    above.at? path = some (.map os) →
    ∀ {key}, Members.get? key os = none →
      ∀ rest, merged.at? (path ++ key :: rest) = below.at? (path ++ key :: rest)
  upper : ∀ {path bs os}, below.at? path = some (.map bs) →
    above.at? path = some (.map os) →
    ∀ {key v}, Members.get? key os = some v →
      (∀ b o, Members.get? key bs = some (.map b) → v ≠ .map o) →
      ∀ rest, merged.at? (path ++ key :: rest) = above.at? (path ++ key :: rest)

theorem mergedAlong (below : Members) {above : Members}
    (habove : (Value.map above).Keyed) :
    MergedAlong (.map below) (.map above) (.map (merge below above)) where
  both := at?_merge habove
  keys := by
    intro path bs os hbs hos
    exact ⟨merge bs os, at?_merge habove hbs hos,
      Members.keys_merge (habove.at? hos).distinct bs⟩
  lower := by
    intro path bs os hbs hos key hnone rest
    exact at?_merge_lower habove hbs hos hnone rest
  upper := by
    intro path bs os hbs hos key v hv hone rest
    exact at?_merge_upper habove hbs hos hv hone rest

/-- Settings are merged along every path, laying merged settings over the lower
ones gives them again, and mappings in storage are merged into a new one without
a write to those that stand there, so that the lower one means what it meant. -/
theorem merge_along_paths {below above : Members}
    (hbelow : (Value.map below).Keyed) (habove : (Value.map above).Keyed) :
    MergedAlong (.map below) (.map above) (.map (merge below above)) ∧
      merge below (merge below above) = merge below above ∧
      ∀ st b o depth, Means st [] (.map b) (.map below) →
        Means st [] (.map o) (.map above) →
        (Value.map above).levels ≤ depth →
        ∃ n st', Storage.mergeMaps depth b o st = some (n, st') ∧ st <+: st' ∧
          Means st' [] (.map b) (.map below) ∧
          Means st' [] (.map n) (.map (merge below above)) := by
  constructor
  · exact mergedAlong below habove
  constructor
  · exact merge_merge hbelow habove
  · intro st b o depth hb ho hlevels
    rcases mergeMaps_trees depth (by simp) hb ho hlevels with
      ⟨n, st', hmerged, hgrown, hmeans⟩
    have hlower : Means st' [] (.map b) (.map below) := by
      apply hb.keep
      intro n row hn hrow
      exact ⟨hn, getElem?_of_grown hgrown hrow⟩
    exact ⟨n, st', hmerged, hgrown, hlower, hmeans⟩

theorem merge_along_paths_nested :
    let usual : Members := [(.str "sync_idle_ms", .int 200)]
    let chosen : Members := [(.str "auto_trigger", .bool false)]
    let below : Members := [(.str "tabby", .map usual)]
    let above : Members := [(.str "tabby", .map chosen)]
    let st : Storage :=
  [[(.str "tabby", .map 1)], [(.str "sync_idle_ms", .atom (.int 200))],
      [(.str "tabby", .map 3)], [(.str "auto_trigger", .atom (.bool false))]]
    (Value.map (merge below above)).at? [.str "tabby"] = some
    (.map (merge usual chosen)) ∧
      merge below (merge below above) = merge below above ∧
      ∃ n st', Storage.mergeMaps 2 0 2 st = some (n, st') ∧ st <+: st' ∧
        Means st' [] (.map 0) (.map below) ∧
          Means st' [] (.map n) (.map (merge below above)) := by
  intro usual chosen below above st
  have husual : (Value.map usual).Keyed :=
    .map (by decide) (by simp [usual, Value.Keyed.atom])
  have hchosen : (Value.map chosen).Keyed :=
    .map (by decide) (by simp [chosen, Value.Keyed.atom])
  have hbelow : (Value.map below).Keyed :=
    .map (by decide) (by simpa [below] using husual)
  have habove : (Value.map above).Keyed :=
    .map (by decide) (by simpa [above] using hchosen)
  rcases merge_along_paths hbelow habove with ⟨halong, hagain, hstored⟩
  constructor
  · apply halong.both
    · simp [below, Members.get?]
    · simp [above, Members.get?]
  constructor
  · exact hagain
  · apply hstored
    · exact .map (by simp) rfl
        (.cons _ (.map (by simp) rfl (.cons _ (.atom _) .nil)) .nil)
    · exact .map (by simp) rfl
        (.cons _ (.map (by simp) rfl (.cons _ (.atom _) .nil)) .nil)
    · decide

end Settings
end InlineCompletion
