import InlineCompletion.Settings.Merge

/-!
# What merged settings hold

Two keys that are one key find the same member, so a mapping has each of its
keys at most once.  Merging keeps that, and what can be written to a file.  The
main statement is that under each key of merged settings stands the upper value,
merged in turn with the lower one, or else the lower value.
-/

namespace InlineCompletion
namespace Settings

/-!
# Members
-/

theorem Atom.same_comm (a b : Atom) : same a b = same b a := by
  unfold same
  simp only [eq_comm]

/-- Whether each key stands in members once. -/
def Members.Distinct (ms : Members) : Prop :=
  (ms.map Prod.fst).Pairwise fun a b => a.same b = false

instance (ms : Members) : Decidable ms.Distinct :=
  inferInstanceAs (Decidable (List.Pairwise _ _))

namespace Members

variable {key other : Atom} {ms : Members}

theorem get?_cons_same {k : Atom} (h : k.same key = true) (v : Value)
    (rest : Members) :
    get? key ((k, v) :: rest) = some v := if_pos h

theorem get?_cons_other {k : Atom} (h : k.same key = false) (v : Value)
    (rest : Members) :
    get? key ((k, v) :: rest) = get? key rest :=
  if_neg (by rw [h]; exact Bool.false_ne_true)

theorem get?_of_same (h : key.same other = true) (ms : Members) :
    get? key ms = get? other ms := by
  induction ms with
  | nil => rfl
  | cons m rest ih =>
      rcases m with ⟨k, v⟩
      have hk : k.same key = k.same other := by
        rw [Atom.same_comm k key, Atom.same_comm k other]
        exact Atom.same_left h k
      unfold get?
      rw [hk, ih]

theorem mem_of_get? {v : Value} (h : get? key ms = some v) :
    ∃ k, (k, v) ∈ ms := by
  induction ms with
  | nil => cases h
  | cons m rest ih =>
      rcases m with ⟨k, w⟩
      cases hk : k.same key with
      | true =>
          rw [get?_cons_same hk] at h
          cases h
          exact ⟨k, List.mem_cons_self⟩
      | false =>
          rw [get?_cons_other hk] at h
          rcases ih h with ⟨k', hmem⟩
          exact ⟨k', List.mem_cons_of_mem _ hmem⟩

theorem get?_eq_none (h : ∀ k ∈ ms.map Prod.fst, key.same k = false) :
    get? key ms = none := by
  induction ms with
  | nil => rfl
  | cons m rest ih =>
      rcases m with ⟨k, v⟩
      rw [List.map_cons] at h
      have hk : k.same key = false := by
        rw [Atom.same_comm]
        exact h k List.mem_cons_self
      rw [get?_cons_other hk]
      exact ih fun k' hk' => h k' (List.mem_cons_of_mem _ hk')

theorem other_of_get?_eq_none (h : get? key ms = none) :
    ∀ k ∈ ms.map Prod.fst, k.same key = false := by
  induction ms with
  | nil => exact nofun
  | cons m rest ih =>
      rcases m with ⟨k, v⟩
      cases hk : k.same key with
      | true =>
          rw [get?_cons_same hk] at h
          cases h
      | false =>
          rw [get?_cons_other hk] at h
          intro k' hk'
          rcases List.mem_cons.mp hk' with heq | hmem
          · rw [heq]
            exact hk
          · exact ih h k' hmem

theorem keys_set (key : Atom) (value : Value) (ms : Members) :
    (set key value ms).map Prod.fst =
      if (get? key ms).isSome then ms.map Prod.fst else
        ms.map Prod.fst ++ [key] := by
  induction ms with
  | nil => rfl
  | cons m rest ih =>
      rcases m with ⟨k, v⟩
      unfold set get?
      cases hk : k.same key with
      | true => rfl
      | false =>
          rw [if_neg Bool.false_ne_true, if_neg Bool.false_ne_true,
            List.map_cons, ih]
          split <;> rfl

theorem mem_of_mem_set {value : Value} {m : Atom × Value}
    (h : m ∈ set key value ms) :
    m.2 = value ∨ m ∈ ms := by
  induction ms with
  | nil =>
      rw [List.mem_singleton.mp h]
      exact Or.inl rfl
  | cons n rest ih =>
      rcases n with ⟨k, v⟩
      unfold set at h
      split at h
      · rcases List.mem_cons.mp h with heq | hmem
        · rw [heq]
          exact Or.inl rfl
        · exact Or.inr (List.mem_cons_of_mem _ hmem)
      · rcases List.mem_cons.mp h with heq | hmem
        · rw [heq]
          exact Or.inr List.mem_cons_self
        · rcases ih hmem with hvalue | hbefore
          · exact Or.inl hvalue
          · exact Or.inr (List.mem_cons_of_mem _ hbefore)

theorem get?_perm {ns : Members} (h : ms.Perm ns) (hdistinct : ms.Distinct)
    (key : Atom) :
    get? key ms = get? key ns := by
  induction h with
  | nil => rfl
  | cons m _ ih =>
      rcases m with ⟨k, v⟩
      unfold get?
      rw [ih (List.Pairwise.of_cons hdistinct)]
  | swap m n rest =>
      rcases m with ⟨k, v⟩
      rcases n with ⟨l, w⟩
      have hother : l.same k = false :=
        (List.pairwise_cons.mp hdistinct).1 k List.mem_cons_self
      unfold get? get?
      cases hl : l.same key with
      | false => rfl
      | true =>
          have hk : k.same key = false := by
            rw [Atom.same_comm, ← Atom.same_left hl k]
            exact hother
          rw [hk]
          rfl
  | trans h _ ih ih' =>
      rw [ih hdistinct, ih' ((h.map Prod.fst).pairwise hdistinct ?_)]
      exact fun {a b} hab => by rw [Atom.same_comm]; exact hab

theorem Distinct.set (h : ms.Distinct) (key : Atom) (value : Value) :
    (ms.set key value).Distinct := by
  unfold Distinct
  rw [keys_set]
  cases hfound : get? key ms with
  | some v => exact h
  | none =>
      refine List.pairwise_append.mpr ⟨h, List.pairwise_singleton _ _, ?_⟩
      intro k hk k' hk'
      rw [List.mem_singleton.mp hk']
      exact other_of_get?_eq_none hfound k hk

end Members

/-!
# Values
-/

/-- Whether a value can be written to a file and read again: every mapping in it
has each of its keys once, and every atom can be shown. -/
inductive Value.Writable : Value → Prop
  | atom {a : Atom} (h : a.isShowable = true) : Writable (.atom a)
  | seq {items : List Value} (h : ∀ v ∈ items, Writable v) :
      Writable (.seq items)
  | map {members : Members} (hkeys : members.Distinct)
      (hshown : ∀ k ∈ members.map Prod.fst, k.isShowable = true)
      (h : ∀ m ∈ members, Writable m.2) : Writable (.map members)

theorem Value.areShowable_of_forall {items : List Value}
    (h : ∀ v ∈ items, v.isShowable = true) : areShowable items = true := by
  induction items with
  | nil => rfl
  | cons v rest ih =>
      have hrest := ih fun w hw => h w (List.mem_cons_of_mem _ hw)
      rw [areShowable, h v List.mem_cons_self, hrest]
      rfl

theorem Value.membersShowable_of_forall {ms : Members}
    (hkeys : ∀ k ∈ ms.map Prod.fst, k.isShowable = true)
    (h : ∀ m ∈ ms, m.2.isShowable = true) : membersShowable ms = true := by
  induction ms with
  | nil => rfl
  | cons m rest ih =>
      rcases m with ⟨k, v⟩
      rw [List.map_cons] at hkeys
      have hrest :=
        ih (fun k' hk' => hkeys k' (List.mem_cons_of_mem _ hk')) fun m hm =>
        h m (List.mem_cons_of_mem _ hm)
      rw [membersShowable, hkeys k List.mem_cons_self,
        h (k, v) List.mem_cons_self, hrest]
      rfl

theorem Value.Writable.isShowable {v : Value} (h : v.Writable) :
    v.isShowable = true := by
  induction h with
  | atom h => exact h
  | seq _ ih => exact areShowable_of_forall ih
  | map _ hshown _ ih => exact membersShowable_of_forall hshown ih

theorem Value.Writable.keys {ms : Members} (h : (Value.map ms).Writable) :
    ms.Distinct := by
  cases h with
  | map hkeys _ _ => exact hkeys

theorem Value.Writable.member {ms : Members} (h : (Value.map ms).Writable)
    {key : Atom} {v : Value} (hv : Members.get? key ms = some v) :
    v.Writable := by
  cases h with
  | map _ _ hvalues =>
      rcases Members.mem_of_get? hv with ⟨k, hmem⟩
      exact hvalues (k, v) hmem

theorem Value.Writable.set {ms : Members} (h : (Value.map ms).Writable)
    {key : Atom} (hkey : key.isShowable = true) {v : Value} (hv : v.Writable) :
    (Value.map (ms.set key v)).Writable := by
  cases h with
  | map hkeys hshown hvalues =>
      refine .map (hkeys.set key v) ?_ ?_
      · intro k hk
        rw [Members.keys_set] at hk
        split at hk
        · exact hshown k hk
        · rcases List.mem_append.mp hk with hk | hk
          · exact hshown k hk
          · rw [List.mem_singleton.mp hk]
            exact hkey
      · intro m hm
        rcases Members.mem_of_mem_set hm with heq | hbefore
        · rw [heq]
          exact hv
        · exact hvalues m hbefore

/-!
# Merging
-/

@[simp] theorem layOver_atom (below : Option Value) (a : Atom) :
    layOver below (.atom a) = .atom a := by
  simp [layOver]

@[simp] theorem layOver_seq (below : Option Value) (items : List Value) :
    layOver below (.seq items) = .seq items := by
  simp [layOver]

@[simp] theorem layOver_map (below above : Members) :
    layOver (some (.map below)) (.map above) = .map (merge below above) := by
  simp [layOver]

theorem layOver_eq_right {below : Option Value}
    (h : ∀ ms, below ≠ some (.map ms)) (v : Value) :
    layOver below v = v := by
  cases v with
  | atom a => exact layOver_atom below a
  | seq items => exact layOver_seq below items
  | map above =>
      unfold layOver
      split
      · next ms => exact absurd rfl (h ms)
      · rfl

@[simp] theorem layOver_none (v : Value) : layOver none v = v := by
  refine layOver_eq_right ?_ v
  intro ms h
  cases h

/-- Under each key of merged settings stands the upper value laid over the lower
one, or else the lower value. -/
theorem get?_merge {above : Members} (h : above.Distinct) (below : Members)
    (key : Atom) :
    Members.get? key (merge below above) =
      ((Members.get? key above).map (layOver (Members.get? key below))).or
        (Members.get? key below) := by
  induction above generalizing below with
  | nil => rfl
  | cons m rest ih =>
      rcases m with ⟨k, v⟩
      unfold Members.Distinct at h
      rw [List.map_cons, List.pairwise_cons] at h
      rcases h with ⟨hfirst, hrest⟩
      rw [merge_cons, ih hrest]
      cases hk : k.same key with
      | true =>
          -- no later member has this key, so what was just set stays
          have hlater : Members.get? key rest = none := by
            rw [← Members.get?_of_same hk]
            exact Members.get?_eq_none hfirst
          rw [hlater, Members.get?_set_same hk, Members.get?_cons_same hk,
            Members.get?_of_same hk]
          rfl
      | false => rw [Members.get?_set_other hk, Members.get?_cons_other hk]

theorem get?_merge_of_some {above : Members} (h : above.Distinct)
    (below : Members) {key : Atom} {v : Value}
    (hv : Members.get? key above = some v) :
    Members.get? key (merge below above) =
      some (layOver (Members.get? key below) v) := by
  rw [get?_merge h, hv]
  rfl

theorem get?_merge_of_none {above : Members} (h : above.Distinct)
    (below : Members) {key : Atom} (hnone : Members.get? key above = none) :
    Members.get? key (merge below above) = Members.get? key below := by
  rw [get?_merge h, hnone]
  rfl

theorem Value.Writable.layOver {v : Value} (hv : v.Writable)
    {below : Option Value} (h : ∀ b, below = some b → b.Writable) :
    (Settings.layOver below v).Writable := by
  induction hv generalizing below with
  | atom hshown =>
      rw [layOver_atom]
      exact .atom hshown
  | seq hitems =>
      rw [layOver_seq]
      exact .seq hitems
  | @map above hkeys hshown hvalues ih =>
      -- the members are merged one by one, each into all that was merged before
      have hmerged {ms : Members} (hms : (Value.map ms).Writable)
        {rest : List (Atom × Value)}
        (hrest : ∀ m ∈ rest, m ∈ above) :
              (Value.map (merge ms rest)).Writable := by
        induction rest generalizing ms with
        | nil => exact hms
        | cons m rest ihrest =>
            rcases m with ⟨k, v⟩
            have hv : (Settings.layOver (Members.get? k ms) v).Writable :=
              ih (k, v) (hrest _ List.mem_cons_self) fun b hb => hms.member hb
            have hk : k.isShowable = true :=
              hshown k (List.mem_map_of_mem (hrest _ List.mem_cons_self))
            rw [merge_cons]
            exact ihrest (hms.set hk hv) fun m hm =>
              hrest m (List.mem_cons_of_mem _ hm)
      by_cases hmap : ∃ ms, below = some (.map ms)
      · rcases hmap with ⟨ms, rfl⟩
        rw [layOver_map]
        exact hmerged (h _ rfl) fun _ hm => hm
      · rw [layOver_eq_right fun ms hms => hmap ⟨ms, hms⟩]
        exact .map hkeys hshown hvalues

theorem Value.Writable.merge {below above : Members}
    (hbelow : (Value.map below).Writable)
    (habove : (Value.map above).Writable) :
    (Value.map (merge below above)).Writable := by
  rw [← layOver_map]
  exact habove.layOver fun b hb => by
    cases hb
    exact hbelow

end Settings
end InlineCompletion
