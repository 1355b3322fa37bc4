import InlineCompletion.Proofs.Settings.Merge
import InlineCompletion.Settings.Store

/-!
# Settings that come back

A file holds what was saved, the members of its mappings perhaps in another
order.  When it is the user's file, it is laid over the same settings as before,
so a mapping regains the entries below it that it had dropped.  The main
statements are that a saved setting comes back exactly if it dropped no such
entry, and what comes back if it did.
-/

namespace InlineCompletion
namespace Settings

namespace Value

/-!
# The order of members
-/

/-- Whether two values are equal up to the order of the members of their
mappings. -/
inductive Alike : Value → Value → Prop
  | atom (a : Atom) : Alike (.atom a) (.atom a)
  | seq {items others : List Value} (hlength : items.length = others.length)
      (h : ∀ (i : Nat) v w, items[i]? = some v → others[i]? = some w →
        Alike v w) :
      Alike (.seq items) (.seq others)
  | map {ms ns : Members}
      (hkeys : ∀ key, (ms.get? key).isSome = (ns.get? key).isSome)
      (h : ∀ key v w, ms.get? key = some v → ns.get? key = some w →
        Alike v w) :
      Alike (.map ms) (.map ns)

variable {u v w : Value} {ms ns : Members}

theorem Writable.alike (h : v.Writable) : v.Alike v := by
  induction h with
  | atom _ => exact .atom _
  | seq _ ih =>
      refine .seq rfl ?_
      intro i v w hv hw
      rw [hv] at hw
      cases hw
      exact ih v (List.mem_of_getElem? hv)
  | map _ _ _ ih =>
      refine .map (fun _ => rfl) ?_
      intro key v w hv hw
      rw [hv] at hw
      cases hw
      rcases Members.mem_of_get? hv with ⟨k, hmem⟩
      exact ih (k, v) hmem

namespace Alike

theorem symm (h : v.Alike w) : w.Alike v := by
  induction h with
  | atom a => exact .atom a
  | seq hlength _ ih =>
      exact .seq hlength.symm fun i v w hv hw => ih i w v hw hv
  | map hkeys _ ih =>
      exact .map (fun key => (hkeys key).symm) fun key v w hv hw =>
        ih key w v hw hv

theorem trans (h : u.Alike v) (h' : v.Alike w) : u.Alike w := by
  induction h generalizing w with
  | atom a => exact h'
  | @seq items others hlength _ ih =>
      cases h' with
      | @seq _ more hlength' hmore =>
          refine .seq (hlength.trans hlength') ?_
          intro i u w hu hw
          have hi : i < others.length := by
            rw [hlength']
            exact (List.getElem?_eq_some_iff.mp hw).1
          have hv : others[i]? = some others[i] := List.getElem?_eq_getElem hi
          exact ih i u _ hu hv (hmore i _ w hv hw)
  | @map ms ns hkeys _ ih =>
      cases h' with
      | @map _ os hkeys' hmore =>
          refine .map (fun key => (hkeys key).trans (hkeys' key)) ?_
          intro key u w hu hw
          have hfound : (ns.get? key).isSome := by
            rw [hkeys' key, hw]
            rfl
          rcases Option.isSome_iff_exists.mp hfound with ⟨v, hv⟩
          exact ih key u v hu hv (hmore key v w hv hw)

theorem found (h : (Value.map ms).Alike (.map ns)) (key : Atom) :
    (ms.get? key = none ∧ ns.get? key = none) ∨
      ∃ v w, ms.get? key = some v ∧ ns.get? key = some w ∧ v.Alike w := by
  cases h with
  | map hkeys hvalues =>
      have hkey := hkeys key
      cases hv : ms.get? key with
      | none =>
          rw [hv] at hkey
          have hnone := Option.isSome_eq_false_iff.mp hkey.symm
          exact Or.inl ⟨rfl, Option.isNone_iff_eq_none.mp hnone⟩
      | some v =>
          rw [hv] at hkey
          rcases Option.isSome_iff_exists.mp hkey.symm with ⟨w, hw⟩
          exact Or.inr ⟨v, w, rfl, hw, hvalues key v w hv hw⟩

theorem of_found (h : ∀ key, Option.Rel Alike (ms.get? key) (ns.get? key)) :
    (Value.map ms).Alike (.map ns) := by
  refine .map ?_ ?_
  · intro key
    exact match ms.get? key, ns.get? key, h key with
      | none, none, .none => rfl
      | some _, some _, .some _ => rfl
  · intro key v w hv hw
    have hkey := h key
    rw [hv, hw] at hkey
    cases hkey with
    | some halike => exact halike

theorem of_perm (h : ms.Perm ns) (hwritable : (Value.map ms).Writable) :
    (Value.map ms).Alike (.map ns) := by
  have hfound (key : Atom) : ms.get? key = ns.get? key :=
    Members.get?_perm h hwritable.keys key
  refine .map (fun key => by rw [hfound]) ?_
  intro key v w hv hw
  rw [← hfound, hv] at hw
  cases hw
  exact (hwritable.member hv).alike

theorem layOver (h : v.Alike w) (hv : v.Writable) (hw : w.Writable)
    {below : Option Value} (hbelow : ∀ b, below = some b → b.Writable) :
    (Settings.layOver below v).Alike (Settings.layOver below w) := by
  induction h generalizing below with
  | atom a =>
      rw [layOver_atom]
      exact .atom a
  | seq hlength hitems =>
      rw [layOver_seq, layOver_seq]
      exact .seq hlength hitems
  | @map ms ns hkeys hvalues ih =>
      by_cases hmap : ∃ bs, below = some (.map bs)
      · rcases hmap with ⟨bs, rfl⟩
        have hbs := hbelow _ rfl
        rw [layOver_map, layOver_map]
        refine of_found ?_
        intro key
        rcases (Alike.map hkeys hvalues).found key with
          ⟨hm, hn⟩ | ⟨m, n, hm, hn, -⟩
        · rw [get?_merge_of_none hv.keys bs hm,
            get?_merge_of_none hw.keys bs hn]
          cases hb : Members.get? key bs with
          | none => exact .none
          | some b => exact .some (hbs.member hb).alike
        · rw [get?_merge_of_some hv.keys bs hm,
            get?_merge_of_some hw.keys bs hn]
          exact .some
            (ih key m n hm hn (hv.member hm) (hw.member hn)
              fun b hb => hbs.member hb)
      · rw [layOver_eq_right fun bs hbs => hmap ⟨bs, hbs⟩,
          layOver_eq_right fun bs hbs => hmap ⟨bs, hbs⟩]
        exact .map hkeys hvalues

end Alike

/-!
# Entries that are dropped
-/

/-- Whether a value drops an entry of another: where both have a mapping, the
entry is missing in it. -/
inductive Drops : Value → Value → Prop
  | entry {ms ns : Members} {key : Atom} (h : (ms.get? key).isSome)
      (hnone : ns.get? key = none) :
      Drops (.map ms) (.map ns)
  | inside {ms ns : Members} {key : Atom} {v w : Value}
      (hv : ms.get? key = some v) (hw : ns.get? key = some w) (h : Drops v w) :
          Drops (.map ms) (.map ns)

namespace Drops

theorem ne (h : Drops v w) : v ≠ w := by
  induction h with
  | entry h hnone =>
      intro heq
      cases heq
      rw [hnone] at h
      cases h
  | inside hv hw _ ih =>
      intro heq
      cases heq
      exact ih (Option.some.inj (hv.symm.trans hw))

theorem not_layOver (hv : v.Writable) (b : Value) :
    ¬ Drops b (Settings.layOver (some b) v) := by
  induction hv generalizing b with
  | atom _ =>
      rw [layOver_atom]
      exact nofun
  | seq _ =>
      rw [layOver_seq]
      exact nofun
  | @map ns hkeys _ _ ih =>
      intro h
      cases b with
      | atom a => cases h
      | seq items => cases h
      | map ms =>
          rw [layOver_map] at h
          cases h with
          | @entry _ _ key h hnone =>
              rw [get?_merge hkeys, Option.or_eq_none_iff] at hnone
              rw [hnone.2] at h
              cases h
          | @inside _ _ key x y hx hy h =>
              cases hw : ns.get? key with
              | none =>
                  -- the entry below stays, and drops nothing of itself
                  rw [get?_merge_of_none hkeys ms hw] at hy
                  exact h.ne (Option.some.inj (hx.symm.trans hy))
              | some w =>
                  rw [get?_merge_of_some hkeys ms hw, hx] at hy
                  cases hy
                  rcases Members.mem_of_get? hw with ⟨k, hmem⟩
                  exact ih (k, w) hmem x h

theorem not_alike {b : Value} (h : Drops b v) (hv : v.Writable) :
    ¬ (Settings.layOver (some b) v).Alike v := by
  induction h with
  | @entry ms ns key h hnone =>
      intro halike
      rw [layOver_map] at halike
      rcases halike.found key with ⟨hm, -⟩ | ⟨_, _, -, hn, -⟩
      · rw [get?_merge_of_none hv.keys ms hnone] at hm
        rw [hm] at h
        cases h
      · rw [hnone] at hn
        cases hn
  | @inside ms ns key x y hx hy _ ih =>
      intro halike
      rw [layOver_map] at halike
      rcases halike.found key with ⟨-, hn⟩ | ⟨_, _, hm, hn, hmember⟩
      · rw [hy] at hn
        cases hn
      · rw [get?_merge_of_some hv.keys ms hy, hx] at hm
        rw [hy] at hn
        cases hm
        cases hn
        exact ih (hv.member hy) hmember

end Drops

theorem alike_of_not_drops (hv : v.Writable) {b : Value} (h : ¬ Drops b v) :
    (Settings.layOver (some b) v).Alike v := by
  induction hv generalizing b with
  | atom _ =>
      rw [layOver_atom]
      exact .atom _
  | seq hitems =>
      rw [layOver_seq]
      exact (Writable.seq hitems).alike
  | @map ns hkeys hshown hvalues ih =>
      by_cases hmap : ∃ ms, b = .map ms
      · rcases hmap with ⟨ms, rfl⟩
        rw [layOver_map]
        refine .of_found ?_
        intro key
        cases hw : ns.get? key with
        | none =>
            rw [get?_merge_of_none hkeys ms hw]
            cases hx : Members.get? key ms with
            | none => exact .none
            | some x => exact absurd (.entry (by rw [hx]; rfl) hw) h
        | some w =>
            rw [get?_merge_of_some hkeys ms hw]
            rcases Members.mem_of_get? hw with ⟨k, hmem⟩
            cases hx : Members.get? key ms with
            | none =>
                rw [layOver_none]
                exact .some (hvalues (k, w) hmem).alike
            | some x =>
                exact .some
                  (ih (k, w) hmem fun hdrops => h (.inside hx hw hdrops))
      · rw [layOver_eq_right fun ms hms => hmap ⟨ms, Option.some.inj hms⟩]
        exact (Writable.map hkeys hshown hvalues).alike

end Value

namespace Store

/-!
# The settings in force
-/

theorem writable_orEmpty {v : Value} (h : v.Writable) : v.orEmpty.Writable := by
  unfold Value.orEmpty
  split
  · exact h
  · exact .map .nil nofun nofun

theorem onTop_cases {below : Members} {user : Value} {s : Store}
    (h : onTop below user = .ok s) :
    ∃ above : Members, user.orEmpty = .map above ∧
      s.current = merge below above := by
  unfold onTop at h
  split at h
  · next above habove =>
      cases h
      exact ⟨above, habove, rfl⟩
  · cases h

theorem onTop_map (below above : Members) :
    onTop below (.map above) = .ok ⟨merge below above⟩ := by
  unfold onTop Value.orEmpty
  cases above with
  | nil => rfl
  | cons m rest => rfl

def setAll (s : Store) (sets : List (Atom × Value)) : Store :=
  sets.foldl (fun s e => s.set e.1 e.2) s

theorem setAll_writable {s : Store} (h : (Value.map s.current).Writable)
    {sets : List (Atom × Value)}
    (hsets : ∀ e ∈ sets, e.1.isShowable = true ∧ e.2.Writable) :
    (Value.map (s.setAll sets).current).Writable := by
  induction sets generalizing s with
  | nil => exact h
  | cons e rest ih =>
      rcases hsets e List.mem_cons_self with ⟨hkey, hvalue⟩
      refine ih (s := s.set e.1 e.2) (h.set hkey hvalue) ?_
      exact fun e' he' => hsets e' (List.mem_cons_of_mem _ he')

theorem get?_setAll_other {key : Atom} {sets : List (Atom × Value)}
    (hsets : ∀ e ∈ sets, e.1.same key = false) (s : Store) :
    (s.setAll sets).get? key = s.get? key := by
  induction sets generalizing s with
  | nil => rfl
  | cons e rest ih =>
      have hfirst : (s.set e.1 e.2).get? key = s.get? key :=
        Members.get?_set_other (hsets e List.mem_cons_self) e.2 s.current
      show ((s.set e.1 e.2).setAll rest).get? key = _
      rw [ih fun e' he' => hsets e' (List.mem_cons_of_mem _ he'), hfirst]

theorem setAll_get?_isSome {key : Atom} {s : Store} (h : (s.get? key).isSome)
    (sets : List (Atom × Value)) : ((s.setAll sets).get? key).isSome := by
  induction sets generalizing s with
  | nil => exact h
  | cons e rest ih =>
      refine ih (s := s.set e.1 e.2) ?_
      cases he : e.1.same key with
      | true =>
          show (Members.get? key (Members.set e.1 e.2 s.current)).isSome
          rw [Members.get?_set_same he]
          rfl
      | false =>
          show (Members.get? key (Members.set e.1 e.2 s.current)).isSome
          rw [Members.get?_set_other he]
          exact h

theorem saved_of_isShowable {s : Store}
    (h : (Value.map s.current).isShowable = true) :
    s.saved = .ok (.map s.current) := if_pos h

/-!
# What comes back
-/

theorem onTop_writable {below : Members} {user : Value} {s : Store}
    (hbelow : (Value.map below).Writable) (huser : user.Writable)
    (hs : onTop below user = .ok s) :
    (Value.map s.current).Writable := by
  rcases onTop_cases hs with ⟨above, habove, hcurrent⟩
  rw [hcurrent]
  refine hbelow.merge ?_
  rw [← habove]
  exact writable_orEmpty huser

theorem onTop_keeps {below : Members} {user : Value} {s : Store}
    (huser : user.Writable) (hs : onTop below user = .ok s) {key : Atom}
    {b : Value} (hb : below.get? key = some b) :
    ∃ v, s.get? key = some v ∧ ¬ b.Drops v := by
  rcases onTop_cases hs with ⟨above, habove, hcurrent⟩
  have hwritable : (Value.map above).Writable := by
    rw [← habove]
    exact writable_orEmpty huser
  unfold get?
  rw [hcurrent]
  cases hw : above.get? key with
  | none =>
      rw [get?_merge_of_none hwritable.keys below hw]
      exact ⟨b, hb, fun h => h.ne rfl⟩
  | some w =>
      rw [get?_merge_of_some hwritable.keys below hw, hb]
      exact ⟨_, rfl, Value.Drops.not_layOver (hwritable.member hw) b⟩

/-- What is laid over the settings below, its members perhaps in another order,
stands over them under each key. -/
theorem merge_found {below members others : Members}
    (hbelow : (Value.map below).Writable)
    (hmembers : (Value.map members).Writable)
    (hothers : (Value.map others).Writable)
    (halike : (Value.map others).Alike (.map members))
    (hkeys : ∀ key, (below.get? key).isSome → (members.get? key).isSome)
    (key : Atom) :
    Option.Rel Value.Alike (Members.get? key (merge below others))
      ((members.get? key).map (layOver (below.get? key))) := by
  rcases halike.found key with ⟨hother, hmember⟩ | ⟨w, v, hw, hv, hwv⟩
  · rw [get?_merge_of_none hothers.keys below hother, hmember]
    cases hb : below.get? key with
    | none => exact .none
    | some b =>
        -- what was saved has every key below
        have hthere := hkeys key (by rw [hb]; rfl)
        rw [hmember] at hthere
        cases hthere
  · rw [get?_merge_of_some hothers.keys below hw, hv]
    exact .some
      (hwv.layOver (hothers.member hw) (hmembers.member hv)
        fun b hb => hbelow.member hb)

theorem rel_iff_not_drops {a b c : Option Value}
    (hc : ∀ v, c = some v → v.Writable)
    (h : Option.Rel Value.Alike a (c.map (layOver b))) :
    Option.Rel Value.Alike a c ↔
      ∀ d v, b = some d → c = some v → ¬ d.Drops v := by
  cases c with
  | none => exact iff_of_true h nofun
  | some v =>
      cases b with
      | none =>
          rw [Option.map_some, layOver_none] at h
          exact iff_of_true h nofun
      | some d =>
          cases h with
          | @some x _ hx =>
              constructor
              · intro hrel d' v' hd hv hdrops
                cases hd
                cases hv
                cases hrel with
                | some hxv =>
                    exact hdrops.not_alike (hc v rfl) (hx.symm.trans hxv)
              · intro hdrops
                exact .some
                  (hx.trans
                    (Value.alike_of_not_drops (hc v rfl) (hdrops d v rfl rfl)))

/-- Settings that can be written are saved, and come back when the saved file is
the user's, be its members in another order: under each key stands the saved
value laid over the one below.  So a saved value comes back as it was exactly if
it drops no entry of the one below, and a setting that was not set since the
start comes back in any case. -/
theorem saved_comes_back {below user : Members} {sets : List (Atom × Value)}
    (hbelow : (Value.map below).Writable) (huser : (Value.map user).Writable)
    (hsets : ∀ e ∈ sets, e.1.isShowable = true ∧ e.2.Writable) :
    ∃ s saved, onTop below (.map user) = .ok s ∧
      (s.setAll sets).saved = .ok saved ∧
      ∀ file : Value, file.Alike saved → file.Writable →
        ∃ again, onTop below file = .ok again ∧ ∀ key,
          Option.Rel Value.Alike (again.get? key)
              (((s.setAll sets).get? key).map (layOver (below.get? key))) ∧
            (Option.Rel Value.Alike (again.get? key)
              ((s.setAll sets).get? key) ↔
              ∀ b v, below.get? key = some b →
                (s.setAll sets).get? key = some v →
                ¬ b.Drops v) ∧
            ((∀ e ∈ sets, e.1.same key = false) →
              Option.Rel Value.Alike (again.get? key)
                ((s.setAll sets).get? key)) := by
  have hs := onTop_map below user
  generalize Store.mk (merge below user) = s at hs
  have hcurrent := setAll_writable (onTop_writable hbelow huser hs) hsets
  have hkeys (key : Atom) (hb : (below.get? key).isSome) :
      ((s.setAll sets).get? key).isSome := by
    rcases Option.isSome_iff_exists.mp hb with ⟨b, hb⟩
    rcases onTop_keeps huser hs hb with ⟨v, hv, -⟩
    exact setAll_get?_isSome (by rw [hv]; rfl) sets
  refine ⟨s, _, hs, saved_of_isShowable hcurrent.isShowable, ?_⟩
  intro file hfile hwritable
  cases hfile with
  | @map others _ hothers hvalues =>
      refine ⟨_, onTop_map below others, ?_⟩
      intro key
      have hfound :=
        merge_found hbelow hcurrent hwritable (.map hothers hvalues) hkeys key
      have hiff := rel_iff_not_drops (fun v hv => hcurrent.member hv) hfound
      refine ⟨hfound, hiff, ?_⟩
      intro hother
      refine hiff.mpr ?_
      intro b v hb hv
      have hunset := get?_setAll_other hother s
      rcases onTop_keeps huser hs hb with ⟨w, hw, hkept⟩
      have hsame : some v = some w := hv.symm.trans (hunset.trans hw)
      cases hsame
      exact hkept

theorem writable_pair {k l : String} {v w : Value}
    (h : (Atom.str k).same (.str l) = false) (hv : v.Writable)
    (hw : w.Writable) : (Value.map [(.str k, v), (.str l, w)]).Writable := by
  refine .map (List.pairwise_pair.mpr h) ?_ ?_
  · simp [Atom.isShowable]
  · intro m hm
    rcases List.mem_cons.mp hm with rfl | hm
    · exact hv
    · rw [List.mem_singleton.mp hm]
      exact hw

theorem writable_single {k : String} {v : Value} (hv : v.Writable) :
    (Value.map [(.str k, v)]).Writable := by
  refine .map (List.pairwise_singleton _ _) ?_ ?_
  · simp [Atom.isShowable]
  · intro m hm
    rw [List.mem_singleton.mp hm]
    exact hv

/-- A level that was set in place of a mapping with a file, behind a command of
the user's: the file is there again, and the command stays. -/
theorem saved_comes_back_dropped :
    let below : Members :=
      [(.str "logging",
        .map [(.str "level", .str "INFO"), (.str "file", .str "log")]),
        (.str "server",
          .map [(.str "command", .str "npx"), (.str "args", .seq [])])]
    let user : Members :=
      [(.str "server", .map [(.str "command", .str "agent")])]
    let sets : List (Atom × Value) :=
      [(.str "logging", .map [(.str "level", .str "DEBUG")])]
    let file : Value :=
      .map [(.str "server",
        .map [(.str "command", .str "agent"), (.str "args", .seq [])]),
        (.str "logging", .map [(.str "level", .str "DEBUG")])]
    ∃ s again, onTop below (.map user) = .ok s ∧ onTop below file = .ok again ∧
      Option.Rel Value.Alike (again.get? (.str "logging"))
        (some (.map
          [(.str "level", .str "DEBUG"), (.str "file", .str "log")])) ∧
      ¬ Option.Rel Value.Alike (again.get? (.str "logging"))
        ((s.setAll sets).get? (.str "logging")) ∧
      Option.Rel Value.Alike (again.get? (.str "server"))
        ((s.setAll sets).get? (.str "server")) := by
  intro below user sets file
  have hserver {command : String} :
      (Value.map
        [(.str "command", .str command), (.str "args", .seq [])]).Writable :=
    writable_pair (by decide) (.atom rfl) (.seq nofun)
  have hbelow : (Value.map below).Writable :=
    writable_pair (by decide)
      (writable_pair (by decide) (.atom rfl) (.atom rfl)) hserver
  have hfile : file.Writable :=
    writable_pair (by decide) hserver (writable_single (.atom rfl))
  have hsets : ∀ e ∈ sets, e.1.isShowable = true ∧ e.2.Writable := by
    intro e he
    rw [List.mem_singleton.mp he]
    exact ⟨rfl, writable_single (.atom rfl)⟩
  have huser : (Value.map user).Writable :=
    writable_single (writable_single (.atom rfl))
  rcases saved_comes_back hbelow huser hsets with ⟨s, saved, hs, hsaved, hcomes⟩
  cases hs
  cases hsaved
  rcases hcomes file (.of_perm (.swap _ _ _) hfile) hfile with
    ⟨again, hagain, hback⟩
  refine ⟨_, again, rfl, hagain, (hback (.str "logging")).1, ?_,
    (hback (.str "server")).2.2 ?_⟩
  · intro hrel
    have hnone := (hback (.str "logging")).2.1.mp hrel _ _ rfl rfl
    exact hnone
      (.entry (show (Members.get? (.str "file") _).isSome from rfl) rfl)
  · intro e he
    rw [List.mem_singleton.mp he]
    decide

/-- An empty section for messages is saved, and the level out of the box is back
in it. -/
theorem dropped_entry_regained :
    let sets : List (Atom × Value) := [(.str "logging", .map [])]
    ∃ s saved again, ofUser .null = .ok s ∧ (s.setAll sets).saved = .ok saved ∧
      ofUser saved = .ok again ∧
      again.get? (.str "logging") = some (.map [(.str "level", .str "INFO")]) ∧
      ¬ Option.Rel Value.Alike (again.get? (.str "logging"))
        ((s.setAll sets).get? (.str "logging")) := by
  intro sets
  have hsaved :
      (Value.map (Store.setAll ⟨defaults⟩ sets).current).isShowable = true := by
    decide +kernel
  refine ⟨⟨defaults⟩, _, _, rfl, saved_of_isShowable hsaved, rfl, rfl, ?_⟩
  intro h
  cases h with
  | some halike =>
      cases halike with
      | map hkeys _ => exact absurd (hkeys (.str "level")) (by decide)

end Store
end Settings
end InlineCompletion
