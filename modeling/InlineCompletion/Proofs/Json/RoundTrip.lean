import InlineCompletion.Proofs.Json.Escape
import InlineCompletion.Proofs.Json.Numeral

/-!
# Values that are read again

A value is written if its arrays and objects do not stand too deeply inside one
another, and is then read again where there is as much room.  Integers that can
be shown, numbers whose text is read as the number, and objects whose keys are
distinct are values of which this is true.
-/

namespace InlineCompletion
namespace Json

/-!
# Texts and depths
-/

mutual

def text : Json → Text
  | .null => "null".toList
  | .bool true => "true".toList
  | .bool false => "false".toList
  | .int n => Integer.text n
  | .float d => writeDouble d
  | .str s => quote s
  | .arr items => '[' :: textItems items ++ [']']
  | .obj members => '{' :: textMembers members ++ ['}']

def textItems : List Json → Text
  | [] => []
  | [v] => text v
  | v :: rest => text v ++ ',' :: ' ' :: textItems rest

def textMembers : Members → Text
  | [] => []
  | [(k, v)] => quote k ++ ':' :: ' ' :: text v
  | (k, v) :: rest =>
      quote k ++ ':' :: ' ' :: (text v ++ ',' :: ' ' :: textMembers rest)

end

mutual

def depth : Json → Nat
  | .null | .bool _ | .int _ | .float _ | .str _ => 0
  | .arr items => depthItems items + 1
  | .obj members => depthMembers members + 1

def depthItems : List Json → Nat
  | [] => 0
  | v :: rest => max (depth v) (depthItems rest)

def depthMembers : Members → Nat
  | [] => 0
  | (_, v) :: rest => max (depth v) (depthMembers rest)

end

def within {ε α : Type} (e : ε) (depth room : Nat) (r : α) : Except ε α :=
  if depth ≤ room then .ok r else .error e

section Within

variable {ε α β : Type} {e : ε} {depth room : Nat} {a : α} {b : β}

theorem within_zero : within e 0 room a = .ok a := if_pos (Nat.zero_le room)

theorem within_succ :
    within e (depth + 1) (room + 1) a = within e depth room a := by
  unfold within
  simp only [Nat.add_le_add_iff_right]

theorem within_bind {more : Nat} {f : α → Except ε β}
    (h : f a = within e more room b) :
    (within e depth room a >>= f) = within e (max depth more) room b := by
  unfold within at h ⊢
  by_cases hdepth : depth ≤ room
  · simp only [Nat.max_le, hdepth, true_and]
    exact h
  · simp only [Nat.max_le, hdepth, false_and]
    rfl

theorem within_map {f : α → Except ε β} (h : f a = .ok b) :
    (within e depth room a >>= f) = within e depth room b := by
  have hbind : (within e depth room a >>= f) = within e (max depth 0) room b :=
    within_bind h
  rwa [Nat.max_zero] at hbind

end Within

/-!
# Words, numbers and strings
-/

/-- Whether a text begins as a value does: neither with a gap nor with what ends
an array. -/
def Opens (t : Text) : Prop :=
  ∃ c more, t = c :: more ∧ isGap c = false ∧ c ≠ ']'

theorem Opens.append {s : Text} (h : Opens s) (t : Text) : Opens (s ++ t) := by
  rcases h with ⟨c, more, hs, hgap, hmark⟩
  rw [hs]
  exact ⟨c, more ++ t, rfl, hgap, hmark⟩

theorem Opens.skipGap {t : Text} (h : Opens t) : Json.skipGap t = t := by
  rcases h with ⟨c, more, rfl, hgap, -⟩
  exact List.dropWhile_cons_of_neg (by rw [hgap]; exact Bool.false_ne_true)

/-- Whether the text of a value is read as the value, whatever may stand behind
it, in two steps for each code point. -/
structure ReadsBack (v : Json) : Prop where
  opens : Opens v.text
  read {steps : Nat} (hsteps : 2 * v.text.length ≤ steps) (room : Nat)
    {rest : Text} (hrest : Follows rest) :
        readValue steps room (v.text ++ rest) =
          within .tooDeep v.depth room (v, rest)

theorem readValue_plain {c : Char} (h : c ∉ ['"', '[', '{', ']', '}'])
    (steps room : Nat) (t : Text) :
    readValue (steps + 1) room (c :: t) = readPlain (c :: t) := by
  rw [readValue.eq_def]
  dsimp only
  split
  case h_4 => rfl
  all_goals next heq => exact absurd (by rw [(List.cons.inj heq).1]; decide) h

theorem readValue_str {s : Str} (h : s.isText = true) (steps room : Nat)
    (rest : Text) :
    readValue (steps + 1) room (quote s ++ rest) = .ok (.str s, rest) := by
  rw [quote_append, readValue.eq_def]
  show (readString _ >>= fun r => _) = _
  rw [readString_escaped h]
  rfl

namespace ReadsBack

theorem plain {v : Json} (h : readPlain v.text = .ok (v, []))
    (hdepth : v.depth = 0) :
    ReadsBack v := by
  rcases readPlain_front h with ⟨c, t, htext, hgap, hmark⟩
  constructor
  · refine ⟨c, t, htext, hgap, ?_⟩
    rintro rfl
    exact hmark (by decide)
  · intro steps hsteps room rest hrest
    have hahead := readPlain_ahead h hrest
    rw [htext, List.length_cons] at hsteps
    cases steps with
    | zero => omega
    | succ steps =>
        rw [htext, List.cons_append] at hahead ⊢
        rw [readValue_plain hmark, hahead, hdepth]
        rfl

theorem str {s : Str} (h : s.isText = true) : ReadsBack (.str s) := by
  constructor
  · exact ⟨'"', _, rfl, rfl, by decide⟩
  · intro steps hsteps room rest hrest
    have hlength : (text (.str s)).length =
        (s.points.flatMap escapePoint ++ ['"']).length + 1 := rfl
    cases steps with
    | zero => omega
    | succ steps => exact readValue_str h steps room rest

theorem bracketed {v : Json} {opening closing : Char} {inside : Text}
    {depth : Nat} (hopening : isGap opening = false ∧ opening ≠ ']')
    (htext : v.text = opening :: (inside ++ [closing]))
    (hdepth : v.depth = depth + 1)
    (hnone : ∀ steps t, readValue (steps + 1) 0 (opening :: t) =
    .error .tooDeep)
    (hread : ∀ steps room rest, 2 * inside.length + 1 ≤ steps →
      readValue (steps + 1) (room + 1)
        (opening :: (inside ++ closing :: rest)) =
          within .tooDeep depth room (v, rest)) : ReadsBack v := by
  constructor
  · exact ⟨opening, _, htext, hopening.1, hopening.2⟩
  · intro steps hsteps room rest hrest
    rw [htext, List.length_cons, List.length_append, List.length_singleton]
      at hsteps
    rw [htext, hdepth, List.cons_append, List.append_assoc,
      List.singleton_append]
    cases steps with
    | zero => omega
    | succ steps =>
        cases room with
        | zero =>
            rw [hnone]
            rfl
        | succ room => rw [hread steps room rest (by omega), within_succ]

end ReadsBack

/-!
# Arrays
-/

theorem textItems_cons (v w : Json) (more : List Json) :
    textItems (v :: w :: more) =
      v.text ++ ',' :: ' ' :: textItems (w :: more) := rfl

theorem textItems_opens {v : Json} (h : ReadsBack v) (more : List Json) :
    Opens (textItems (v :: more)) := by
  cases more with
  | nil => exact h.opens
  | cons w more => exact h.opens.append _

theorem readItems_write {items : List Json} (h : ∀ v ∈ items, ReadsBack v)
    (hsome : items ≠ []) {steps : Nat}
    (hsteps : 2 * (textItems items).length + 1 ≤ steps) (room : Nat)
    (rest : Text) :
    readItems steps room (textItems items ++ ']' :: rest) =
      within .tooDeep (depthItems items) room (items, rest) := by
  -- one step goes to the list itself, and what separates two items pays for the
  -- next one
  induction items generalizing steps with
  | nil => exact absurd rfl hsome
  | cons v more ih =>
      have hv := h v List.mem_cons_self
      cases steps with
      | zero => omega
      | succ steps =>
          cases more with
          | nil =>
              have hlength : (textItems [v]).length = v.text.length := rfl
              rw [readItems.eq_def]
              show (readValue steps room (v.text ++ _) >>= _) = _
              rw [hv.read (by omega) room (.bracket rest)]
              exact within_bind rfl
          | cons w more =>
              have hw := h w (List.mem_cons_of_mem v List.mem_cons_self)
              have hlength : (textItems (v :: w :: more)).length =
                  v.text.length + ((textItems (w :: more)).length + 2) :=
                    List.length_append
              have henough :
                  2 * (textItems (w :: more)).length + 1 ≤ steps := by omega
              have hmore := ih (fun x hx => h x (List.mem_cons_of_mem v hx))
                (List.cons_ne_nil w more) henough
              rw [textItems_cons, List.append_assoc, List.cons_append,
                readItems.eq_def]
              show (readValue steps room (v.text ++ _) >>= _) = _
              rw [hv.read (by omega) room (.comma _)]
              refine within_bind ?_
              show (readItems steps room
                (skipGap (textItems (w :: more) ++ _)) >>= _) = _
              rw [((textItems_opens hw more).append _).skipGap, hmore]
              exact within_map rfl

theorem readValue_arr {t : Text} (h : Opens t) (steps room : Nat) :
    readValue (steps + 1) (room + 1) ('[' :: t) =
      readItems steps room t >>= fun r => .ok (.arr r.1, r.2) := by
  have hskip := h.skipGap
  rcases h with ⟨c, more, rfl, -, hmark⟩
  simp only [readValue, Nat.add_one_ne_zero, if_false, hskip]
  split
  · next heq => exact absurd (List.cons.inj heq).1 hmark
  · rfl

theorem ReadsBack.arr {items : List Json} (h : ∀ v ∈ items, ReadsBack v) :
    ReadsBack (.arr items) := by
  refine .bracketed ⟨rfl, by decide⟩ rfl rfl ?_ ?_
  · intro steps t
    rw [readValue.eq_def]
    rfl
  · intro steps room rest hsteps
    cases items with
    | nil =>
        rw [readValue.eq_def]
        rfl
    | cons v more =>
        have hopens := textItems_opens (h v List.mem_cons_self) more
        rw [readValue_arr (hopens.append _),
          readItems_write h (List.cons_ne_nil v more) hsteps]
        exact within_map rfl

/-!
# Objects
-/

theorem Members.set_of_not_mem {key : Str} {ms : Members}
    (h : key ∉ ms.map Prod.fst) (value : Json) :
    Members.set key value ms = ms ++ [(key, value)] := by
  induction ms with
  | nil => rfl
  | cons m rest ih =>
      rw [List.map_cons, List.mem_cons, not_or] at h
      unfold Members.set
      rw [if_neg (Ne.symm h.1), ih h.2]
      rfl

theorem Members.set_of_nodup {before more : Members} {key : Str} {value : Json}
    (hkeys : ((before ++ (key, value) :: more).map Prod.fst).Nodup) :
    Members.set key value before = before ++ [(key, value)] := by
  refine Members.set_of_not_mem ?_ value
  intro hmem
  rw [List.map_append] at hkeys
  exact (List.nodup_append.mp hkeys).2.2 key hmem key List.mem_cons_self rfl

theorem textMembers_cons (k : Str) (v : Json) (m : Str × Json)
    (more : Members) :
    textMembers ((k, v) :: m :: more) =
      quote k ++ ':' :: ' ' ::
        (v.text ++ ',' :: ' ' :: textMembers (m :: more)) := rfl

theorem length_textMembers_cons (k : Str) (v : Json) (m : Str × Json)
    (more : Members) :
    (textMembers ((k, v) :: m :: more)).length =
      (quote k).length +
        (v.text.length + ((textMembers (m :: more)).length + 2) + 2) := by
  rw [textMembers_cons, List.length_append, List.length_cons, List.length_cons,
    List.length_append]
  rfl

theorem textMembers_opens (m : Str × Json) (more : Members) :
    Opens (textMembers (m :: more)) := by
  cases more with
  | nil => exact ⟨'"', _, rfl, rfl, by decide⟩
  | cons n more => exact ⟨'"', _, rfl, rfl, by decide⟩

theorem readMembers_member {k : Str} (hk : k.isText = true) {v : Json}
    (h : ReadsBack v) {steps : Nat} (hsteps : 2 * v.text.length ≤ steps)
    (room : Nat) (before : Members) {rest : Text} (hrest : Follows rest) :
    readMembers (steps + 1) room before
      (quote k ++ ':' :: ' ' :: (v.text ++ rest)) =
        within .tooDeep v.depth room (v, rest) >>= fun r =>
        match skipGap r.2 with
        | '}' :: t => .ok (Members.set k r.1 before, t)
        | ',' :: t =>
            readMembers steps room (Members.set k r.1 before) (skipGap t)
        | _ => .error .malformed := by
  rw [quote_append, readMembers.eq_def]
  show (readString _ >>= fun r => _) = _
  rw [readString_escaped hk]
  show (readValue steps room (skipGap (v.text ++ rest)) >>= fun r => _) = _
  rw [(h.opens.append rest).skipGap, h.read hsteps room hrest]
  rfl

/-- Written members are read up to the first of them that is too deep, beside
those before them. -/
theorem readMembers_write {members before : Members}
    (h : ∀ m ∈ members, m.1.isText = true ∧ ReadsBack m.2)
    (hsome : members ≠ []) (hkeys : ((before ++ members).map Prod.fst).Nodup)
    {steps : Nat} (hsteps : 2 * (textMembers members).length + 1 ≤ steps)
    (room : Nat) (rest : Text) :
    readMembers steps room before (textMembers members ++ '}' :: rest) =
      within .tooDeep (depthMembers members) room
        (before ++ members, rest) := by
  induction members generalizing steps before with
  | nil => exact absurd rfl hsome
  | cons m more ih =>
      rcases m with ⟨k, v⟩
      rcases h (k, v) List.mem_cons_self with ⟨hk, hv⟩
      change ReadsBack v at hv
      have hset : Members.set k v before = before ++ [(k, v)] :=
        Members.set_of_nodup hkeys
      cases steps with
      | zero => omega
      | succ steps =>
          cases more with
          | nil =>
              have hlength : (textMembers [(k, v)]).length =
                  (quote k).length + (v.text.length + 2) := List.length_append
              show readMembers _ room before
                (quote k ++ ':' :: ' ' :: v.text ++ '}' :: rest) = _
              rw [List.append_assoc, List.cons_append, List.cons_append,
                readMembers_member hk hv (by omega) room before (.brace rest)]
              refine within_bind ?_
              show Except.ok (Members.set k v before, rest) = _
              rw [hset]
              rfl
          | cons n more =>
              rw [length_textMembers_cons] at hsteps
              have hkeys' :
                  ((before ++ [(k, v)] ++ n :: more).map Prod.fst).Nodup := by
                rw [List.append_assoc]
                exact hkeys
              have henough :
                  2 * (textMembers (n :: more)).length + 1 ≤ steps := by omega
              have hmore := ih (fun x hx => h x (List.mem_cons_of_mem _ hx))
                (List.cons_ne_nil n more) hkeys' henough
              rw [textMembers_cons, List.append_assoc, List.cons_append,
                List.cons_append, List.append_assoc, List.cons_append,
                List.cons_append,
                readMembers_member hk hv (by omega) room before (.comma _)]
              refine within_bind ?_
              show readMembers steps room (Members.set k v before)
                (skipGap (textMembers (n :: more) ++ _)) = _
              rw [hset, ((textMembers_opens n more).append _).skipGap, hmore,
                List.append_assoc]
              rfl

theorem readValue_obj (m : Str × Json) (more : Members) (steps room : Nat)
    (rest : Text) :
    readValue (steps + 1) (room + 1)
      ('{' :: (textMembers (m :: more) ++ rest)) =
        readMembers steps room [] (textMembers (m :: more) ++ rest) >>= fun r =>
        .ok (.obj r.1, r.2) := by
  rw [readValue.eq_def]
  cases more with
  | nil => rfl
  | cons n more => rfl

theorem ReadsBack.obj {members : Members} (hkeys : (members.map Prod.fst).Nodup)
    (h : ∀ m ∈ members, m.1.isText = true ∧ ReadsBack m.2) :
    ReadsBack (.obj members) := by
  refine .bracketed ⟨rfl, by decide⟩ rfl rfl ?_ ?_
  · intro steps t
    rw [readValue.eq_def]
    rfl
  · intro steps room rest hsteps
    cases members with
    | nil =>
        rw [readValue.eq_def]
        rfl
    | cons m more =>
        rw [readValue_obj,
          readMembers_write h (List.cons_ne_nil m more) hkeys hsteps]
        exact within_map rfl

/-!
# All values
-/

/-- Whether a text can hold a value exactly. -/
inductive Faithful : Json → Prop
  | null : Faithful .null
  | bool (b : Bool) : Faithful (.bool b)
  | int {n : Int} (h : Integer.isShowable n = true) : Faithful (.int n)
  /-- The text of the number is read as the number. -/
  | float {d : Double} (h : readPlain (writeDouble d) = .ok (.float d, [])) :
      Faithful (.float d)
  | str {s : Str} (h : s.isText = true) : Faithful (.str s)
  | arr {items : List Json} (h : ∀ v ∈ items, Faithful v) :
      Faithful (.arr items)
  | obj {members : Members} (hkeys : (members.map Prod.fst).Nodup)
      (htexts : ∀ m ∈ members, m.1.isText = true)
      (h : ∀ m ∈ members, Faithful m.2) :
      Faithful (.obj members)

theorem Faithful.readsBack {v : Json} (h : Faithful v) : ReadsBack v := by
  induction h with
  | null => exact .plain rfl rfl
  | bool b =>
      cases b with
      | false => exact .plain rfl rfl
      | true => exact .plain rfl rfl
  | int h => exact .plain (readPlain_int h) rfl
  | float h => exact .plain h rfl
  | str h => exact .str h
  | arr _ ih => exact .arr ih
  | obj hkeys htexts _ ih => exact .obj hkeys fun m hm => ⟨htexts m hm, ih m hm⟩

/-!
# Writing
-/

theorem writeItems_eq {items : List Json}
    (h : ∀ v ∈ items, ∀ room, v.write room =
    within .tooDeep v.depth room v.text) (room : Nat) :
    writeItems room items =
      within .tooDeep (depthItems items) room (textItems items) := by
  induction items with
  | nil => rfl
  | cons v more ih =>
      have hv := h v List.mem_cons_self room
      cases more with
      | nil =>
          show write room v = within _ (max v.depth 0) room v.text
          rw [hv, Nat.max_zero]
      | cons w more =>
          have hmore := ih fun x hx => h x (List.mem_cons_of_mem v hx)
          show (write room v >>= fun t => writeItems room (w :: more) >>= _) = _
          rw [hv]
          refine within_bind ?_
          rw [hmore]
          exact within_map rfl

theorem writeMembers_eq {members : Members}
    (h : ∀ m ∈ members, ∀ room, m.2.write room =
    within .tooDeep m.2.depth room m.2.text)
    (room : Nat) :
    writeMembers room members =
      within .tooDeep (depthMembers members) room (textMembers members) := by
  induction members with
  | nil => rfl
  | cons m more ih =>
      rcases m with ⟨k, v⟩
      have hv : v.write room = within .tooDeep v.depth room v.text :=
        h (k, v) List.mem_cons_self room
      cases more with
      | nil =>
          show (write room v >>= _) = within _ (max v.depth 0) room _
          rw [hv, Nat.max_zero]
          exact within_map rfl
      | cons n more =>
          have hmore := ih fun x hx => h x (List.mem_cons_of_mem (k, v) hx)
          show
            (write room v >>= fun t => writeMembers room (n :: more) >>= _) = _
          rw [hv]
          refine within_bind ?_
          rw [hmore]
          exact within_map rfl

/-- A value is written, if it is not nested too deeply. -/
theorem Faithful.write_eq {v : Json} (h : v.Faithful) (room : Nat) :
    v.write room = within .tooDeep v.depth room v.text := by
  -- what stands in brackets has less room by one, and none at all where there
  -- is none
  have hbracketed {depth room : Nat} {r : Nat → Except Fault Text} {t : Text}
    {f : Text → Text}
    (hinside : ∀ room, r room = within .tooDeep depth room t) :
      (if room = 0 then .error .tooDeep else do return f (← r (room - 1))) =
        within Fault.tooDeep (depth + 1) room (f t) := by
    cases room with
    | zero => rfl
    | succ room =>
        rw [if_neg (Nat.succ_ne_zero room), within_succ]
        show (r room >>= _) = _
        rw [hinside]
        exact within_map rfl
  induction h generalizing room with
  | null => rfl
  | bool b =>
      cases b with
      | false => rfl
      | true => rfl
  | int h =>
      rw [write, if_pos h]
      exact within_zero.symm
  | float _ => rfl
  | str _ => rfl
  | arr _ ih => exact hbracketed (writeItems_eq ih)
  | obj _ _ _ ih => exact hbracketed (writeMembers_eq ih)

/-!
# Reading
-/

/-- The text of a value is read as the value, if it is not nested too deeply. -/
theorem Faithful.read_text {v : Json} (h : Faithful v) (room : Nat) :
    read room v.text = within .tooDeep v.depth room v := by
  have hback := h.readsBack
  have hsteps : 2 * v.text.length ≤ enoughSteps v.text := Nat.le_add_right _ _
  have hvalue := hback.read hsteps room .nil
  rw [List.append_nil] at hvalue
  unfold read
  rw [hback.opens.skipGap, hvalue]
  exact within_map rfl

/-- So many arrays inside one more. -/
def tower : Nat → Json
  | 0 => .arr []
  | n + 1 => .arr [tower n]

theorem tower_faithful (n : Nat) : (tower n).Faithful := by
  induction n with
  | zero => exact .arr fun _ hv => nomatch hv
  | succ n ih =>
      refine .arr ?_
      intro v hv
      rw [List.mem_singleton.mp hv]
      exact ih

theorem depth_tower (n : Nat) : (tower n).depth = n + 1 := by
  induction n with
  | zero => rfl
  | succ n ih =>
      show max (tower n).depth 0 + 1 = _
      rw [ih, Nat.max_zero]

end Json
end InlineCompletion
