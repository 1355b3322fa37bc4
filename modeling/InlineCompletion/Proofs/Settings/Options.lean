import InlineCompletion.Proofs.Settings.Paths
import InlineCompletion.Settings.Options

/-!
# Options that are null

An option may stand in the settings with nothing behind it.  The options are
read here beside those of the same section without its nulls, which can always
be read where the kinds are right.  A server or its command that is null is as
good as absent; null arguments and idle times are refused, a null for asking
without being asked turns that off, and a null language is the text of nothing.
The main statement says exactly when leaving out the nulls makes no difference.
-/

namespace InlineCompletion
namespace Settings

namespace Value

def isNull : Value → Bool
  | .null => true
  | _ => false

mutual

/-- A value without the members that are null, as deep as mappings stand in
mappings. -/
def pruned : Value → Value
  | .map members => .map (prunedMembers members)
  | v => v

def prunedMembers : List (Atom × Value) → List (Atom × Value)
  | [] => []
  | (k, v) :: rest =>
      if v.isNull then prunedMembers rest else
        (k, pruned v) :: prunedMembers rest

end

@[simp] theorem prunedMembers_nil : prunedMembers [] = [] := by
  simp [prunedMembers]

theorem prunedMembers_cons_null {v : Value} (h : v.isNull = true) (k : Atom)
    (rest : Members) :
    prunedMembers ((k, v) :: rest) = prunedMembers rest := by
  simp [prunedMembers, h]

theorem prunedMembers_cons {v : Value} (h : v.isNull = false) (k : Atom)
    (rest : Members) :
    prunedMembers ((k, v) :: rest) = (k, v.pruned) :: prunedMembers rest := by
  simp [prunedMembers, h]

theorem get?_prunedMembers {ms : Members} (h : ms.Distinct) (key : Atom) :
    Members.get? key (prunedMembers ms) =
      ((Members.get? key ms).filter fun v => !v.isNull).map pruned := by
  induction ms with
  | nil => simp [Members.get?]
  | cons m rest ih =>
      rcases m with ⟨k, v⟩
      unfold Members.Distinct at h
      rw [List.map_cons, List.pairwise_cons] at h
      rcases h with ⟨hfirst, hrest⟩
      cases hk : k.same key with
      | true =>
          have hlater : Members.get? key rest = none := by
            rw [← Members.get?_of_same hk]
            exact Members.get?_eq_none hfirst
          cases hv : v.isNull with
          | true =>
              rw [prunedMembers_cons_null hv, ih hrest, hlater,
                Members.get?_cons_same hk]
              simp [Option.filter_some, hv]
          | false =>
              rw [prunedMembers_cons hv, Members.get?_cons_same hk,
                Members.get?_cons_same hk]
              simp [Option.filter_some, hv]
      | false =>
          rw [Members.get?_cons_other hk]
          cases hv : v.isNull with
          | true => rw [prunedMembers_cons_null hv, ih hrest]
          | false =>
              rw [prunedMembers_cons hv, Members.get?_cons_other hk, ih hrest]

theorem mem_of_mem_prunedMembers {ms : Members} {m : Atom × Value}
    (h : m ∈ prunedMembers ms) :
    ∃ v, (m.1, v) ∈ ms ∧ v.isNull = false := by
  induction ms with
  | nil => simp at h
  | cons n rest ih =>
      rcases n with ⟨k, w⟩
      have hbehind (h : m ∈ prunedMembers rest) :
          ∃ v, (m.1, v) ∈ (k, w) :: rest ∧ v.isNull = false := by
        rcases ih h with ⟨v, hmem, hv⟩
        exact ⟨v, List.mem_cons_of_mem _ hmem, hv⟩
      cases hw : w.isNull with
      | true =>
          rw [prunedMembers_cons_null hw] at h
          exact hbehind h
      | false =>
          rw [prunedMembers_cons hw] at h
          rcases List.mem_cons.mp h with heq | hmem
          · rw [heq]
            exact ⟨w, List.mem_cons_self, hw⟩
          · exact hbehind hmem

mutual

theorem isShowable_pruned :
    ∀ {v : Value}, v.isShowable = true → v.pruned.isShowable = true
  | .atom _, h => by simpa [pruned] using h
  | .seq _, h => by simpa [pruned] using h
  | .map ms, h => by
      simp only [pruned, isShowable] at h ⊢
      exact membersShowable_pruned h

theorem membersShowable_pruned : ∀ {ms : List (Atom × Value)},
    membersShowable ms = true → membersShowable (prunedMembers ms) = true
  | [], h => by simpa using h
  | (k, v) :: rest, h => by
      simp only [membersShowable, Bool.and_eq_true] at h
      cases hv : v.isNull with
      | true =>
          rw [prunedMembers_cons_null hv]
          exact membersShowable_pruned h.2
      | false =>
          rw [prunedMembers_cons hv]
          simp only [membersShowable, Bool.and_eq_true]
          exact ⟨⟨h.1.1, isShowable_pruned h.1.2⟩, membersShowable_pruned h.2⟩

end

end Value
end Settings

namespace Options

open Settings

/-!
# Reading one section
-/

def commandOf (server : Members) : Except Fault (List String) :=
  match server.named "command" with
  | some v => if v.truthy then (v.toStr).map ([·]) else pure []
  | none => pure []

def automaticOf (options : Members) : Bool :=
  match options.named "auto_trigger" with
  | some v => v.truthy
  | none => usual.automatic

def ofSection (options : Members) : Except Fault Options := do
  let server ← part (options.named "server")
  let command ← commandOf server
  let args ← arguments ((server.named "args").getD (.seq []))
  let languages ← languagesOf (← part (options.named "language_map"))
  let syncIdle ← ((options.named "sync_idle_ms").getD
    (.int usual.syncIdle)).toInteger
  let triggerIdle ← ((options.named "trigger_idle_ms").getD
    (.int usual.triggerIdle)).toInteger
  return ⟨syncIdle, triggerIdle, automaticOf options, languages, command ++
    args⟩

@[simp] theorem part_none : part none = .ok [] := by
  simp [part, Value.orEmpty, Value.truthy]

@[simp] theorem part_null : part (some .null) = .ok [] := by
  simp [part, Value.orEmpty, Value.truthy, Atom.truthy]

@[simp] theorem part_map (ms : Members) : part (some (.map ms)) = .ok ms := by
  cases ms with
  | nil => simp [part, Value.orEmpty, Value.truthy]
  | cons m rest => simp [part, Value.orEmpty, Value.truthy]

theorem ofSettings_of_tabby {settings options : Members}
    (h : settings.named "tabby" = some (.map options)) :
    ofSettings (.map settings) = ofSection options := by
  have htabby : sectionOf "tabby" (.map settings) = .ok options := by
    simp [sectionOf, h, bind, Except.bind]
  unfold ofSettings ofSection commandOf automaticOf
  rw [htabby]
  simp only [bind, Except.bind]
  cases part (options.named "server") with
  | error e => simp
  | ok server =>
      dsimp only
      cases server.named "command" with
      | none => rfl
      | some v =>
          dsimp only
          cases v.truthy with
          | true => rfl
          | false => rfl

/-!
# Options of the right kinds
-/

inductive Optional (kind : Value → Prop) : Option Value → Prop
  | absent : Optional kind none
  | null : Optional kind (some .null)
  | given {v : Value} (h : kind v) : Optional kind (some v)

def mappingAt (key : String) (ms : Members) : Members :=
  match ms.named key with
  | some (.map members) => members
  | _ => []

/-- Whether each option that is present and not null is of its kind, and what is
read as text can be shown. -/
structure Documented (options : Members) : Prop where
  server : Optional (fun v => ∃ ms, v = .map ms) (options.named "server")
  command :
      Optional (fun v => ∃ s, v = .str s)
        ((mappingAt "server" options).named "command")
  args : Optional
    (fun v => ∃ items, v = .seq items ∧ Value.areShowable items = true)
      ((mappingAt "server" options).named "args")
  syncIdle : Optional (fun v => ∃ n, v = .int n) (options.named "sync_idle_ms")
  triggerIdle :
      Optional (fun v => ∃ n, v = .int n) (options.named "trigger_idle_ms")
  automatic :
      Optional (fun v => ∃ b, v = .bool b) (options.named "auto_trigger")
  languages :
      Optional (fun v => ∃ ms, v = .map ms ∧ Value.membersShowable ms = true)
    (options.named "language_map")

section

variable {ms : Members} {key : String} {kind : Value → Prop}

theorem named_prunedMembers (h : ms.Distinct) (key : String) :
    Members.named key (Value.prunedMembers ms) =
      ((ms.named key).filter fun v => !v.isNull).map Value.pruned :=
  Value.get?_prunedMembers h (.str key)

theorem part_mappingAt
    (h : Optional (fun v => ∃ ms, v = .map ms) (ms.named key)) :
    part (ms.named key) = .ok (mappingAt key ms) := by
  unfold mappingAt
  generalize ms.named key = found at h
  cases h with
  | absent => simp
  | null => simp
  | given h =>
      rcases h with ⟨members, rfl⟩
      simp

theorem mappingAt_pruned (h : ms.Distinct) :
    mappingAt key (Value.prunedMembers ms) =
      Value.prunedMembers (mappingAt key ms) := by
  unfold mappingAt
  rw [named_prunedMembers h]
  cases ms.named key with
  | none => simp
  | some v =>
      cases v with
      | atom a =>
          cases a <;> simp [Option.filter_some, Value.isNull, Value.pruned]
      | seq items => simp [Option.filter_some, Value.isNull, Value.pruned]
      | map members => simp [Option.filter_some, Value.isNull, Value.pruned]

theorem part_pruned (hkeys : ms.Distinct)
    (h : Optional (fun v => ∃ ms, v = .map ms) (ms.named key)) :
    part (Members.named key (Value.prunedMembers ms)) =
      .ok (Value.prunedMembers (mappingAt key ms)) := by
  have hpruned :
      Optional (fun v => ∃ ms, v = .map ms)
        (Members.named key (Value.prunedMembers ms)) := by
    rw [named_prunedMembers hkeys]
    generalize ms.named key = found at h
    cases h with
    | absent => exact .absent
    | null => exact .absent
    | given h =>
        rcases h with ⟨members, rfl⟩
        exact .given ⟨_, rfl⟩
  rw [part_mappingAt hpruned, mappingAt_pruned hkeys]

theorem mappingAt_distinct (h : (Value.map ms).Keyed) (key : String) :
    (mappingAt key ms).Distinct := by
  unfold mappingAt
  split
  · next members hfound => exact (h.member hfound).distinct
  · next => exact List.Pairwise.nil

/-- What is read of an option: with the nulls left out, always something; with
them, the same, unless the option is null and refused for that. -/
structure ReadBoth {α : Type} (found : Option Value) (x : α)
    (whole pruned : Except Fault α) :
    Prop where
  pruned_ok : pruned = .ok x
  same : found ≠ some .null → whole = .ok x
  refused : found = some .null → whole = .error .wrongKind

theorem readBoth {α : Type} (read : Value → Except Fault α) (usually : Value)
    (hkeys : ms.Distinct) (h : Optional kind (ms.named key)) {x : α}
    (husual : read usually = .ok x) (hnull : read .null = .error .wrongKind)
    (hgiven : ∀ v, kind v →
    v.isNull = false ∧ v.pruned = v ∧ ∃ x, read v = .ok x) :
    ∃ x, ReadBoth (ms.named key) x (read ((ms.named key).getD usually))
      (read ((Members.named key (Value.prunedMembers ms)).getD usually)) := by
  rw [named_prunedMembers hkeys]
  generalize ms.named key = found at h
  cases h with
  | absent =>
      exact ⟨x, by simpa using husual, fun _ => by simpa using husual, by simp⟩
  | null =>
      refine ⟨x, ?_, fun h => absurd rfl h, fun _ => by simpa using hnull⟩
      simpa [Option.filter_some, Value.isNull] using husual
  | @given v hv =>
      rcases hgiven v hv with ⟨hsome, hpruned, x, hx⟩
      refine ⟨x, ?_, fun _ => by simpa using hx, ?_⟩
      · simpa [Option.filter_some, hsome, hpruned] using hx
      · intro heq
        cases heq
        simp [Value.isNull] at hsome

theorem commandOf_of_str {s : String} (h : ms.named "command" = some (.str s)) :
    commandOf ms = .ok (if s = "" then [] else [s]) := by
  unfold commandOf
  rw [h]
  by_cases hs : s = ""
  · simp [Value.truthy, Atom.truthy, hs, pure, Except.pure]
  · simp [Value.truthy, Atom.truthy, hs, Value.toStr, Value.toText,
      Value.isShowable, Atom.isShowable, Value.text, Atom.text, Except.map]

theorem commandOf_pruned (hkeys : ms.Distinct)
    (h : Optional (fun v => ∃ s, v = .str s) (ms.named "command")) :
    ∃ command, commandOf ms = .ok command ∧
      commandOf (Value.prunedMembers ms) = .ok command := by
  have hpruned := named_prunedMembers hkeys "command"
  generalize hfound : ms.named "command" = found at h hpruned
  cases h with
  | absent =>
      simp only [Option.filter_none, Option.map_none] at hpruned
      exact ⟨[], by simp [commandOf, hfound, pure, Except.pure],
        by simp [commandOf, hpruned, pure, Except.pure]⟩
  | null =>
      simp [Option.filter_some, Value.isNull] at hpruned
      exact ⟨[],
        by simp [commandOf, hfound, Value.truthy, Atom.truthy, pure,
          Except.pure],
        by simp [commandOf, hpruned, pure, Except.pure]⟩
  | given h =>
      rcases h with ⟨s, rfl⟩
      simp [Option.filter_some, Value.isNull, Value.pruned] at hpruned
      exact ⟨_, commandOf_of_str hfound, commandOf_of_str hpruned⟩

theorem automaticOf_null (h : ms.named "auto_trigger" = some .null) :
    automaticOf ms = false := by
  simp [automaticOf, h, Value.truthy, Atom.truthy]

theorem automaticOf_pruned (hkeys : ms.Distinct)
    (h : Optional (fun v => ∃ b, v = .bool b) (ms.named "auto_trigger"))
    (hsome : ms.named "auto_trigger" ≠ some .null) :
    automaticOf (Value.prunedMembers ms) = automaticOf ms := by
  unfold automaticOf
  rw [named_prunedMembers hkeys]
  generalize ms.named "auto_trigger" = found at h hsome
  cases h with
  | absent => simp
  | null => simp at hsome
  | given h =>
      rcases h with ⟨b, rfl⟩
      simp [Option.filter_some, Value.isNull, Value.pruned]

theorem automaticOf_pruned_null (hkeys : ms.Distinct)
    (h : ms.named "auto_trigger" = some .null) :
    automaticOf (Value.prunedMembers ms) = true := by
  unfold automaticOf
  rw [named_prunedMembers hkeys, h]
  simp [Option.filter_some, Value.isNull, usual]

end

/-!
# Languages
-/

def languagesRead (members : Members) : List (Text × String) :=
  members.foldl
    (fun map m =>
      setLanguage (extension m.1.text) (String.ofList m.2.text) map) []

theorem toText_of_isShowable {v : Value} (h : v.isShowable = true) :
    v.toText = .ok v.text := by
  simp [Value.toText, h]

theorem languagesOf_eq {members : Members}
    (h : Value.membersShowable members = true) :
    languagesOf members = .ok (languagesRead members) := by
  unfold languagesOf languagesRead
  generalize ([] : List (Text × String)) = before
  induction members generalizing before with
  | nil => rfl
  | cons m rest ih =>
      rcases m with ⟨k, v⟩
      simp only [Value.membersShowable, Bool.and_eq_true] at h
      rw [List.foldlM_cons, List.foldl_cons, ← ih h.2]
      simp [Atom.toText, h.1.1, Value.toStr, toText_of_isShowable h.1.2,
        Except.map, bind, Except.bind, pure, Except.pure]

theorem lookup_setLanguage (ext other : Text) (language : String)
    (map : List (Text × String)) :
    (setLanguage ext language map).lookup other =
      if other = ext then some language else map.lookup other := by
  induction map with
  | nil =>
      by_cases h : other = ext
      · simp [setLanguage, h]
      · have hne : (other == ext) = false := by simpa using h
        simp [setLanguage, List.lookup_cons, h, hne]
  | cons m rest ih =>
      rcases m with ⟨e, l⟩
      unfold setLanguage
      by_cases he : e = ext
      · rw [if_pos he, he]
        by_cases h : other = ext
        · simp [h]
        · have hne : (other == ext) = false := by simpa using h
          simp [List.lookup_cons, h, hne]
      · rw [if_neg he]
        by_cases h : other = e
        · have hne : other ≠ ext := fun heq => he (h.symm.trans heq)
          simp [h, he]
        · have hne : (other == e) = false := by simpa using h
          simp [List.lookup_cons, hne, ih]

theorem lookup_foldl_setLanguage (members : Members)
    (before : List (Text × String)) (ext : Text) :
    (members.foldl
    (fun map m => setLanguage (extension m.1.text) (String.ofList m.2.text) map)
      before).lookup ext =
      (((members.filter fun m => extension m.1.text = ext).getLast?).map
        fun m => String.ofList m.2.text).or (before.lookup ext) := by
  induction members generalizing before with
  | nil => simp
  | cons m rest ih =>
      rw [List.foldl_cons, ih, lookup_setLanguage]
      by_cases h : extension m.1.text = ext
      · rw [List.filter_cons_of_pos (by simpa using h), List.getLast?_cons,
          if_pos h.symm]
        cases (rest.filter fun m => extension m.1.text = ext).getLast? with
        | none => simp
        | some last => simp
      · rw [List.filter_cons_of_neg (by simpa using h),
          if_neg fun heq => h heq.symm]

theorem lookup_languagesRead (members : Members) (ext : Text) :
    (languagesRead members).lookup ext =
      ((members.filter fun m => extension m.1.text = ext).getLast?).map
        fun m => String.ofList m.2.text := by
  unfold languagesRead
  rw [lookup_foldl_setLanguage]
  simp

/-- An extension whose values are all null has nothing's text for a language,
and none once the nulls are left out. -/
theorem lookup_languagesRead_null {members : Members} {ext : Text}
    (hsome : ∃ m ∈ members, extension m.1.text = ext)
    (hnull : ∀ m ∈ members, extension m.1.text = ext → m.2 = .null) :
    (languagesRead members).lookup ext = some "None" ∧
      (languagesRead (Value.prunedMembers members)).lookup ext = none := by
  rw [lookup_languagesRead, lookup_languagesRead]
  constructor
  · cases hlast :
        (members.filter fun m => extension m.1.text = ext).getLast? with
    | none =>
        rcases hsome with ⟨m, hmem, hext⟩
        rw [List.getLast?_eq_none_iff, List.filter_eq_nil_iff] at hlast
        simpa [hext] using hlast m hmem
    | some last =>
        have hmem := List.mem_of_getLast? hlast
        simp only [List.mem_filter, decide_eq_true_eq] at hmem
        simp [hnull last hmem.1 hmem.2, Value.text, Atom.text, Atom.shown]
  · rw [Option.map_eq_none_iff, List.getLast?_eq_none_iff,
      List.filter_eq_nil_iff]
    intro m hm
    rcases Value.mem_of_mem_prunedMembers hm with ⟨v, hmem, hv⟩
    simp only [decide_eq_true_eq]
    intro hext
    have hvnull : v = .null := hnull (m.1, v) hmem hext
    simp [hvnull, Value.isNull] at hv

/-!
# Nulls left out
-/

theorem arguments_seq {items : List Value}
    (h : Value.areShowable items = true) :
    ∃ args, arguments (.seq items) = .ok args := by
  unfold arguments
  induction items with
  | nil => exact ⟨[], rfl⟩
  | cons v rest ih =>
      simp only [Value.areShowable, Bool.and_eq_true] at h
      rcases ih h.2 with ⟨args, hargs⟩
      dsimp only at hargs ⊢
      rw [List.mapM_cons, hargs]
      simp [Value.toStr, toText_of_isShowable h.1, Except.map, bind,
        Except.bind, pure, Except.pure]

theorem ofSection_eq {options server languageMap : Members}
    {command : List String} {languages : List (Text × String)}
    (hserver : part (options.named "server") = .ok server)
    (hcommand : commandOf server = .ok command)
    (hmap : part (options.named "language_map") = .ok languageMap)
    (hlanguages : languagesOf languageMap = .ok languages) :
    ofSection options = do
      let args ← arguments ((server.named "args").getD (.seq []))
      let syncIdle ← ((options.named "sync_idle_ms").getD
        (.int usual.syncIdle)).toInteger
      let triggerIdle ← ((options.named "trigger_idle_ms").getD
        (.int usual.triggerIdle)).toInteger
      return ⟨syncIdle, triggerIdle, automaticOf options, languages, command ++
        args⟩ := by
  unfold ofSection
  rw [hserver]
  simp only [bind, Except.bind]
  rw [hcommand, hmap]
  simp only [hlanguages]

theorem Documented.languageMap {options : Members} (h : Documented options) :
    Optional (fun v => ∃ ms, v = .map ms) (options.named "language_map") := by
  have hmap := h.languages
  generalize options.named "language_map" = found at hmap
  cases hmap with
  | absent => exact .absent
  | null => exact .null
  | given h =>
      rcases h with ⟨ms, hms, _⟩
      exact .given ⟨ms, hms⟩

theorem Documented.languages_shown {options : Members}
    (h : Documented options) :
    Value.membersShowable (mappingAt "language_map" options) = true := by
  have hmap := h.languages
  unfold mappingAt
  generalize options.named "language_map" = found at hmap
  cases hmap with
  | absent => simp [Value.membersShowable]
  | null => simp [Value.membersShowable]
  | given h =>
      rcases h with ⟨ms, rfl, hms⟩
      simpa using hms

def RefusesNull (options : Members) : Prop :=
  (mappingAt "server" options).named "args" = some .null ∨
    options.named "sync_idle_ms" = some .null ∨
      options.named "trigger_idle_ms" = some .null

structure ReadsBeside (options : Members) (o : Options) : Prop where
  pruned : ofSection (Value.prunedMembers options) = .ok o
  refused (h : RefusesNull options) : ofSection options = .error .wrongKind
  read (h : ¬ RefusesNull options) : ofSection options = .ok { o with
    automatic := automaticOf options
    languages := languagesRead (mappingAt "language_map" options) }
  automatic : o.automatic = automaticOf (Value.prunedMembers options)
  languages :
      o.languages =
        languagesRead (Value.prunedMembers (mappingAt "language_map" options))

theorem ofSection_pruned {options : Members}
    (hkeyed : (Value.map options).Keyed) (hdoc : Documented options) :
    ∃ o, ReadsBeside options o := by
  have hkeys : options.Distinct := hkeyed.distinct
  have hserver : (mappingAt "server" options).Distinct :=
    mappingAt_distinct hkeyed "server"
  have hinteger (v : Value) (h : ∃ n, v = .int n) :
      v.isNull = false ∧ v.pruned = v ∧ ∃ n, v.toInteger = .ok n := by
    rcases h with ⟨n, rfl⟩
    exact ⟨by simp [Value.isNull], by simp [Value.pruned], n, rfl⟩
  rcases commandOf_pruned hserver hdoc.command with
    ⟨command, hcommand, hcommand'⟩
  rcases readBoth arguments (.seq []) hserver hdoc.args rfl rfl (by
    rintro v ⟨items, rfl, hitems⟩
    exact ⟨by simp [Value.isNull], by simp [Value.pruned],
      arguments_seq hitems⟩) with
    ⟨args, hargs⟩
  rcases readBoth Value.toInteger (.int usual.syncIdle) hkeys hdoc.syncIdle rfl
    rfl hinteger with
    ⟨syncIdle, hsync⟩
  rcases readBoth Value.toInteger (.int usual.triggerIdle) hkeys
    hdoc.triggerIdle rfl rfl hinteger with ⟨triggerIdle, htrigger⟩
  have hwhole := ofSection_eq (part_mappingAt hdoc.server) hcommand
    (part_mappingAt hdoc.languageMap) (languagesOf_eq hdoc.languages_shown)
  have hpruned := ofSection_eq (part_pruned hkeys hdoc.server) hcommand'
    (part_pruned hkeys hdoc.languageMap)
    (languagesOf_eq (Value.membersShowable_pruned hdoc.languages_shown))
  rw [hargs.pruned_ok, hsync.pruned_ok, htrigger.pruned_ok] at hpruned
  refine ⟨_, hpruned, ?_, ?_, rfl, rfl⟩
  · -- arguments and idle times are read in turn, and the first null ends it
    intro hrefuses
    rw [hwhole]
    by_cases hargsNull : (mappingAt "server" options).named "args" = some .null
    · rw [hargs.refused hargsNull]
      rfl
    rw [hargs.same hargsNull]
    by_cases hsyncNull : options.named "sync_idle_ms" = some .null
    · rw [hsync.refused hsyncNull]
      rfl
    rw [hsync.same hsyncNull]
    by_cases htriggerNull : options.named "trigger_idle_ms" = some .null
    · rw [htrigger.refused htriggerNull]
      rfl
    · rcases hrefuses with h | h | h
      · exact absurd h hargsNull
      · exact absurd h hsyncNull
      · exact absurd h htriggerNull
  · intro hreads
    simp only [RefusesNull, not_or] at hreads
    rw [hwhole, hargs.same hreads.1, hsync.same hreads.2.1,
      htrigger.same hreads.2.2]
    rfl

namespace ReadsBeside

variable {options : Members} {o : Options}

theorem automatic_null (h : ReadsBeside options o) (hkeys : options.Distinct)
    (hnull : options.named "auto_trigger" = some .null) :
    automaticOf options = false ∧ o.automatic = true := by
  constructor
  · exact automaticOf_null hnull
  · rw [h.automatic]
    exact automaticOf_pruned_null hkeys hnull

theorem automatic_same (h : ReadsBeside options o) (hkeys : options.Distinct)
    (hdoc : Documented options)
    (hsome : options.named "auto_trigger" ≠ some .null) :
    automaticOf options = o.automatic := by
  rw [h.automatic]
  exact (automaticOf_pruned hkeys hdoc.automatic hsome).symm

theorem eq_iff (h : ReadsBeside options o) (hkeys : options.Distinct)
    (hdoc : Documented options) :
    ofSection options = ofSection (Value.prunedMembers options) ↔
      ¬ RefusesNull options ∧ options.named "auto_trigger" ≠ some .null ∧
        languagesRead (mappingAt "language_map" options) = o.languages := by
  rw [h.pruned]
  constructor
  · intro heq
    have hreads : ¬ RefusesNull options := by
      intro hrefuses
      rw [h.refused hrefuses] at heq
      simp at heq
    rw [h.read hreads, Except.ok.injEq] at heq
    constructor
    · exact hreads
    constructor
    · intro hnull
      have hoff := congrArg Options.automatic heq
      simp [h.automatic_null hkeys hnull] at hoff
    · exact congrArg Options.languages heq
  · rintro ⟨hreads, hsome, hmap⟩
    rw [h.read hreads, h.automatic_same hkeys hdoc hsome, hmap]

end ReadsBeside

/-- Without its nulls, a section of the right kinds can always be read.  With
them it is refused exactly if arguments or an idle time are null; else it gives
the same, but that a null turns off asking without being asked and that
languages are the texts of what stands there, nulls included.  So leaving out
the nulls makes no difference exactly if none of these is null and the languages
are the same. -/
theorem null_options {settings options : Members}
    (htabby : settings.named "tabby" = some (.map options))
    (hkeyed : (Value.map options).Keyed) (hdoc : Documented options) :
    let languageMap := mappingAt "language_map" options
    let without :=
  Value.map (settings.set (.str "tabby") (Value.map options).pruned)
    ∃ o, ofSettings without = .ok o ∧
      (RefusesNull options → ofSettings (.map settings) = .error .wrongKind) ∧
      (¬ RefusesNull options → ofSettings (.map settings) = .ok { o with
        automatic := automaticOf options
        languages := languagesRead languageMap }) ∧
      (options.named "auto_trigger" = some .null →
        automaticOf options = false ∧ o.automatic = true) ∧
      (options.named "auto_trigger" ≠ some .null →
        automaticOf options = o.automatic) ∧
      (Value.prunedMembers languageMap = languageMap →
        languagesRead languageMap = o.languages) ∧
      (∀ ext, (∃ m ∈ languageMap, extension m.1.text = ext) →
        (∀ m ∈ languageMap, extension m.1.text = ext → m.2 = .null) →
        (languagesRead languageMap).lookup ext = some "None" ∧
          o.languages.lookup ext = none) ∧
      (ofSettings (.map settings) = ofSettings without ↔
        ¬ RefusesNull options ∧ options.named "auto_trigger" ≠ some .null ∧
          languagesRead languageMap = o.languages) := by
  intro languageMap without
  have hkeys : options.Distinct := hkeyed.distinct
  have hwithout :
      (settings.set (.str "tabby") (Value.map options).pruned).named "tabby" =
      some (.map (Value.prunedMembers options)) := by
    unfold Members.named
    rw [Members.get?_set_same (Atom.same_self _), Value.pruned]
  rcases ofSection_pruned hkeyed hdoc with ⟨o, h⟩
  rw [ofSettings_of_tabby htabby, ofSettings_of_tabby hwithout]
  refine ⟨o, h.pruned, h.refused, h.read, h.automatic_null hkeys,
    h.automatic_same hkeys hdoc, ?_, ?_, h.eq_iff hkeys hdoc⟩
  · intro hnone
    rw [h.languages, hnone]
  · intro ext hsome hall
    rw [h.languages]
    exact lookup_languagesRead_null hsome hall

/-- A section with nulls that can be read, and that gives something else without
them. -/
theorem null_options_turned_off :
    let options : Members := [(.str "server", .map [(.str "command", .null)]),
      (.str "trigger_idle_ms", .int 300), (.str "auto_trigger", .null)]
    let settings : Members := [(.str "tabby", .map options)]
    let without :=
  Value.map (settings.set (.str "tabby") (Value.map options).pruned)
    ∃ o, ofSettings without = .ok o ∧ o.automatic = true ∧
      ofSettings (.map settings) =
        .ok { o with automatic := false, languages := [] } ∧
      ofSettings (.map settings) ≠ ofSettings without := by
  intro options settings without
  have hkeyed : (Value.map options).Keyed := by
    apply Value.Keyed.map
    · decide
    · simp only [options, List.mem_cons, List.not_mem_nil, or_false,
        forall_eq_or_imp, forall_eq]
      exact ⟨.map (by decide) (by simp [Value.Keyed.atom]), .atom _, .atom _⟩
  have hdoc : Documented options := by
    constructor
    · exact .given ⟨_, rfl⟩
    · exact .null
    · exact .absent
    · exact .absent
    · exact .given ⟨300, rfl⟩
    · exact .null
    · exact .absent
  have hreads : ¬ RefusesNull options := by
    simp [RefusesNull, options, mappingAt, Members.named, Members.get?,
      Atom.same, Atom.identity]
  have hoff : options.named "auto_trigger" = some .null := rfl
  rcases null_options
    (show settings.named "tabby" = some (.map options) from rfl) hkeyed
    hdoc with
    ⟨o, ho, _, hread, hnull, _, _, _, hiff⟩
  have hautomatic := hnull hoff
  have hwhole := hread hreads
  rw [hautomatic.1] at hwhole
  refine ⟨o, ho, hautomatic.2, hwhole, ?_⟩
  intro heq
  exact (hiff.mp heq).2.1 hoff

/-- A null idle time is refused and a null for asking without being asked turns
that off, where the same sections without them give the usual options. -/
theorem null_not_usual :
    let idle : Members := [(.str "sync_idle_ms", .null)]
    let automatic : Members := [(.str "auto_trigger", .null)]
    Documented idle ∧ Documented automatic ∧
      (Value.map idle).pruned = .map [] ∧
        (Value.map automatic).pruned = .map [] ∧
      ofSettings (.map [(.str "tabby", .map [])]) = .ok usual ∧
      ofSettings (.map [(.str "tabby", .map idle)]) = .error .wrongKind ∧
      ofSettings (.map [(.str "tabby", .map automatic)]) =
        .ok { usual with automatic := false } := by
  intro idle automatic
  have hidle : Documented idle :=
    ⟨.absent, .absent, .absent, .null, .absent, .absent, .absent⟩
  have hautomatic : Documented automatic :=
    ⟨.absent, .absent, .absent, .absent, .absent, .null, .absent⟩
  exact ⟨hidle, hautomatic, rfl, rfl, rfl, rfl, rfl⟩

end Options
end InlineCompletion
