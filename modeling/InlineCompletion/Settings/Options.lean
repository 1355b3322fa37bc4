import InlineCompletion.Settings.Value
import InlineCompletion.Text.Lower

/-!
# Options

The options of inline completion are read from one section of the settings.
Sections and mappings that do not count as true say nothing.  Extensions are
kept in small letters behind one point, and of two spellings of one extension
the later counts.
-/

namespace InlineCompletion

structure Options where
  /-- Milliseconds without an edit before edits are sent. -/
  syncIdle : Int
  /-- Milliseconds without an edit before a completion is asked for. -/
  triggerIdle : Int
  /-- Whether completions are asked for without being asked. -/
  automatic : Bool
  languages : List (Text × String)
  command : List String
  deriving DecidableEq, Repr

namespace Options

open Settings

def usual : Options := ⟨200, 500, true, [], []⟩

def part (v : Option Value) : Except Fault Members :=
  match (v.getD (.map [])).orEmpty with
  | .map members => .ok members
  | _ => .error .wrongShape

def sectionOf (name : String) (settings : Value) : Except Fault Members := do
  part ((← part (some settings)).named name)

def arguments : Value → Except Fault (List String)
  | .seq items => items.mapM Value.toStr
  | .map members => members.mapM fun m => Value.toStr (.atom m.1)
  | .str s => .ok (s.toList.map fun c => String.ofList [c])
  | _ => .error .wrongKind

def extension (key : Text) : Text :=
  '.' :: Text.lower (key.dropWhile (· == '.'))

def setLanguage (ext : Text) (language : String) :
    List (Text × String) → List (Text × String)
  | [] => [(ext, language)]
  | (e, l) :: rest =>
      if e = ext then (ext, language) :: rest else
        (e, l) :: setLanguage ext language rest

def languagesOf (members : Members) : Except Fault (List (Text × String)) :=
  members.foldlM
    (fun map m => do
      return setLanguage (extension (← m.1.toText)) (← m.2.toStr) map) []

def ofSettings (settings : Value) : Except Fault Options := do
  let options ← sectionOf "tabby" settings
  let server ← part (options.named "server")
  let command ← match server.named "command" with
    | some v => if v.truthy then (v.toStr).map ([·]) else pure []
    | none => pure []
  let args ← arguments ((server.named "args").getD (.seq []))
  let languages ← languagesOf (← part (options.named "language_map"))
  let syncIdle ← ((options.named "sync_idle_ms").getD
    (.int usual.syncIdle)).toInteger
  let triggerIdle ← ((options.named "trigger_idle_ms").getD
    (.int usual.triggerIdle)).toInteger
  let automatic := match options.named "auto_trigger" with
    | some v => v.truthy
    | none => usual.automatic
  return ⟨syncIdle, triggerIdle, automatic, languages, command ++ args⟩

end Options
end InlineCompletion
