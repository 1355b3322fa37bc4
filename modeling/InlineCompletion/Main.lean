import InlineCompletion.Application
import InlineCompletion.Yaml

/-!
# The program

The program without a window: it opens the file that its command line names, and
its standard streams lead to the agent.  What comes in is what the agent writes,
and what goes out is what the agent reads; what is told goes to the error
stream.  The program ends when its input does.
-/

namespace InlineCompletion
namespace Program

/-- How many values may stand inside one another in a message. -/
def room : Nat := 988

def settingsRoom : Nat := 489

/-- Nobody waits for the streams: they end at once. -/
def atOnce : Wait := ⟨[], some (.int 0)⟩

def bytesOf (path : String) : IO (Option Bytes) := do
  try
    return some (← IO.FS.readBinFile path).toList
  catch _ => return none

def workingDirectory : IO Path.Directory := do
  let path := (← IO.currentDir).toString.toList
  return if h : path.head? = some '/' then ⟨path, h⟩ else .root

def userSettings : IO (Except Fault Settings.Value) := do
  let home := (← IO.getEnv "HOME").getD ""
  let directory := (← IO.getEnv "XDG_CONFIG_HOME").getD (home ++ "/.config")
  match ← bytesOf (directory ++ "/tabbyqt/settings.yaml") with
  | none => return .ok .null
  | some bytes => return Yaml.readBytes settingsRoom bytes

def contentOf (path : Option Text) : IO (Option Bytes) := do
  match path with
  | none => return none
  | some p => bytesOf (String.ofList p)

def lineOf (n : Notice) : String :=
  let shown := n.arguments.map fun
    | .value v => String.ofList (Settings.Value.ofJson v).text
    | .bytes b => String.ofList (Utf8.decodeLossy b)
  String.intercalate " " ((n.weight.word ++ ":") :: n.wording :: shown)

def handOn (w : Workspace Connection) : IO (Workspace Connection) := do
  for e in w.env.trace do
    match e with
    | .sent m =>
        match Frame.encode room m.toJson with
        | .ok bytes => (← IO.getStdout).write ⟨bytes.toArray⟩
        | .error f => (← IO.getStderr).putStrLn f.message
    | .notice n => (← IO.getStderr).putStrLn (lineOf n)
    | _ => pure ()
  (← IO.getStdout).flush
  return { w with env := { w.env with trace := [] } }

partial def serve (w : Workspace Connection) (since : Nat) :
    IO (Workspace Connection) := do
  let chunk ← (← IO.getStdin).read 65536
  let now ← IO.monoMsNow
  let w ← handOn (w.advance ((now : Int) - since))
  if chunk.isEmpty then return w
  serve (← handOn (w.output chunk.toList)) now

def run (setup : Application.Setup) : IO UInt32 := do
  let (result, w) := Application.launch (.ok (← contentOf setup.path)) setup
  let result ← match result with
    | .error f => pure (Except.error f, w)
    | .ok () => do
        let w ← handOn w
        let w ← handOn { w with env := Connection.began w.env }
        pure (Except.ok (0 : Int), ← serve w (← IO.monoMsNow))
  let (code, w) := Application.finish result.1 ⟨atOnce, atOnce⟩ result.2
  let _ ← handOn w
  return code.toNat.toUInt32

end Program
end InlineCompletion

open InlineCompletion in
def main (arguments : List String) : IO UInt32 := do
  let dir ← Program.workingDirectory
  let settings ← Program.userSettings
  match Application.setUp Program.room dir (arguments.map (·.toList))
    settings with
  | .ok setup => Program.run setup
  | .error (.ended 0) => do
      IO.print CommandLine.help
      return 0
  | .error (.ended code) => do
      IO.eprint CommandLine.usage
      return code.toNat.toUInt32
  | .error f => do
      IO.eprintln f.message
      return 1
