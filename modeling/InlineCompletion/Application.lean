import InlineCompletion.CommandLine
import InlineCompletion.Editor.Setup
import InlineCompletion.Settings.Level
import InlineCompletion.Settings.Store
import InlineCompletion.Workspace.Keys
import InlineCompletion.Workspace.Signals

/-!
# The application

One window with one editor and one agent.  The program reads its command line
and its settings, loads the file that it was given, opens it as a document,
starts the agent, and shows the window.  In the end all documents are closed and
the agent is stopped, however it came to the end.
-/

namespace InlineCompletion
namespace Application

structure Setup where
  workspace : Workspace Connection
  /-- The path given on the command line. -/
  path : Option Text

/-- The path that stands for a path given on the command line; an empty one is
none. -/
def givenPath (path : Option Text) : Option Text :=
  path.filter fun p => !p.isEmpty

/-- Sets the program up from its command line and then from what the user's
settings file holds.  Values in messages may be nested as deep as there is room
for. -/
def setUp (room : Nat) (dir : Path.Directory) (arguments : List Text)
    (user : Except Fault Settings.Value) : Except Fault Setup := do
  let path := givenPath (← CommandLine.path arguments)
  let settings := Settings.Value.map (← Settings.Store.ofUser (← user)).current
  let _ ← Level.ofSettings settings (.int 20)
  let options ← Options.ofSettings settings
  if path.any (·.contains '\x00') then throw .nullInPath
  let directory := path.map fun p => String.ofList (Path.parent dir p)
  let font ← Editor.fontOf settings
  let env :=
    (Env.ofLink (Connection.fresh options.command directory room)).emit font
  let env := { env with window := some ⟨none, "", ""⟩ }
  let w := { Workspace.create env dir [.widget []] options with
    watchedFirst := false }
  return ⟨w, path.map Path.tidy⟩

def untitled (dir : Path.Directory) : Text :=
  Path.anchored dir "untitled.txt".toList

def loadGiven (file : Except Fault (Option (List UInt8))) (s : Setup) :
    Except Fault Unit × Workspace Connection :=
  match s.path, file with
  | none, _ | _, .ok none => (.ok (), s.workspace)
  | _, .error f => (.error f, s.workspace)
  | some p, .ok (some content) => s.workspace.loadFile 0 p (.ok content)

/-- Brings the program up to where it waits for events, with the content of the
file that the command line names, if it names one; the result is the fault that
kept it from getting there. -/
def launch (file : Except Fault (Option (List UInt8))) (s : Setup) :
    Except Fault Unit × Workspace Connection :=
  match loadGiven file s with
  | (.error f, w) => (.error f, w)
  | (.ok (), w) =>
      match w.openDocument 0 (some (s.path.getD (untitled w.directory))) with
      | (.error f, w) => (.error f, w)
      | (.ok _, w) =>
          let w := match Connection.start w.env with
            | (.ok (), env) => { w with env := env }
            | (.error f, env) => { w with env := env }.tell (.agentNotStarted f)
          (.ok (), (w.emit (.windowSized 960 720)).emit .windowShown)

def shutDown (waits : Waits) (w : Workspace Connection) :
    Workspace Connection :=
  w.closeAll.stop waits

/-- The end of the program, with its code: a fault is told of and gives the code
one. -/
def finish (result : Except Fault Int) (waits : Waits)
    (w : Workspace Connection) :
    Int × Workspace Connection :=
  match result with
  | .ok code => (code, shutDown waits w)
  | .error f => (1, shutDown waits (w.tell (.crashed f)))

end Application
end InlineCompletion
