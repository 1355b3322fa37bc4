import InlineCompletion.Agent.Message
import InlineCompletion.Fault

/-!
# Notices

What the program tells about its work, for whoever looks at its log.  A notice
has a level, the part of the program that it comes from, a wording with places
for its arguments, and sometimes the fault that caused it.
-/

namespace InlineCompletion

inductive Outcome where
  | accepted
  | canceled
  | superseded
  deriving DecidableEq, Repr

def Outcome.word : Outcome → String
  | .accepted => "accepted"
  | .canceled => "canceled"
  | .superseded => "superseded"

inductive Component where
  | application
  | timers
  | connection
  | candidates
  | ghost
  | requests
  | sync
  | document
  | workspace
  | editor
  deriving DecidableEq, Repr

inductive Weight where
  | debug
  | info
  | warning
  | error
  deriving DecidableEq, Repr

def Weight.word : Weight → String
  | .debug => "DEBUG"
  | .info => "INFO"
  | .warning => "WARNING"
  | .error => "ERROR"

inductive Notice where
  | loaded (path : Text) (size : Nat)
  | opened (name : Text) (language : String) (version : Nat)
  | closed (name : Text)
  | ghost (outcome : Outcome)
  | oddAnswer (oddity : Candidate.Oddity)
  | alreadyDetached (name : Text)
  | openDeferred (name : Text)
  | requestOffline
  | requestUnsynced (uri : Text)
  | requestRefused (uri : Text) (reason : Refusal)
  | answerStale (id : Option Int)
  | answerFailed (id : Option Int) (message : Json)
  | answerOutdated
  | flushUnopened (uri : Text)
  | flushOffline (uri : Text)
  | flushRefused (changes : Nat) (uri : Text) (reason : Refusal)
  | openRefused (uri : Text) (reason : Refusal)
  | closeRefused (uri : Text) (reason : Refusal)
  | timerFailed (fault : Fault)
  | agentStarting (program : String) (arguments : List String)
  | agentStarted
  | agentRejected (error : Json)
  | agentReady (name : Json)
  | agentFarewellFailed (reason : Refusal)
  | agentKilled
  | agentInvalid
  | agentUnreadable (fault : Fault)
  | agentNotFound (command : List String)
  | agentTrouble (kind : String)
  | agentExited (code : Json)
  | undecodable (body : List UInt8)
  | agentNotStarted (fault : Fault)
  | crashed (fault : Fault)
  deriving Repr

inductive Argument where
  | value (v : Json)
  | bytes (b : List UInt8)

namespace Notice

def component : Notice → Component
  | .loaded .. => .editor
  | .opened .. | .closed _ => .document
  | .ghost _ => .ghost
  | .oddAnswer _ => .candidates
  | .alreadyDetached _ | .openDeferred _ => .workspace
  | .requestOffline | .requestUnsynced _ | .requestRefused .. | .answerStale
      _ | .answerFailed ..
  | .answerOutdated => .requests
  | .flushUnopened _ | .flushOffline _ | .flushRefused .. | .openRefused
    .. | .closeRefused .. =>
      .sync
  | .timerFailed _ => .timers
  | .agentStarting .. | .agentStarted | .agentRejected _ | .agentReady
      _ | .agentFarewellFailed _
  | .agentKilled | .agentInvalid | .agentUnreadable _ | .agentNotFound
      _ | .agentTrouble _
  | .agentExited _ | .undecodable _ => .connection
  | .agentNotStarted _ | .crashed _ => .application

def weight : Notice → Weight
  | .loaded .. | .ghost _ | .alreadyDetached
      _ | .requestOffline | .requestUnsynced _
  | .requestRefused .. | .answerStale _ | .answerFailed
      .. | .answerOutdated | .flushUnopened _
  | .flushOffline _ | .closeRefused .. | .agentFarewellFailed _ => .debug
  | .opened .. | .closed _ | .oddAnswer _ | .openDeferred _ | .agentStarting
      .. | .agentStarted
  | .agentReady _ | .agentExited _ => .info
  | .flushRefused .. | .openRefused
    .. | .agentKilled | .agentInvalid | .undecodable _ => .warning
  | .timerFailed _ | .agentRejected _ | .agentUnreadable _ | .agentNotFound
      _ | .agentTrouble _
  | .agentNotStarted _ | .crashed _ => .error

def wording : Notice → String
  | .loaded .. => "Loaded %s (%d characters)"
  | .opened .. => "Opened %s as %s (version %d)"
  | .closed _ => "Closed %s"
  | .ghost _ => "Ghost text %s"
  | .oddAnswer (.list _) => "Unknown inline completion list -- %s"
  | .oddAnswer (.response _) => "Unknown inline completion response -- %s"
  | .alreadyDetached _ => "Editor for %s already disconnected"
  | .openDeferred _ => "Agent not ready, deferring open of %s"
  | .requestOffline => "Completion request skipped, agent not connected"
  | .requestUnsynced _ => "Completion request skipped, %s has unsynced edits"
  | .requestRefused .. => "Completion request for %s failed: %s"
  | .answerStale _ => "Discarding stale completion response %s"
  | .answerFailed .. => "Completion request %s failed: %s"
  | .answerOutdated =>
      "Discarding completion computed for an outdated document state"
  | .flushUnopened _ => "Skipping flush of %s, not open on the agent"
  | .flushOffline _ => "Skipping flush of %s, agent not available"
  | .flushRefused .. => "Failed to sync %d change(s) for %s: %s"
  | .openRefused .. => "Failed to open %s on the agent: %s"
  | .closeRefused .. => "Failed to close %s on the agent: %s"
  | .timerFailed _ => "Debounced callback failed"
  | .agentStarting .. => "Starting completion agent: %r %r"
  | .agentStarted => "Completion agent started"
  | .agentRejected _ => "Completion agent rejected initialize: %s"
  | .agentReady _ => "Completion agent ready: %s"
  | .agentFarewellFailed _ => "Failed to send shutdown sequence"
  | .agentKilled =>
      "Completion agent did not terminate gracefully; killing process"
  | .agentInvalid => "Received data from invalid agent process"
  | .agentUnreadable _ => "Error reading agent output"
  | .agentNotFound _ =>
      "Completion agent failed to start: %r. Check that the configured command exists."
  | .agentTrouble _ => "Completion agent process error: %s"
  | .agentExited _ => "Completion agent exited with code %s"
  | .undecodable _ => "Failed to decode agent message: %s"
  | .agentNotStarted _ => "Could not start the completion agent"
  | .crashed _ => "Unhandled exception in main loop"

def idValue (id : Option Int) : Json :=
  match id with
  | some n => .int n
  | none => .null

def arguments : Notice → List Argument
  | .loaded path size => [.value (Json.ofText path), .value (.int size)]
  | .opened name language version =>
      [.value (Json.ofText name), .value (.str language), .value (.int version)]
  | .closed name | .alreadyDetached name | .openDeferred name =>
      [.value (Json.ofText name)]
  | .ghost outcome => [.value (.str outcome.word)]
  | .oddAnswer (.list kind) | .oddAnswer (.response kind) =>
      [.value (.str kind)]
  | .requestUnsynced uri | .flushUnopened uri | .flushOffline uri =>
      [.value (Json.ofText uri)]
  | .requestRefused uri r | .openRefused uri r | .closeRefused uri r =>
      [.value (Json.ofText uri), .value (.str r.message)]
  | .answerStale id => [.value (idValue id)]
  | .answerFailed id message => [.value (idValue id), .value message]
  | .flushRefused changes uri r =>
      [.value (.int changes), .value (Json.ofText uri), .value (.str r.message)]
  | .agentStarting program args =>
      [.value (.str program),
        .value (.arr (args.map fun (a : String) => .str a))]
  | .agentRejected v | .agentReady v | .agentExited v => [.value v]
  | .agentNotFound command =>
      [.value (.arr (command.map fun (a : String) => .str a))]
  | .agentTrouble kind => [.value (.str kind)]
  | .undecodable body => [.bytes body]
  | _ => []

def fault? : Notice → Option Fault
  | .timerFailed f | .agentUnreadable f | .agentNotStarted f | .crashed f =>
      some f
  | .agentFarewellFailed r => some (.refused r)
  | _ => none

end Notice
end InlineCompletion
