import InlineCompletion.Candidate

/-!
# Messages to the agent

Notifications tell the agent what becomes of documents; requests ask it for an
answer.  Each has a method and parameters, and is written as one JSON object.
-/

namespace InlineCompletion

/-- One edit as the agent is told it: a range of the text before the edit and
the text that takes its place, or a whole new text. -/
structure Change where
  range : Option Range
  text : Text
  deriving DecidableEq, Repr

def Change.toJson (c : Change) : Json :=
  match c.range with
  | none => .obj [("text", Json.ofText c.text)]
  | some r => .obj [("range", r.toJson), ("text", Json.ofText c.text)]

inductive TriggerKind where
  | invoked
  | automatic
  deriving DecidableEq, Repr

namespace TriggerKind

def code : TriggerKind → Int
  | .invoked => 1
  | .automatic => 2

def ofCode? (n : Int) : Option TriggerKind :=
  if n = 1 then some .invoked else if n = 2 then some .automatic else none

/-- The reason that a value stands for: numbers of either kind and truth values
count by their value. -/
def ofJson? : Json → Option TriggerKind
  | .int n => ofCode? n
  | .bool b => ofCode? (if b then 1 else 0)
  | .float d => d.toInt?.bind ofCode?
  | _ => none

theorem ofCode?_code (k : TriggerKind) : ofCode? k.code = some k := by
  cases k <;> rfl

end TriggerKind

inductive Notification where
  | didOpen (uri : Text) (language : String) (version : Nat) (text : Text)
  | didChange (uri : Text) (version : Nat) (changes : List Change)
  | didClose (uri : Text)
  | initialized
  | exit
  | other (method : String) (params : Option Json)
  deriving Repr

inductive Request where
  | greeting
  | completion (uri : Text) (position : Position) (kind : TriggerKind)
  | shutdown
  | other (method : String) (params : Option Json)
  deriving Repr

def documentMember (members : Json.Members) : Str × Json :=
  ("textDocument", .obj members)

namespace Notification

def method : Notification → String
  | .didOpen .. => "textDocument/didOpen"
  | .didChange .. => "textDocument/didChange"
  | .didClose _ => "textDocument/didClose"
  | .initialized => "initialized"
  | .exit => "exit"
  | .other m _ => m

def params : Notification → Option Json
  | .didOpen uri language version text =>
      some (.obj [documentMember
        [ ("uri", Json.ofText uri), ("languageId", .str language),
          ("version", .int version), ("text", Json.ofText text) ]])
  | .didChange uri version changes =>
      some (.obj
        [ documentMember [("uri", Json.ofText uri), ("version", .int version)],
          ("contentChanges", .arr (changes.map Change.toJson)) ])
  | .didClose uri => some (.obj [documentMember [("uri", Json.ofText uri)]])
  | .initialized => some (.obj [])
  | .exit => none
  | .other _ p => p

def uri? : Notification → Option Text
  | .didOpen uri .. => some uri
  | .didChange uri .. => some uri
  | .didClose uri => some uri
  | _ => none

end Notification

def processId : Int := 4242

def greetingParams : Json :=
  let fixed : Json := .obj [("dynamicRegistration", .bool false)]
  .obj
    [ ("processId", .int processId),
      ("clientInfo", .obj [("name", .str "tabbyqt")]),
      ("rootUri", .null),
      ("capabilities", .obj
        [documentMember
          [("synchronization", fixed), ("inlineCompletion", fixed)]]) ]

namespace Request

def method : Request → String
  | .greeting => "initialize"
  | .completion .. => "textDocument/inlineCompletion"
  | .shutdown => "shutdown"
  | .other m _ => m

def params : Request → Option Json
  | .greeting => some greetingParams
  | .completion uri position kind =>
      some (.obj
        [ documentMember [("uri", Json.ofText uri)],
          ("position", position.toJson),
          ("context", .obj [("triggerKind", .int kind.code)]) ])
  | .shutdown => none
  | .other _ p => p

def uri? : Request → Option Text
  | .completion uri .. => some uri
  | _ => none

end Request

inductive Outgoing where
  | notification (n : Notification)
  | request (id : Nat) (r : Request)
  deriving Repr

namespace Outgoing

def method : Outgoing → String
  | .notification n => n.method
  | .request _ r => r.method

def params : Outgoing → Option Json
  | .notification n => n.params
  | .request _ r => r.params

def uri? : Outgoing → Option Text
  | .notification n => n.uri?
  | .request _ r => r.uri?

def toJson (m : Outgoing) : Json :=
  let id : Json.Members := match m with
    | .notification _ => []
    | .request id _ => [("id", Json.int id)]
  let params : Json.Members := match m.params with
    | some p => [("params", p)]
    | none => []
  .obj ((Str.text "jsonrpc", .str "2.0") :: id ++
    (Str.text "method", .str m.method) :: params)

end Outgoing
end InlineCompletion
