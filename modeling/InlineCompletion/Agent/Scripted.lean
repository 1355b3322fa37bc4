import InlineCompletion.Agent.Link

/-!
# A link that follows a script

A link without an agent behind it: it is told whether it is connected, and which
sends fail.  It keeps the requests that it took, so that they can be answered
from outside, each as often as one likes; or it answers each at once in a set
way.  A one-way link takes notifications and nothing else.
-/

namespace InlineCompletion

structure Taken where
  id : Nat
  waiting : Option Waiting

structure Scripted where
  isConnected : Bool
  failNotifications : Bool
  failRequests : Bool
  /-- The members of the answer that each request gets at once. -/
  auto : Option Json.Members
  /-- The requests taken so far, the last one first. -/
  taken : List Taken
  /-- Whether it takes notifications only: then it never announces that it is
  ready, and it cannot be stopped either. -/
  isOneWay : Bool

namespace Scripted

def answerHead (id : Json) : Json.Members :=
  [("jsonrpc", .str "2.0"), ("id", id)]

def answer (id : Json) (members : Json.Members) : Json :=
  .obj (members.foldl (fun ms m => Json.Members.set m.1 m.2 ms) (answerHead id))

def nextId (s : Scripted) : Nat := (s.taken.head?.map (·.id)).getD 0 + 1

instance : Link Scripted where
  connected s := s.isConnected
  notify _ s := (if s.failNotifications then some .pipeClosed else none, s)
  request _ waiting s :=
    if s.isOneWay then (.error .oneWay, s)
    else if s.failRequests then (.error .pipeClosed, s)
    else
      let id := s.nextId
      (.ok ⟨id, s.auto.map (answer (.int id))⟩,
        { s with taken := ⟨id, waiting⟩ :: s.taken })

def find? (id : Nat) (s : Scripted) : Option Taken := s.taken.find? (·.id == id)

def stop (env : Env Scripted) : Env Scripted :=
  if env.link.isOneWay then env
  else { env with link := { env.link with isConnected := false } }.emit
    .linkStopped

end Scripted
end InlineCompletion
