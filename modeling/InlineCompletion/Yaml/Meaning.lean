import InlineCompletion.Yaml.Node

/-!
# Meanings of nodes

A node means a value.  The members of a mapping that is merged in stand in front
of a mapping's own, so that these count; of several mappings merged in, the
first counts.  A tree can have more than one fault: the one that is highest in
it is told, and of those the first.
-/

namespace InlineCompletion
namespace Yaml
namespace Node

def meaningless {α : Type} : Except Fault α := .error (.badSettings .meaning)

def keyOf : Node → Node
  | .scalar .default t => .scalar .text t
  | x => x

mutual

def flat :
    List (Node × Node) → Except Fault (List (Node × Node) × List (Node × Node))
  | [] => .ok ([], [])
  | (k, v) :: rest => do
      if k.tag = .merge then
        let more ← merged v
        let (others, own) ← flat rest
        return (more ++ others, own)
      else
        let (others, own) ← flat rest
        return (others, (keyOf k, v) :: own)

def merged : Node → Except Fault (List (Node × Node))
  | .map _ members => do
      let (others, own) ← flat members
      return others ++ own
  | .seq _ items => mergedAll items
  | .scalar _ _ => meaningless

def mergedAll : List Node → Except Fault (List (Node × Node))
  | [] => .ok []
  | .map _ members :: rest => do
      let (others, own) ← flat members
      let last ← mergedAll rest
      return last ++ (others ++ own)
  | _ :: _ => meaningless

end

def scalarText? : Node → Option Text
  | .scalar _ t => some t
  | .seq _ _ => none
  | .map _ members => inMembers members
where
  inMembers : List (Node × Node) → Option Text
    | [] => none
    | (k, v) :: rest =>
        if k.tag = .default then scalarText? v else inMembers rest

def atom? (x : Node) : Option (Except Fault Settings.Atom) :=
  match x.tag with
  | .seq | .map => none
  | .merge | .default | .other => some meaningless
  | t =>
      match x.scalarText? with
      | some s => some (Scalar.read t s)
      | none => some meaningless

def parts : Node → Except Fault (List (Bool × Node))
  | .seq .seq items => .ok (items.map fun x => (false, x))
  | .map .map members => do
      let (others, own) ← flat members
      return (others ++ own).flatMap fun m => [(true, m.1), (false, m.2)]
  | _ => meaningless

def faultOf : Bool × Node → Option Fault
  | (isKey, x) =>
      match x.atom? with
      | some (.error f) => some f
      | some (.ok _) => none
      | none => if isKey then some (.badSettings .meaning) else none

def fault? : Nat → List Node → Option Fault
  | 0, _ => none
  | _ + 1, [] => none
  | steps + 1, xs =>
      let faults := xs.filterMap fun x =>
        match x.parts with
        | .error f => some f
        | .ok ps => ps.findSome? faultOf
      let below := xs.flatMap fun x =>
        match x.parts with
        | .error _ => []
        | .ok ps => (ps.map (·.2)).filter (·.atom?.isNone)
      faults.head? <|> fault? steps below

def value? : Nat → Node → Option Settings.Value
  | 0, _ => none
  | steps + 1, x =>
      match x.atom?, x with
      | some r, _ => (r.toOption).map .atom
      | none, .seq _ items => (items.mapM (value? steps)).map .seq
      | none, .map _ members => do
          let (others, own) ← (flat members).toOption
          let pairs ← (others ++ own).mapM fun m => do
            let k ← (← m.1.atom?).toOption
            return (k, ← value? steps m.2)
          return .map
            (pairs.foldl (fun ms m => Settings.Members.set m.1 m.2 ms) [])
      | none, .scalar _ _ => none

def meaning (steps : Nat) (x : Node) : Except Fault Settings.Value :=
  let found := match x.atom? with
    | some (.error f) => some f
    | some (.ok _) => none
    | none => fault? steps [x]
  match found, value? steps x with
  | some f, _ => .error f
  | none, some v => .ok v
  | none, none => meaningless

end Node
end Yaml
end InlineCompletion
