import InlineCompletion.Yaml.Lexer
import InlineCompletion.Yaml.Scalar

/-!
# Nodes

A settings file holds one tree of nodes, each with a tag.  It is read off the
tokens of the file, as far as they go: the fault that keeps further ones from
being read counts where one of them is asked for.  A name stands for the node
that was read under it before.  Inside a collection the name of the collection
stands for what is known of it when its parts are yet to come: it is empty.
-/

namespace InlineCompletion
namespace Yaml

inductive Node where
  | scalar (tag : Tag) (t : Text)
  | seq (tag : Tag) (items : List Node)
  | map (tag : Tag) (members : List (Node × Node))
  deriving Repr

namespace Node

def tag : Node → Tag
  | .scalar t _ => t
  | .seq t _ => t
  | .map t _ => t

def missing : Node := .scalar .null []

structure Rest where
  tokens : List Token
  /-- What keeps further tokens from being read. -/
  fault : Option Fault
  /-- The nodes that have names; a collection that is still being read is
  empty. -/
  named : List (Text × Node)
  /-- What the handles of tags stand for. -/
  handles : List (Text × Text)
  /-- How many collections the next node stands in. -/
  depth : Nat
  /-- How many collections may stand inside one another. -/
  room : Nat

abbrev Reads := StateT Rest (Except Fault)

def misplaced {α : Type} : Reads α := throw (.badSettings .arrangement)

def misnamed {α : Type} : Reads α := throw (.badSettings .reference)

def next : Reads Token := do
  match (← get).tokens, (← get).fault with
  | t :: _, _ => return t
  | [], some f => throw f
  | [], none => misplaced

def pass : Reads Unit := modify fun r => { r with tokens := r.tokens.tail }

def sees (ts : List Token) : Reads Bool := return ts.contains (← next)

def passes (t : Token) : Reads Bool := do
  if (← next) = t then
    pass
    return true
  else return false

def passSeparator (isFirst : Bool) : Reads Unit := do
  if isFirst then return ()
  else if ← passes .separator then return ()
  else misplaced

def name? : Reads (Option Text) := do
  match ← next with
  | .anchor n =>
      pass
      return some n
  | _ => return none

def tagName? : Reads (Option TagName) := do
  match ← next with
  | .tag t =>
      pass
      return some t
  | _ => return none

def properties : Reads (Option Text × Option TagName) := do
  match ← name? with
  | some n => return (some n, ← tagName?)
  | none =>
      match ← tagName? with
      | some t => return (← name?, some t)
      | none => return (none, none)

def inFull (t : TagName) : Reads Text := do
  match t.handle with
  | none => return t.suffix
  | some h =>
      match (← get).handles.lookup h with
      | some meaning => return meaning ++ t.suffix
      | none => misplaced

/-- The tag of a scalar: without one, or with the one that says nothing, how it
looks counts, save that a scalar in quotes without a tag is a text. -/
def scalarTag (written : Option Text) (isPlain : Bool) (t : Text) : Tag :=
  match written with
  | none => if isPlain then Scalar.tagOf t else .text
  | some ['!'] => Scalar.tagOf t
  | some full => Tag.ofName full

def collectionTag (written : Option Text) (usual : Tag) : Tag :=
  match written with
  | none | some ['!'] => usual
  | some full => Tag.ofName full

def ofName (n : Text) : Reads Node := do
  match (← get).named.lookup n with
  | some x => return x
  | none => misnamed

def call (n : Text) (x : Node) : Reads Unit :=
  modify fun r => { r with named := (n, x) :: r.named }

def underName (n? : Option Text) (before : Node) (read : Reads Node) :
    Reads Node := do
  match n? with
  | none => read
  | some n =>
      if ((← get).named.lookup n).isSome then misnamed
      else
        call n before
        let x ← read
        call n x
        return x

def named (n? : Option Text) (x : Node) : Reads Node :=
  underName n? x (return x)

def inside {α : Type} (read : Reads α) : Reads α := do
  if (← get).depth ≥ (← get).room then throw .tooDeep
  else
    modify fun r => { r with depth := r.depth + 1 }
    let x ← read
    modify fun r => { r with depth := r.depth - 1 }
    return x

inductive Place where
  /-- Between brackets. -/
  | flow
  /-- An item by indentation, or the root. -/
  | item
  /-- A key or a value by indentation; items need not be indented further. -/
  | member
  deriving DecidableEq, Repr

mutual

def value (place : Place) : Nat → Reads Node
  | 0 => misplaced
  | steps + 1 => do
      match ← next with
      | .alias n =>
          pass
          ofName n
      | _ =>
          let (n, t) ← properties
          let t ← t.mapM inFull
          content place n t steps

def content (place : Place) (n t : Option Text) : Nat → Reads Node
  | 0 => misplaced
  | steps + 1 => do
      let seq := Node.seq (collectionTag t .seq)
      let map := Node.map (collectionTag t .map)
      match ← next, place with
      | .item, .member =>
          underName n (seq []) (seq <$> inside (items true steps))
      | .scalar s isPlain, _ =>
          pass
          named n (.scalar (scalarTag t isPlain s) s)
      | .flowSequence, _ =>
          pass
          underName n (seq [])
            (seq <$> inside (flowItems .flowSequenceEnd true steps))
      | .flowMapping, _ =>
          pass
          underName n (map []) (map <$> inside (flowMembers true steps))
      | .blockSequence, .item | .blockSequence, .member =>
          pass
          underName n (seq []) (seq <$> inside (items false steps))
      | .blockMapping, .item | .blockMapping, .member =>
          pass
          underName n (map []) (map <$> inside (members steps))
      | _, _ =>
          if n.isSome || t.isSome then
            named n (.scalar (scalarTag t true []) [])
          else misplaced

def valueOr (ends : List Token) (place : Place) : Nat → Reads Node
  | 0 => misplaced
  | steps + 1 => do if ← sees ends then return missing else value place steps

/-- Reads items by indentation.  Those that are not indented further than their
key have no end of their own. -/
def items (isOpen : Bool) : Nat → Reads (List Node)
  | 0 => misplaced
  | steps + 1 => do
      if ← passes .item then
        let ends :=
          if isOpen then [.item, .key, .value, .blockEnd] else
            [.item, .blockEnd]
        let x ← valueOr ends .item steps
        return x :: (← items isOpen steps)
      else if isOpen then return []
      else if ← passes .blockEnd then return []
      else misplaced

def members : Nat → Reads (List (Node × Node))
  | 0 => misplaced
  | steps + 1 => do
      let ends := [.key, .value, .blockEnd]
      if ← passes .key then
        let k ← valueOr ends .member steps
        let v ← if ← passes .value then valueOr ends .member steps else
          pure missing
        return (k, v) :: (← members steps)
      else if ← passes .blockEnd then return []
      else misplaced

def flowMember (close : Token) : Nat → Reads (Node × Node)
  | 0 => misplaced
  | steps + 1 => do
      let k ← valueOr [.value, .separator, close] .flow steps
      let v ← if ← passes .value then
        valueOr [.separator, close] .flow steps else pure missing
      return (k, v)

def flowItems (close : Token) (isFirst : Bool) : Nat → Reads (List Node)
  | 0 => misplaced
  | steps + 1 => do
      if ← passes close then return []
      else
        passSeparator isFirst
        if ← passes close then return []
        else
          let x ←
            if ← passes .key then do
              let m ← inside (flowMember close steps)
              pure (Node.map .map [m])
            else value .flow steps
          return x :: (← flowItems close false steps)

def flowMembers (isFirst : Bool) : Nat → Reads (List (Node × Node))
  | 0 => misplaced
  | steps + 1 => do
      if ← passes .flowMappingEnd then return []
      else
        passSeparator isFirst
        if ← passes .flowMappingEnd then return []
        else
          let m ←
            if ← passes .key then flowMember .flowMappingEnd steps
            else do
              let k ← value .flow steps
              pure (k, missing)
          return m :: (← flowMembers false steps)

end

def usualHandles : List (Text × Text) :=
  [(['!'], ['!']), (['!', '!'], Tag.usualStart.toList)]

def passEnds : Nat → Reads Unit
  | 0 => return ()
  | steps + 1 => do if ← passes .documentEnd then passEnds steps

def directives (hasVersion : Bool) (handles : List (Text × Text)) :
    Nat → Reads Unit
  | 0 => misplaced
  | steps + 1 => do
      match ← next with
      | .directive d =>
          pass
          match d with
          | .version major _ =>
              if hasVersion || major != 1 then misplaced else
                directives true handles steps
          | .handle h meaning =>
              if (handles.lookup h).isSome then misplaced
              else directives hasVersion ((h, meaning) :: handles) steps
          | .other => directives hasVersion handles steps
      | _ => modify fun r => { r with handles := handles ++ usualHandles }

/-- Reads what stands before a document: the marks of an end, directives, and
the mark of its start; the result says whether there is a document at all. -/
def opening (steps : Nat) : Reads Bool := do
  passEnds steps
  if (← next) = .fileEnd then return false
  else
    directives false [] steps
    if ← passes .documentStart then return true else misplaced

def document (steps : Nat) : Reads (Option Node) := do
  let first ← match ← next with
    | .directive _ | .documentStart | .fileEnd => do
        if ← opening steps then
          match ← next with
          | .directive _ | .documentStart | .documentEnd | .fileEnd =>
              pure (some missing)
          | _ => some <$> value .item steps
        else return none
    | _ => some <$> value .item steps
  if ← opening steps then misnamed else return first

def ofText? (room : Nat) (horizon : Option Stop) (t : Text) :
    Except Fault (Option Node) :=
  let (ts, fault) := tokens horizon t
  (document (2 * ts.length + 4)).run' ⟨ts, fault, [], usualHandles, 0, room⟩

end Node
end Yaml
end InlineCompletion
