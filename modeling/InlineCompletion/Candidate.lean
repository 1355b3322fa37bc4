import InlineCompletion.Json.Basic
import InlineCompletion.Text.Position

/-!
# Candidates

A candidate is a text the agent proposes, and the range of the document that it
would take the place of.  Candidates are read from whatever the agent answers: a
list of items, or an object that holds one; items that are no candidates are
passed over.  Truth values count as the coordinates zero and one.  The text of
an editor holds no half of a surrogate pair alone: where an item proposes one,
the replacement character stands for it.
-/

namespace InlineCompletion

structure Candidate where
  text : Text
  range : Option Range
  deriving DecidableEq, Repr

def Position.toJson (p : Position) : Json :=
  .obj [("line", .int p.line), ("character", .int p.character)]

def Range.toJson (r : Range) : Json :=
  .obj [("start", r.start.toJson), ("end", r.stop.toJson)]

def Position.ofJson? (v : Json) : Option Position :=
  match (v.get? "line").bind Json.asInt?,
    (v.get? "character").bind Json.asInt? with
  | some line, some character => some ⟨line, character⟩
  | _, _ => none

def Range.ofJson? (v : Json) : Option Range :=
  match (v.get? "start").bind Position.ofJson?,
    (v.get? "end").bind Position.ofJson? with
  | some start, some stop => some ⟨start, stop⟩
  | _, _ => none

theorem Position.ofJson?_toJson (p : Position) :
    Position.ofJson? p.toJson = some p := by
  simp [Position.ofJson?, Position.toJson, Json.get?, Json.Members.get?,
    Json.asInt?]

theorem Range.ofJson?_toJson (r : Range) : Range.ofJson? r.toJson = some r := by
  simp [Range.ofJson?, Range.toJson, Json.get?, Json.Members.get?,
    Position.ofJson?_toJson]

namespace Candidate

/-- The text that an item proposes: a string, or an object that holds one as its
value. -/
def textOf? (v : Json) : Option Str :=
  match v with
  | .str s => some s
  | v => (v.get? "value").bind Json.asStr?

def ofJson? (item : Json) : Option Candidate :=
  match (item.get? "insertText").bind textOf? with
  | some s => some ⟨s.shown.toList, (item.get? "range").bind Range.ofJson?⟩
  | none => none

inductive Oddity where
  | list (kind : String)
  | response (kind : String)
  deriving DecidableEq, Repr

def itemsOf : Json → Except Oddity (List Json)
  | .null => .ok []
  | .arr items => .ok items
  | .obj members =>
      match Json.Members.get? "items" members with
      | some (.arr items) => .ok items
      | v => .error (.list (v.getD .null).kind)
  | v => .error (.response v.kind)

def ofResult (result : Json) : List Candidate × Option Oddity :=
  match itemsOf result with
  | .ok items => (items.filterMap ofJson?, none)
  | .error o => ([], some o)

end Candidate
end InlineCompletion
