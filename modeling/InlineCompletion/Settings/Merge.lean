import InlineCompletion.Settings.Value

/-!
# Merging settings

Settings are laid over others: where both have a mapping under a key, the two
are merged in turn, and otherwise the upper value counts.  Keys keep their
places, and new ones come last.
-/

namespace InlineCompletion
namespace Settings

mutual

def layOver (below : Option Value) : Value → Value
  | .map above =>
      match below with
      | some (.map members) => .map (merge members above)
      | _ => .map above
  | v => v

def merge (below : Members) : List (Atom × Value) → Members
  | [] => below
  | (k, v) :: rest =>
      merge (Members.set k (layOver (Members.get? k below) v) below) rest

end

@[simp] theorem merge_nil (below : Members) : merge below [] = below := by
  simp [merge]

theorem merge_cons (below : Members) (k : Atom) (v : Value) (rest : Members) :
    merge below ((k, v) :: rest) =
      merge (Members.set k (layOver (Members.get? k below) v) below) rest := by
  rw [merge]

end Settings
end InlineCompletion
