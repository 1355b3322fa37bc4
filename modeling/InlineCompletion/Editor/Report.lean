import InlineCompletion.Text.Diff
import InlineCompletion.Text.Units

/-!
# Which edit a report means

A text widget reports that its text changed, and where, in UTF-16 units.  Where
the report fits the two texts it says which edit took place; where it does not,
the edit is read off the texts.
-/

namespace InlineCompletion

def editOfReport (old new : Text) (position removed : Int) : Option Edit :=
  if old = new then none
  else
    let start := Units.indexAt old position
    let stop := Units.indexAt old (position + removed)
    let size : Int := new.length - old.length + (stop - start)
    if size < 0 ∨ new.take start ≠ old.take start
        ∨ new.drop (start + size.toNat) ≠ old.drop stop then
      some (Diff.edit old new)
    else some ⟨start, stop, (new.drop start).take size.toNat⟩

theorem editOfReport_self (text : Text) (position removed : Int) :
    editOfReport text text position removed = none := by
  simp [editOfReport]

end InlineCompletion
