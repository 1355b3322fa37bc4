import InlineCompletion.Text.Printable
import InlineCompletion.Text.Blank
import InlineCompletion.Text.Hex

/-!
# Quoted text

A text is shown in single quotes, or in double quotes if it holds a single and
no double quote.  Inside, what is not shown as it is stands as an escape.
-/

namespace InlineCompletion
namespace Text

def showChar (mark c : Char) : Text :=
  if c = mark ∨ c = '\\' then ['\\', c]
  else if c = '\n' then ['\\', 'n']
  else if c = '\r' then ['\\', 'r']
  else if c = '\t' then ['\\', 't']
  else if isShown c then [c]
  else if c.toNat < 0x100 then '\\' :: 'x' :: Hex.digits 2 c.toNat
  else if c.toNat < 0x10000 then '\\' :: 'u' :: Hex.digits 4 c.toNat
  else '\\' :: 'U' :: Hex.digits 8 c.toNat

def quoted (t : Text) : Text :=
  let mark := if t.contains '\'' && !t.contains '"' then '"' else '\''
  mark :: t.flatMap (showChar mark) ++ [mark]

end Text
end InlineCompletion
