import InlineCompletion.Text.Basic

/-!
# Digits of base sixteen

Digits are written in small letters or in capitals and read in both.  The main
statements say that reading undoes writing.
-/

namespace InlineCompletion
namespace Hex

def digit (n : Nat) : Char :=
  Char.ofNat (if n < 10 then 0x30 + n else 0x57 + n)

def capital (n : Nat) : Char :=
  Char.ofNat (if n < 10 then 0x30 + n else 0x37 + n)

def value? (c : Char) : Option Nat :=
  if '0' ≤ c ∧ c ≤ '9' then some (c.toNat - 0x30)
  else if 'a' ≤ c ∧ c ≤ 'f' then some (c.toNat - 0x57)
  else if 'A' ≤ c ∧ c ≤ 'F' then some (c.toNat - 0x37)
  else none

def digits : Nat → Nat → Text
  | 0, _ => []
  | places + 1, n => digits places (n / 0x10) ++ [digit (n % 0x10)]

theorem value?_digit {n : Nat} (h : n < 16) : value? (digit n) = some n := by
  have : ∀ k : Fin 16, value? (digit k) = some (k : Nat) := by decide
  exact this ⟨n, h⟩

theorem value?_capital {n : Nat} (h : n < 16) :
    value? (capital n) = some n := by
  have : ∀ k : Fin 16, value? (capital k) = some (k : Nat) := by decide
  exact this ⟨n, h⟩

end Hex
end InlineCompletion
