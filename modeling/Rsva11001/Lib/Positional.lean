import Mathlib.Algebra.Group.Nat.Defs
import Mathlib.Data.List.Basic

/-!
# Positional numerals

`positional base digits` is the number that a row of digits denotes, the most significant one first.
A reader that takes the digits one by one holds the numbers of the prefixes on its way, which are no
larger than the number in the end (`positional_le_concat`).
-/

namespace Rsva11001.Lib

def positional (base : Nat) (digits : List Nat) : Nat :=
  digits.foldl (fun value d => value * base + d) 0

variable {base : Nat}

@[simp] theorem positional_nil : positional base [] = 0 := rfl

@[simp] theorem positional_singleton (d : Nat) : positional base [d] = d := by
  simp [positional]

theorem positional_concat (digits : List Nat) (d : Nat) :
    positional base (digits ++ [d]) = positional base digits * base + d := by
  simp [positional, List.foldl_append]

theorem positional_le_concat (hbase : 0 < base) (digits : List Nat) (d : Nat) :
    positional base digits ≤ positional base (digits ++ [d]) := by
  rw [positional_concat]
  have := Nat.le_mul_of_pos_right (positional base digits) hbase
  omega

end Rsva11001.Lib
