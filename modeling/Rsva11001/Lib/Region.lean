import Mathlib.Data.List.Basic

/-!
# Byte regions of fixed extent

A `Region α n` is a block of `n` cells. Reading and writing are checked: an access that leaves
the block has no result, so a program that reads or writes through them succeeds only when every
access it makes is in range. A write is described by its effect on prefixes (`take_write`), which
is what a buffer that is filled from the front needs.
-/

namespace Rsva11001.Lib

universe u

/-- A block of exactly `n` cells. -/
@[ext] structure Region (α : Type u) (n : Nat) where
  cells : List α
  length_cells : cells.length = n

namespace Region

variable {α : Type u} {n : Nat}

/-- The block that holds `a` in every cell. -/
def fill (a : α) (n : Nat) : Region α n :=
  ⟨List.replicate n a, List.length_replicate⟩

/-- The `len` cells from `off` on. -/
def read (r : Region α n) (off len : Nat) : Option (List α) :=
  if off + len ≤ n then some ((r.cells.drop off).take len) else none

/-- The block with `src` stored from `off` on. -/
def write (r : Region α n) (off : Nat) (src : List α) : Option (Region α n) :=
  if h : off + src.length ≤ n then
    some ⟨r.cells.take off ++ src ++ r.cells.drop (off + src.length), by
      simp only [List.length_append, List.length_take, List.length_drop, r.length_cells]
      omega⟩
  else none

theorem read_eq_some {r : Region α n} {off len : Nat} (h : off + len ≤ n) :
    r.read off len = some ((r.cells.drop off).take len) := by
  simp only [read, h, ↓reduceIte]

theorem read_eq_none {r : Region α n} {off len : Nat} (h : n < off + len) :
    r.read off len = none := by
  simp only [read, Nat.not_le.2 h, ↓reduceIte]

theorem length_of_read {r : Region α n} {off len : Nat} {l : List α} (h : r.read off len = some l) :
    l.length = len := by
  unfold read at h
  split at h
  · cases h
    rw [List.length_take, List.length_drop, r.length_cells]
    omega
  · cases h

theorem write_eq_none {r : Region α n} {off : Nat} {src : List α} (h : n < off + src.length) :
    r.write off src = none := by
  simp only [write, Nat.not_le.2 h, ↓reduceDIte]

/-- A write in range succeeds; the cells up to its end are then the old cells before it followed
by what was written. -/
theorem write_eq_some {r : Region α n} {off : Nat} {src : List α} (h : off + src.length ≤ n) :
    ∃ r', r.write off src = some r' ∧
      r'.cells.take (off + src.length) = r.cells.take off ++ src := by
  refine ⟨_, dif_pos h, ?_⟩
  have hlen : (r.cells.take off ++ src).length = off + src.length := by
    simp only [List.length_append, List.length_take, r.length_cells]
    omega
  simp only [← hlen, List.take_left]

/-- A read inside a known prefix of the block reads that prefix. -/
theorem read_of_take {r : Region α n} {k off len : Nat} {p : List α} (hp : r.cells.take k = p)
    (hk : k ≤ n) (h : off + len ≤ k) : r.read off len = some ((p.drop off).take len) := by
  rw [read_eq_some (by omega), ← hp, List.drop_take, List.take_take]
  congr 2
  omega

section Cell

variable {r : Region α n} {pre post : List α} {a : α} (h : r.cells = pre ++ a :: post)
include h

theorem lt_of_cell : pre.length < n := by
  rw [← r.length_cells, h, List.length_append, List.length_cons]
  omega

theorem read_cell : r.read pre.length 1 = some [a] := by
  rw [read_eq_some (lt_of_cell h), h, List.drop_left]
  rfl

/-- A write to one cell replaces what is in it. -/
theorem write_cell (b : α) :
    ∃ r', r.write pre.length [b] = some r' ∧ r'.cells = pre ++ b :: post := by
  refine ⟨_, dif_pos (lt_of_cell h), ?_⟩
  simp only [h, List.take_left, List.length_singleton, ← List.drop_drop, List.drop_left,
    List.drop_succ_cons, List.drop_zero, List.append_assoc, List.singleton_append]

end Cell

end Region

end Rsva11001.Lib
