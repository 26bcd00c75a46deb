import Rsva11001.Lib.Region

/-!
# A row of cells as a queue

`Holds r k xs`: the row `r` of optional cells holds the members `xs` of a queue from cell `k` on,
and nothing else. Members are put behind the last one (`Holds.push`) for as long as there is room
(`Holds.full`), and are taken from the front, one cell after the other (`Holds.front`,
`Holds.take_front`).
-/

namespace Rsva11001.Lib

universe u

variable {α : Type u} {n : Nat}

/-- The cells from `k` on hold the members `xs`, and the others are empty. -/
structure Holds (r : Region (Option α) n) (k : Nat) (xs : List α) : Prop where
  cells : r.cells = List.replicate k none ++ xs.map some ++ List.replicate (n - k - xs.length) none
  length_le : k + xs.length ≤ n

/-- What is in a list once has one place in it. -/
theorem getElem?_iff_of_count [DecidableEq α] {x : α} : ∀ {xs : List α}, xs.count x = 1 →
    ∃ k, ∀ i : Nat, xs[i]? = some x ↔ i = k := by
  intro xs
  induction xs with
  | nil => rintro ⟨⟩
  | cons y xs ih =>
    intro h
    by_cases hy : y = x
    · subst hy
      rw [List.count_cons_self, Nat.add_eq_right, List.count_eq_zero] at h
      refine ⟨0, fun i => ?_⟩
      cases i with
      | zero => simp
      | succ i =>
        rw [List.getElem?_cons_succ]
        exact ⟨fun hi => absurd (List.mem_of_getElem? hi) h, by rintro ⟨⟩⟩
    · rw [List.count_cons_of_ne hy] at h
      obtain ⟨k, hk⟩ := ih h
      refine ⟨k + 1, fun i => ?_⟩
      cases i with
      | zero => simpa using hy
      | succ i => rw [List.getElem?_cons_succ, hk i, Nat.add_right_cancel_iff]

namespace Holds

variable {r : Region (Option α) n} {k : Nat} {x : α} {xs : List α}

theorem fill (α : Type u) (n : Nat) : Holds (Region.fill (none : Option α) n) 0 [] :=
  ⟨by simp [Region.fill], Nat.zero_le n⟩

/-- A row without members is empty. -/
theorem restart (h : Holds r k []) : Holds r 0 [] := by
  refine ⟨?_, Nat.zero_le n⟩
  have hle : k ≤ n := h.length_le
  rw [h.cells]
  simp only [List.map_nil, List.append_nil, List.length_nil, Nat.sub_zero, List.replicate_zero,
    List.nil_append, List.replicate_append_replicate]
  rw [Nat.add_sub_cancel' hle]

/-- There is room for one more. -/
theorem push (h : Holds r 0 xs) (hroom : xs.length < n) (x : α) :
    ∃ r', r.write xs.length [some x] = some r' ∧ Holds r' 0 (xs ++ [x]) := by
  have hcells : r.cells = xs.map some ++ none :: List.replicate (n - xs.length - 1) none := by
    rw [h.cells, ← List.replicate_succ, Nat.sub_zero, Nat.sub_add_cancel (by omega)]
    rfl
  obtain ⟨r', hr', hwritten⟩ := Region.write_cell hcells (some x)
  rw [List.length_map] at hr'
  refine ⟨r', hr', ?_, ?_⟩
  · rw [hwritten, List.map_append, List.length_append, List.length_singleton, Nat.sub_zero,
      Nat.sub_sub]
    simp
  · rw [List.length_append, List.length_singleton]
    omega

/-- There is no room for one more. -/
theorem full (h : xs.length = n) (x : α) : r.write xs.length [some x] = none := by
  apply Region.write_eq_none
  rw [List.length_singleton]
  omega

theorem cells_front (h : Holds r k (x :: xs)) : r.cells = List.replicate k none ++
    some x :: (xs.map some ++ List.replicate (n - (k + 1) - xs.length) none) := by
  rw [h.cells, List.map_cons, List.length_cons, List.append_assoc, List.cons_append,
    show n - k - (xs.length + 1) = n - (k + 1) - xs.length by omega]

/-- The front cell holds the first member. -/
theorem front (h : Holds r k (x :: xs)) : r.read k 1 = some [some x] := by
  have hread := Region.read_cell h.cells_front
  rwa [List.length_replicate] at hread

/-- The first member leaves its cell. -/
theorem take_front (h : Holds r k (x :: xs)) :
    ∃ r', r.write k [none] = some r' ∧ Holds r' (k + 1) xs := by
  obtain ⟨r', hr', hwritten⟩ := Region.write_cell h.cells_front none
  rw [List.length_replicate] at hr'
  have hle := h.length_le
  rw [List.length_cons] at hle
  refine ⟨r', hr', ?_, by omega⟩
  rw [hwritten, List.replicate_succ', List.append_assoc, List.append_assoc]
  rfl

/-- The members are in the cells that have their numbers. -/
theorem getElem?_cells (h : Holds r 0 xs) {i : Nat} :
    r.cells[i]? = some (some x) ↔ xs[i]? = some x := by
  rw [h.cells, List.replicate_zero, List.nil_append]
  by_cases hi : i < xs.length
  · rw [List.getElem?_append_left (by rwa [List.length_map]), List.getElem?_map]
    simp
  · rw [List.getElem?_append_right (by rw [List.length_map]; omega), List.getElem?_replicate,
      List.getElem?_eq_none (Nat.not_lt.1 hi)]
    split <;> simp

end Holds

end Rsva11001.Lib
