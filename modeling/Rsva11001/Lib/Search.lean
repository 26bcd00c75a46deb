import Mathlib.Data.List.Infix
import Mathlib.Data.List.Basic

/-!
# Where a pattern occurs

`Occurs p s i`: the pattern `p` is in `s` at offset `i`; `occurrences p s` lists these offsets in
order. Two occurrences of a pattern that has no border, a part that is both at its front and at its
end, do not overlap (`Unbordered.disjoint`). So a text is cut in one way only at the first
occurrence (`Unbordered.cut`), and whoever goes on searching behind the last hit finds the next one
(`firstFrom_next`). A pattern does not reach over an element that it does not hold
(`infix_append_cons`).
-/

namespace Rsva11001.Lib

universe u

variable {α : Type u} {p s : List α} {i j : Nat}

/-- The pattern is in `s` at the offset `i`. -/
def Occurs (p s : List α) (i : Nat) : Prop :=
  p <+: s.drop i

instance [DecidableEq α] (p s : List α) : DecidablePred (Occurs p s) :=
  fun i => inferInstanceAs (Decidable (p <+: s.drop i))

theorem Occurs.length_le (hp : p ≠ []) (h : Occurs p s i) : i + p.length ≤ s.length := by
  have hlen := List.IsPrefix.length_le h
  have hpos := List.length_pos_of_ne_nil hp
  rw [List.length_drop] at hlen
  omega

theorem Occurs.isInfix (h : Occurs p s i) : p <:+: s :=
  (List.IsPrefix.isInfix h).trans (List.drop_suffix i s).isInfix

theorem isInfix_iff_occurs : p <:+: s ↔ ∃ i, Occurs p s i := by
  constructor
  · rintro ⟨front, back, rfl⟩
    refine ⟨front.length, ?_⟩
    rw [Occurs, List.append_assoc, List.drop_left]
    exact List.prefix_append p back
  · rintro ⟨i, h⟩
    exact h.isInfix

/-- A pattern that does not hold `b` lies before it or behind it. -/
theorem infix_append_cons {x y : List α} {b : α} (hb : b ∉ p) :
    p <:+: x ++ b :: y ↔ p <:+: x ∨ p <:+: y := by
  constructor
  · intro h
    rcases List.infix_append_iff.1 h with h | h | ⟨p₁, p₂, rfl, h₁, h₂⟩
    · exact .inl h
    · rcases List.infix_cons_iff.1 h with h | h
      · cases p with
        | nil => exact .inl List.nil_infix
        | cons a p =>
          obtain ⟨rfl, -⟩ := List.cons_prefix_cons.1 h
          exact absurd List.mem_cons_self hb
      · exact .inr h
    · cases p₂ with
      | nil => exact .inl (by rw [List.append_nil]; exact h₁.isInfix)
      | cons a p₂ =>
        obtain ⟨rfl, -⟩ := List.cons_prefix_cons.1 h₂
        exact absurd (List.mem_append_right p₁ List.mem_cons_self) hb
  · rintro (h | h)
    · exact List.infix_append_of_infix_left h
    · exact List.infix_append_of_infix_right (List.infix_cons h)

theorem occurs_dropLast (hp : p ≠ []) :
    Occurs p s.dropLast i ↔ Occurs p s i ∧ i + p.length ≠ s.length := by
  have hpos := List.length_pos_of_ne_nil hp
  rw [Occurs, List.dropLast_eq_take, List.drop_take, List.prefix_take_iff]
  refine and_congr_right fun h => ?_
  have := Occurs.length_le hp h
  omega

/-- A pattern at the end of a text occurs nowhere else when it is not in the text without its last
element. -/
theorem occurs_only_at_end (hp : p ≠ []) (hend : p <:+ s) :
    (∀ i, Occurs p s i ↔ i + p.length = s.length) ↔ ¬ p <:+: s.dropLast := by
  rw [isInfix_iff_occurs]
  constructor
  · rintro h ⟨i, hi⟩
    obtain ⟨hocc, hne⟩ := (occurs_dropLast hp).1 hi
    exact hne ((h i).1 hocc)
  · intro h i
    constructor
    · intro hi
      by_contra hne
      exact h ⟨i, (occurs_dropLast hp).2 ⟨hi, hne⟩⟩
    · intro hi
      obtain ⟨front, rfl⟩ := hend
      rw [List.length_append] at hi
      obtain rfl : i = front.length := by omega
      rw [Occurs, List.drop_left]

/-! ## Patterns that do not overlap themselves -/

/-- Nothing but the whole pattern is both at its front and at its end. -/
def Unbordered (p : List α) : Prop :=
  ∀ q, q <+: p → q <:+ p → q = [] ∨ q = p

theorem unbordered_cons {a : α} (h : a ∉ p) : Unbordered (a :: p) := by
  intro q hfront hend
  cases q with
  | nil => exact .inl rfl
  | cons b q =>
    obtain ⟨rfl, -⟩ := List.cons_prefix_cons.1 hfront
    rcases List.suffix_cons_iff.1 hend with hq | hq
    · exact .inr hq
    · exact absurd (hq.subset List.mem_cons_self) h

theorem Unbordered.disjoint (hu : Unbordered p) (hi : Occurs p s i) (hj : Occurs p s j)
    (hlt : i < j) : i + p.length ≤ j := by
  by_contra hover
  obtain ⟨k, rfl⟩ : ∃ k, j = i + k := ⟨j - i, by omega⟩
  obtain ⟨a, ha⟩ := hi
  have hdrop : p.drop k <+: s.drop (i + k) := by
    rw [← List.drop_drop, ← ha, List.drop_append_of_le_length (by omega)]
    exact List.prefix_append _ a
  have hprefix : p.drop k <+: p := by
    refine List.prefix_of_prefix_length_le hdrop hj ?_
    rw [List.length_drop]
    omega
  have hlen := List.length_drop (i := k) (l := p)
  rcases hu _ hprefix (List.drop_suffix k p) with h | h
  · rw [h, List.length_nil] at hlen
    omega
  · rw [h] at hlen
    omega

/-- A text is cut at the first occurrence of the pattern in one way. -/
theorem Unbordered.cut (hu : Unbordered p) {a b c d : List α} (ha : ¬ p <:+: a)
    (hc : ¬ p <:+: c) (h : a ++ (p ++ b) = c ++ (p ++ d)) : a = c ∧ b = d := by
  have key : ∀ {a b c d : List α}, ¬ p <:+: c → a ++ (p ++ b) = c ++ (p ++ d) →
      c.length ≤ a.length := by
    intro a b c d hc h
    by_contra hlt
    have ha : Occurs p (c ++ (p ++ d)) a.length := by
      rw [Occurs, ← h, List.drop_left]
      exact List.prefix_append p b
    have hc' : Occurs p (c ++ (p ++ d)) c.length := by
      rw [Occurs, List.drop_left]
      exact List.prefix_append p d
    have hle := hu.disjoint ha hc' (by omega)
    -- the first occurrence lies in `c`
    apply hc
    refine isInfix_iff_occurs.2 ⟨a.length, ?_⟩
    rw [Occurs, List.drop_append_of_le_length (by omega)] at ha
    refine List.prefix_of_prefix_length_le ha (List.prefix_append _ _) ?_
    rw [List.length_drop]
    omega
  have hlen : a.length = c.length := Nat.le_antisymm (key ha h.symm) (key hc h)
  obtain ⟨rfl, hrest⟩ := List.append_inj h hlen
  exact ⟨rfl, List.append_cancel_left hrest⟩

/-! ## Finding the occurrences one after the other -/

section Find

variable [DecidableEq α]

/-- The offsets at which the pattern occurs, in increasing order. -/
def occurrences (p s : List α) : List Nat :=
  (List.range (s.length + 1)).filter (Occurs p s ·)

/-- The first occurrence at `start` or behind it. -/
def firstFrom (p s : List α) (start : Nat) : Option Nat :=
  (occurrences p s).find? (start ≤ ·)

theorem mem_occurrences (hp : p ≠ []) : i ∈ occurrences p s ↔ Occurs p s i := by
  rw [occurrences, List.mem_filter, List.mem_range, decide_eq_true_eq]
  refine and_iff_right_of_imp fun h => ?_
  have := h.length_le hp
  omega

theorem occurrences_sorted (p s : List α) : (occurrences p s).Pairwise (· < ·) :=
  List.pairwise_lt_range.filter _

/-- The first hit. -/
theorem firstFrom_zero (p s : List α) : firstFrom p s 0 = (occurrences p s).head? := by
  unfold firstFrom
  cases occurrences p s with
  | nil => rfl
  | cons i rest => rfl

/-- The search from behind a hit finds the hit after it. -/
theorem Unbordered.firstFrom_next (hu : Unbordered p) (hp : p ≠ []) {found rest : List Nat}
    (h : occurrences p s = found ++ i :: rest) : firstFrom p s (i + p.length) = rest.head? := by
  have hpos := List.length_pos_of_ne_nil hp
  have hsorted := occurrences_sorted p s
  rw [h, List.pairwise_append, List.pairwise_cons] at hsorted
  obtain ⟨-, ⟨hrest, -⟩, hfound⟩ := hsorted
  have hocc : ∀ j ∈ found ++ i :: rest, Occurs p s j := by
    intro j hj
    rw [← h] at hj
    exact (mem_occurrences hp).1 hj
  have hbefore : found.find? (i + p.length ≤ ·) = none := by
    refine List.find?_eq_none.2 fun j hj => ?_
    have := hfound j hj i List.mem_cons_self
    simp only [decide_eq_true_eq]
    omega
  have hhit : ¬ i + p.length ≤ i := by omega
  rw [firstFrom, h, List.find?_append, hbefore, Option.none_or,
    List.find?_cons_of_neg (by simpa using hhit)]
  cases rest with
  | nil => rfl
  | cons j rest =>
    have hle := hu.disjoint (hocc i (by simp)) (hocc j (by simp)) (hrest j List.mem_cons_self)
    rw [List.find?_cons_of_pos (by simpa using hle), List.head?_cons]

end Find

end Rsva11001.Lib
