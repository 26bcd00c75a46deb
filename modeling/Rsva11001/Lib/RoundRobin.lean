import Mathlib.Data.List.Basic
import Mathlib.Data.List.Nodup

/-!
# Turns in a round

`Turns n l`: in the list `l` of turns taken so far the members 0 to n - 1 take their turns in
order, over and over. A counter that is advanced and wrapped at `n` names the next member
(`next_turn`), and between two consecutive turns of a member every other member has exactly one
(`Turns.count_between`).
-/

namespace Rsva11001.Lib

/-- The `k`-th turn is taken by `k % n`. -/
def Turns (n : Nat) (l : List Nat) : Prop :=
  ∀ k i, l[k]? = some i → i = k % n

variable {n : Nat} {l : List Nat}

theorem turns_nil : Turns n [] := by
  intro k i h
  simp at h

theorem Turns.concat (h : Turns n l) : Turns n (l ++ [l.length % n]) := by
  intro k i hk
  by_cases hlt : k < l.length
  · rw [List.getElem?_append_left hlt] at hk
    exact h k i hk
  · rw [List.getElem?_append_right (Nat.not_lt.1 hlt), List.getElem?_singleton] at hk
    split at hk
    · rename_i hzero
      obtain rfl : k = l.length := by omega
      exact (Option.some.inj hk).symm
    · cases hk

/-- Advancing the counter and wrapping it at `n` counts the turns modulo `n`. -/
theorem next_turn (hn : 0 < n) (k : Nat) :
    (if k % n + 1 ≥ n then 0 else k % n + 1) = (k + 1) % n := by
  have hlt := Nat.mod_lt k hn
  rw [show (k + 1) % n = (k % n + 1) % n from (Nat.mod_add_mod k n 1).symm]
  split
  · rename_i hge
    rw [show k % n + 1 = n by omega, Nat.mod_self]
  · exact (Nat.mod_eq_of_lt (by omega)).symm

/-- Within a round the turns are those of different members. -/
theorem mod_inj_of_lt {a b : Nat} (hab : a ≤ b) (hlt : b < a + n) (h : a % n = b % n) :
    a = b := by
  have hmod : (b - a) % n = 0 := Nat.sub_mod_eq_zero_of_mod_eq h.symm
  rw [Nat.mod_eq_of_lt (by omega)] at hmod
  omega

/-- **One turn each.** Between two consecutive turns of `i` every other member has exactly one. -/
theorem Turns.count_between (h : Turns n l) {pre mid post : List Nat} {i : Nat}
    (hl : l = pre ++ i :: (mid ++ i :: post)) (hi : i ∉ mid) {j : Nat} (hj : j < n)
    (hne : j ≠ i) : mid.count j = 1 := by
  have hfirst : i = pre.length % n := by
    apply h
    rw [hl, List.getElem?_append_right (Nat.le_refl _), Nat.sub_self]
    rfl
  have hmid : ∀ t, t < mid.length → mid[t]? = some ((pre.length + 1 + t) % n) := by
    intro t ht
    have hget : l[pre.length + 1 + t]? = mid[t]? := by
      rw [hl, List.getElem?_append_right (by omega),
        show pre.length + 1 + t - pre.length = t + 1 by omega, List.getElem?_cons_succ,
        List.getElem?_append_left ht]
    rw [List.getElem?_eq_getElem ht] at hget ⊢
    rw [h _ _ hget]
  have hlast : i = (pre.length + 1 + mid.length) % n := by
    apply h
    rw [hl, List.getElem?_append_right (by omega),
      show pre.length + 1 + mid.length - pre.length = mid.length + 1 by omega,
      List.getElem?_cons_succ, List.getElem?_append_right (Nat.le_refl _), Nat.sub_self]
    rfl
  have hn : 0 < n := by omega
  -- the next turn of `i` is a whole round later
  have hlen : mid.length + 1 = n := by
    have hge : n ≤ mid.length + 1 := by
      by_contra hlt
      have := mod_inj_of_lt (by omega) (by omega) (hfirst.symm.trans hlast)
      omega
    by_contra hlt
    apply hi
    have hin : n - 1 < mid.length := by omega
    have := hmid (n - 1) hin
    rw [show pre.length + 1 + (n - 1) = pre.length + n by omega, Nat.add_mod_right,
      ← hfirst] at this
    exact List.mem_of_getElem? this
  have hnodup : mid.Nodup := by
    rw [List.nodup_iff_getElem?_ne_getElem?]
    intro s t hst ht heq
    rw [hmid s (by omega), hmid t ht, Option.some.injEq] at heq
    have := mod_inj_of_lt (by omega) (by omega) heq
    omega
  have hmem : j ∈ mid := by
    -- the turn of `j` is as many places behind `pre` as `j` is ahead of `i` in the round
    have hin := Nat.mod_lt pre.length hn
    have hd := Nat.div_add_mod pre.length n
    by_cases hlt : i < j
    · have ht : j - i - 1 < mid.length := by omega
      have := hmid _ ht
      rw [show pre.length + 1 + (j - i - 1) = j + n * (pre.length / n) by omega,
        Nat.add_mul_mod_self_left, Nat.mod_eq_of_lt hj] at this
      exact List.mem_of_getElem? this
    · have ht : j + n - i - 1 < mid.length := by omega
      have := hmid _ ht
      rw [show pre.length + 1 + (j + n - i - 1) = j + n + n * (pre.length / n) by omega,
        Nat.add_mul_mod_self_left, Nat.add_mod_right, Nat.mod_eq_of_lt hj] at this
      exact List.mem_of_getElem? this
  exact List.count_eq_one_of_mem hnodup hmem

end Rsva11001.Lib
