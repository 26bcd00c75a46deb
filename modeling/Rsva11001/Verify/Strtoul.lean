import Mathlib.Data.List.TakeWhile
import Rsva11001.Adapter.Requests

/-!
# Numbers in strings

`strtoul` takes white space, a sign and digits from the front of a string, and its value is that of
the digits, a minus taken modulo 2 ^ 64 (`strtoul_scanned`). The end pointer is at the end of a
string that is not empty exactly when the string is nothing else (`strtoul_signed`,
`signed_of_strtoul`).
-/

namespace Rsva11001

/-- `s` is a row of decimal digits that denotes `n`. -/
def Numeral (s : CString) (n : Nat) : Prop :=
  s ≠ [] ∧ (∀ b ∈ s, isdigit b = true) ∧ digitsValue s = n

instance (s : CString) (n : Nat) : Decidable (Numeral s n) :=
  have : Decidable (∀ b ∈ s, isdigit b = true) := List.decidableBAll _ s
  inferInstanceAs (Decidable (s ≠ [] ∧ _ ∧ _))

/-- `s` is white space, the sign, and the digits of `n`. -/
def Signed (sign s : CString) (n : Nat) : Prop :=
  ∃ spaces digits, s = spaces ++ (sign ++ digits) ∧ (∀ b ∈ spaces, isspace b = true) ∧
    Numeral digits n

def IsSign (sign : CString) : Prop :=
  sign = [] ∨ sign = ascii "+" ∨ sign = ascii "-"

/-- What `strtoul` takes from the front of `s`, and what it leaves. -/
structure Scanned (s spaces sign digits tail : CString) : Prop where
  eq : s = spaces ++ (sign ++ (digits ++ tail))
  spaces_isspace : ∀ b ∈ spaces, isspace b = true
  isSign : IsSign sign
  digits_isdigit : ∀ b ∈ digits, isdigit b = true
  stop_spaces : ∀ b, (sign ++ (digits ++ tail)).head? = some b → isspace b = false
  stop_sign : sign = [] → ∀ b, (digits ++ tail).head? = some b → b ≠ 43 ∧ b ≠ 45
  stop_digits : ∀ b, tail.head? = some b → isdigit b = false

/-- What `strtoul` makes of it. -/
def scanResult (s sign digits tail : CString) : Strtoul :=
  if digits = [] then ⟨0, false, s.head?.getD 0⟩
  else if digitsValue digits > ULONG_MAX then ⟨ULONG_MAX, true, tail.head?.getD 0⟩
  else if sign = ascii "-" then
    ⟨(2 ^ 64 - digitsValue digits) % 2 ^ 64, false, tail.head?.getD 0⟩
  else ⟨digitsValue digits, false, tail.head?.getD 0⟩

section Scan

variable {p : UInt8 → Bool} {s spaces sign digits tail : CString}

theorem head?_append_zero (s : CString) (rest : List UInt8) :
    (s ++ 0 :: rest).head? = some (s.head?.getD 0) := by
  cases s <;> rfl

/-- What has been taken ends where the string does at the latest. -/
theorem dropWhile_front {front : CString} (hfront : ∀ b ∈ front, p b = true) (hzero : p 0 = false)
    (hstop : ∀ b, tail.head? = some b → p b = false) (rest : List UInt8) :
    (front ++ (tail ++ 0 :: rest)).dropWhile p = tail ++ 0 :: rest := by
  rw [List.dropWhile_append_of_pos hfront]
  cases tail with
  | nil => exact List.dropWhile_cons_of_neg (by simp [hzero])
  | cons b tail => exact List.dropWhile_cons_of_neg (by simp [hstop b rfl])

theorem takeWhile_front {front : CString} (hfront : ∀ b ∈ front, p b = true) (hzero : p 0 = false)
    (hstop : ∀ b, tail.head? = some b → p b = false) (rest : List UInt8) :
    (front ++ (tail ++ 0 :: rest)).takeWhile p = front := by
  rw [List.takeWhile_append_of_pos hfront]
  conv_rhs => rw [← List.append_nil front]
  congr 1
  cases tail with
  | nil => exact List.takeWhile_cons_of_neg (by simp [hzero])
  | cons b tail => exact List.takeWhile_cons_of_neg (by simp [hstop b rfl])

theorem strtoulSign_eq (hsign : IsSign sign) {t : CString}
    (hstop : sign = [] → ∀ b, t.head? = some b → b ≠ 43 ∧ b ≠ 45) (rest : List UInt8) :
    strtoulSign (sign ++ (t ++ 0 :: rest)) = (decide (sign = ascii "-"), t ++ 0 :: rest) := by
  rcases hsign with rfl | rfl | rfl
  · cases t with
    | nil => rfl
    | cons b t =>
      obtain ⟨hplus, hminus⟩ := hstop rfl b rfl
      rw [List.nil_append, List.cons_append, strtoulSign, if_neg hminus, if_neg hplus]
      rfl
  · rfl
  · rfl

/-- **Scanning.** -/
theorem strtoul_scanned (h : Scanned s spaces sign digits tail) (rest : List UInt8) :
    strtoul (s ++ 0 :: rest) = some (scanResult s sign digits tail) := by
  have hspaces : (s ++ 0 :: rest).dropWhile isspace = sign ++ (digits ++ (tail ++ 0 :: rest)) := by
    have := dropWhile_front h.spaces_isspace rfl h.stop_spaces rest
    rw [h.eq]
    simpa only [List.append_assoc] using this
  have hsign := strtoulSign_eq h.isSign h.stop_sign rest
  rw [List.append_assoc] at hsign
  unfold strtoul
  rw [hspaces, hsign]
  simp only [dropWhile_front h.digits_isdigit rfl h.stop_digits rest,
    takeWhile_front h.digits_isdigit rfl h.stop_digits rest, head?_append_zero,
    Option.bind_eq_bind, Option.bind_some]
  unfold scanResult
  split
  · rfl
  split
  · rfl
  · simp only [decide_eq_true_eq]
    split <;> rfl

theorem exists_scanned (s : CString) :
    ∃ spaces sign digits tail, Scanned s spaces sign digits tail := by
  have hstop : ∀ (p : UInt8 → Bool) (l : List UInt8) (b : UInt8),
      (l.dropWhile p).head? = some b → p b = false := by
    intro p l b hb
    have := List.head?_dropWhile_not p l
    rw [hb] at this
    exact this
  have hdigits : ∀ t : CString, t.takeWhile isdigit ++ t.dropWhile isdigit = t :=
    fun t => List.takeWhile_append_dropWhile
  obtain ⟨sign, t, ht, hsign, hnone⟩ : ∃ sign t, s.dropWhile isspace = sign ++ t ∧ IsSign sign ∧
      (sign = [] → ∀ b, t.head? = some b → b ≠ 43 ∧ b ≠ 45) := by
    cases ht : s.dropWhile isspace with
    | nil => exact ⟨[], [], rfl, .inl rfl, by rintro - b ⟨⟩⟩
    | cons b t =>
      by_cases hminus : b = 45
      · subst hminus
        exact ⟨ascii "-", t, rfl, .inr (.inr rfl), by rintro ⟨⟩⟩
      by_cases hplus : b = 43
      · subst hplus
        exact ⟨ascii "+", t, rfl, .inr (.inl rfl), by rintro ⟨⟩⟩
      refine ⟨[], b :: t, rfl, .inl rfl, ?_⟩
      rintro - x ⟨⟩
      exact ⟨hplus, hminus⟩
  refine ⟨s.takeWhile isspace, sign, t.takeWhile isdigit, t.dropWhile isdigit,
    ⟨?_, fun b hb => List.mem_takeWhile_imp hb, hsign, fun b hb => List.mem_takeWhile_imp hb,
      fun b hb => ?_, ?_, hstop isdigit t⟩⟩
  · rw [hdigits, ← ht, List.takeWhile_append_dropWhile]
  · rw [hdigits, ← ht] at hb
    exact hstop isspace s b hb
  · rw [hdigits]
    exact hnone

theorem strtoul_total (s : CString) (rest : List UInt8) :
    ∃ r, strtoul (s ++ 0 :: rest) = some r := by
  obtain ⟨spaces, sign, digits, tail, h⟩ := exists_scanned s
  exact ⟨_, strtoul_scanned h rest⟩

/-- When `errno` is set the value is the largest. -/
theorem strtoul_erange {s : CString} {rest : List UInt8} {r : Strtoul}
    (hr : strtoul (s ++ 0 :: rest) = some r) (h : r.erange = true) : r.value = ULONG_MAX := by
  obtain ⟨spaces, sign, digits, tail, hscan⟩ := exists_scanned s
  rw [strtoul_scanned hscan] at hr
  cases hr
  unfold scanResult at h ⊢
  split at h
  · cases h
  rename_i hne
  rw [if_neg hne]
  split at h
  · rename_i hmax
    rw [if_pos hmax]
  · split at h
    · cases h
    · cases h

end Scan

/-! ## Signed numerals -/

theorem isspace_of_isdigit {b : UInt8} (h : isdigit b = true) : isspace b = false := by
  unfold isdigit at h
  unfold isspace
  simp only [Bool.and_eq_true, decide_eq_true_eq] at h
  simp only [Bool.or_eq_false_iff, Bool.and_eq_false_iff, decide_eq_false_iff_not]
  refine ⟨?_, .inr fun hle => ?_⟩
  · rintro rfl
    exact absurd h.1 (by decide)
  · exact absurd (UInt8.le_trans h.1 hle) (by decide)

theorem Signed.scanned {sign s : CString} {n : Nat} (hsign : IsSign sign) (h : Signed sign s n) :
    ∃ spaces digits, Scanned s spaces sign digits [] ∧ Numeral digits n := by
  obtain ⟨spaces, digits, rfl, hspaces, hne, hdigits, hvalue⟩ := h
  obtain ⟨d, ds, rfl⟩ := List.exists_cons_of_ne_nil hne
  have hd := hdigits d List.mem_cons_self
  refine ⟨spaces, d :: ds, ⟨?_, hspaces, hsign, hdigits, fun b hb => ?_, ?_, by rintro b ⟨⟩⟩,
    hne, hdigits, hvalue⟩
  · rw [List.append_nil]
  · rcases hsign with rfl | rfl | rfl
    · cases hb
      exact isspace_of_isdigit hd
    · cases hb
      rfl
    · cases hb
      rfl
  · rintro - b ⟨⟩
    constructor <;> rintro rfl <;> exact absurd hd (by decide)

/-- A signed numeral is read to its end. -/
theorem strtoul_signed {sign s : CString} {n : Nat} (hsign : IsSign sign) (h : Signed sign s n)
    (rest : List UInt8) : strtoul (s ++ 0 :: rest) = some
      (if n > ULONG_MAX then ⟨ULONG_MAX, true, 0⟩
      else if sign = ascii "-" then ⟨(2 ^ 64 - n) % 2 ^ 64, false, 0⟩ else ⟨n, false, 0⟩) := by
  obtain ⟨spaces, digits, hscan, hne, -, rfl⟩ := h.scanned hsign
  rw [strtoul_scanned hscan, scanResult, if_neg hne]
  rfl

/-- What is read to its end is a signed numeral. -/
theorem signed_of_strtoul {s : CString} {rest : List UInt8} {r : Strtoul} (hne : s ≠ [])
    (hnul : 0 ∉ s) (hr : strtoul (s ++ 0 :: rest) = some r) (hend : r.endChar = 0) :
    ∃ sign n, IsSign sign ∧ Signed sign s n := by
  obtain ⟨spaces, sign, digits, tail, h⟩ := exists_scanned s
  rw [strtoul_scanned h] at hr
  cases hr
  by_cases hdigits : digits = []
  · -- the end pointer is at the first character of the string
    rw [scanResult, if_pos hdigits] at hend
    obtain ⟨b, t, rfl⟩ := List.exists_cons_of_ne_nil hne
    exact absurd (hend ▸ List.mem_cons_self) hnul
  · have htail : tail = [] := by
      have hhead : tail.head?.getD 0 = 0 := by
        rw [scanResult, if_neg hdigits] at hend
        split at hend
        · exact hend
        · split at hend
          · exact hend
          · exact hend
      cases tail with
      | nil => rfl
      | cons b t =>
        obtain rfl : b = 0 := hhead
        refine absurd ?_ hnul
        rw [h.eq]
        simp
    refine ⟨sign, digitsValue digits, h.isSign, spaces, digits, ?_, h.spaces_isspace, hdigits,
      h.digits_isdigit, rfl⟩
    rw [h.eq, htail, List.append_nil]

end Rsva11001
