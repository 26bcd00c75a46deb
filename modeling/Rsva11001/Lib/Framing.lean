import Mathlib.Data.List.Induction

/-!
# Self-delimiting frames in a stream that arrives in chunks

A `Framing` is a code of values as non-empty words together with a scan that finds a word at the
front of what has been buffered. A stream is a concatenation of words and is cut into chunks
without regard to where words end. `Reads` is the reader that looks for one word per chunk: it
carries the symbols that belong to no emitted word over to the next chunk.

Such a reader falls behind when words end faster than chunks arrive. `KeepsUp` says, of the cut
alone, that at no chunk the reader already holds more than a whole word; `untaken` are the words it
has not emitted at the end. On a cut with which it keeps up it emits all words but these, and on
any other it comes to hold more than a whole word (`taken_or_late`). A cut in which no chunk holds
the ends of two words leaves nothing untaken (`keepsUp_of_oneEnd`).
-/

namespace Rsva11001.Lib

universe u v

/-- What a scan finds at the front of the buffered symbols: the word is not complete, no word can
start so, or a whole word and what follows it. -/
inductive Scan (α : Type u) (β : Type v) where
  | more
  | bad
  | frame (a : α) (rest : List β)

/-- A code of `α` by words over `β`, with its scan. -/
structure Framing (α : Type u) (β : Type v) where
  encode : α → List β
  scan : List β → Scan α β
  scan_encode : ∀ a r, scan (encode a ++ r) = .frame a r
  scan_front : ∀ a p, p <+: encode a → p.length < (encode a).length → scan p = .more
  encode_of_scan : ∀ s a r, scan s = .frame a r → s = encode a ++ r

namespace Framing

variable {α : Type u} {β : Type v} (F : Framing α β)

/-- The stream made of the words of `as`. -/
def encodeAll (as : List α) : List β :=
  as.flatMap F.encode

/-- Where the words of `as` end in a stream in which the first of them starts at `pos`. -/
def endsFrom : Nat → List α → List Nat
  | _, [] => []
  | pos, a :: as => (pos + (F.encode a).length) :: endsFrom (pos + (F.encode a).length) as

@[simp] theorem encodeAll_nil : F.encodeAll [] = [] := rfl

@[simp] theorem encodeAll_cons (a : α) (as : List α) :
    F.encodeAll (a :: as) = F.encode a ++ F.encodeAll as := rfl

theorem encodeAll_append (as bs : List α) :
    F.encodeAll (as ++ bs) = F.encodeAll as ++ F.encodeAll bs :=
  List.flatMap_append

/-- `p` is the beginning of a word of at most `cap` symbols, without its end. -/
def Partial (cap : Nat) (p : List β) : Prop :=
  ∃ a, p <+: F.encode a ∧ p.length < (F.encode a).length ∧ (F.encode a).length ≤ cap

variable {F} in
theorem Partial.scan {cap : Nat} {p : List β} (h : F.Partial cap p) : F.scan p = .more :=
  let ⟨a, hp, hlt, _⟩ := h
  F.scan_front a p hp hlt

end Framing

/-- The chunk in which a cut comes to hold more than `cap` symbols. -/
theorem exists_crossing {β : Type v} {cap : Nat} {cs : List (List β)}
    (h : cap < cs.flatten.length) :
    ∃ front c back, cs = front ++ c :: back ∧ front.flatten.length ≤ cap ∧
      cap < front.flatten.length + c.length := by
  induction cs using List.reverseRecOn with
  | nil => exact absurd h (Nat.not_lt_zero cap)
  | append_singleton cs c ih =>
    by_cases hle : cs.flatten.length ≤ cap
    · refine ⟨cs, c, [], rfl, hle, ?_⟩
      simpa using h
    · obtain ⟨front, d, back, rfl, hfront, hcross⟩ := ih (Nat.not_le.1 hle)
      exact ⟨front, d, back ++ [c], by simp, hfront, hcross⟩

/-- No chunk of the cut, the first of which starts at `pos`, covers two of the positions `ends`
with its last symbols: position `e` is the end of the word whose last symbol is number `e`. -/
def OneEndPerChunk {β : Type v} (ends : List Nat) : Nat → List (List β) → Prop
  | _, [] => True
  | pos, c :: cs => (ends.filter fun e => pos < e ∧ e ≤ pos + c.length).length ≤ 1 ∧
      OneEndPerChunk ends (pos + c.length) cs

instance decidableOneEndPerChunk {β : Type v} (ends : List Nat) :
    ∀ (pos : Nat) (cs : List (List β)), Decidable (OneEndPerChunk ends pos cs)
  | _, [] => isTrue trivial
  | pos, _ :: cs => @instDecidableAnd _ _ _ (decidableOneEndPerChunk ends (pos + _) cs)

theorem OneEndPerChunk.tail {β : Type v} {e : Nat} {ends : List Nat} {pos : Nat}
    {cs : List (List β)} (h : OneEndPerChunk (e :: ends) pos cs) : OneEndPerChunk ends pos cs := by
  induction cs generalizing pos with
  | nil => trivial
  | cons c cs ih =>
    refine ⟨Nat.le_trans ?_ h.1, ih h.2⟩
    exact ((List.sublist_cons_self e ends).filter _).length_le

/-- The first two of the ends cannot both lie in the first chunk. -/
theorem OneEndPerChunk.second_gt {β : Type v} {e₁ e₂ : Nat} {ends : List Nat} {pos : Nat}
    {c : List β} {cs : List (List β)} (h : OneEndPerChunk (e₁ :: e₂ :: ends) pos (c :: cs))
    (h₁ : pos < e₁) (h₁₂ : e₁ ≤ e₂) : pos + c.length < e₂ := by
  by_contra hle
  have hin₁ : pos < e₁ ∧ e₁ ≤ pos + c.length := by omega
  have hin₂ : pos < e₂ ∧ e₂ ≤ pos + c.length := by omega
  have := h.1
  simp only [List.filter_cons, hin₁, hin₂, and_self, decide_true, ↓reduceIte,
    List.length_cons] at this
  omega

namespace Framing

variable {α : Type u} {β : Type v} (F : Framing α β)

/-- The words of `as` that are not emitted on a cut, when `held` symbols of them are carried into
the first chunk. -/
def untaken : Nat → List α → List (List β) → List α
  | _, as, [] => as
  | _, [], _ :: _ => []
  | held, a :: as, c :: cs =>
    if (F.encode a).length ≤ held + c.length then
      untaken (held + c.length - (F.encode a).length) as cs
    else untaken (held + c.length) (a :: as) cs

/-- The words that are emitted. -/
def taken (held : Nat) (as : List α) (cs : List (List β)) : List α :=
  as.take (as.length - (F.untaken held as cs).length)

/-- At each chunk of the cut no more is carried than the first word not yet emitted. -/
def KeepsUp : Nat → List α → List (List β) → Prop
  | _, _, [] => True
  | _, [], _ :: _ => True
  | held, a :: as, c :: cs => held ≤ (F.encode a).length ∧
    if (F.encode a).length ≤ held + c.length then
      KeepsUp (held + c.length - (F.encode a).length) as cs
    else KeepsUp (held + c.length) (a :: as) cs

instance decidableKeepsUp : ∀ (held : Nat) (as : List α) (cs : List (List β)),
    Decidable (F.KeepsUp held as cs)
  | _, _, [] => isTrue trivial
  | _, [], _ :: _ => isTrue trivial
  | held, a :: as, c :: cs =>
    have := decidableKeepsUp (held + c.length - (F.encode a).length) as cs
    have := decidableKeepsUp (held + c.length) (a :: as) cs
    inferInstanceAs (Decidable (held ≤ (F.encode a).length ∧
      if (F.encode a).length ≤ held + c.length then
        F.KeepsUp (held + c.length - (F.encode a).length) as cs
      else F.KeepsUp (held + c.length) (a :: as) cs))

section Step

variable {F} {held : Nat} {a : α} {as : List α} {c : List β} {cs : List (List β)}

theorem untaken_nil : F.untaken held [] cs = [] := by
  cases cs <;> rfl

theorem taken_eq {t : List α} (h : as = t ++ F.untaken held as cs) : F.taken held as cs = t := by
  have hlen : as.length - (F.untaken held as cs).length = t.length := by
    have := congrArg List.length h
    rw [List.length_append] at this
    omega
  rw [taken, hlen]
  conv_lhs => rw [h]
  exact List.take_left

theorem untaken_of_whole (h : (F.encode a).length ≤ held + c.length) :
    F.untaken held (a :: as) (c :: cs) =
      F.untaken (held + c.length - (F.encode a).length) as cs :=
  if_pos h

theorem keepsUp_of_whole (h : (F.encode a).length ≤ held + c.length) :
    F.KeepsUp held (a :: as) (c :: cs) ↔ held ≤ (F.encode a).length ∧
      F.KeepsUp (held + c.length - (F.encode a).length) as cs := by
  rw [KeepsUp, if_pos h]

theorem untaken_of_more (h : held + c.length < (F.encode a).length) :
    F.untaken held (a :: as) (c :: cs) = F.untaken (held + c.length) (a :: as) cs :=
  if_neg (Nat.not_le.2 h)

theorem keepsUp_of_more (h : held + c.length < (F.encode a).length) :
    F.KeepsUp held (a :: as) (c :: cs) ↔ F.KeepsUp (held + c.length) (a :: as) cs := by
  rw [KeepsUp, if_neg (Nat.not_le.2 h)]
  exact and_iff_right (by omega)

end Step

/-- The reader that looks for one word after each chunk: from the carried symbols, over the chunks,
it emits the words and keeps the rest. What it keeps without emitting a word is the beginning of a
word, and words have at most `cap` symbols. -/
inductive Reads (cap : Nat) : List β → List (List β) → List α → List β → Prop
  | done {carry : List β} : Reads cap carry [] [] carry
  | keep {carry c : List β} {cs : List (List β)} {as : List α} {r : List β}
      (hpart : F.Partial cap (carry ++ c)) (h : Reads cap (carry ++ c) cs as r) :
      Reads cap carry (c :: cs) as r
  | emit {carry c rest : List β} {cs : List (List β)} {a : α} {as : List α} {r : List β}
      (hframe : carry ++ c = F.encode a ++ rest) (hle : carry.length ≤ (F.encode a).length)
      (hroom : carry.length < cap) (hcap : (F.encode a).length ≤ cap)
      (h : Reads cap rest cs as r) : Reads cap carry (c :: cs) (a :: as) r

variable {F}

/-- The reader on the first chunks of a cut. -/
theorem Reads.split {cap : Nat} {c : List β} {front back : List (List β)} {r : List β} :
    ∀ {carry : List β} {as : List α}, F.Reads cap carry (front ++ c :: back) as r →
      ∃ as₁ as₂ mid, F.Reads cap carry front as₁ mid ∧ F.Reads cap mid (c :: back) as₂ r := by
  induction front with
  | nil => exact fun h => ⟨[], _, _, .done, h⟩
  | cons d front ih =>
    intro carry as h
    cases h with
    | keep hpart h =>
      obtain ⟨as₁, as₂, mid, h₁, h₂⟩ := ih h
      exact ⟨as₁, as₂, mid, .keep hpart h₁, h₂⟩
    | emit hframe hle hroom hcap h =>
      obtain ⟨as₁, as₂, mid, h₁, h₂⟩ := ih h
      exact ⟨_ :: as₁, as₂, mid, .emit hframe hle hroom hcap h₁, h₂⟩

/-- The reader on a cut in two parts. -/
theorem Reads.append_inv {cap : Nat} {front back : List (List β)} {r : List β} :
    ∀ {carry : List β} {as : List α}, F.Reads cap carry (front ++ back) as r →
      ∃ as₁ as₂ mid, as = as₁ ++ as₂ ∧ F.Reads cap carry front as₁ mid ∧
        F.Reads cap mid back as₂ r := by
  induction front with
  | nil => exact fun h => ⟨[], _, _, rfl, .done, h⟩
  | cons d front ih =>
    intro carry as h
    cases h with
    | keep hpart h =>
      obtain ⟨as₁, as₂, mid, has, h₁, h₂⟩ := ih h
      exact ⟨as₁, as₂, mid, has, .keep hpart h₁, h₂⟩
    | emit hframe hle hroom hcap h =>
      obtain ⟨as₁, as₂, mid, has, h₁, h₂⟩ := ih h
      exact ⟨_ :: as₁, as₂, mid, by rw [has]; rfl, .emit hframe hle hroom hcap h₁, h₂⟩

/-- When the first word is not longer than what has been received, what has been received starts
with the word. -/
theorem split_front {s w t x : List β} (h : s ++ x = w ++ t) (hle : w.length ≤ s.length) :
    ∃ rest, s = w ++ rest ∧ rest ++ x = t := by
  rcases List.append_eq_append_iff.1 h with ⟨u, rfl, hu⟩ | ⟨u, rfl, hu⟩
  · have hnil : u = [] := by
      rw [List.length_append] at hle
      exact List.eq_nil_of_length_eq_zero (by omega)
    subst hnil
    exact ⟨[], by simp, by simpa using hu⟩
  · exact ⟨u, rfl, hu.symm⟩

/-- What has been received of a longer word is a beginning of it. -/
theorem front_of_le {s w t x : List β} (h : s ++ x = w ++ t) (hle : s.length ≤ w.length) :
    s <+: w :=
  List.prefix_of_prefix_length_le ⟨x, h⟩ ⟨t, rfl⟩ hle

/-- Before a chunk arrives, less than the next word is carried, or no more than a chunk. -/
def Carried (F : Framing α β) (most : Nat) (carry : List β) (as : List α) : Prop :=
  ∀ a as', as = a :: as' → carry.length < (F.encode a).length ∨ carry.length ≤ most

/-- The reader keeps up and emits the words that are not untaken. -/
def Taken (F : Framing α β) (cap : Nat) (carry : List β) (as : List α) (cs : List (List β))
    (r : List β) : Prop :=
  F.KeepsUp carry.length as cs ∧ ∃ taken, as = taken ++ F.untaken carry.length as cs ∧
    F.Reads cap carry cs taken (F.encodeAll (F.untaken carry.length as cs) ++ r)

/-- A chunk arrives when the reader holds more than a whole word. -/
def Late (F : Framing α β) (cap : Nat) (carry : List β) (cs : List (List β)) : Prop :=
  ∃ front c back taken a rest, cs = front ++ c :: back ∧
    F.Reads cap carry front taken (F.encode a ++ rest) ∧ rest ≠ [] ∧
    (F.encode a ++ rest).length < cap

section Outcome

variable {cap : Nat} {carry c rest r : List β} {cs : List (List β)} {a : α} {as : List α}

theorem Late.keep (hpart : F.Partial cap (carry ++ c)) (h : F.Late cap (carry ++ c) cs) :
    F.Late cap carry (c :: cs) := by
  obtain ⟨front, d, back, taken, b, x, rfl, hreads, hlate⟩ := h
  exact ⟨c :: front, d, back, taken, b, x, rfl, .keep hpart hreads, hlate⟩

theorem Late.emit (hframe : carry ++ c = F.encode a ++ rest)
    (hle : carry.length ≤ (F.encode a).length) (hroom : carry.length < cap)
    (hcap : (F.encode a).length ≤ cap) (h : F.Late cap rest cs) : F.Late cap carry (c :: cs) := by
  obtain ⟨front, d, back, taken, b, x, rfl, hreads, hlate⟩ := h
  exact ⟨c :: front, d, back, a :: taken, b, x, rfl, .emit hframe hle hroom hcap hreads, hlate⟩

theorem late_now (hframe : carry = F.encode a ++ rest) (hlt : (F.encode a).length < carry.length)
    (hroom : carry.length < cap) : F.Late cap carry (c :: cs) := by
  have hne : rest ≠ [] := by
    rintro rfl
    rw [hframe, List.append_nil] at hlt
    exact Nat.lt_irrefl _ hlt
  refine ⟨[], c, cs, [], a, rest, rfl, ?_, hne, hframe ▸ hroom⟩
  rw [← hframe]
  exact .done

theorem Taken.keep (hpart : F.Partial cap (carry ++ c))
    (hmore : carry.length + c.length < (F.encode a).length)
    (h : F.Taken cap (carry ++ c) (a :: as) cs r) : F.Taken cap carry (a :: as) (c :: cs) r := by
  unfold Taken at h
  rw [List.length_append, ← untaken_of_more hmore, ← keepsUp_of_more hmore] at h
  obtain ⟨hkeep, taken, htaken, hreads⟩ := h
  exact ⟨hkeep, taken, htaken, .keep hpart hreads⟩

theorem Taken.emit (hframe : carry ++ c = F.encode a ++ rest)
    (hle : carry.length ≤ (F.encode a).length) (hroom : carry.length < cap)
    (hcap : (F.encode a).length ≤ cap) (h : F.Taken cap rest as cs r) :
    F.Taken cap carry (a :: as) (c :: cs) r := by
  have hlen := congrArg List.length hframe
  rw [List.length_append, List.length_append] at hlen
  have hwhole : (F.encode a).length ≤ carry.length + c.length := by omega
  have hheld : carry.length + c.length - (F.encode a).length = rest.length := by omega
  obtain ⟨hkeep, taken, htaken, hreads⟩ := h
  unfold Taken
  rw [keepsUp_of_whole hwhole, untaken_of_whole hwhole, hheld]
  refine ⟨⟨hle, hkeep⟩, a :: taken, ?_, .emit hframe hle hroom hcap hreads⟩
  rw [List.cons_append, ← htaken]

/-- When no word is left the reader keeps what it receives. -/
theorem taken_nil (hr : F.Partial cap r) : ∀ {cs : List (List β)} {carry : List β},
    carry ++ cs.flatten = r → F.Taken cap carry [] cs r := by
  intro cs
  induction cs with
  | nil =>
    intro carry hs
    obtain rfl : carry = r := by simpa using hs
    exact ⟨trivial, [], rfl, .done⟩
  | cons c cs ih =>
    intro carry hs
    have hs' : (carry ++ c) ++ cs.flatten = r := by
      simpa only [List.flatten_cons, List.append_assoc] using hs
    obtain ⟨-, taken, htaken, hreads⟩ := ih hs'
    obtain ⟨a, hra, hlt, hle⟩ := hr
    have hpre : carry ++ c <+: r := ⟨cs.flatten, hs'⟩
    have hpart : F.Partial cap (carry ++ c) :=
      ⟨a, hpre.trans hra, Nat.lt_of_le_of_lt hpre.length_le hlt, hle⟩
    rw [untaken_nil] at htaken hreads
    obtain rfl : taken = [] := by simpa using htaken.symm
    exact ⟨trivial, [], rfl, .keep hpart hreads⟩

end Outcome

/-- **The reader on a cut.** It keeps up, or it is late for a chunk. -/
theorem taken_or_late {cap most : Nat} {r : List β} (hr : F.Partial cap r) (hmost : most < cap) :
    ∀ {cs : List (List β)} {carry : List β} {as : List α}, (∀ a ∈ as, (F.encode a).length ≤ cap) →
      (∀ c ∈ cs, c.length ≤ most) → F.Carried most carry as →
      carry ++ cs.flatten = F.encodeAll as ++ r →
      F.Taken cap carry as cs r ∨ ¬ F.KeepsUp carry.length as cs ∧ F.Late cap carry cs := by
  intro cs
  induction cs with
  | nil =>
    intro carry as _ _ _ hs
    obtain rfl : carry = F.encodeAll as ++ r := by simpa using hs
    exact .inl ⟨by simp [KeepsUp], [], by simp [untaken], by simpa [untaken] using .done⟩
  | cons c cs ih =>
    intro carry as hcap hlen hcarry hs
    cases as with
    | nil => exact .inl (taken_nil hr hs)
    | cons a as =>
    have ha : (F.encode a).length ≤ cap := hcap a List.mem_cons_self
    have hc : c.length ≤ most := hlen c List.mem_cons_self
    have hcs : ∀ d ∈ cs, d.length ≤ most := fun d hd => hlen d (List.mem_cons_of_mem c hd)
    have hfront : (carry ++ c) ++ cs.flatten = F.encode a ++ (F.encodeAll as ++ r) := by
      simpa only [encodeAll_cons, List.flatten_cons, List.append_assoc] using hs
    have hadd : (carry ++ c).length = carry.length + c.length := List.length_append
    have hroom : carry.length < cap := by
      rcases hcarry a as rfl with h | h <;> omega
    by_cases hlate : carry.length ≤ (F.encode a).length
    · by_cases hwhole : (F.encode a).length ≤ carry.length + c.length
      · obtain ⟨rest, hrest, htail⟩ := split_front hfront (by omega)
        have hheld : carry.length + c.length - (F.encode a).length = rest.length := by
          have := congrArg List.length hrest
          simp only [List.length_append] at this
          omega
        have hcap' : ∀ b ∈ as, (F.encode b).length ≤ cap :=
          fun b hb => hcap b (List.mem_cons_of_mem a hb)
        rcases ih hcap' hcs (by rintro _ _ -; right; omega) htail with h | ⟨hno, h⟩
        · exact .inl (h.emit hrest hlate hroom ha)
        · refine .inr ⟨fun hkeep => hno ?_, h.emit hrest hlate hroom ha⟩
          rw [← hheld]
          exact ((keepsUp_of_whole hwhole).1 hkeep).2
      · have hmore := Nat.not_le.1 hwhole
        have hpart : F.Partial cap (carry ++ c) :=
          ⟨a, front_of_le hfront (by omega), by omega, ha⟩
        rcases ih hcap hcs (by rintro _ _ ⟨⟩; left; omega) (hfront.trans (by simp)) with
          h | ⟨hno, h⟩
        · exact .inl (h.keep hpart hmore)
        · refine .inr ⟨fun hkeep => hno ?_, h.keep hpart⟩
          rw [hadd]
          exact (keepsUp_of_more hmore).1 hkeep
    · have hlt := Nat.not_le.1 hlate
      obtain ⟨rest, hrest, -⟩ := split_front (s := carry) (x := (c :: cs).flatten)
        (by rw [List.flatten_cons, ← List.append_assoc]; exact hfront) (Nat.le_of_lt hlt)
      exact .inr ⟨fun h => hlate h.1, late_now hrest hlt hroom⟩

/-- On a cut in which no chunk holds the ends of two words the reader keeps up with the words of
the stream and emits them all. -/
theorem keepsUp_of_oneEnd : ∀ {cs : List (List β)} {held : Nat} {as : List α} {start : Nat},
    (∀ a as', as = a :: as' → held < (F.encode a).length) →
    (F.encodeAll as).length ≤ held + cs.flatten.length →
    OneEndPerChunk (F.endsFrom start as) (start + held) cs →
    F.KeepsUp held as cs ∧ F.untaken held as cs = [] := by
  intro cs
  induction cs with
  | nil =>
    intro held as start hpart htotal _
    cases as with
    | nil => exact ⟨trivial, rfl⟩
    | cons a as =>
      have := hpart a as rfl
      simp only [encodeAll_cons, List.length_append, List.flatten_nil, List.length_nil] at htotal
      omega
  | cons c cs ih =>
    intro held as start hpart htotal hone
    cases as with
    | nil => exact ⟨trivial, rfl⟩
    | cons a as =>
      have hlt := hpart a as rfl
      simp only [encodeAll_cons, List.length_append, List.flatten_cons] at htotal
      by_cases hwhole : (F.encode a).length ≤ held + c.length
      · rw [keepsUp_of_whole hwhole, untaken_of_whole hwhole]
        have htail : OneEndPerChunk (F.endsFrom (start + (F.encode a).length) as)
            (start + (F.encode a).length + (held + c.length - (F.encode a).length)) cs := by
          have := hone.2.tail
          rwa [show start + held + c.length = start + (F.encode a).length +
            (held + c.length - (F.encode a).length) by omega] at this
        have hnext : ∀ b bs, as = b :: bs →
            held + c.length - (F.encode a).length < (F.encode b).length := by
          -- the next word ends beyond this chunk
          rintro b bs rfl
          have := hone.second_gt (by omega) (by omega)
          omega
        obtain ⟨hkeep, hall⟩ := ih hnext (by omega) htail
        exact ⟨⟨Nat.le_of_lt hlt, hkeep⟩, hall⟩
      · have hmore := Nat.not_le.1 hwhole
        rw [keepsUp_of_more hmore, untaken_of_more hmore]
        have htail :
            OneEndPerChunk (F.endsFrom start (a :: as)) (start + (held + c.length)) cs := by
          have := hone.2
          rwa [Nat.add_assoc] at this
        have hnext : ∀ b bs, a :: as = b :: bs → held + c.length < (F.encode b).length := by
          rintro b bs ⟨⟩
          omega
        exact ih hnext (by rw [encodeAll_cons, List.length_append]; omega) htail

/-- Words that are no shorter than the chunks end in different chunks. -/
theorem oneEnd_of_long {size : Nat} {as : List α} (hlong : ∀ a ∈ as, size ≤ (F.encode a).length)
    {cs : List (List β)} (hsmall : ∀ c ∈ cs, c.length ≤ size) (start pos : Nat) :
    OneEndPerChunk (F.endsFrom start as) pos cs := by
  have hnone : ∀ {as : List α} {start lo hi : Nat}, (∀ a ∈ as, size ≤ (F.encode a).length) →
      hi < start + size → ((F.endsFrom start as).filter fun e => lo < e ∧ e ≤ hi) = [] := by
    intro as
    induction as with
    | nil => exact fun _ _ => rfl
    | cons a as ih =>
      intro start lo hi hlong hhi
      have ha := hlong a List.mem_cons_self
      rw [endsFrom, List.filter_cons_of_neg (by simp; omega)]
      exact ih (fun b hb => hlong b (List.mem_cons_of_mem a hb)) (by omega)
  have hone : ∀ {as : List α} {start lo len : Nat}, (∀ a ∈ as, size ≤ (F.encode a).length) →
      len ≤ size → ((F.endsFrom start as).filter fun e => lo < e ∧ e ≤ lo + len).length ≤ 1 := by
    intro as
    induction as with
    | nil => exact fun _ _ => Nat.zero_le 1
    | cons a as ih =>
      intro start lo len hlong hlen
      have hrest : ∀ b ∈ as, size ≤ (F.encode b).length :=
        fun b hb => hlong b (List.mem_cons_of_mem a hb)
      rw [endsFrom]
      by_cases hin : lo < start + (F.encode a).length ∧ start + (F.encode a).length ≤ lo + len
      · rw [List.filter_cons_of_pos (by simpa using hin), hnone hrest (by omega)]
        exact Nat.le_refl 1
      · rw [List.filter_cons_of_neg (by simpa using hin)]
        exact ih hrest hlen
  induction cs generalizing pos with
  | nil => trivial
  | cons c cs ih =>
    exact ⟨hone hlong (hsmall c List.mem_cons_self),
      ih (fun d hd => hsmall d (List.mem_cons_of_mem c hd)) _⟩

end Framing

end Rsva11001.Lib
