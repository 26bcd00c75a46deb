import Mathlib.Data.List.Basic

/-!
# Transducers that may stop

A transducer reads one symbol at a time: it goes on in a new state with some output, or it stops and
says how many symbols the stop counts as read. `feed` gives it a word.

A word is fed in two parts as it is fed at once (`feed_append`), unless the first part stops the
transducer. `Runs` says that a word is read to its end; it composes (`Runs.append`), so that what a
transducer does with a whole text is put together from what it does with the pieces of the text.
-/

namespace Rsva11001.Lib

universe u v w

/-- What a transducer does with one symbol. -/
inductive Reaction (σ : Type u) (ω : Type w) where
  | go (s : σ) (out : List ω)
  | stop (s : σ) (read : Nat)

/-- What a transducer has done with a word. -/
structure Fed (σ : Type u) (ω : Type w) where
  state : σ
  out : List ω
  read : Nat
  stopped : Bool

variable {σ : Type u} {ι : Type v} {ω : Type w}

/-- Reads a word, up to the symbol that stops the transducer. -/
def feed (step : σ → ι → Reaction σ ω) : σ → List ι → Fed σ ω
  | s, [] => ⟨s, [], 0, false⟩
  | s, i :: is =>
    match step s i with
    | .stop t n => ⟨t, [], n, true⟩
    | .go t out =>
      let rest := feed step t is
      ⟨rest.state, out ++ rest.out, rest.read + 1, rest.stopped⟩

/-- One word after another. -/
def Fed.andThen (first second : Fed σ ω) : Fed σ ω :=
  ⟨second.state, first.out ++ second.out, first.read + second.read, second.stopped⟩

variable {step : σ → ι → Reaction σ ω} {s t r : σ} {i : ι} {is js : List ι} {out out' : List ω}

@[simp] theorem feed_nil (s : σ) : feed step s [] = ⟨s, [], 0, false⟩ := rfl

theorem feed_cons_go (h : step s i = .go t out) : feed step s (i :: is) =
    Fed.andThen ⟨t, out, 1, false⟩ (feed step t is) := by
  rw [feed, h]
  simp [Fed.andThen, Nat.add_comm]

theorem feed_cons_stop {n : Nat} (h : step s i = .stop t n) :
    feed step s (i :: is) = ⟨t, [], n, true⟩ := by
  rw [feed, h]

/-- A word in two parts. -/
theorem feed_append (s : σ) (is js : List ι) : feed step s (is ++ js) =
    if (feed step s is).stopped then feed step s is
    else (feed step s is).andThen (feed step (feed step s is).state js) := by
  induction is generalizing s with
  | nil => simp [Fed.andThen]
  | cons i is ih =>
    rw [List.cons_append]
    cases h : step s i with
    | stop t n => rw [feed_cons_stop h, feed_cons_stop h, if_pos rfl]
    | go t out =>
      rw [feed_cons_go h, feed_cons_go h, ih t]
      have hstopped : (Fed.andThen ⟨t, out, 1, false⟩ (feed step t is)).stopped =
        (feed step t is).stopped := rfl
      rw [hstopped]
      split
      · rfl
      · simp [Fed.andThen, Nat.add_assoc]

/-- A word that does not stop the transducer is read as a whole. -/
theorem read_of_not_stopped (h : (feed step s is).stopped = false) :
    (feed step s is).read = is.length := by
  induction is generalizing s with
  | nil => rfl
  | cons i is ih =>
    cases hi : step s i with
    | stop t n =>
      rw [feed_cons_stop hi] at h
      cases h
    | go t out =>
      rw [feed_cons_go hi] at h ⊢
      show 1 + (feed step t is).read = _
      rw [ih h, List.length_cons, Nat.add_comm]

/-- When a stop counts no more than its symbol, no more is counted than there is. -/
theorem read_le (hstop : ∀ s i t n, step s i = .stop t n → n ≤ 1) :
    (feed step s is).read ≤ is.length := by
  induction is generalizing s with
  | nil => exact Nat.le_refl 0
  | cons i is ih =>
    cases hi : step s i with
    | stop t n =>
      rw [feed_cons_stop hi]
      exact Nat.le_trans (hstop s i t n hi) (Nat.succ_le_succ (Nat.zero_le _))
    | go t out =>
      rw [feed_cons_go hi]
      show 1 + (feed step t is).read ≤ is.length + 1
      have := @ih t
      omega

/-- An invariant of the symbols on which the transducer goes on. -/
theorem feed_invariant {I : σ → Prop} (hstep : ∀ s i t out, I s → step s i = .go t out → I t)
    (hs : I s) (h : (feed step s is).stopped = false) : I (feed step s is).state := by
  induction is generalizing s with
  | nil => exact hs
  | cons i is ih =>
    cases hi : step s i with
    | stop t n =>
      rw [feed_cons_stop hi] at h
      cases h
    | go t out =>
      rw [feed_cons_go hi] at h ⊢
      exact ih (hstep s i t out hs hi) h

/-- A transducer that copies symbols or leaves them out. -/
theorem feed_out_sublist {step : σ → ι → Reaction σ ι}
    (hstep : ∀ s i t out, step s i = .go t out → out.Sublist [i]) :
    (feed step s is).out.Sublist is := by
  induction is generalizing s with
  | nil => exact List.Sublist.refl []
  | cons i is ih =>
    cases hi : step s i with
    | stop t n =>
      rw [feed_cons_stop hi]
      exact List.nil_sublist _
    | go t out =>
      rw [feed_cons_go hi]
      exact (hstep s i t out hi).append ih

/-- The transducer reads the word to its end. -/
def Runs (step : σ → ι → Reaction σ ω) (s : σ) (is : List ι) (t : σ) (out : List ω) : Prop :=
  feed step s is = ⟨t, out, is.length, false⟩

theorem Runs.nil (s : σ) : Runs step s [] s [] := rfl

theorem Runs.cons (h : step s i = .go t out) (hrest : Runs step t is r out') :
    Runs step s (i :: is) r (out ++ out') := by
  unfold Runs at hrest ⊢
  rw [feed_cons_go h, hrest, List.length_cons, Nat.add_comm]
  rfl

theorem Runs.single (h : step s i = .go t out) : Runs step s [i] t out := by
  simpa using Runs.cons h (Runs.nil t)

theorem Runs.append (h : Runs step s is t out) (hrest : Runs step t js r out') :
    Runs step s (is ++ js) r (out ++ out') := by
  unfold Runs at h hrest ⊢
  rw [feed_append, h, if_neg (by simp), hrest, List.length_append]
  rfl

theorem runs_of_not_stopped (h : (feed step s is).stopped = false) :
    Runs step s is (feed step s is).state (feed step s is).out := by
  unfold Runs
  rw [← read_of_not_stopped h, ← h]

/-- A word that is read in two parts. -/
theorem Runs.split (h : Runs step s (is ++ js) r out) :
    ∃ t out₁ out₂, Runs step s is t out₁ ∧ Runs step t js r out₂ ∧ out = out₁ ++ out₂ := by
  have happend : _ = (⟨r, out, (is ++ js).length, false⟩ : Fed σ ω) :=
    (feed_append s is js).symm.trans h
  by_cases hstopped : (feed step s is).stopped = true
  · rw [if_pos hstopped] at happend
    rw [happend] at hstopped
    cases hstopped
  · rw [if_neg hstopped] at happend
    have hnot : (feed step s is).stopped = false := by simpa using hstopped
    obtain ⟨hstate, hout, -, hrest⟩ := Fed.mk.inj happend
    refine ⟨_, _, _, runs_of_not_stopped hnot, ?_, hout.symm⟩
    rw [← hstate]
    exact runs_of_not_stopped hrest

/-- Pieces that put nothing out. -/
theorem Runs.silent (h : Runs step s is t []) (hrest : Runs step t js r out) :
    Runs step s (is ++ js) r out :=
  h.append hrest

/-- Symbols that the transducer passes over. -/
theorem Runs.stay (h : ∀ i ∈ is, step s i = .go s []) : Runs step s is s [] := by
  induction is with
  | nil => exact Runs.nil s
  | cons i is ih =>
    exact Runs.cons (h i List.mem_cons_self) (ih fun j hj => h j (List.mem_cons_of_mem i hj))

/-! ## Copying

The symbols of a text are marked with whether they are to be put out. A transducer that copies the
text (`Copies`) has put out, at any moment, exactly the symbols marked among the ones read so far:
it invents none, drops none and holds none back. -/

/-- Symbols that are not to be put out. -/
def plain (is : List ι) : List (ι × Bool) :=
  is.map fun i => (i, false)

/-- Symbols that are to be put out. -/
def content (is : List ι) : List (ι × Bool) :=
  is.map fun i => (i, true)

/-- What is to be put out of a text. -/
def kept (ws : List (ι × Bool)) : List ι :=
  (ws.filter Prod.snd).map Prod.fst

@[simp] theorem symbols_plain (is : List ι) : (plain is).map Prod.fst = is := by
  simp [plain, Function.comp_def]

@[simp] theorem symbols_content (is : List ι) : (content is).map Prod.fst = is := by
  simp [content, Function.comp_def]

@[simp] theorem kept_nil : kept ([] : List (ι × Bool)) = [] := rfl

@[simp] theorem kept_plain (is : List ι) : kept (plain is) = [] := by
  simp [kept, plain]

@[simp] theorem kept_content (is : List ι) : kept (content is) = is := by
  simp [kept, content, List.filter_map, Function.comp_def]

@[simp] theorem kept_append (ws vs : List (ι × Bool)) : kept (ws ++ vs) = kept ws ++ kept vs := by
  simp [kept]

@[simp] theorem kept_flatMap {α : Type w} (as : List α) (f : α → List (ι × Bool)) :
    kept (as.flatMap f) = as.flatMap fun a => kept (f a) := by
  induction as with
  | nil => rfl
  | cons a as ih => rw [List.flatMap_cons, kept_append, ih, List.flatMap_cons]

section Copies

variable {step : σ → ι → Reaction σ ι} {ws vs : List (ι × Bool)}

/-- The transducer copies the text. -/
def Copies (step : σ → ι → Reaction σ ι) (s : σ) (ws : List (ι × Bool)) (t : σ) : Prop :=
  Runs step s (ws.map Prod.fst) t (kept ws) ∧
    ∀ n, ∃ r, Runs step s ((ws.take n).map Prod.fst) r (kept (ws.take n))

theorem Copies.nil (s : σ) : Copies step s [] s :=
  ⟨Runs.nil s, fun n => ⟨s, by rw [List.take_nil]; exact Runs.nil s⟩⟩

theorem Copies.plain (h : Runs step s is t []) : Copies step s (plain is) t := by
  refine ⟨by simpa using h, fun n => ?_⟩
  rw [← List.take_append_drop n is] at h
  obtain ⟨r, out₁, out₂, hrun, -, hout⟩ := h.split
  rw [(List.append_eq_nil_iff.1 hout.symm).1] at hrun
  have htake : (Lib.plain is).take n = Lib.plain (is.take n) := List.map_take.symm
  exact ⟨r, by simpa [htake] using hrun⟩

/-- When a symbol puts out no more than itself, what is put out of a text that is put out as a whole
does not lag behind. -/
theorem Copies.content (hstep : ∀ s i t out, step s i = .go t out → out.Sublist [i])
    (h : Runs step s is t is) : Copies step s (content is) t := by
  refine ⟨by simpa using h, fun n => ?_⟩
  have hsub : ∀ {s t : σ} {js out : List ι}, Runs step s js t out → out.Sublist js := by
    intro s t js out hrun
    have hfeed : (feed step s js).out.Sublist js := feed_out_sublist hstep
    rwa [show feed step s js = _ from hrun] at hfeed
  have hsplit : Runs step s (is.take n ++ is.drop n) t is := by rwa [List.take_append_drop]
  obtain ⟨r, out₁, out₂, hrun, hrest, hout⟩ := hsplit.split
  have hlen : (is.take n).length + (is.drop n).length = out₁.length + out₂.length := by
    rw [← List.length_append, ← List.length_append, List.take_append_drop, ← hout]
  have hle₁ := (hsub hrun).length_le
  have hle₂ := (hsub hrest).length_le
  obtain rfl : out₁ = is.take n := (hsub hrun).eq_of_length (by omega)
  have htake : (Lib.content is).take n = Lib.content (is.take n) := List.map_take.symm
  exact ⟨r, by simpa [htake] using hrun⟩

theorem Copies.append (h : Copies step s ws t) (hrest : Copies step t vs r) :
    Copies step s (ws ++ vs) r := by
  refine ⟨by simpa using h.1.append hrest.1, fun n => ?_⟩
  rw [List.take_append]
  by_cases hn : ws.length ≤ n
  · obtain ⟨q, hq⟩ := hrest.2 (n - ws.length)
    rw [List.take_of_length_le hn]
    exact ⟨q, by simpa using h.1.append hq⟩
  · rw [Nat.sub_eq_zero_of_le (Nat.le_of_not_le hn), List.take_zero, List.append_nil]
    exact h.2 n

end Copies

end Rsva11001.Lib
