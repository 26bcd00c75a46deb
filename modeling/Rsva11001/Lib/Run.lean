import Mathlib.Data.List.Induction

/-!
# Runs of a deterministic machine and histories

A machine is a partial step function `σ → ι → Except ε σ`: given its state and one input it moves
on, or it halts with an error and has no next state. `run` feeds it a list of inputs. An invariant
that every step keeps holds after every run (`run_invariant`); when the steps keep it only under a
condition on the state before the step and the input, it holds after every run whose steps meet
the condition (`run_invariant_of_meets`).

A history is the list of what a run has been seen to do, oldest entry first. `Always C t` says
that every entry of `t` satisfies `C` together with the entries before it; `Extends p t t'` that
`t'` goes on from `t` with entries that satisfy `p`.
-/

namespace Rsva11001.Lib

universe u v w

section Run

variable {σ : Type u} {ι : Type v} {ε : Type w}

/-- The machine's run on a list of inputs. -/
def run (step : σ → ι → Except ε σ) : σ → List ι → Except ε σ
  | s, [] => .ok s
  | s, i :: is => match step s i with
    | .error e => .error e
    | .ok s' => run step s' is

/-- Every step of the run on `is` meets `C`, a condition on the state before it and its input. -/
def Meets (step : σ → ι → Except ε σ) (C : σ → ι → Prop) : σ → List ι → Prop
  | _, [] => True
  | s, i :: is => C s i ∧ ∀ s', step s i = .ok s' → Meets step C s' is

variable {step : σ → ι → Except ε σ}

@[simp] theorem run_nil (s : σ) : run step s [] = .ok s := rfl

theorem run_cons_ok {s t : σ} {i : ι} {is : List ι} :
    run step s (i :: is) = .ok t ↔ ∃ s', step s i = .ok s' ∧ run step s' is = .ok t := by
  rw [run]
  cases h : step s i with
  | error e => simp
  | ok s' => simp

theorem run_append_ok {s t : σ} {is js : List ι} :
    run step s (is ++ js) = .ok t ↔ ∃ s', run step s is = .ok s' ∧ run step s' js = .ok t := by
  induction is generalizing s with
  | nil => simp
  | cons i is ih =>
    simp only [List.cons_append, run_cons_ok, ih]
    constructor
    · rintro ⟨s₁, h₁, s₂, h₂, h₃⟩
      exact ⟨s₂, ⟨s₁, h₁, h₂⟩, h₃⟩
    · rintro ⟨s₂, ⟨s₁, h₁, h₂⟩, h₃⟩
      exact ⟨s₁, h₁, s₂, h₂, h₃⟩

theorem run_append {s t : σ} {is js : List ι} (h : run step s is = .ok t) :
    run step s (is ++ js) = run step t js := by
  induction is generalizing s with
  | nil =>
    cases h
    rfl
  | cons i is ih =>
    obtain ⟨s', h₁, h₂⟩ := run_cons_ok.1 h
    rw [List.cons_append, run, h₁]
    exact ih h₂

/-- Steps that keep `I` under the condition `C` keep it along every run that meets `C`. -/
theorem run_invariant_of_meets {I : σ → Prop} {C : σ → ι → Prop}
    (hstep : ∀ s i s', I s → C s i → step s i = .ok s' → I s') {s t : σ} {is : List ι}
    (hs : I s) (hC : Meets step C s is) (h : run step s is = .ok t) : I t := by
  induction is generalizing s with
  | nil => cases h; exact hs
  | cons i is ih =>
    obtain ⟨s', h₁, h₂⟩ := run_cons_ok.1 h
    exact ih (hstep s i s' hs hC.1 h₁) (hC.2 s' h₁) h₂

/-- Steps that do not halt with `x` in the states that satisfy `I` make runs that do not. -/
theorem run_ne_error_of_meets {I : σ → Prop} {C : σ → ι → Prop} {x : ε}
    (hstep : ∀ s i s', I s → C s i → step s i = .ok s' → I s')
    (hsafe : ∀ s i, I s → C s i → step s i ≠ .error x) {s : σ} {is : List ι} (hs : I s)
    (hC : Meets step C s is) : run step s is ≠ .error x := by
  induction is generalizing s with
  | nil => rintro ⟨⟩
  | cons i is ih =>
    rw [run]
    split
    · rename_i e he
      rintro ⟨⟩
      exact hsafe s i hs hC.1 he
    · rename_i s' hs'
      exact ih (hstep s i s' hs hC.1 hs') (hC.2 s' hs')

theorem meets_true (s : σ) (is : List ι) : Meets step (fun _ _ => True) s is := by
  induction is generalizing s with
  | nil => trivial
  | cons i is ih => exact ⟨trivial, fun s' _ => ih s'⟩

theorem meets_cons_ok {C : σ → ι → Prop} {s s' : σ} {i : ι} {is : List ι}
    (h : step s i = .ok s') : Meets step C s (i :: is) ↔ C s i ∧ Meets step C s' is := by
  refine and_congr_right fun _ => ⟨fun hall => hall s' h, fun hrest t ht => ?_⟩
  obtain rfl : s' = t := Except.ok.inj (h.symm.trans ht)
  exact hrest

/-- When the steps that break the condition are those that halt with `x`, the runs that do not halt
so are those whose steps meet it. -/
theorem run_ne_error_iff {I : σ → Prop} {C : σ → ι → Prop} {x : ε}
    (hstep : ∀ s i s', I s → step s i = .ok s' → I s')
    (hhalt : ∀ s i, I s → (step s i = .error x ↔ ¬ C s i)) {s : σ} {is : List ι} (hs : I s) :
    run step s is ≠ .error x ↔ Meets step C s is := by
  induction is generalizing s with
  | nil => exact ⟨fun _ => trivial, by rintro - ⟨⟩⟩
  | cons i is ih =>
    rw [run]
    cases h : step s i with
    | error e =>
      have hC := hhalt s i hs
      rw [h] at hC
      constructor
      · intro hne
        refine ⟨by_contra fun hnot => hne (hC.2 hnot), ?_⟩
        rw [h]
        rintro s' ⟨⟩
      · exact fun hmeets herror => hC.1 herror hmeets.1
    | ok s' =>
      have hC : C s i := by
        by_contra hnot
        rw [(hhalt s i hs).2 hnot] at h
        cases h
      rw [meets_cons_ok h]
      exact (ih (hstep s i s' hs h)).trans ⟨fun hrest => ⟨hC, hrest⟩, And.right⟩

theorem meets_append_ok {C : σ → ι → Prop} {s t : σ} {is js : List ι}
    (h : run step s is = .ok t) :
    Meets step C s (is ++ js) ↔ Meets step C s is ∧ Meets step C t js := by
  induction is generalizing s with
  | nil =>
    cases h
    exact ⟨fun hjs => ⟨trivial, hjs⟩, And.right⟩
  | cons i is ih =>
    obtain ⟨s', h₁, h₂⟩ := run_cons_ok.1 h
    rw [List.cons_append, meets_cons_ok h₁, meets_cons_ok h₁, ih h₂, and_assoc]

theorem Meets.mono {C D : σ → ι → Prop} (hCD : ∀ s i, C s i → D s i) {s : σ} {is : List ι}
    (h : Meets step C s is) : Meets step D s is := by
  induction is generalizing s with
  | nil => trivial
  | cons i is ih => exact ⟨hCD s i h.1, fun s' hs' => ih (h.2 s' hs')⟩

/-- Conditions that agree in the states that satisfy an invariant are met by the same runs. -/
theorem meets_congr {I : σ → Prop} {C D : σ → ι → Prop}
    (hstep : ∀ s i s', I s → step s i = .ok s' → I s') (hCD : ∀ s i, I s → (C s i ↔ D s i))
    {s : σ} {is : List ι} (hs : I s) : Meets step C s is ↔ Meets step D s is := by
  induction is generalizing s with
  | nil => exact Iff.rfl
  | cons i is ih =>
    refine and_congr (hCD s i hs) (forall_congr' fun s' => forall_congr' fun hs' => ?_)
    exact ih (hstep s i s' hs hs')

/-- An invariant of the steps holds after every run. -/
theorem run_invariant {I : σ → Prop} (hstep : ∀ s i s', I s → step s i = .ok s' → I s')
    {s t : σ} {is : List ι} (hs : I s) (h : run step s is = .ok t) : I t :=
  run_invariant_of_meets (fun s i s' hI _ => hstep s i s' hI) hs (meets_true s is) h

/-- When the steps that meet the condition keep `I`, and every other step breaks it for good, `I`
holds after a run exactly when all of its steps meet the condition. -/
theorem run_iff_meets {I B : σ → Prop} {C : σ → ι → Prop}
    (hkeep : ∀ s i s', I s → C s i → step s i = .ok s' → I s')
    (hbreak : ∀ s i s', I s → ¬ C s i → step s i = .ok s' → B s')
    (hstay : ∀ s i s', B s → step s i = .ok s' → B s') (hIB : ∀ s, B s → ¬ I s) {s t : σ}
    {is : List ι} (hs : I s) (h : run step s is = .ok t) : I t ↔ Meets step C s is := by
  refine ⟨fun ht => ?_, fun hC => run_invariant_of_meets hkeep hs hC h⟩
  induction is generalizing s with
  | nil => trivial
  | cons i is ih =>
    obtain ⟨s', h₁, h₂⟩ := run_cons_ok.1 h
    rw [meets_cons_ok h₁]
    by_cases hC : C s i
    · exact ⟨hC, ih (hkeep s i s' hs hC h₁) h₂⟩
    · have hB := run_invariant hstay (hbreak s i s' hs hC h₁) h₂
      exact absurd ht (hIB t hB)

/-- A condition on the inputs alone is met when every input satisfies it. -/
theorem meets_of_forall {C : ι → Prop} {s : σ} {is : List ι} (h : ∀ i ∈ is, C i) :
    Meets step (fun _ i => C i) s is := by
  induction is generalizing s with
  | nil => trivial
  | cons i is ih =>
    exact ⟨h i List.mem_cons_self, fun s' _ => ih fun j hj => h j (List.mem_cons_of_mem i hj)⟩

end Run

section Avoids

variable {α : Type u} {ε : Type w} {x : ε}

/-- The execution does not halt with `x`. -/
def Avoids (x : ε) (m : Except ε α) : Prop :=
  m ≠ .error x

theorem avoids_ok (a : α) : Avoids x (.ok a) := by
  rintro ⟨⟩

theorem avoids_error {y : ε} (h : y ≠ x) : Avoids x (.error y : Except ε α) := by
  rintro ⟨⟩
  exact h rfl

end Avoids

section Sequence

variable {α β : Type u} {ε : Type w} {x : ε}

/-- A sequence does not halt with `x` when its parts do not. -/
theorem Avoids.bind {m : Except ε α} {f : α → Except ε β} (hm : Avoids x m)
    (hf : ∀ a, m = .ok a → Avoids x (f a)) : Avoids x (m >>= f) := by
  cases m with
  | ok a => exact hf a rfl
  | error y =>
    rintro ⟨⟩
    exact hm rfl

end Sequence

section History

variable {ω : Type u}

/-- Every entry of the history satisfies `C` together with the entries before it. -/
def Always (C : List ω → ω → Prop) (t : List ω) : Prop :=
  ∀ past o later, t = past ++ o :: later → C past o

variable {C : List ω → ω → Prop}

theorem always_nil : Always C [] := by
  intro past o later h
  simp at h

/-- An entry of an extended history is an old one or a new one. -/
theorem append_eq_past {t₁ t₂ past later : List ω} {o : ω}
    (h : t₁ ++ t₂ = past ++ o :: later) : (∃ u, t₁ = past ++ o :: u) ∨
      ∃ u, past = t₁ ++ u ∧ t₂ = u ++ o :: later := by
  rcases List.append_eq_append_iff.1 h with ⟨u, hpast, hu⟩ | ⟨u, hpast, hu⟩
  · exact .inr ⟨u, hpast, hu⟩
  · cases u with
    | nil =>
      rw [List.append_nil] at hpast
      exact .inr ⟨[], by rw [hpast, List.append_nil], hu.symm⟩
    | cons x u =>
      obtain ⟨rfl, -⟩ := List.cons.inj hu
      exact .inl ⟨u, hpast⟩

theorem concat_eq_past {t past later : List ω} {x o : ω} (h : t ++ [x] = past ++ o :: later) :
    o ∈ t ∨ past = t ∧ o = x := by
  rcases append_eq_past h with ⟨u, rfl⟩ | ⟨u, rfl, hu⟩
  · exact .inl (by simp)
  · cases u with
    | nil =>
      obtain ⟨rfl, -⟩ := List.cons.inj hu
      exact .inr ⟨List.append_nil t, rfl⟩
    | cons y u => simp at hu

/-- A history is extended by entries that satisfy the condition after it. -/
theorem Always.append {t₁ t₂ : List ω} (h₁ : Always C t₁)
    (h₂ : ∀ past o later, t₂ = past ++ o :: later → C (t₁ ++ past) o) : Always C (t₁ ++ t₂) := by
  intro past o later h
  rcases append_eq_past h with ⟨u, hu⟩ | ⟨u, rfl, hu⟩
  · exact h₁ past o u hu
  · exact h₂ u o later hu

/-- A history is extended by entries that satisfy the condition whatever came before. -/
theorem Always.append_of_forall {t₁ t₂ : List ω} (h₁ : Always C t₁)
    (h₂ : ∀ o ∈ t₂, ∀ past, C past o) : Always C (t₁ ++ t₂) :=
  h₁.append fun past o later h => h₂ o (by simp [h]) _

theorem Always.front {t₁ t₂ : List ω} (h : Always C (t₁ ++ t₂)) : Always C t₁ := by
  intro past o later ht
  exact h past o (later ++ t₂) (by rw [ht]; simp)

/-- A history with one more entry. -/
theorem always_concat {t : List ω} {o : ω} : Always C (t ++ [o]) ↔ Always C t ∧ C t o := by
  constructor
  · exact fun h => ⟨h.front, h t o [] rfl⟩
  · rintro ⟨ht, ho⟩
    apply ht.append
    intro past x later hl
    cases past with
    | nil =>
      obtain ⟨rfl, -⟩ := List.cons.inj hl
      rwa [List.append_nil]
    | cons y past => simp at hl

/-- When what is selected is all different, it comes from one entry each. -/
theorem eq_of_nodup_filterMap {α : Type v} {f : ω → Option α} {a : α} : ∀ {t : List ω},
    (t.filterMap f).Nodup → ∀ {x y : ω}, x ∈ t → y ∈ t → f x = some a → f y = some a → x = y := by
  intro t
  induction t with
  | nil => intro _ x y hx
           cases hx
  | cons z t ih =>
    intro hnodup x y hx hy hfx hfy
    have hrest : ∀ {w : ω}, w ∈ t → f w = some a → f z ≠ some a := by
      intro w hw hfw hfz
      rw [List.filterMap_cons_some hfz, List.nodup_cons] at hnodup
      exact hnodup.1 (List.mem_filterMap.2 ⟨w, hw, hfw⟩)
    rcases List.mem_cons.1 hx with rfl | hxt
    · rcases List.mem_cons.1 hy with rfl | hyt
      · rfl
      · exact absurd hfx (hrest hyt hfy)
    · rcases List.mem_cons.1 hy with rfl | hyt
      · exact absurd hfy (hrest hxt hfx)
      · apply ih (hnodup.sublist _) hxt hyt hfx hfy
        exact (List.sublist_cons_self z t).filterMap f

/-- What a history holds after the last entry that satisfies `f`. -/
def since (f : ω → Bool) (t : List ω) : List ω :=
  t.foldl (fun acc o => if f o then [] else acc ++ [o]) []

theorem since_concat {f : ω → Bool} {t : List ω} {o : ω} (h : f o = true) :
    since f (t ++ [o]) = [] := by
  rw [since, List.foldl_append]
  exact if_pos h

theorem since_append {f : ω → Bool} {t new : List ω} (h : ∀ o ∈ new, f o = false) :
    since f (t ++ new) = since f t ++ new := by
  rw [since, List.foldl_append]
  show new.foldl _ (since f t) = _
  generalize since f t = acc
  induction new generalizing acc with
  | nil => exact (List.append_nil acc).symm
  | cons o new ih =>
    rw [List.foldl_cons, h o List.mem_cons_self, if_neg (by simp),
      ih fun x hx => h x (List.mem_cons_of_mem o hx)]
    simp

theorem since_suffix (f : ω → Bool) (t : List ω) : since f t <:+ t := by
  induction t using List.reverseRecOn with
  | nil => exact List.suffix_refl []
  | append_singleton t o ih =>
    by_cases ho : f o = true
    · rw [since_concat ho]
      exact List.nil_suffix
    · rw [since_append (by simpa using ho)]
      obtain ⟨u, hu⟩ := ih
      exact ⟨u, by rw [← List.append_assoc, hu]⟩

/-- `t'` is `t` followed by entries that satisfy `p`. -/
def Extends (p : ω → Prop) (t t' : List ω) : Prop :=
  ∃ new, t' = t ++ new ∧ ∀ o ∈ new, p o

variable {p q : ω → Prop} {t t₁ t₂ new : List ω}

theorem Extends.refl (t : List ω) : Extends p t t :=
  ⟨[], (List.append_nil t).symm, by simp⟩

theorem Extends.append (h : ∀ o ∈ new, p o) : Extends p t (t ++ new) :=
  ⟨new, rfl, h⟩

theorem Extends.trans (h : Extends p t t₁) (h' : Extends p t₁ t₂) : Extends p t t₂ := by
  obtain ⟨new, rfl, hnew⟩ := h
  obtain ⟨new', rfl, hnew'⟩ := h'
  refine ⟨new ++ new', List.append_assoc t new new', fun o ho => ?_⟩
  rcases List.mem_append.1 ho with ho | ho
  · exact hnew o ho
  · exact hnew' o ho

theorem Extends.mono (hpq : ∀ o, p o → q o) (h : Extends p t t₁) : Extends q t t₁ := by
  obtain ⟨new, rfl, hnew⟩ := h
  exact ⟨new, rfl, fun o ho => hpq o (hnew o ho)⟩

theorem Always.extends (h : Always C t) (ht : Extends p t t₁)
    (hp : ∀ o, p o → ∀ past, C past o) : Always C t₁ := by
  obtain ⟨new, rfl, hnew⟩ := ht
  exact h.append_of_forall fun o ho past => hp o (hnew o ho) past

end History

end Rsva11001.Lib
