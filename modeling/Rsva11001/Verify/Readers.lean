import Rsva11001.Adapter.Publisher
import Rsva11001.Verify.Progress

/-!
# What the readers of the image files see

The steps of `Publisher` make up `writeImageFile` (`published_result`): however readers come in
between, a call returns what the function returns, after at most `buffer.length + 7` of its steps.

A file has its final name before it has its content. What a reader gets is a complete image, or no
file, as long as it does not come between the two (`readers_see_images`); every publication has
moments at which it would get an empty file (`created_empty`).
-/

namespace Rsva11001

open Lib

/-! ## The steps make up the function -/

namespace Call

variable {P : HttpParser}

/-- The part of `writeImageFile` from the call of `close` on, and so on backwards. -/
def resultClose (c : Call P) (fd addr : Nat) : Except Halt (Bool × Globals P) :=
  if !c.env.close then .ok (false, c.globals) else (c.say [.fileClosed fd]).finish addr

def resultMmap (c : Call P) (fd : Nat) : Except Halt (Bool × Globals P) :=
  match c.env.mmap with
  | none => .ok (false, c.globals)
  | some addr => (c.say [.mapped addr c.buffer.length]).resultClose fd addr

def resultFtruncate (c : Call P) (fd : Nat) : Except Halt (Bool × Globals P) :=
  if !c.env.ftruncate then .ok (false, c.globals) else c.resultMmap fd

def resultOpen (c : Call P) : Except Halt (Bool × Globals P) :=
  match c.env.open with
  | none => .ok (false, c.globals)
  | some fd => (c.say [.fileOpened fd]).resultFtruncate fd

/-- What the rest of the call comes to. -/
def result (c : Call P) : Except Halt (Bool × Globals P) :=
  match c.stage with
  | .unlink => if c.env.unlink = .error then .ok (false, c.globals) else c.resultOpen
  | .open => c.resultOpen
  | .ftruncate fd => c.resultFtruncate fd
  | .mmap fd => c.resultMmap fd
  | .close fd addr => c.resultClose fd addr
  | .memcpy addr _ | .munmap addr => c.finish addr

/-- A call that has just been made comes to what the function returns. -/
theorem result_unlink (g : Globals P) (buffer : List UInt8) (e : WriteEnv) :
    result ⟨g.say [.writeImage buffer], buffer, e, .unlink⟩ = g.writeImageFile buffer e :=
  rfl

/-- How many steps of the call are left at most. -/
def left (c : Call P) : Nat :=
  match c.stage with
  | .unlink => c.buffer.length + 7
  | .open => c.buffer.length + 6
  | .ftruncate _ => c.buffer.length + 5
  | .mmap _ => c.buffer.length + 4
  | .close _ _ => c.buffer.length + 3
  | .memcpy _ copied => c.buffer.length - copied + 2
  | .munmap _ => 1

theorem left_pos (c : Call P) : 0 < c.left := by
  unfold left
  split <;> omega

end Call

namespace Publisher

variable {P : HttpParser}

/-- What the call that is under way comes to, or what the last one has returned. -/
def outcome (p : Publisher P) : Except Halt (Option (Bool × Globals P)) :=
  match p.call with
  | none => .ok p.returned
  | some c => c.result.map some

/-- How many steps the call that is under way takes at most. -/
def left (p : Publisher P) : Nat :=
  p.call.elim 0 Call.left

theorem outcome_copyFrom (p : Publisher P) (c : Call P) (addr copied : Nat) :
    (p.copyFrom c addr copied).outcome = (c.finish addr).map some := by
  unfold copyFrom
  split
  · rfl
  · rfl

theorem left_copyFrom (p : Publisher P) (c : Call P) (addr copied : Nat) :
    (p.copyFrom c addr copied).left =
      if copied < c.buffer.length then c.buffer.length - copied + 2 else 1 := by
  unfold copyFrom
  split
  · rfl
  · rfl

/-- How a step of a call ends. -/
inductive Advanced (p : Publisher P) (c : Call P) : Publisher P → Prop
  | failed (h : c.result = .ok (false, c.globals)) : Advanced p c (p.returns false c.globals)
  | unlinked (hstage : c.stage = .unlink) (h : c.env.unlink ≠ .error) :
      Advanced p c { p.setFile c.number none with
        call := some { c with stage := .open }
        torn := Function.update p.torn c.number false }
  | opened {fd : Nat} (hstage : c.stage = .open) (h : c.env.open = some fd) :
      Advanced p c { p.setFile c.number (some ((p.files c.number).getD [])) with
        call := some { c.say [.fileOpened fd] with stage := .ftruncate fd }
        torn := Function.update p.torn c.number true }
  | resized {fd : Nat} (hstage : c.stage = .ftruncate fd) (h : c.env.ftruncate = true) :
      Advanced p c
        { p.setFile c.number ((p.files c.number).map fun f => resize f c.buffer.length) with
          call := some { c with stage := .mmap fd } }
  | mapped {fd addr : Nat} (hstage : c.stage = .mmap fd) (h : c.env.mmap = some addr) :
      Advanced p c { p with
        call := some { c.say [.mapped addr c.buffer.length] with stage := .close fd addr } }
  | closed {fd addr : Nat} (hstage : c.stage = .close fd addr) (h : c.env.close = true) :
      Advanced p c (p.copyFrom (c.say [.fileClosed fd]) addr 0)
  | copied {addr copied : Nat} (hstage : c.stage = .memcpy addr copied) :
      Advanced p c ((p.setFile c.number
        ((p.files c.number).map fun f => f.set copied (c.buffer.getD copied 0))).copyFrom c addr
          (copied + 1))
  | finished {addr : Nat} {b : Bool} {g : Globals P} (hstage : c.stage = .munmap addr)
      (h : c.finish addr = .ok (b, g)) : Advanced p c (p.returns b g)

theorem advance_cases {p p' : Publisher P} {c : Call P} (h : p.advance c = .ok p') :
    Advanced p c p' := by
  unfold advance at h
  split at h
  · rename_i hstage
    split at h
    · rename_i hunlink
      cases h
      refine .failed ?_
      simp only [Call.result, hstage, if_pos hunlink]
    · rename_i hunlink
      cases h
      exact .unlinked hstage hunlink
  · rename_i hstage
    split at h
    · rename_i hopen
      cases h
      refine .failed ?_
      simp only [Call.result, hstage, Call.resultOpen, hopen]
    · rename_i fd hopen
      cases h
      exact .opened hstage hopen
  · rename_i fd hstage
    split at h
    · rename_i hftruncate
      cases h
      refine .failed ?_
      simp only [Call.result, hstage, Call.resultFtruncate, if_pos hftruncate]
    · rename_i hftruncate
      cases h
      exact .resized hstage (by simpa using hftruncate)
  · rename_i fd hstage
    split at h
    · rename_i hmmap
      cases h
      refine .failed ?_
      simp only [Call.result, hstage, Call.resultMmap, hmmap]
    · rename_i addr hmmap
      cases h
      exact .mapped hstage hmmap
  · rename_i fd addr hstage
    split at h
    · rename_i hclose
      cases h
      refine .failed ?_
      simp only [Call.result, hstage, Call.resultClose, if_pos hclose]
    · rename_i hclose
      cases h
      exact .closed hstage (by simpa using hclose)
  · rename_i addr copied hstage
    cases h
    exact .copied hstage
  · rename_i addr hstage
    obtain ⟨⟨b, g⟩, hfinish, h⟩ := bind_eq_ok.1 h
    cases h
    exact .finished hstage hfinish

/-- **One step of a call.** It comes nearer to the end, and what the call comes to is the same. -/
theorem Advanced.outcome {p p' : Publisher P} {c : Call P} (h : Advanced p c p') :
    p'.outcome = c.result.map some ∧ p'.left < c.left := by
  cases h with
  | failed h =>
    rw [h]
    refine ⟨rfl, ?_⟩
    exact c.left_pos
  | unlinked hstage h =>
    rw [Call.result, hstage, Call.left, hstage]
    refine ⟨?_, Nat.lt_succ_self _⟩
    simp only [if_neg h]
    rfl
  | opened hstage h =>
    rw [Call.result, hstage, Call.left, hstage]
    refine ⟨?_, Nat.lt_succ_self _⟩
    show _ = c.resultOpen.map some
    rw [Call.resultOpen, h]
    rfl
  | resized hstage h =>
    rw [Call.result, hstage, Call.left, hstage]
    refine ⟨?_, Nat.lt_succ_self _⟩
    show _ = (c.resultFtruncate _).map some
    rw [Call.resultFtruncate, h]
    rfl
  | mapped hstage h =>
    rw [Call.result, hstage, Call.left, hstage]
    refine ⟨?_, Nat.lt_succ_self _⟩
    show _ = (c.resultMmap _).map some
    rw [Call.resultMmap, h]
    rfl
  | @closed fd addr hstage h =>
    rw [Call.result, hstage, Call.left, hstage, outcome_copyFrom, left_copyFrom]
    have hlength : (c.say [.fileClosed fd]).buffer.length = c.buffer.length := rfl
    refine ⟨?_, ?_⟩
    · show _ = (c.resultClose fd addr).map some
      rw [Call.resultClose, h]
      rfl
    · rw [hlength]
      show _ < c.buffer.length + 3
      split <;> omega
  | @copied addr copied hstage =>
    rw [Call.result, hstage, Call.left, hstage, outcome_copyFrom, left_copyFrom]
    refine ⟨rfl, ?_⟩
    show _ < c.buffer.length - copied + 2
    split <;> omega
  | @finished addr b g hstage h =>
    rw [Call.result, hstage, Call.left, hstage]
    refine ⟨?_, Nat.zero_lt_one⟩
    show _ = (c.finish addr).map some
    rw [h]
    rfl

theorem advance_error {p : Publisher P} {c : Call P} {x : Halt} (h : p.advance c = .error x) :
    c.result = .error x := by
  unfold advance at h
  split at h
  · split at h <;> cases h
  · split at h <;> cases h
  · split at h <;> cases h
  · split at h <;> cases h
  · split at h <;> cases h
  · cases h
  · rename_i addr hstage
    simp only [Call.result, hstage]
    cases hfinish : c.finish addr with
    | error y =>
      rw [hfinish] at h
      cases h
      rfl
    | ok r =>
      rw [hfinish] at h
      cases h

end Publisher

def Action.isCall {P : HttpParser} : Action P → Bool
  | .call _ _ _ => true
  | .advance | .read _ => false

def Action.isAdvance {P : HttpParser} : Action P → Bool
  | .advance => true
  | .call _ _ _ | .read _ => false

namespace Publisher

variable {P : HttpParser}

/-- Until the next call, what the call under way comes to is the same, and every step of it brings
it nearer to the end. -/
theorem step_outcome {p p' : Publisher P} {a : Action P} (ha : a.isCall = false)
    (h : step p a = .ok p') :
    p'.outcome = p.outcome ∧ p'.left ≤ p.left - [a].countP Action.isAdvance := by
  cases a with
  | call g buffer e => cases ha
  | read n =>
    cases h
    exact ⟨rfl, Nat.le_refl _⟩
  | advance =>
    simp only [step] at h
    split at h
    · rename_i hidle
      cases h
      refine ⟨rfl, ?_⟩
      rw [left, hidle]
      exact Nat.zero_le _
    · rename_i c hcall
      obtain ⟨hresult, hleft⟩ := (advance_cases h).outcome
      refine ⟨?_, ?_⟩
      · rw [hresult, outcome, hcall]
      · rw [left.eq_def p, hcall]
        exact Nat.le_pred_of_lt hleft

theorem run_outcome {as : List (Action P)} : ∀ {p q : Publisher P},
    (∀ a ∈ as, a.isCall = false) → run step p as = .ok q →
      q.outcome = p.outcome ∧ q.left ≤ p.left - as.countP Action.isAdvance := by
  induction as with
  | nil =>
    rintro p q - h
    cases h
    exact ⟨rfl, Nat.le_refl _⟩
  | cons a as ih =>
    intro p q has h
    obtain ⟨p', h₁, h₂⟩ := run_cons_ok.1 h
    obtain ⟨hfirst, hleft⟩ := step_outcome (has a List.mem_cons_self) h₁
    obtain ⟨hrest, hleft'⟩ := ih (fun b hb => has b (List.mem_cons_of_mem a hb)) h₂
    refine ⟨hrest.trans hfirst, ?_⟩
    have hcount : (a :: as).countP Action.isAdvance =
        [a].countP Action.isAdvance + as.countP Action.isAdvance := by
      rw [← List.countP_append]
      rfl
    omega

theorem step_error {p : Publisher P} {a : Action P} {x : Halt} (h : step p a = .error x) :
    p.outcome = .error x := by
  cases a with
  | call g buffer e =>
    simp only [step] at h
    split at h <;> cases h
  | read n => cases h
  | advance =>
    simp only [step] at h
    split at h
    · cases h
    · rename_i c hcall
      rw [outcome, hcall]
      simp only [advance_error h]
      rfl

theorem run_error {as : List (Action P)} {x : Halt} : ∀ {p : Publisher P},
    (∀ a ∈ as, a.isCall = false) → run step p as = .error x → p.outcome = .error x := by
  induction as with
  | nil =>
    rintro p - ⟨⟩
  | cons a as ih =>
    intro p has h
    rw [run] at h
    split at h
    · rename_i y hstep
      cases h
      exact step_error hstep
    · rename_i p' hstep
      rw [← (step_outcome (has a List.mem_cons_self) hstep).1]
      exact ih (fun b hb => has b (List.mem_cons_of_mem a hb)) h

/-- **The steps of a call make up `writeImageFile`,** however readers come in between. After
`buffer.length + 7` of them it has returned. -/
theorem published_result {p q : Publisher P} {g : Globals P} {buffer : List UInt8} {e : WriteEnv}
    {as : List (Action P)} (hidle : p.call = none) (has : ∀ a ∈ as, a.isCall = false)
    (h : run step p (.call g buffer e :: as) = .ok q) :
    q.outcome = (g.writeImageFile buffer e).map some ∧
      (buffer.length + 7 ≤ as.countP Action.isAdvance →
        q.call = none ∧ (g.writeImageFile buffer e).map some = .ok q.returned) := by
  obtain ⟨p', h₁, h₂⟩ := run_cons_ok.1 h
  simp only [step, hidle] at h₁
  cases h₁
  obtain ⟨hresult, hleft⟩ := run_outcome has h₂
  have hresult : q.outcome = (g.writeImageFile buffer e).map some := by
    rw [← Call.result_unlink]
    exact hresult
  refine ⟨hresult, fun hcount => ?_⟩
  have hstart : left { p with
      call := some (⟨g.say [.writeImage buffer], buffer, e, .unlink⟩ : Call P)
      returned := none } = buffer.length + 7 := rfl
  have hdone : q.call = none := by
    cases hcall : q.call with
    | none => rfl
    | some c =>
      have hpos : 0 < q.left := by
        rw [left, hcall]
        exact c.left_pos
      omega
  refine ⟨hdone, ?_⟩
  rw [← hresult, outcome, hdone]

/-- When a step of the call halts, so does the function. -/
theorem published_halts {p : Publisher P} {g : Globals P} {buffer : List UInt8} {e : WriteEnv}
    {as : List (Action P)} {x : Halt} (hidle : p.call = none) (has : ∀ a ∈ as, a.isCall = false)
    (h : run step p (.call g buffer e :: as) = .error x) :
    g.writeImageFile buffer e = .error x := by
  rw [run] at h
  simp only [step, hidle] at h
  have hhalts := run_error has h
  have hhalts : (g.writeImageFile buffer e).map some = .error x := by
    rw [← Call.result_unlink]
    exact hhalts
  cases hresult : g.writeImageFile buffer e with
  | error y =>
    rw [hresult] at hhalts
    cases hhalts
    rfl
  | ok r =>
    rw [hresult] at hhalts
    cases hhalts

/-! ## What the files hold -/

/-- The file has been created, and holds the bytes in place of its image. -/
def HoldsTorn (p : Publisher P) (n : Nat) (content : List UInt8) : Prop :=
  p.files n = some content ∧ p.torn n = true

/-- The file of the call is as far as the call is. -/
def Sound (p : Publisher P) (c : Call P) : Prop :=
  match c.stage with
  | .unlink | .munmap _ => True
  | .open => p.files c.number = none
  | .ftruncate _ => p.HoldsTorn c.number []
  | .mmap _ | .close _ _ => p.HoldsTorn c.number (List.replicate c.buffer.length 0)
  | .memcpy _ copied => copied < c.buffer.length ∧ p.HoldsTorn c.number
      (c.buffer.take copied ++ List.replicate (c.buffer.length - copied) 0)

/-- A file that is not torn is a complete image. -/
def Images (p : Publisher P) : Prop :=
  ∀ n content, p.files n = some content → p.torn n = false → .filled n content ∈ p.log

structure Consistent (p : Publisher P) : Prop where
  images : p.Images
  call : ∀ c, p.call = some c → p.Sound c

theorem start_consistent : Consistent (start P) := by
  refine ⟨?_, ?_⟩
  · rintro n content ⟨⟩
  · rintro c ⟨⟩

theorem copy_byte {buffer : List UInt8} {k : Nat} (h : k < buffer.length) :
    (buffer.take k ++ List.replicate (buffer.length - k) 0).set k (buffer.getD k 0) =
      buffer.take (k + 1) ++ List.replicate (buffer.length - (k + 1)) 0 := by
  have hlength : (buffer.take k).length = k := by
    rw [List.length_take]
    omega
  have hzeros : List.replicate (buffer.length - k) (0 : UInt8) =
      0 :: List.replicate (buffer.length - (k + 1)) 0 := by
    rw [← List.replicate_succ]
    congr 1
    omega
  rw [List.set_append_right _ _ (by omega), hlength, Nat.sub_self, hzeros, List.set_cons_zero,
    List.take_succ_eq_append_getElem h, List.append_assoc]
  simp [h]

/-- A step that changes one file leaves the images in the others. -/
theorem Images.update {p q : Publisher P} (hp : p.Images) (n : Nat)
    (hothers : ∀ m, m ≠ n → q.files m = p.files m ∧ q.torn m = p.torn m)
    (hn : ∀ content, q.files n = some content → q.torn n = false → .filled n content ∈ q.log)
    (hlog : ∀ o ∈ p.log, o ∈ q.log) : q.Images := by
  intro m content hfile htorn
  by_cases hm : m = n
  · rw [hm] at hfile htorn ⊢
    exact hn content hfile htorn
  · obtain ⟨hsame, huntorn⟩ := hothers m hm
    exact hlog _ (hp m content (hsame.symm.trans hfile) (huntorn.symm.trans htorn))

/-- The copy goes on, or it has come to its end and the image is complete. -/
theorem copyFrom_consistent {p : Publisher P} {c : Call P} {addr copied : Nat} (hp : p.Images)
    (hle : copied ≤ c.buffer.length) (hholds : p.HoldsTorn c.number
      (c.buffer.take copied ++ List.replicate (c.buffer.length - copied) 0)) :
    (p.copyFrom c addr copied).Consistent := by
  unfold copyFrom
  split
  · rename_i hlt
    refine ⟨hp, ?_⟩
    rintro d ⟨⟩
    exact ⟨hlt, hholds⟩
  · rename_i hlt
    obtain rfl : copied = c.buffer.length := by omega
    rw [List.take_length, Nat.sub_self, List.replicate_zero, List.append_nil] at hholds
    refine ⟨hp.update c.number (fun m hm => ⟨rfl, Function.update_of_ne hm _ _⟩) ?_
      fun o ho => List.mem_append_left _ ho, ?_⟩
    · intro content hfile _
      obtain rfl : c.buffer = content := Option.some.inj (hholds.1.symm.trans hfile)
      exact List.mem_append_right _ List.mem_cons_self
    · rintro d ⟨⟩
      trivial

theorem advanced_consistent {p p' : Publisher P} {c : Call P} (hp : p.Consistent)
    (hcall : p.call = some c) (h : Advanced p c p') : p'.Consistent := by
  have hsound := hp.call c hcall
  unfold Sound at hsound
  cases h with
  | failed h => exact ⟨hp.images, by rintro d ⟨⟩⟩
  | unlinked hstage h =>
    refine ⟨hp.images.update c.number (fun m hm => ?_) ?_ fun o ho => ho, ?_⟩
    · exact ⟨Function.update_of_ne hm _ _, Function.update_of_ne hm _ _⟩
    · intro content hfile
      have hfile : Function.update p.files c.number none c.number = some content := hfile
      rw [Function.update_self] at hfile
      cases hfile
    · rintro d ⟨⟩
      exact Function.update_self c.number none p.files
  | opened hstage h =>
    rw [hstage] at hsound
    have hnone : p.files c.number = none := hsound
    refine ⟨hp.images.update c.number (fun m hm => ?_) ?_ fun o ho => ho, ?_⟩
    · exact ⟨Function.update_of_ne hm _ _, Function.update_of_ne hm _ _⟩
    · intro content _ htorn
      cases (Function.update_self c.number true p.torn).symm.trans htorn
    · rintro d ⟨⟩
      rw [hnone]
      exact ⟨Function.update_self c.number _ p.files, Function.update_self c.number _ p.torn⟩
  | resized hstage h =>
    rw [hstage] at hsound
    obtain ⟨hfile, htorn⟩ := hsound
    refine ⟨hp.images.update c.number (fun m hm => ?_) ?_ fun o ho => ho, ?_⟩
    · exact ⟨Function.update_of_ne hm _ _, rfl⟩
    · intro content _ huntorn
      cases htorn.symm.trans huntorn
    · rintro d ⟨⟩
      refine ⟨?_, htorn⟩
      have hzeros : resize [] c.buffer.length = List.replicate c.buffer.length 0 := by
        simp [resize]
      rw [hfile, Option.map_some, hzeros]
      exact Function.update_self c.number _ p.files
  | mapped hstage h =>
    rw [hstage] at hsound
    refine ⟨hp.images, ?_⟩
    rintro d ⟨⟩
    exact hsound
  | closed hstage h =>
    rw [hstage] at hsound
    exact copyFrom_consistent hp.images (Nat.zero_le _) hsound
  | copied hstage =>
    rw [hstage] at hsound
    obtain ⟨hlt, hfile, htorn⟩ := hsound
    refine copyFrom_consistent (hp.images.update c.number (fun m hm => ?_) ?_ fun o ho => ho) hlt
      ⟨?_, htorn⟩
    · exact ⟨Function.update_of_ne hm _ _, rfl⟩
    · intro content _ huntorn
      cases htorn.symm.trans huntorn
    · rw [hfile, Option.map_some, copy_byte hlt]
      exact Function.update_self c.number _ p.files
  | finished hstage h => exact ⟨hp.images, by rintro d ⟨⟩⟩

theorem advanced_log {p p' : Publisher P} {c : Call P} (h : Advanced p c p') :
    Extends (fun o => ∀ n content, o ≠ .read n content) p.log p'.log := by
  have hcopy : ∀ (q : Publisher P) (d : Call P) (addr copied : Nat),
      Extends (fun o => ∀ n content, o ≠ .read n content) q.log (q.copyFrom d addr copied).log := by
    intro q d addr copied
    unfold copyFrom
    split
    · exact .refl _
    · exact .append (by simp)
  cases h with
  | failed | unlinked | opened | resized | mapped | finished => exact .refl _
  | closed => exact hcopy _ _ _ _
  | copied => exact hcopy _ _ _ _

/-! ## What readers see -/

/-- A reader gets no file, or an image that has been copied to its end before. -/
def ReadsImages (past : List Access) (o : Access) : Prop :=
  ∀ n content, o = .read n (some content) → .filled n content ∈ past

/-- No file is read that is torn. -/
def UntornRead (p : Publisher P) (a : Action P) : Prop :=
  ∀ n, a = .read n → p.torn n = false

theorem step_readers {p p' : Publisher P} {a : Action P}
    (hp : p.Consistent ∧ Always ReadsImages p.log) (ha : UntornRead p a) (h : step p a = .ok p') :
    p'.Consistent ∧ Always ReadsImages p'.log := by
  obtain ⟨hconsistent, halways⟩ := hp
  cases a with
  | call g buffer e =>
    simp only [step] at h
    split at h
    · cases h
      refine ⟨⟨hconsistent.images, ?_⟩, halways⟩
      rintro c ⟨⟩
      trivial
    · cases h
      exact ⟨hconsistent, halways⟩
  | advance =>
    simp only [step] at h
    split at h
    · cases h
      exact ⟨hconsistent, halways⟩
    · rename_i c hcall
      have hadvanced := advance_cases h
      refine ⟨advanced_consistent hconsistent hcall hadvanced, ?_⟩
      exact halways.extends (advanced_log hadvanced) fun o ho past n content hread =>
        absurd hread (ho n _)
  | read n =>
    cases h
    refine ⟨⟨fun m content hfile htorn => ?_, hconsistent.call⟩, halways.append ?_⟩
    · exact List.mem_append_left _ (hconsistent.images m content hfile htorn)
    · intro past o later hlog m content hread
      obtain ⟨rfl, rfl⟩ : past = [] ∧ o = .read n (p.files n) := by
        cases past with
        | nil => exact ⟨rfl, (List.cons.inj hlog).1.symm⟩
        | cons x past => simp at hlog
      obtain ⟨rfl, hfile⟩ := Access.read.inj hread
      rw [List.append_nil]
      exact hconsistent.images n content hfile (ha n rfl)

/-- **Readers of the files.** In every interleaving of publications with readers none of which
reads a torn file, each of them gets a complete image, or no file. -/
theorem readers_see_images {p : Publisher P} {as : List (Action P)}
    (h : run step (start P) as = .ok p) (hreads : Meets step UntornRead (start P) as) :
    Always ReadsImages p.log :=
  (run_invariant_of_meets (fun _ _ _ => step_readers) ⟨start_consistent, always_nil⟩ hreads h).2

/-- The publication of an image of two bytes. -/
def sampleActions (g : Globals P) : List (Action P) :=
  .call g [0xff, 0xd8] writeAll :: List.replicate 8 .advance

theorem readers_see_images_sample : ∃ p : Publisher .untilEof,
    .read 0 (some [0xff, 0xd8]) ∈ p.log ∧ Always ReadsImages p.log := by
  obtain ⟨p, hrun, hlog, htorn⟩ : ∃ p, run step (start .untilEof)
      (sampleActions (Globals.configured .untilEof [] [] [] 1)) = .ok p ∧
        (p.log ++ [.read 0 (p.files 0)] = [.filled 0 [0xff, 0xd8], .read 0 (some [0xff, 0xd8])]) ∧
        p.torn 0 = false :=
    ⟨_, rfl, rfl, rfl⟩
  have hread : step p (.read 0) = .ok { p with log := p.log ++ [.read 0 (p.files 0)] } := rfl
  have hall := run_append_ok.2 ⟨p, hrun, run_cons_ok.2 ⟨_, hread, run_nil _⟩⟩
  refine ⟨_, ?_, readers_see_images hall ((meets_append_ok hrun).2 ⟨?_, ?_, fun _ _ => trivial⟩)⟩
  · show Access.read 0 _ ∈ p.log ++ [.read 0 (p.files 0)]
    rw [hlog]
    exact List.mem_cons_of_mem _ List.mem_cons_self
  · -- the publication itself reads nothing
    have hnone : ∀ a ∈ sampleActions (Globals.configured .untilEof [] [] [] 1),
        ∀ n, a ≠ .read n := by
      simp [sampleActions]
    exact (meets_of_forall hnone).mono fun q a ha n hn => absurd hn (ha n)
  · rintro n ⟨⟩
    exact htorn

/-- Whatever is published, a reader that comes when the file has just been created finds it
empty. -/
theorem created_empty {p : Publisher P} {g : Globals P} {buffer : List UInt8} {e : WriteEnv}
    {fd : Nat} (hidle : p.call = none) (hunlink : e.unlink ≠ .error) (hopen : e.open = some fd) :
    ∃ q, run step p [.call g buffer e, .advance, .advance, .read g.cameraIterator] = .ok q ∧
      q.log = p.log ++ [.read g.cameraIterator (some [])] := by
  simp only [run, step, hidle, advance, if_neg hunlink, hopen]
  refine ⟨_, rfl, ?_⟩
  simp [Call.number, setFile, Globals.say]

theorem not_readers_see_images : ∃ (p : Publisher .untilEof) (as : List (Action .untilEof)),
    run step (start .untilEof) as = .ok p ∧ ¬ Always ReadsImages p.log := by
  obtain ⟨p, hrun, hlog⟩ := @created_empty .untilEof (start .untilEof)
    (Globals.configured .untilEof [] [] [] 1) [0xff, 0xd8] writeAll 7 rfl (by decide) rfl
  refine ⟨p, _, hrun, fun halways => ?_⟩
  have hread := halways [] _ [] hlog _ _ rfl
  cases hread

end Publisher

end Rsva11001
