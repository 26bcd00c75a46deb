import Rsva11001.Verify.HttpMachine

/-!
# A callback for the body that may refuse

With no other callback than `on_body`, `http_parser_execute` hands it the slices it hands to the
recording one, in order, up to the first that it refuses (`execute_bodyOnly`). Until then the
callback has no influence on the parser, and behind it the parser is in an error state.
-/

namespace Rsva11001.Http

universe u

section Deliver

variable {σ : Type u} (callback : σ → List UInt8 → σ × Bool)

/-- Hands out slices up to the first that is refused, and says whether none is. -/
def deliver : σ → List (List UInt8) → σ × Bool
  | user, [] => (user, true)
  | user, slice :: slices =>
    if (callback user slice).2 then deliver (callback user slice).1 slices
    else ((callback user slice).1, false)

/-- The settings of an application that is interested in the body only. -/
def bodyOnly : Settings σ where
  onBody := some fun _ user data =>
    ⟨if (callback user data).2 then 0 else 1, false, (callback user data).1⟩

variable {callback}

theorem deliver_append (user : σ) (slices more : List (List UInt8)) :
    deliver callback user (slices ++ more) =
      if (deliver callback user slices).2 then
        deliver callback (deliver callback user slices).1 more
      else deliver callback user slices := by
  induction slices generalizing user with
  | nil => rfl
  | cons slice slices ih =>
    rw [List.cons_append, deliver, deliver]
    split
    · exact ih _
    · rfl

/-- What comes behind a refused slice is not handed out. -/
theorem deliver_of_front {user last : σ} {slices all : List (List UInt8)}
    (h : deliver callback user slices = (last, false)) (hall : slices <+: all) :
    deliver callback user all = (last, false) := by
  obtain ⟨more, rfl⟩ := hall
  rw [deliver_append, h, if_neg (by simp)]

end Deliver

/-! ## The recording settings only add slices -/

section Grows

variable {frame next : Frame (List (List UInt8))}

/-- Whatever becomes of a byte, the slices are still there. -/
def Flow.Holds (slices : List (List UInt8)) : Flow (List (List UInt8)) → Prop
  | .advance frame _ | .stop frame _ => slices <+: frame.user
  | .abort _ => True

theorem Flow.Holds.mono {slices more : List (List UInt8)} {flow : Flow (List (List UInt8))}
    (h : flow.Holds more) (hmore : slices <+: more) : flow.Holds slices := by
  cases flow with
  | advance frame skip => exact hmore.trans h
  | stop frame read => exact hmore.trans h
  | abort which => trivial

theorem call_grows {through : List UInt8} {call : Option Call}
    (h : frame.call record through call = .ok next) : frame.user <+: next.user := by
  by_cases hok : frame.parser.httpErrno = .ok
  · obtain ⟨marks, hcall, -⟩ := record_call hok through call
    obtain rfl := Except.ok.inj (hcall.symm.trans h)
    dsimp only
    split
    · exact List.prefix_append _ _
    · exact List.prefix_refl _
  · match call with
    | none | some .headersComplete =>
      obtain rfl := Except.ok.inj h
      exact List.prefix_refl _
    | some (.notify which) =>
      rw [Frame.call, Frame.notify, if_pos hok] at h
      cases h
    | some (.data field) | some (.dataNoadvance field) | some .bodyThrough =>
      rw [Frame.call, Frame.data, if_pos hok] at h
      cases h

section Perform

variable {again : Frame (List (List UInt8)) → Nat → List UInt8 → Flow (List (List UInt8))}
  (hagain : ∀ frame skipped ahead, (again frame skipped ahead).Holds frame.user)

include hagain

theorem finishMove_grows (move : Move) (frame : Frame (List (List UInt8))) (skipped : Nat)
    (ahead : List UInt8) :
    (perform.finishMove move again frame skipped ahead).Holds frame.user := by
  unfold perform.finishMove
  cases move.next with
  | again => exact hagain _ _ _
  | abort which => trivial
  | advance => exact List.prefix_refl _
  | error => exact List.prefix_refl _
  | leave => exact List.prefix_refl _

theorem perform_grows (move : Move) (frame : Frame (List (List UInt8))) (skipped : Nat)
    (ahead : List UInt8) : (perform record frame move skipped ahead again).Holds frame.user := by
  unfold perform
  dsimp only
  split
  · trivial
  · rename_i next hcall
    have hgrows := call_grows hcall
    split
    · split
      · exact hgrows
      · exact (finishMove_grows hagain move next _ _).mono hgrows
    · exact (finishMove_grows hagain move next _ _).mono hgrows

end Perform

theorem reexecute_grows (ch : UInt8) (passes : Nat) (frame : Frame (List (List UInt8)))
    (skipped : Nat) (ahead : List UInt8) :
    (reexecute record ch passes frame skipped ahead).Holds frame.user := by
  induction passes generalizing frame skipped ahead with
  | zero => trivial
  | succ passes ih => exact perform_grows ih _ _ _ _

theorem finishGo_grows {fields : List Field} {frame : Frame (List (List UInt8))} {read : Nat}
    {o : Outcome (List (List UInt8))} (h : Frame.finish.go record read frame fields = .ok o) :
    frame.user <+: o.user := by
  induction fields generalizing frame with
  | nil =>
    obtain rfl := Except.ok.inj h
    exact List.prefix_refl _
  | cons field fields ih =>
    rw [Frame.finish.go] at h
    split at h
    · cases h
    · rename_i next hdata
      have hgrows : frame.user <+: next.user := @call_grows _ _ [] (some (.data field)) hdata
      split at h
      · obtain rfl := Except.ok.inj h
        exact hgrows
      · exact hgrows.trans (ih h)

theorem finish_grows {frame : Frame (List (List UInt8))} {read : Nat}
    {o : Outcome (List (List UInt8))} (h : frame.finish record read = .ok o) :
    frame.user <+: o.user := by
  unfold Frame.finish at h
  split at h
  · cases h
  · exact finishGo_grows h

theorem loop_grows {frame : Frame (List (List UInt8))} {read skip : Nat} {data : List UInt8}
    {o : Outcome (List (List UInt8))} (h : loop record frame read skip data = .ok o) :
    frame.user <+: o.user := by
  induction data generalizing frame read skip with
  | nil => exact finish_grows h
  | cons ch rest ih =>
    cases skip with
    | succ skip => exact ih h
    | zero =>
      unfold loop at h
      dsimp only at h
      split at h
      · obtain rfl := Except.ok.inj h
        exact List.prefix_refl _
      · have hgrows := reexecute_grows ch PASSES { frame with parser := frame.parser.counted } 0
          (ch :: rest)
        split at h
        · cases h
        · rename_i next n hflow
          rw [hflow] at hgrows
          obtain rfl := Except.ok.inj h
          exact hgrows
        · rename_i next skip hflow
          rw [hflow] at hgrows
          exact List.IsPrefix.trans hgrows (ih h)

end Grows

/-! ## Both settings side by side -/

section Simulation

variable {σ : Type u} {callback : σ → List UInt8 → σ × Bool} {start : σ}

variable (callback start) in
/-- Both frames are at the same point, and every slice so far has been accepted. -/
structure Same (f : Frame (List (List UInt8))) (g : Frame σ) : Prop where
  parser : g.parser = f.parser
  marks : g.marks = f.marks
  user : deliver callback start f.user = (g.user, true)

variable (callback start) in
/-- One of the slices has been refused. -/
structure Refused (slices : List (List UInt8)) (parser : Parser) (user : σ) : Prop where
  errno : parser.httpErrno = .cbBody
  user : deliver callback start slices = (user, false)

variable (callback start) in
/-- A macro under both settings. When a slice is refused, the recording frame still holds it. -/
inductive CallSame : Except Assertion (Frame (List (List UInt8))) →
    Except Assertion (Frame σ) → Prop where
  | error (which : Assertion) : CallSame (.error which) (.error which)
  | same {f : Frame (List (List UInt8))} {g : Frame σ} :
    Same callback start f g → CallSame (.ok f) (.ok g)
  | refused {f : Frame (List (List UInt8))} {g : Frame σ} : f.parser.httpErrno = .ok →
    Refused callback start f.user g.parser g.user → CallSame (.ok f) (.ok g)

variable (callback start) in
/-- A byte under both settings. -/
inductive FlowSame : Flow (List (List UInt8)) → Flow σ → Prop where
  | advance {f : Frame (List (List UInt8))} {g : Frame σ} {skip : Nat} :
    Same callback start f g → FlowSame (.advance f skip) (.advance g skip)
  | stop {f : Frame (List (List UInt8))} {g : Frame σ} {read : Nat} :
    Same callback start f g → FlowSame (.stop f read) (.stop g read)
  | abort (which : Assertion) : FlowSame (.abort which) (.abort which)
  | refused {slices : List (List UInt8)} {flow : Flow (List (List UInt8))} {g : Frame σ}
    {read : Nat} : flow.Holds slices → Refused callback start slices g.parser g.user →
    FlowSame flow (.stop g read)

variable (callback start) in
/-- A block under both settings, `o` being the recording outcome. -/
structure Delivered (o : Outcome (List (List UInt8))) (last : Outcome σ) : Prop where
  user : (deliver callback start o.user).1 = last.user
  same : (deliver callback start o.user).2 = true → last.parser = o.parser ∧ last.read = o.read
  refused : (deliver callback start o.user).2 = false → last.parser.httpErrno = .cbBody

variable {f : Frame (List (List UInt8))} {g : Frame σ}

theorem Same.delivered (h : Same callback start f g) (read : Nat) :
    Delivered callback start ⟨f.parser, f.user, read⟩ ⟨g.parser, g.user, read⟩ where
  user := by rw [h.user]
  same := fun _ => ⟨h.parser, rfl⟩
  refused := by simp [h.user]

theorem Refused.errno_ne {slices : List (List UInt8)} {parser : Parser} {user : σ}
    (h : Refused callback start slices parser user) : parser.httpErrno ≠ .ok := by
  rw [h.errno]
  decide

theorem Refused.delivered {slices : List (List UInt8)} {parser : Parser} {user : σ}
    (h : Refused callback start slices parser user) {o : Outcome (List (List UInt8))}
    (ho : slices <+: o.user) (read : Nat) : Delivered callback start o ⟨parser, user, read⟩ where
  user := by rw [deliver_of_front h.user ho]
  same := by simp [deliver_of_front h.user ho]
  refused := fun _ => h.errno

theorem data_same (h : Same callback start f g) (field : Field) (more : List UInt8) :
    CallSame callback start (f.data record field more)
      (g.data (bodyOnly callback) field more) := by
  obtain ⟨parser, marks, slices⟩ := f
  obtain ⟨parser', marks', user⟩ := g
  obtain ⟨hparser, hmarks, huser⟩ := h
  dsimp only at hparser hmarks huser
  subst hparser hmarks
  by_cases hok : parser'.httpErrno = .ok
  swap
  · unfold Frame.data
    rw [if_pos hok, if_pos hok]
    exact .error _
  unfold Frame.data
  rw [if_neg (not_not.2 hok), if_neg (not_not.2 hok)]
  cases hmark : marks'.get field with
  | none => exact .same ⟨rfl, rfl, huser⟩
  | some bytes =>
    by_cases hbody : field = .body
    · subst hbody
      have hdeliver : deliver callback start (slices ++ [bytes ++ more]) =
          callback user (bytes ++ more) := by
        rw [deliver_append, huser, if_pos rfl, deliver, deliver]
        split
        · rename_i hret
          exact Prod.ext rfl hret.symm
        · rename_i hret
          exact Prod.ext rfl (Bool.eq_false_iff.2 hret).symm
      cases hret : (callback user (bytes ++ more)).2 with
      | true =>
        simp only [Settings.dataCallback, record, bodyOnly, Frame.replied, hret, if_true, hok,
          ne_eq, not_true_eq_false, if_false, Bool.false_eq_true]
        exact .same ⟨rfl, rfl, hdeliver.trans (Prod.ext rfl hret)⟩
      | false =>
        simp only [Settings.dataCallback, record, bodyOnly, Frame.replied, hret, hok,
          ne_eq, not_true_eq_false, not_false_eq_true, if_false, if_true, Bool.false_eq_true,
          Field.errno, reduceCtorEq, Int.reduceEq]
        exact .refused hok ⟨rfl, hdeliver.trans (Prod.ext rfl hret)⟩
    · have hnone : (record.dataCallback field).isNone ∧
          ((bodyOnly callback).dataCallback field).isNone := by
        cases field <;> simp_all [Settings.dataCallback, record, bodyOnly]
      rw [Option.isNone_iff_eq_none.1 hnone.1, Option.isNone_iff_eq_none.1 hnone.2]
      simp only [hok, ne_eq, not_true_eq_false, if_false]
      exact .same ⟨rfl, rfl, huser⟩

theorem call_same (h : Same callback start f g) (through : List UInt8) (call : Option Call) :
    CallSame callback start (f.call record through call)
      (g.call (bodyOnly callback) through call) := by
  match call with
  | none | some .headersComplete => exact .same h
  | some (.notify which) =>
    have hnone : (record.noticeCallback which) = none ∧
        ((bodyOnly callback).noticeCallback which) = none := by
      cases which <;> exact ⟨rfl, rfl⟩
    unfold Frame.call Frame.notify
    dsimp only
    rw [hnone.1, hnone.2, h.parser]
    split
    · exact .error _
    · exact .same h
  | some (.data field) | some (.dataNoadvance field) | some .bodyThrough => exact data_same h _ _

section Perform

variable {again : Frame (List (List UInt8)) → Nat → List UInt8 → Flow (List (List UInt8))}
  {again' : Frame σ → Nat → List UInt8 → Flow σ}
  (hagain : ∀ f g skipped ahead, Same callback start f g →
    FlowSame callback start (again f skipped ahead) (again' g skipped ahead))

include hagain

theorem finishMove_same (h : Same callback start f g) (move : Move) (skipped : Nat)
    (ahead : List UInt8) :
    FlowSame callback start (perform.finishMove move again f skipped ahead)
      (perform.finishMove move again' g skipped ahead) := by
  unfold perform.finishMove
  cases move.next with
  | advance => exact .advance ⟨h.parser, by dsimp only; rw [h.marks], h.user⟩
  | again => exact hagain _ _ _ _ h
  | error => exact .stop ⟨by dsimp only; rw [h.parser], h.marks, h.user⟩
  | leave => exact .stop h
  | abort which => exact .abort which

theorem perform_same (hgrows : ∀ f skipped ahead, (again f skipped ahead).Holds f.user)
    (h : Same callback start f g) (move : Move) (skipped : Nat) (ahead : List UInt8) :
    FlowSame callback start (perform record f move skipped ahead again)
      (perform (bodyOnly callback) g move skipped ahead again') := by
  have hmark : Same callback start
      { f with
        parser := move.parser
        marks := (f.marks.mark move.mark).pass (ahead.take move.skip) }
      { g with
        parser := move.parser
        marks := (g.marks.mark move.mark).pass (ahead.take move.skip) } :=
    ⟨rfl, by dsimp only; rw [h.marks], h.user⟩
  unfold perform
  dsimp only
  cases move.call with
  | none => exact finishMove_same hagain hmark _ _ _
  | some call =>
    have hcall := call_same hmark ((ahead.drop move.skip).take 1) (some call)
    revert hcall
    generalize Frame.call record _ _ _ = r
    generalize Frame.call (bodyOnly callback) _ _ _ = r'
    rintro (which | hsame | ⟨hok, hrefused⟩)
    · exact .abort which
    · dsimp only
      rw [hsame.parser]
      split
      · exact .stop hsame
      · exact finishMove_same hagain hsame _ _ _
    · -- the recording settings go on
      dsimp only
      rw [if_neg (not_not.2 hok), if_pos hrefused.errno_ne]
      exact .refused (finishMove_grows hgrows _ _ _ _) hrefused

end Perform

theorem reexecute_same (ch : UInt8) (passes : Nat) (h : Same callback start f g) (skipped : Nat)
    (ahead : List UInt8) :
    FlowSame callback start (reexecute record ch passes f skipped ahead)
      (reexecute (bodyOnly callback) ch passes g skipped ahead) := by
  induction passes generalizing f g skipped ahead with
  | zero => exact .abort _
  | succ passes ih =>
    unfold reexecute
    rw [h.parser]
    exact perform_same (fun f g skipped ahead h => ih h skipped ahead)
      (fun f skipped ahead => reexecute_grows ch passes f skipped ahead) h _ _ _

theorem finish_same (h : Same callback start f g) (read : Nat)
    {o : Outcome (List (List UInt8))} (ho : f.finish record read = .ok o) :
    ∃ last, g.finish (bodyOnly callback) read = .ok last ∧ Delivered callback start o last := by
  have hgo : ∀ (fields : List Field) (f : Frame (List (List UInt8))) (g : Frame σ),
      Same callback start f g → Frame.finish.go record read f fields = .ok o →
      ∃ last, Frame.finish.go (bodyOnly callback) read g fields = .ok last ∧
        Delivered callback start o last := by
    intro fields
    induction fields with
    | nil =>
      intro f g h ho
      obtain rfl := Except.ok.inj ho
      exact ⟨_, rfl, h.delivered read⟩
    | cons field fields ih =>
      intro f g h ho
      have hcall := data_same h field []
      rw [Frame.finish.go] at ho ⊢
      revert hcall ho
      generalize Frame.data record f field [] = r
      generalize Frame.data (bodyOnly callback) g field [] = r'
      rintro ho (which | hsame | ⟨hok, hrefused⟩)
      · cases ho
      · dsimp only at ho ⊢
        rw [hsame.parser]
        split
        · rename_i herr
          rw [if_pos herr] at ho
          obtain rfl := Except.ok.inj ho
          have hdelivered := hsame.delivered read
          rw [hsame.parser] at hdelivered
          exact ⟨_, rfl, hdelivered⟩
        · rename_i herr
          rw [if_neg herr] at ho
          exact ih _ _ hsame ho
      · dsimp only at ho ⊢
        rw [if_neg (not_not.2 hok)] at ho
        rw [if_pos hrefused.errno_ne]
        exact ⟨_, rfl, hrefused.delivered (finishGo_grows ho) read⟩
  unfold Frame.finish at ho ⊢
  rw [h.marks]
  split
  · rename_i hmarks
    rw [if_pos hmarks] at ho
    cases ho
  · rename_i hmarks
    rw [if_neg hmarks] at ho
    exact hgo _ _ _ h ho

theorem loop_same (h : Same callback start f g) {read skip : Nat} {data : List UInt8}
    {o : Outcome (List (List UInt8))} (ho : loop record f read skip data = .ok o) :
    ∃ last, loop (bodyOnly callback) g read skip data = .ok last ∧
      Delivered callback start o last := by
  induction data generalizing f g read skip with
  | nil => exact finish_same h read ho
  | cons ch rest ih =>
    cases skip with
    | succ skip => exact ih h ho
    | zero =>
      have hflow := reexecute_same ch PASSES
        (⟨by dsimp only; rw [h.parser], h.marks, h.user⟩ : Same callback start
          { f with parser := f.parser.counted } { g with parser := g.parser.counted })
        0 (ch :: rest)
      unfold loop at ho ⊢
      dsimp only at ho ⊢
      rw [h.parser] at hflow ⊢
      split
      · rename_i hover
        rw [if_pos hover] at ho
        obtain rfl := Except.ok.inj ho
        exact ⟨_, rfl, by rw [h.user], fun _ => ⟨rfl, rfl⟩, by simp [h.user]⟩
      · rename_i hover
        rw [if_neg hover] at ho
        revert hflow ho
        generalize reexecute record ch PASSES _ 0 (ch :: rest) = flow
        generalize reexecute (bodyOnly callback) ch PASSES _ 0 (ch :: rest) = flow'
        rintro (hsame | hsame | which | ⟨hholds, hrefused⟩) ho
        · exact ih hsame ho
        · obtain rfl := Except.ok.inj ho
          exact ⟨_, rfl, hsame.delivered _⟩
        · cases ho
        · refine ⟨_, rfl, hrefused.delivered ?_ _⟩
          cases flow with
          | abort which => cases ho
          | stop f n =>
            obtain rfl := Except.ok.inj ho
            exact hholds
          | advance f skip => exact List.IsPrefix.trans hholds (loop_grows ho)

/-- **The callback's slices are the recorded ones.** It gets them in order, up to the first that it
refuses. If it refuses none, the parser and the value returned are as with the recording callback;
otherwise the parser has the error of the callback. -/
theorem execute_bodyOnly {parser : Parser} (hok : parser.httpErrno = .ok) {data : List UInt8}
    (hdata : data ≠ []) {o : Outcome (List (List UInt8))}
    (ho : execute record parser [] data = .ok o) (callback : σ → List UInt8 → σ × Bool)
    (start : σ) : ∃ last, execute (bodyOnly callback) parser start data = .ok last ∧
      Delivered callback start o last := by
  unfold execute at ho ⊢
  rw [if_neg (not_not.2 hok), if_neg hdata] at ho ⊢
  exact loop_same (g := ⟨parser, Marks.start parser.state, start⟩) ⟨rfl, rfl, rfl⟩ ho

end Simulation

end Rsva11001.Http
