import Rsva11001.Verify.HttpSafety

/-!
# The HTTP parser reads bytes one at a time

In a body `http_parser_execute` moves over as many bytes at once as the body and the block have.
Such a move is the same as moving over its bytes one at a time: `loop_eq_bytewise` says so of every
block, every parser and every set of callbacks, the callbacks made and the value returned included.
-/

namespace Rsva11001.Http

universe u

/-- The states in which the switch moves over several bytes: those in which a byte is body. -/
def State.bulk (s : State) : Bool :=
  s = .chunkData ∨ s = .bodyIdentity ∨ s = .bodyIdentityEof

/-- The states in which the bytes of a body are marked or delivered. -/
def State.inBody (s : State) : Bool :=
  s.bulk || s = .chunkDataAlmostDone

theorem bulk_of_not_inBody {s : State} (h : s.inBody = false) : s.bulk = false := by
  unfold State.inBody at h
  exact (Bool.or_eq_false_iff.1 h).1

section Switch

/-- The move stays at its byte, does not execute it again in the middle of a body, and leaves the
mark of a body alone, unless it delivers it behind a chunk. -/
structure Move.Single (m : Move) (s : State) : Prop where
  skip : m.skip = 0
  again : m.next = .again → m.parser.state.inBody = false
  mark : m.mark ≠ some .body
  delivers : Call.delivers .body m.call = true → s = .chunkDataAlmostDone

variable {s : State}

/-- A case that breaks or fails and has nothing to do with a body. -/
theorem single_of {m : Move} (hskip : m.skip = 0) (hnext : m.next ≠ .again)
    (hmark : m.mark ≠ some .body) (hcall : Call.delivers .body m.call = false) : m.Single s :=
  ⟨hskip, fun h => absurd h hnext, hmark, fun h => by simp [hcall] at h⟩

theorem single_refuse (parser : Parser) (e : Errno) : (refuse parser e).Single s :=
  single_of rfl (by simp [refuse]) (by simp [refuse]) rfl

theorem Move.Single.strictCheck {cond : Prop} [Decidable cond] {parser : Parser} {m : Move}
    (h : m.Single s) : (strictCheck cond parser m).Single s := by
  unfold Http.strictCheck
  split
  · exact single_refuse parser .strict
  · exact h

theorem Move.Single.asserting {cond : Prop} [Decidable cond] {parser : Parser} {a : Assertion}
    {m : Move} (h : m.Single s) : (asserting cond parser a m).Single s := by
  unfold Http.asserting
  split
  · exact h
  · exact single_of rfl (by simp) (by simp) rfl

theorem single_complete (parser : Parser) : (complete parser).Single s :=
  single_of rfl (by simp [complete]) (by simp [complete]) rfl

theorem single_lengthDigit (parser : Parser) (base : UInt64) (value : Nat) :
    (lengthDigit parser base value).Single s := by
  unfold lengthDigit
  dsimp only
  split
  · exact single_refuse _ _
  · exact single_of rfl (by simp) (by simp) rfl

theorem single_headerField (parser : Parser) (ch : UInt8) : (headerField parser ch).Single s := by
  unfold headerField
  repeat' split
  all_goals exact single_of rfl (by simp [refuse]) (by simp [refuse]) rfl

theorem single_headerValueStart (parser : Parser) (ch : UInt8) :
    (headerValueStart parser ch).Single s := by
  unfold headerValueStart
  split
  · exact single_of rfl (by simp) (by simp) rfl
  dsimp only
  repeat' split
  all_goals exact single_of rfl (by simp [refuse]) (by simp) rfl

theorem single_headerValue (parser : Parser) (ch : UInt8) : (headerValue parser ch).Single s := by
  unfold headerValue
  split
  · exact single_of rfl (by simp) (by simp) rfl
  split
  · exact ⟨rfl, fun _ => rfl, by simp, by simp [Call.delivers]⟩
  dsimp only
  split
  case h_4 =>
    split
    · exact single_of rfl (by simp) (by simp) rfl
    split
    · exact single_refuse _ _
    · exact single_lengthDigit _ _ _
  all_goals
    repeat' split
    all_goals exact single_of rfl (by simp) (by simp) rfl

theorem single_headersDone (parser : Parser) (ch : UInt8) : (headersDone parser ch).Single s := by
  unfold headersDone
  apply Move.Single.strictCheck
  dsimp only
  repeat' split
  all_goals exact single_of rfl (by simp [complete]) (by simp [complete]) rfl

theorem single_chunkSize (parser : Parser) (ch : UInt8) : (chunkSize parser ch).Single s := by
  unfold chunkSize
  apply Move.Single.asserting
  split
  · exact single_of rfl (by simp) (by simp) rfl
  split
  · split
    · exact single_of rfl (by simp) (by simp) rfl
    · exact single_refuse _ _
  · exact single_lengthDigit _ _ _

/-- Outside a body one pass through the switch stays at its byte. -/
theorem single_switch {parser : Parser} (hs : parser.state.bulk = false) (ch : UInt8)
    (left : Nat) : (switch parser ch left).Single parser.state := by
  unfold switch
  cases hstate : parser.state
  case chunkData | bodyIdentity | bodyIdentityEof =>
    rw [hstate] at hs
    cases hs
  case headerField => exact single_headerField parser ch
  case headerValueStart => exact single_headerValueStart parser ch
  case headerValue => exact single_headerValue parser ch
  case headersDone => exact single_headersDone parser ch
  case chunkSize => exact single_chunkSize parser ch
  case messageDone => exact single_complete parser
  case reqMethod =>
    show (reqMethod parser ch).Single .reqMethod
    unfold reqMethod
    split
    · exact single_refuse _ _
    split
    · exact single_of rfl (by simp) (by simp) rfl
    dsimp only
    repeat' split
    all_goals exact single_of rfl (by simp [refuse]) (by simp [refuse]) rfl
  case startReq =>
    show (startReq parser ch).Single .startReq
    unfold startReq
    repeat' split
    all_goals exact single_of rfl (by simp [refuse]) (by simp [refuse]) rfl
  case headerFieldStart =>
    show (headerFieldStart parser ch).Single .headerFieldStart
    unfold headerFieldStart
    split
    · exact single_of rfl (by simp) (by simp) rfl
    split
    · exact ⟨rfl, fun _ => rfl, by simp, by simp [Call.delivers]⟩
    split
    · exact single_refuse _ _
    · exact single_of rfl (by simp) (by simp) rfl
  case headersAlmostDone =>
    apply Move.Single.strictCheck
    split
    · exact single_complete parser
    · exact ⟨rfl, fun _ => rfl, by simp, by simp [Call.delivers]⟩
  case chunkSizeStart =>
    apply Move.Single.asserting
    apply Move.Single.asserting
    split
    · exact single_refuse _ _
    · exact single_of rfl (by simp) (by simp) rfl
  case chunkSizeAlmostDone =>
    apply Move.Single.asserting
    apply Move.Single.strictCheck
    dsimp only
    split <;> exact single_of rfl (by simp) (by simp) rfl
  case chunkParameters =>
    apply Move.Single.asserting
    split <;> exact single_of rfl (by simp) (by simp) rfl
  case chunkDataAlmostDone =>
    apply Move.Single.asserting
    apply Move.Single.asserting
    apply Move.Single.strictCheck
    exact ⟨rfl, by simp, by simp, fun _ => rfl⟩
  case chunkDataDone =>
    apply Move.Single.asserting
    apply Move.Single.strictCheck
    exact single_of rfl (by simp) (by simp) rfl
  case startReqOrRes =>
    dsimp only
    split
    · exact single_of rfl (by simp) (by simp) rfl
    split
    · exact single_of rfl (by simp) (by simp) rfl
    · exact ⟨rfl, fun _ => rfl, by simp, by simp [Call.delivers]⟩
  case headerValueLws =>
    dsimp only
    split
    · exact single_of rfl (by simp) (by simp) rfl
    · exact ⟨rfl, fun _ => rfl, by simp, by simp [Call.delivers]⟩
  all_goals
    dsimp only [Http.strictCheck, versionDigit, urlChar]
    repeat' split
    all_goals exact single_of rfl (by simp [refuse]) (by simp [refuse]) rfl

/-- Outside a body the switch does not ask how many bytes are left. -/
theorem switch_left {parser : Parser} (hs : parser.state.bulk = false) (ch : UInt8)
    (left left' : Nat) : switch parser ch left = switch parser ch left' := by
  unfold switch
  cases hstate : parser.state
  case chunkData | bodyIdentity | bodyIdentityEof =>
    rw [hstate] at hs
    cases hs
  all_goals rfl

end Switch

section Reexecute

variable {σ : Type u} {settings : Settings σ}

/-- A macro does not change the state of the parser. -/
theorem call_state {frame next : Frame σ} {through : List UInt8} {call : Option Call}
    (h : frame.call settings through call = .ok next) : next.parser.state = frame.parser.state := by
  have hreplied : ∀ (reply : Reply σ) (e : Errno),
      (frame.replied reply e).parser.state = frame.parser.state := by
    intro reply e
    unfold Frame.replied
    dsimp only
    repeat' split
    all_goals rfl
  have hdata : ∀ field more, frame.data settings field more = .ok next →
      next.parser.state = frame.parser.state := by
    intro field more h
    unfold Frame.data at h
    split at h
    · cases h
    split at h
    · cases h
      rfl
    dsimp only at h
    split at h
    · split at h <;> cases h <;> rfl
    · split at h
      all_goals
        cases h
        exact hreplied _ _
  unfold Frame.call at h
  split at h
  · cases h
    rfl
  · unfold Frame.notify at h
    split at h
    · cases h
    split at h
    · cases h
      rfl
    · cases h
      exact hreplied _ _
  · exact hdata _ _ h
  · exact hdata _ _ h
  · exact hdata _ _ h
  · cases h
    unfold Frame.headersComplete
    split
    · rfl
    dsimp only
    split
    · unfold Frame.replied
      dsimp only
      rw [if_neg (by simp)]
      split <;> rfl
    · exact hreplied _ _

/-- The flow of a byte that is one byte further on in the block. -/
def Flow.shift : Flow σ → Flow σ
  | .advance frame skip => .advance frame (skip + 1)
  | .stop frame read => .stop frame (read + 1)
  | .abort which => .abort which

theorem perform_shift {again : Frame σ → Nat → List UInt8 → Flow σ}
    (hagain : ∀ frame k bytes, again frame (k + 1) bytes = (again frame k bytes).shift)
    (frame : Frame σ) (m : Move) (skipped : Nat) (ahead : List UInt8) :
    perform settings frame m (skipped + 1) ahead again =
      (perform settings frame m skipped ahead again).shift := by
  have hfinish : ∀ (next : Frame σ) (k : Nat) (bytes : List UInt8),
      perform.finishMove m again next (k + 1) bytes =
        (perform.finishMove m again next k bytes).shift := by
    intro next k bytes
    unfold perform.finishMove
    split <;> first | rfl | exact hagain _ _ _
  unfold perform
  extract_lets marks ahead' skipped₁ skipped₂
  have hskip : skipped₁ = skipped₂ + 1 := Nat.add_right_comm _ _ _
  rw [hskip]
  split
  · rfl
  split
  · split
    · show Flow.stop _ _ = Flow.stop _ _
      rw [Nat.add_right_comm]
    · exact hfinish _ _ _
  · exact hfinish _ _ _

theorem reexecute_shift (ch : UInt8) (passes : Nat) (frame : Frame σ) (skipped : Nat)
    (ahead : List UInt8) : reexecute settings ch passes frame (skipped + 1) ahead =
      (reexecute settings ch passes frame skipped ahead).shift := by
  induction passes generalizing frame skipped ahead with
  | zero => rfl
  | succ passes ih => exact perform_shift ih _ _ _ _

/-- Outside a body the bytes behind the one executed do not matter, and `p` stays at it. -/
theorem reexecute_single (ch : UInt8) (passes : Nat) {frame : Frame σ}
    (hs : frame.parser.state.bulk = false) (skipped : Nat) (rest : List UInt8) :
    reexecute settings ch passes frame skipped (ch :: rest) =
        reexecute settings ch passes frame skipped [ch] ∧
      ∀ next k, reexecute settings ch passes frame skipped [ch] = .advance next k →
        k = skipped := by
  induction passes generalizing frame skipped with
  | zero => exact ⟨rfl, by rintro _ _ ⟨⟩⟩
  | succ passes ih =>
    have hsingle := single_switch hs ch [ch].length
    unfold reexecute
    rw [switch_left hs ch (ch :: rest).length [ch].length]
    unfold perform
    simp only [hsingle.skip, List.take_zero, List.drop_zero, List.take_succ_cons, Nat.add_zero]
    split
    · exact ⟨rfl, by rintro _ _ ⟨⟩⟩
    rename_i next hcall
    have hstate := call_state hcall
    have hfinish : perform.finishMove (switch frame.parser ch [ch].length)
          (reexecute settings ch passes) next skipped (ch :: rest) =
        perform.finishMove (switch frame.parser ch [ch].length)
          (reexecute settings ch passes) next skipped [ch] ∧
        ∀ last k, perform.finishMove (switch frame.parser ch [ch].length)
          (reexecute settings ch passes) next skipped [ch] = .advance last k → k = skipped := by
      unfold perform.finishMove
      split
      · refine ⟨rfl, ?_⟩
        rintro _ _ ⟨⟩
        rfl
      · rename_i hagain
        exact ih (hstate.symm ▸ bulk_of_not_inBody (hsingle.again hagain)) skipped
      all_goals exact ⟨rfl, by rintro _ _ ⟨⟩⟩
    split
    · split
      · exact ⟨rfl, by rintro _ _ ⟨⟩⟩
      · exact hfinish
    · exact hfinish

end Reexecute

/-! ## In a body -/

section Bulk

variable {σ : Type u} {settings : Settings σ} {frame : Frame σ}

theorem Marks.pass_pass (marks : Marks) (a b : List UInt8) :
    (marks.pass a).pass b = marks.pass (a ++ b) := by
  unfold Marks.pass
  simp [Function.comp_def, List.append_assoc]

@[simp] theorem Marks.pass_nil (marks : Marks) : marks.pass [] = marks := by
  unfold Marks.pass
  simp

/-- A mark that has been set is not set again behind it. -/
theorem Marks.mark_pass_mark (marks : Marks) (field : Field) (bytes : List UInt8) :
    ((marks.mark (some field)).pass bytes).mark (some field) =
      (marks.mark (some field)).pass bytes := by
  have hset : ((marks.mark (some field)).get field).isSome := by
    unfold Marks.mark
    dsimp only
    split
    · assumption
    · simp
  unfold Marks.mark
  dsimp only
  rw [if_pos]
  rw [Marks.get_pass, Option.isSome_map]
  exact hset

theorem take_append_through {bytes : List UInt8} {k : Nat} (h : 0 < k) :
    bytes.take (k - 1) ++ (bytes.drop (k - 1)).take 1 = bytes.take k := by
  rw [← List.take_add]
  congr 1
  omega

/-- What is left of a length after one byte more. -/
theorem sub_ofNat_succ (length : UInt64) (k : Nat) :
    length - 1 - .ofNat k = length - .ofNat (k + 1) := by
  have hsub : ∀ a b c : UInt64, a - b - c = a - (c + b) := by
    intro a b c
    grind
  rw [UInt64.ofNat_add]
  exact hsub _ _ _

/-- The parser after `k` bytes of a chunk. -/
def readChunk (parser : Parser) (k : Nat) : Parser :=
  let parser := { parser with contentLength := parser.contentLength - .ofNat k }
  if parser.contentLength = 0 then { parser with state := .chunkDataAlmostDone } else parser

theorem switch_chunkData {parser : Parser} (hs : parser.state = .chunkData)
    (hchunked : parser.flags.chunked = true)
    (hlength : parser.contentLength ≠ 0 ∧ parser.contentLength ≠ ULLONG_MAX) (ch : UInt8)
    (left : Nat) : switch parser ch left =
      { parser := readChunk parser (min parser.contentLength.toNat left), mark := some .body
        skip := min parser.contentLength.toNat left - 1 } := by
  have : switch parser ch left = chunkData parser left := by
    unfold switch
    simp only [hs]
  rw [this, chunkData, asserting, if_pos hchunked, asserting, if_pos hlength]
  rfl

theorem min_pos {length : UInt64} (h : length ≠ 0) (n : Nat) : 0 < min length.toNat (n + 1) := by
  have : length.toNat ≠ 0 := fun h0 => h (UInt64.toNat_inj.1 h0)
  omega

theorem reexecute_chunkData (hs : frame.parser.state = .chunkData)
    (hchunked : frame.parser.flags.chunked = true)
    (hlength : frame.parser.contentLength ≠ 0 ∧ frame.parser.contentLength ≠ ULLONG_MAX)
    (ch : UInt8) (passes : Nat) (byte : UInt8) (rest : List UInt8) :
    reexecute settings ch (passes + 1) frame 0 (byte :: rest) =
      let k := min frame.parser.contentLength.toNat (rest.length + 1)
      .advance ⟨readChunk frame.parser k,
        (frame.marks.mark (some .body)).pass ((byte :: rest).take k), frame.user⟩ (k - 1) := by
  unfold reexecute perform
  rw [switch_chunkData hs hchunked hlength]
  simp only [List.length_cons, Frame.call, perform.finishMove, Nat.zero_add, Marks.pass_pass,
    take_append_through (min_pos hlength.1 _)]

theorem reexecute_bodyIdentityEof (hs : frame.parser.state = .bodyIdentityEof) (ch : UInt8)
    (passes : Nat) (byte : UInt8) (rest : List UInt8) :
    reexecute settings ch (passes + 1) frame 0 (byte :: rest) =
      .advance ⟨frame.parser, (frame.marks.mark (some .body)).pass (byte :: rest), frame.user⟩
        rest.length := by
  have hswitch : switch frame.parser ch (byte :: rest).length =
      { parser := frame.parser, mark := some .body, skip := rest.length } := by
    unfold switch
    simp only [hs]
    rfl
  have htake : (byte :: rest).take rest.length ++ ((byte :: rest).drop rest.length).take 1 =
      byte :: rest :=
    (@take_append_through (byte :: rest) (rest.length + 1) (Nat.succ_pos _)).trans
      (List.take_of_length_le (Nat.le_refl _))
  unfold reexecute perform
  rw [hswitch]
  simp only [Frame.call, perform.finishMove, Nat.zero_add, Marks.pass_pass, htake]

/-- The parser after `k` bytes of a body, not its last ones. -/
def readBody (parser : Parser) (k : Nat) : Parser :=
  { parser with contentLength := parser.contentLength - .ofNat k }

theorem switch_bodyIdentity {parser : Parser} (hs : parser.state = .bodyIdentity)
    (hlength : parser.contentLength ≠ 0 ∧ parser.contentLength ≠ ULLONG_MAX) (ch : UInt8)
    (left : Nat) : switch parser ch left =
      let k := min parser.contentLength.toNat left
      if (readBody parser k).contentLength = 0 then
        { parser := { readBody parser k with state := .messageDone }
          mark := some .body, skip := k - 1, call := some .bodyThrough, next := .again }
      else { parser := readBody parser k, mark := some .body, skip := k - 1 } := by
  have : switch parser ch left = bodyIdentity parser left := by
    unfold switch
    simp only [hs]
  rw [this, bodyIdentity, asserting, if_pos hlength]
  rfl

/-- The last byte of a body: the callback for the bytes marked, and the end of the message. -/
def endBody (settings : Settings σ) (passes : Nat) (frame : Frame σ) (skipped : Nat)
    (ahead : List UInt8) : Flow σ :=
  match frame.data settings .body (ahead.take 1) with
  | .error which => .abort which
  | .ok next =>
    if next.parser.httpErrno ≠ .ok then .stop next skipped
    else reexecute settings 0 passes next skipped ahead

/-- The end of a message does not look at the byte. -/
theorem reexecute_messageDone (hs : frame.parser.state = .messageDone) (ch ch' : UInt8)
    (passes skipped : Nat) (ahead : List UInt8) :
    reexecute settings ch passes frame skipped ahead =
      reexecute settings ch' passes frame skipped ahead := by
  have hswitch : ∀ c, switch frame.parser c ahead.length = complete frame.parser := by
    intro c
    unfold switch
    simp only [hs]
  cases passes with
  | zero => rfl
  | succ passes =>
    unfold reexecute perform
    rw [hswitch, hswitch]
    rfl

theorem endBody_shift (passes : Nat) (frame : Frame σ) (skipped : Nat) (ahead : List UInt8) :
    endBody settings passes frame (skipped + 1) ahead =
      (endBody settings passes frame skipped ahead).shift := by
  unfold endBody
  split
  · rfl
  split
  · rfl
  · exact reexecute_shift _ _ _ _ _

theorem endBody_single (hs : frame.parser.state = .messageDone) (ch : UInt8) (passes : Nat)
    (rest : List UInt8) :
    endBody settings passes frame 0 (ch :: rest) = endBody settings passes frame 0 [ch] ∧
      ∀ next k, endBody settings passes frame 0 [ch] = .advance next k → k = 0 := by
  unfold endBody
  simp only [List.take_succ_cons, List.take_zero]
  split
  · exact ⟨rfl, by rintro _ _ ⟨⟩⟩
  rename_i next hnext
  split
  · exact ⟨rfl, by rintro _ _ ⟨⟩⟩
  · have hstate : next.parser.state = .messageDone :=
      (@call_state σ settings _ next [ch] (some .bodyThrough) hnext).trans hs
    rw [reexecute_messageDone hstate 0 ch, reexecute_messageDone hstate 0 ch]
    exact reexecute_single ch passes (by rw [hstate]; rfl) 0 rest

theorem reexecute_bodyIdentity (hs : frame.parser.state = .bodyIdentity)
    (hlength : frame.parser.contentLength ≠ 0 ∧ frame.parser.contentLength ≠ ULLONG_MAX)
    (ch : UInt8) (passes : Nat) (byte : UInt8) (rest : List UInt8) :
    reexecute settings ch (passes + 1) frame 0 (byte :: rest) =
      let k := min frame.parser.contentLength.toNat (rest.length + 1)
      if (readBody frame.parser k).contentLength = 0 then
        endBody settings passes
          ⟨{ readBody frame.parser k with state := .messageDone },
            (frame.marks.mark (some .body)).pass ((byte :: rest).take (k - 1)), frame.user⟩
          (k - 1) ((byte :: rest).drop (k - 1))
      else
        .advance ⟨readBody frame.parser k,
          (frame.marks.mark (some .body)).pass ((byte :: rest).take k), frame.user⟩ (k - 1) := by
  unfold reexecute perform
  rw [switch_bodyIdentity hs hlength]
  dsimp only [List.length_cons]
  by_cases hlast : (readBody frame.parser
      (min frame.parser.contentLength.toNat (rest.length + 1))).contentLength = 0
  · rw [if_pos hlast, if_pos hlast]
    simp only [Frame.call, Nat.zero_add]
    unfold endBody
    generalize hcall : Frame.data settings _ Field.body _ = result
    cases result with
    | error which => rfl
    | ok next =>
      dsimp only
      have hstate : next.parser.state = .messageDone :=
        @call_state σ settings _ next _ (some .bodyThrough) hcall
      simp only [perform.finishMove, Call.returns, Nat.add_zero]
      split
      · rfl
      · exact reexecute_messageDone hstate _ _ _ _ _
  · rw [if_neg hlast, if_neg hlast]
    simp only [Frame.call, perform.finishMove, Nat.zero_add, Marks.pass_pass,
      take_append_through (min_pos hlength.1 _)]

/-- How a byte of a body and the bytes behind it are executed: as the byte alone, or as the byte
alone and then the ones behind it. -/
def OneByOne (settings : Settings σ) (frame : Frame σ) (ch : UInt8) (passes : Nat) : Prop :=
  (∀ rest, reexecute settings ch passes frame 0 (ch :: rest) =
      reexecute settings ch passes frame 0 [ch] ∧
      ∀ next k, reexecute settings ch passes frame 0 [ch] = .advance next k → k = 0) ∨
  ∃ next : Frame σ, reexecute settings ch passes frame 0 [ch] = .advance next 0 ∧
    next.parser.state.bulk ∧ ∀ r rest, reexecute settings ch passes frame 0 (ch :: r :: rest) =
      (reexecute settings r passes next 0 (r :: rest)).shift

theorem oneByOne_abort {a : Assertion} {ch : UInt8} {passes : Nat}
    (h : ∀ left, switch frame.parser ch left = { parser := frame.parser, next := .abort a }) :
    OneByOne settings frame ch (passes + 1) := by
  have habort : ∀ ahead, reexecute settings ch (passes + 1) frame 0 ahead = .abort a := by
    intro ahead
    unfold reexecute perform
    rw [h]
    rfl
  refine .inl fun rest => ⟨by rw [habort, habort], fun next k hnext => ?_⟩
  rw [habort] at hnext
  cases hnext

/-- A length of more than one byte, after the first of them. -/
theorem length_pred {length : UInt64} (h : length ≠ 0 ∧ length ≠ ULLONG_MAX)
    (hone : length ≠ 1) : (length - 1).toNat = length.toNat - 1 ∧
      (length - 1 ≠ 0 ∧ length - 1 ≠ ULLONG_MAX) := by
  have hzero : length.toNat ≠ 0 := fun h0 => h.1 (UInt64.toNat_inj.1 h0)
  have hlt := length.toNat_lt
  have hle : (1 : UInt64) ≤ length := UInt64.le_iff_toNat_le.2 (Nat.pos_of_ne_zero hzero)
  have hpred : (length - 1).toNat = length.toNat - 1 := UInt64.toNat_sub_of_le _ _ hle
  refine ⟨hpred, fun h0 => hone ?_, fun hmax => ?_⟩
  · have := congrArg UInt64.toNat h0
    rw [hpred] at this
    apply UInt64.toNat_inj.1
    show length.toNat = 1
    have : length.toNat - 1 = 0 := this
    omega
  · have := congrArg UInt64.toNat hmax
    rw [hpred, show ULLONG_MAX.toNat = 2 ^ 64 - 1 from rfl] at this
    omega

theorem length_one {n : Nat} : min (1 : UInt64).toNat (n + 1) = 1 := by
  show min 1 (n + 1) = 1
  omega

theorem oneByOne_chunkData (hs : frame.parser.state = .chunkData) (ch : UInt8) (passes : Nat) :
    OneByOne settings frame ch (passes + 1) := by
  have hswitch : ∀ left, switch frame.parser ch left = chunkData frame.parser left := by
    intro left
    unfold switch
    simp only [hs]
  by_cases hchunked : frame.parser.flags.chunked = true
  swap
  · refine oneByOne_abort (a := .chunked) fun left => ?_
    rw [hswitch, chunkData, asserting, if_neg hchunked]
  by_cases hlength : frame.parser.contentLength ≠ 0 ∧ frame.parser.contentLength ≠ ULLONG_MAX
  swap
  · refine oneByOne_abort (a := .contentLength) fun left => ?_
    rw [hswitch, chunkData, asserting, if_pos hchunked, asserting, if_neg hlength]
  by_cases hone : frame.parser.contentLength = 1
  · left
    intro rest
    rw [reexecute_chunkData hs hchunked hlength, reexecute_chunkData hs hchunked hlength]
    simp only [hone, length_one, List.take_succ_cons, List.take_zero, Nat.sub_self, true_and]
    rintro next k ⟨⟩
    rfl
  · right
    obtain ⟨hpred, hlength'⟩ := length_pred hlength hone
    have hread : readChunk frame.parser 1 =
        { frame.parser with contentLength := frame.parser.contentLength - 1 } :=
      if_neg hlength'.1
    have hmin : min frame.parser.contentLength.toNat 1 = 1 := by
      have := min_pos hlength.1 0
      omega
    refine ⟨⟨readChunk frame.parser 1, (frame.marks.mark (some .body)).pass [ch], frame.user⟩,
      ?_, ?_, fun r rest => ?_⟩
    · rw [reexecute_chunkData hs hchunked hlength]
      simp only [List.length_nil, Nat.zero_add, hmin, List.take_succ_cons, List.take_zero,
        Nat.sub_self]
    · rw [hread]
      simp [hs, State.bulk]
    · rw [reexecute_chunkData hs hchunked hlength, hread,
        @reexecute_chunkData σ settings
          ⟨{ frame.parser with contentLength := frame.parser.contentLength - 1 },
            (frame.marks.mark (some .body)).pass [ch], frame.user⟩ hs hchunked hlength']
      have hsucc : min frame.parser.contentLength.toNat ((r :: rest).length + 1) =
          min (frame.parser.contentLength - 1).toNat (rest.length + 1) + 1 := by
        have := min_pos hlength.1 0
        rw [hpred, List.length_cons]
        omega
      have hpos := min_pos hlength'.1 rest.length
      simp only [hsucc, Marks.mark_pass_mark, Marks.pass_pass, List.take_succ_cons,
        List.singleton_append, Nat.add_sub_cancel, Flow.shift, Flow.advance.injEq, Frame.mk.injEq,
        and_true]
      refine ⟨?_, by omega⟩
      unfold readChunk
      simp only [sub_ofNat_succ]

theorem oneByOne_bodyIdentityEof (hs : frame.parser.state = .bodyIdentityEof) (ch : UInt8)
    (passes : Nat) : OneByOne settings frame ch (passes + 1) := by
  right
  refine ⟨⟨frame.parser, (frame.marks.mark (some .body)).pass [ch], frame.user⟩,
    reexecute_bodyIdentityEof hs ch passes ch [], ?_, fun r rest => ?_⟩
  · simp [hs, State.bulk]
  · rw [reexecute_bodyIdentityEof hs,
      @reexecute_bodyIdentityEof σ settings
        ⟨frame.parser, (frame.marks.mark (some .body)).pass [ch], frame.user⟩ hs]
    simp only [Marks.mark_pass_mark, Marks.pass_pass, List.singleton_append, List.length_cons,
      Flow.shift]

theorem oneByOne_bodyIdentity (hs : frame.parser.state = .bodyIdentity) (ch : UInt8)
    (passes : Nat) : OneByOne settings frame ch (passes + 1) := by
  by_cases hlength : frame.parser.contentLength ≠ 0 ∧ frame.parser.contentLength ≠ ULLONG_MAX
  swap
  · refine oneByOne_abort (a := .contentLength) fun left => ?_
    unfold switch
    simp only [hs]
    rw [bodyIdentity, asserting, if_neg hlength]
  by_cases hone : frame.parser.contentLength = 1
  · left
    intro rest
    have hend : (readBody frame.parser 1).contentLength = 0 := by
      unfold readBody
      rw [hone]
      rfl
    rw [reexecute_bodyIdentity hs hlength, reexecute_bodyIdentity hs hlength]
    simp only [hone, length_one, hend, if_true, Nat.sub_self, List.take_zero, List.drop_zero]
    exact endBody_single rfl ch passes rest
  · right
    obtain ⟨hpred, hlength'⟩ := length_pred hlength hone
    have hmin : min frame.parser.contentLength.toNat 1 = 1 := by
      have := min_pos hlength.1 0
      omega
    refine ⟨⟨readBody frame.parser 1, (frame.marks.mark (some .body)).pass [ch], frame.user⟩,
      ?_, ?_, fun r rest => ?_⟩
    · rw [reexecute_bodyIdentity hs hlength]
      simp only [List.length_nil, Nat.zero_add, hmin, List.take_succ_cons, List.take_zero,
        Nat.sub_self]
      rw [if_neg (show (readBody frame.parser 1).contentLength ≠ 0 from hlength'.1)]
    · show (readBody frame.parser 1).state.bulk = true
      simp [readBody, hs, State.bulk]
    · rw [reexecute_bodyIdentity hs hlength,
        @reexecute_bodyIdentity σ settings ⟨readBody frame.parser 1,
          (frame.marks.mark (some .body)).pass [ch], frame.user⟩ hs hlength']
      have hsucc : min frame.parser.contentLength.toNat ((r :: rest).length + 1) =
          min (readBody frame.parser 1).contentLength.toNat (rest.length + 1) + 1 := by
        have := min_pos hlength.1 0
        show _ = min (frame.parser.contentLength - 1).toNat (rest.length + 1) + 1
        rw [hpred, List.length_cons]
        omega
      have hpos : 0 < min (readBody frame.parser 1).contentLength.toNat (rest.length + 1) :=
        min_pos hlength'.1 rest.length
      have hread : ∀ k, readBody (readBody frame.parser 1) k = readBody frame.parser (k + 1) := by
        intro k
        unfold readBody
        rw [← sub_ofNat_succ frame.parser.contentLength k]
        rfl
      simp only [hsucc, hread, Marks.mark_pass_mark, Marks.pass_pass, Nat.add_sub_cancel]
      obtain ⟨k, hk⟩ := Nat.exists_eq_succ_of_ne_zero (Nat.ne_of_gt hpos)
      rw [hk]
      split
      · simp only [Nat.succ_eq_add_one, Nat.add_sub_cancel, List.take_succ_cons,
          List.singleton_append, List.drop_succ_cons]
        exact endBody_shift _ _ _ _
      · simp only [Nat.succ_eq_add_one, Nat.add_sub_cancel, List.take_succ_cons,
          List.singleton_append, Flow.shift]

theorem oneByOne (frame : Frame σ) (ch : UInt8) : OneByOne settings frame ch PASSES := by
  by_cases hbulk : frame.parser.state.bulk = true
  · cases hs : frame.parser.state <;> rw [hs] at hbulk
    case chunkData => exact oneByOne_chunkData hs ch 4
    case bodyIdentity => exact oneByOne_bodyIdentity hs ch 4
    case bodyIdentityEof => exact oneByOne_bodyIdentityEof hs ch 4
    all_goals cases hbulk
  · exact .inl fun rest => reexecute_single ch PASSES (by simpa using hbulk) 0 rest

end Bulk

/-! ## A block -/

section Loop

variable {σ : Type u} (settings : Settings σ)

/-- The loop that looks at no more than one byte at a time. -/
def bytewise : Frame σ → Nat → List UInt8 → Except Assertion (Outcome σ)
  | frame, read, [] => frame.finish settings read
  | frame, read, ch :: rest =>
    let parser := frame.parser.counted
    if parser.overflowing then .ok ⟨{ parser with httpErrno := .headerOverflow }, frame.user, read⟩
    else
      match reexecute settings ch PASSES { frame with parser := parser } 0 [ch] with
      | .abort which => .error which
      | .stop frame n => .ok ⟨frame.parser, frame.user, read + n⟩
      | .advance frame _ => bytewise frame (read + 1) rest

variable {settings}

theorem counted_bulk {parser : Parser} (h : parser.state.bulk = true) :
    parser.counted = parser ∧ parser.overflowing = false := by
  unfold Parser.counted Parser.overflowing
  cases hs : parser.state <;> rw [hs] at h <;>
    first | exact absurd h (by decide) | exact ⟨rfl, rfl⟩

/-- **The bulk path agrees with the plain one.** Moving over the bytes of a body as many at a time
as the block holds gives the parser, the callbacks and the value that moving over them one at a
time does. -/
theorem loop_eq_bytewise (frame : Frame σ) (read : Nat) (bytes : List UInt8) :
    loop settings frame read 0 bytes = bytewise settings frame read bytes := by
  induction bytes generalizing frame read with
  | nil =>
    unfold loop bytewise
    rfl
  | cons ch rest ih =>
    unfold loop bytewise
    dsimp only
    split
    · rfl
    rcases @oneByOne σ settings { frame with parser := frame.parser.counted } ch with
      hone | ⟨next, hnext, hbulk, hmore⟩
    · obtain ⟨heq, hzero⟩ := hone rest
      rw [heq]
      cases hflow : reexecute settings ch PASSES { frame with parser := frame.parser.counted } 0
          [ch] with
      | abort a => rfl
      | stop last n => rfl
      | advance last k =>
        rw [hzero last k hflow]
        exact ih last _
    · rw [hnext]
      dsimp only
      rw [← ih]
      cases rest with
      | nil => rw [hnext]
      | cons r rest =>
        obtain ⟨hcounted, hfits⟩ := counted_bulk hbulk
        rw [hmore]
        conv_rhs => unfold loop
        dsimp only
        rw [hcounted, hfits, if_neg (by simp)]
        cases reexecute settings r PASSES next 0 (r :: rest) with
        | abort a => rfl
        | stop last n =>
          show Except.ok (Outcome.mk _ _ _) = _
          simp only [Nat.add_assoc, Nat.add_comm 1]
        | advance last k => rfl

end Loop

end Rsva11001.Http
