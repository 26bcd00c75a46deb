import Rsva11001.Lib.Run
import Rsva11001.Http.Execute

/-!
# The HTTP parser never fails an assertion

What one pass through the switch can do to a parser is said once, in `switch_good`: from a parser
in which the fields fit the state (`Parser.Sound`) it leads to such a parser, it sets and clears
the marks in the states in which they belong, and every `goto reexecute_byte` leads to a state of
smaller `rank`. From it `reexecute`, the loop and `http_parser_execute` are followed, for arbitrary
bytes and arbitrary callbacks, which may fail and may pause the parser.

**Results.** `execute_sound`: `http_parser_execute` returns on a sound parser and leaves one.
`runs_never_abort`: no sequence of calls of `http_parser_execute` and `http_parser_pause` fails an
assertion, in a parser for requests, for responses or for both.
-/

namespace Rsva11001.Http

open Lib

universe u

/-! ## The invariant -/

/-- The header states in which a name is matched. -/
def HeaderState.ofName : HeaderState → Bool
  | .general | .c | .co | .con | .matchingConnection | .matchingProxyConnection
  | .matchingContentLength | .matchingTransferEncoding | .matchingUpgrade | .connection
  | .contentLength | .transferEncoding | .upgrade => true
  | _ => false

/-- The header states in which a value has begun. -/
def HeaderState.ofValue : HeaderState → Bool
  | .connection | .transferEncoding => false
  | _ => true

/-- The fields fit the state. Before the size of a chunk `n` bytes have been counted. -/
def Parser.Sound (n : Nat) (parser : Parser) : Prop :=
  match parser.state with
  | .reqMethod => parser.index ≤ parser.method.string.length
  | .headerField => parser.headerState.ofName
  | .headerValue => parser.headerState.ofValue
  | .bodyIdentity => parser.contentLength ≠ 0 ∧ parser.contentLength ≠ ULLONG_MAX
  | .chunkSizeStart => parser.flags.chunked ∧ parser.nread = n
  | .chunkSize | .chunkParameters | .chunkSizeAlmostDone =>
    parser.flags.chunked ∧ parser.contentLength ≠ ULLONG_MAX
  | .chunkData =>
    parser.flags.chunked ∧ parser.contentLength ≠ 0 ∧ parser.contentLength ≠ ULLONG_MAX
  | .chunkDataAlmostDone => parser.flags.chunked ∧ parser.contentLength = 0
  | .chunkDataDone => parser.flags.chunked
  | _ => True

/-- The states of a URL. -/
def State.inUrl : State → Bool
  | .reqPath | .reqSchema | .reqSchemaSlash | .reqSchemaSlashSlash | .reqServerStart | .reqServer
  | .reqServerWithAt | .reqQueryStringStart | .reqQueryString | .reqFragmentStart
  | .reqFragment => true
  | _ => false

/-- The states in which a mark may be set between two bytes. -/
def Field.open : Field → State → Bool
  | .headerField, s => s = .headerField
  | .headerValue, s => s = .headerValue
  | .url, s => s.inUrl
  | .body, s => s = .chunkData ∨ s = .chunkDataAlmostDone ∨ s = .bodyIdentity ∨ s = .bodyIdentityEof

/-- The states in which no mark is set between two bytes. -/
def State.unmarked (s : State) : Bool :=
  !(s.inUrl || s = .headerField || s = .headerValue || s = .chunkData || s = .chunkDataAlmostDone
    || s = .bodyIdentity || s = .bodyIdentityEof)

theorem open_unmarked {s : State} (h : s.unmarked) (f : Field) : f.open s = false := by
  cases s <;> first | exact absurd h (by decide) | (cases f <;> rfl)

/-- The macro delivers the mark. -/
def Call.delivers (f : Field) : Option Call → Bool
  | some (.data g) | some (.dataNoadvance g) => f = g
  | some .bodyThrough => f = .body
  | _ => false

/-- How often the byte can still be executed again. -/
def State.rank : State → Nat
  | .headerValueLws => 3
  | .headerFieldStart => 2
  | .headersAlmostDone | .headerValue | .bodyIdentity | .startReqOrRes => 1
  | _ => 0

/-- What one pass through the switch can do. -/
structure Move.Good (m : Move) (before : Parser) : Prop where
  no_abort : ∀ a, m.next ≠ .abort a
  errno : m.next ≠ .error → m.parser.httpErrno = .ok
  sound : m.next ≠ .error → m.parser.Sound 0
  again : m.next = .again → m.parser.Sound 1 ∧ m.parser.state.rank < before.state.rank
  error : m.next = .error → m.call = none ∧ m.parser.httpErrno ≠ .paused
  marks : m.next ≠ .error → ∀ f : Field, f.open before.state ∨ m.mark = some f →
    f.open m.parser.state ∨ Call.delivers f m.call

/-! ## One pass through the switch -/

section Switch

variable {parser : Parser} {ch : UInt8}

/-- `goto error` with an error set, from a parser that may have been changed before. -/
theorem good_refuse {next : Parser} {e : Errno} (he : e ≠ .paused) (mark : Option Field) :
    Move.Good { refuse next e with mark := mark } parser where
  no_abort := by simp [refuse]
  errno h := absurd rfl h
  sound h := absurd rfl h
  again := by simp [refuse]
  error _ := ⟨rfl, he⟩
  marks h := absurd rfl h

/-- A case that only breaks. -/
theorem good_advance {next : Parser} {call : Option Call} {mark : Option Field} {skip : Nat}
    (herrno : next.httpErrno = .ok) (hsound : next.Sound 0)
    (hmarks : ∀ f : Field, f.open parser.state ∨ mark = some f →
      f.open next.state ∨ Call.delivers f call) :
    Move.Good { parser := next, mark := mark, skip := skip, call := call } parser where
  no_abort := by simp
  errno _ := herrno
  sound _ := hsound
  again := by simp
  error := by simp
  marks _ := hmarks

/-- A case that only breaks, in a state in which no mark is set. -/
theorem good_free {next : Parser} {call : Option Call} (hs : parser.state.unmarked)
    (herrno : next.httpErrno = .ok) (hsound : next.Sound 0) :
    Move.Good { parser := next, call := call } parser :=
  good_advance herrno hsound fun f hf => by simp [open_unmarked hs] at hf

/-- A case that executes the byte again, in a state in which no mark is set. -/
theorem good_again {next : Parser} {call : Option Call} (hs : parser.state.unmarked)
    (herrno : next.httpErrno = .ok) (hsound : ∀ n, next.Sound n)
    (hrank : next.state.rank < parser.state.rank) :
    Move.Good { parser := next, call := call, next := .again } parser where
  no_abort := by simp
  errno _ := herrno
  sound _ := hsound 0
  again _ := ⟨hsound 1, hrank⟩
  error := by simp
  marks _ f hf := by simp [open_unmarked hs] at hf

theorem Move.Good.strictCheck {cond : Prop} [Decidable cond] {m : Move} (h : m.Good parser) :
    (strictCheck cond parser m).Good parser := by
  unfold Http.strictCheck
  split
  · exact good_refuse (by simp) none
  · exact h

theorem Move.Good.asserting {cond : Prop} [Decidable cond] {m : Move} {a : Assertion}
    (hcond : cond) (h : m.Good parser) : (asserting cond parser a m).Good parser := by
  rw [Http.asserting, if_pos hcond]
  exact h

theorem good_versionDigit {next : Parser} {value : Nat} (hs : parser.state.unmarked)
    (herrno : next.httpErrno = .ok) (hsound : next.Sound 0) :
    (versionDigit parser next ch value).Good parser := by
  unfold versionDigit
  split
  · exact good_refuse (by simp) none
  split
  · exact good_refuse (by simp) none
  · exact good_free hs herrno hsound

/-! ### The start of a request -/

theorem three_le_length (method : Method) : 3 ≤ method.string.length := by
  cases method <;> decide

theorem good_startReq (hs : parser.state = .startReq) (hok : parser.httpErrno = .ok) :
    (startReq parser ch).Good parser := by
  have hfree : parser.state.unmarked := by rw [hs]; rfl
  unfold startReq
  split
  · exact good_free hfree hok (by simp only [Parser.Sound, hs])
  dsimp only
  split
  · exact good_refuse (by simp) none
  split
  · exact good_refuse (by simp) none
  · rename_i method _
    refine good_free hfree hok ?_
    have := three_le_length method
    show 1 ≤ method.string.length
    omega

theorem char?_eq_some {method : Method} {index : Nat} {c : UInt8}
    (h : method.char? index = some c) (hc : c ≠ 0) : index + 1 ≤ method.string.length := by
  unfold Method.char? at h
  by_contra hlt
  rcases Nat.lt_trichotomy index method.string.length with hi | rfl | hi
  · omega
  · rw [List.getElem?_append_right (Nat.le_refl _), Nat.sub_self] at h
    exact hc (Option.some.inj h).symm
  · rw [List.getElem?_eq_none (by rw [List.length_append, List.length_singleton]; omega)] at h
    cases h

/-- The method that a request goes on with has a character, or its end, at the next index. -/
theorem otherMethod_length {method next : Method} {index : Nat}
    (h : otherMethod method index ch = .ok next) : index + 1 ≤ next.string.length := by
  have hthree : ∀ m : Method, index = 2 → index + 1 ≤ m.string.length := fun m hi => by
    have := three_le_length m
    omega
  have hone : ∀ m : Method, index = 1 → index + 1 ≤ m.string.length := fun m hi => by
    have := three_le_length m
    omega
  unfold otherMethod at h
  repeat' split at h
  all_goals cases h
  all_goals first
    | exact hone _ (by omega)
    | exact hthree _ (by omega)
    | (rename_i hi; rw [hi.1]; decide)

theorem otherMethod_errno {method : Method} {index : Nat} {e : Errno}
    (h : otherMethod method index ch = .error (some e)) : e = .invalidMethod := by
  unfold otherMethod at h
  repeat' split at h
  all_goals cases h
  rfl

theorem good_reqMethod (hs : parser.state = .reqMethod) (h : parser.Sound 1)
    (hok : parser.httpErrno = .ok) : (reqMethod parser ch).Good parser := by
  have hfree : parser.state.unmarked := by rw [hs]; rfl
  have hindex : parser.index ≤ parser.method.string.length := by
    simpa only [Parser.Sound, hs] using h
  unfold reqMethod
  split
  · exact good_refuse (by simp) none
  rename_i hch
  split
  · rename_i hnone
    have := List.getElem?_eq_none_iff.1 hnone
    rw [List.length_append, List.length_singleton] at this
    omega
  rename_i matcher hmatcher
  dsimp only
  split
  · exact good_free hfree hok trivial
  split
  · rename_i hm
    refine good_free hfree hok ?_
    simp only [Parser.Sound, hs]
    exact char?_eq_some hmatcher (hm ▸ hch)
  split
  · rename_i method hmethod
    refine good_free hfree hok ?_
    simp only [Parser.Sound, hs]
    exact otherMethod_length hmethod
  · exact ⟨by simp, by simp, by simp, by simp, fun _ => ⟨rfl, by simp [hok]⟩, by simp⟩
  · rename_i e he
    rw [otherMethod_errno he]
    exact good_refuse (by simp) none

/-! ### URLs -/

theorem parseServerChar_inUrl (ch : UInt8) :
    parseServerChar ch = .dead ∨ (parseServerChar ch).inUrl := by
  unfold parseServerChar
  repeat' split
  all_goals first | exact .inl rfl | exact .inr rfl

theorem parseUrlChar_inUrl (s : State) (ch : UInt8) :
    parseUrlChar s ch = .dead ∨ (parseUrlChar s ch).inUrl := by
  unfold parseUrlChar
  split
  · exact .inl rfl
  split
  · exact .inl rfl
  cases s
  case reqServer | reqServerStart => exact parseServerChar_inUrl ch
  case reqServerWithAt =>
    dsimp only
    split
    · exact .inl rfl
    · exact parseServerChar_inUrl ch
  all_goals
    dsimp only
    repeat' split
    all_goals first | exact .inl rfl | exact .inr rfl

/-- No state of a URL fixes a field, and none is one in which another mark than the one of the URL
may be set. -/
theorem sound_inUrl {next : Parser} (h : next.state.inUrl) (n : Nat) : next.Sound n := by
  unfold Parser.Sound
  cases hs : next.state <;> first | trivial | (rw [hs] at h; cases h)

theorem good_urlChar {s : State} {mark : Option Field} (hok : parser.httpErrno = .ok)
    (hmark : mark = none ∨ mark = some .url)
    (hs : parser.state.inUrl ∨ parser.state.unmarked) :
    (urlChar parser s ch mark).Good parser := by
  unfold urlChar
  dsimp only
  split
  · exact good_refuse (by simp) mark
  · rename_i hdead
    have hin := (parseUrlChar_inUrl s ch).resolve_left hdead
    refine good_advance hok (sound_inUrl hin 0) fun f hf => .inl ?_
    have hurl : f = .url := by
      rcases hf with hf | hf
      · rcases hs with hs | hs
        · revert hf hs
          cases parser.state <;> cases f <;> simp [Field.open, State.inUrl]
        · rw [open_unmarked hs] at hf
          cases hf
      · rcases hmark with rfl | rfl
        · cases hf
        · exact (Option.some.inj hf).symm
    rw [hurl]
    exact hin

/-- The end of a URL, whose bytes are delivered. -/
theorem good_urlEnd {next : Parser} (hs : parser.state.inUrl) (hok : next.httpErrno = .ok)
    (hsound : next.Sound 0) :
    Move.Good { parser := next, call := some (.data .url) } parser := by
  refine good_advance hok hsound fun f hf => .inr ?_
  revert hf hs
  cases parser.state <;> cases f <;> simp [Field.open, State.inUrl, Call.delivers]

/-! ### Headers -/

theorem good_headerFieldStart (hs : parser.state = .headerFieldStart)
    (hok : parser.httpErrno = .ok) : (headerFieldStart parser ch).Good parser := by
  have hfree : parser.state.unmarked := by rw [hs]; rfl
  unfold headerFieldStart
  split
  · exact good_free hfree hok trivial
  split
  · exact good_again hfree hok (fun _ => trivial) (by rw [hs]; exact Nat.lt_succ_self 1)
  split
  · exact good_refuse (by simp) none
  · refine good_advance hok ?_ fun f hf => .inl ?_
    · show (firstHeaderState (tokens ch)).ofName = true
      unfold firstHeaderState
      repeat' split
      all_goals rfl
    · rcases hf with hf | hf
      · rw [open_unmarked hfree] at hf
        cases hf
      · cases hf
        rfl

theorem parser_matching (constant : List UInt8) (found : HeaderState) (c : UInt8) :
    ∃ index headerState, matching constant found parser c =
        { parser with index := index, headerState := headerState } ∧
      (headerState = .general ∨ headerState = found ∨ headerState = parser.headerState) := by
  unfold matching
  dsimp only
  split
  · exact ⟨_, _, rfl, .inl rfl⟩
  split
  · exact ⟨_, _, rfl, .inr (.inl rfl)⟩
  · exact ⟨_, _, rfl, .inr (.inr rfl)⟩

/-- A character of a name changes only what is matched. -/
theorem parser_headerFieldChar (h : parser.headerState.ofName) (c : UInt8) :
    ∃ index headerState, headerFieldChar parser ch c =
        some { parser with index := index, headerState := headerState } ∧
      headerState.ofName := by
  have hmatch : ∀ constant found, HeaderState.ofName found →
      ∃ index headerState, some (matching constant found parser c) =
          some { parser with index := index, headerState := headerState } ∧
        headerState.ofName := by
    intro constant found hfound
    obtain ⟨index, headerState, heq, hstate⟩ := @parser_matching parser constant found c
    refine ⟨index, headerState, congrArg some heq, ?_⟩
    rcases hstate with rfl | rfl | rfl
    · rfl
    · exact hfound
    · exact h
  unfold headerFieldChar
  split
  · exact ⟨_, _, rfl, h⟩
  · refine ⟨_, _, rfl, ?_⟩
    split <;> rfl
  · refine ⟨_, _, rfl, ?_⟩
    split <;> rfl
  · refine ⟨_, _, rfl, ?_⟩
    repeat' split
    all_goals rfl
  · exact hmatch _ _ rfl
  · exact hmatch _ _ rfl
  · exact hmatch _ _ rfl
  · exact hmatch _ _ rfl
  · exact hmatch _ _ rfl
  · split
    · exact ⟨_, _, rfl, rfl⟩
    · exact ⟨_, _, rfl, h⟩
  · split
    · exact ⟨_, _, rfl, rfl⟩
    · exact ⟨_, _, rfl, h⟩
  · split
    · exact ⟨_, _, rfl, rfl⟩
    · exact ⟨_, _, rfl, h⟩
  · split
    · exact ⟨_, _, rfl, rfl⟩
    · exact ⟨_, _, rfl, h⟩
  · revert h
    cases hstate : parser.headerState <;> simp_all [HeaderState.ofName]

theorem good_headerField (hs : parser.state = .headerField) (h : parser.Sound 1)
    (hok : parser.httpErrno = .ok) : (headerField parser ch).Good parser := by
  have hname : parser.headerState.ofName = true := by simpa only [Parser.Sound, hs] using h
  have hend : ∀ next : Parser, next.httpErrno = .ok → next.Sound 0 →
      Move.Good { parser := next, call := some (.data .headerField) } parser := by
    intro next hnext hsound
    refine good_advance hnext hsound fun f hf => .inr ?_
    cases f <;> simp [hs, Field.open, State.inUrl, Call.delivers] at hf ⊢
  unfold headerField
  split
  · obtain ⟨index, headerState, heq, hstate⟩ := @parser_headerFieldChar parser ch hname (tokens ch)
    rw [heq]
    refine good_advance hok ?_ fun f hf => .inl ?_
    · simp only [Parser.Sound, hs]
      exact hstate
    · exact hf.resolve_right (by simp)
  split
  · exact hend _ hok trivial
  split
  · exact hend _ hok trivial
  split
  · exact hend _ hok trivial
  · exact good_refuse (by simp) none

theorem good_headerValueStart (hs : parser.state = .headerValueStart)
    (hok : parser.httpErrno = .ok) : (headerValueStart parser ch).Good parser := by
  have hfree : parser.state.unmarked := by rw [hs]; rfl
  have hmark : ∀ f : Field, f.open parser.state ∨ some Field.headerValue = some f →
      f = .headerValue := by
    intro f hf
    rcases hf with hf | hf
    · rw [open_unmarked hfree] at hf
      cases hf
    · exact (Option.some.inj hf).symm
  have hgo : ∀ next : Parser, next.httpErrno = .ok → next.state = .headerValue →
      next.headerState.ofValue →
      Move.Good { parser := next, mark := some .headerValue } parser := by
    intro next hnext hstate hvalue
    refine good_advance hnext ?_ fun f hf => .inl ?_
    · simp only [Parser.Sound, hstate]
      exact hvalue
    · rw [hmark f hf, hstate]
      rfl
  have hend : ∀ next : Parser, next.httpErrno = .ok → next.Sound 0 →
      Move.Good { parser := next, mark := some .headerValue, call := some (.data .headerValue) }
        parser := by
    intro next hnext hsound
    refine good_advance hnext hsound fun f hf => .inr ?_
    rw [hmark f hf]
    rfl
  unfold headerValueStart
  split
  · exact good_free hfree hok (by simp only [Parser.Sound, hs])
  dsimp only
  split
  · exact hend _ hok trivial
  split
  · exact hend _ hok trivial
  split
  · exact hgo _ hok rfl rfl
  · split
    · exact hgo _ hok rfl rfl
    · exact hgo _ hok rfl rfl
  · split
    · exact good_refuse (by simp) _
    · refine hgo _ hok rfl ?_
      rename_i hstate _
      show parser.headerState.ofValue = true
      rw [hstate]
      rfl
  · split
    · exact hgo _ hok rfl rfl
    split
    · exact hgo _ hok rfl rfl
    · exact hgo _ hok rfl rfl
  · exact hgo _ hok rfl rfl

/-- A further character of a value leaves the parser in the value. -/
theorem good_inValue {next : Parser} (hs : parser.state = .headerValue)
    (hok : next.httpErrno = .ok) (hstate : next.state = .headerValue)
    (hvalue : next.headerState.ofValue) : Move.Good { parser := next } parser := by
  refine good_advance hok ?_ fun f hf => .inl ?_
  · simp only [Parser.Sound, hstate]
    exact hvalue
  · rw [hstate, ← hs]
    exact hf.resolve_right (by simp)

theorem good_lengthDigit {base : UInt64} {value : Nat} (hsound : ∀ t, t ≠ ULLONG_MAX →
      Move.Good { parser := { parser with contentLength := t } } parser) :
    (lengthDigit parser base value).Good parser := by
  unfold lengthDigit
  dsimp only
  split
  · exact good_refuse (by simp) none
  · rename_i ht
    exact hsound _ fun h => ht (.inr h)

theorem good_headerValue (hs : parser.state = .headerValue) (h : parser.Sound 1)
    (hok : parser.httpErrno = .ok) : (headerValue parser ch).Good parser := by
  have hvalue : parser.headerState.ofValue = true := by simpa only [Parser.Sound, hs] using h
  have hmatch : ∀ constant found c, HeaderState.ofValue found →
      Move.Good { parser := matching constant found parser c } parser := by
    intro constant found c hfound
    obtain ⟨index, headerState, heq, hstate⟩ := @parser_matching parser constant found c
    rw [heq]
    refine good_inValue hs hok hs ?_
    rcases hstate with rfl | rfl | rfl
    · rfl
    · exact hfound
    · exact hvalue
  have hspaces : Move.Good (if ch ≠ SP then { parser := { parser with headerState := .general } }
      else { parser := parser }) parser := by
    split
    · exact good_inValue hs hok hs rfl
    · exact good_inValue hs hok hs hvalue
  unfold headerValue
  split
  · refine good_advance hok trivial fun f hf => .inr ?_
    cases f <;> simp [hs, Field.open, State.inUrl, Call.delivers] at hf ⊢
  split
  · refine ⟨by simp, fun _ => hok, fun _ => trivial, fun _ => ⟨trivial, ?_⟩, by simp, ?_⟩
    · rw [hs]
      exact Nat.zero_lt_one
    · intro _ f hf
      right
      cases f <;> simp [hs, Field.open, State.inUrl, Call.delivers] at hf ⊢
  dsimp only
  split
  · exact good_inValue hs hok hs hvalue
  · rename_i hstate
    rw [hstate] at hvalue
    cases hvalue
  · rename_i hstate
    rw [hstate] at hvalue
    cases hvalue
  · split
    · exact good_inValue hs hok hs hvalue
    split
    · exact good_refuse (by simp) none
    · exact good_lengthDigit fun t _ => good_inValue hs hok hs hvalue
  · exact hmatch _ _ _ rfl
  · exact hmatch _ _ _ rfl
  · exact hmatch _ _ _ rfl
  · exact hspaces
  · exact hspaces
  · exact hspaces
  · exact good_inValue hs hok rfl rfl

/-! ### The end of the head and the body -/

theorem newMessage_cases (parser : Parser) :
    parser.newMessage = .startReq ∨ parser.newMessage = .startRes ∨ parser.newMessage = .dead := by
  unfold Parser.newMessage Parser.startState
  repeat' split
  all_goals simp

theorem sound_newMessage (next : Parser) (n : Nat) :
    Parser.Sound n { next with state := next.newMessage } := by
  unfold Parser.Sound
  rcases newMessage_cases next with h | h | h
  all_goals
    simp only [h]

theorem good_complete {next : Parser} (hs : parser.state.unmarked) (hok : next.httpErrno = .ok) :
    (complete next).Good parser :=
  good_free hs hok (sound_newMessage next 0)

theorem good_headersAlmostDone (hs : parser.state = .headersAlmostDone)
    (hok : parser.httpErrno = .ok) : (headersAlmostDone parser ch).Good parser := by
  have hfree : parser.state.unmarked := by rw [hs]; rfl
  unfold headersAlmostDone
  apply Move.Good.strictCheck
  split
  · exact good_complete hfree hok
  · exact good_again hfree hok (fun _ => trivial) (by rw [hs]; exact Nat.zero_lt_one)

theorem good_headersDone (hs : parser.state = .headersDone) (hok : parser.httpErrno = .ok) :
    (headersDone parser ch).Good parser := by
  have hfree : parser.state.unmarked := by rw [hs]; rfl
  unfold headersDone
  apply Move.Good.strictCheck
  dsimp only
  split
  · refine ⟨by simp, fun _ => hok, fun _ => sound_newMessage _ 0, by simp, by simp, ?_⟩
    intro _ f hf
    simp [complete, open_unmarked hfree] at hf
  split
  · exact good_complete hfree hok
  split
  · rename_i hchunked
    exact good_free hfree hok ⟨hchunked, rfl⟩
  split
  · exact good_complete hfree hok
  rename_i hzero
  split
  · rename_i hmax
    exact good_free hfree hok ⟨hzero, hmax⟩
  split
  · exact good_complete hfree hok
  · exact good_free hfree hok trivial

/-- What is left of a length stays below the value for "no length". -/
theorem sub_ne_max {length : UInt64} (h : length ≠ ULLONG_MAX) (left : Nat) :
    length - .ofNat (min length.toNat left) ≠ ULLONG_MAX := by
  intro heq
  have hlt := length.toNat_lt
  have hmax : length.toNat ≠ 2 ^ 64 - 1 := fun hn => h (UInt64.toNat_inj.1 hn)
  have hle : (UInt64.ofNat (min length.toNat left)).toNat ≤ length.toNat := by
    rw [UInt64.toNat_ofNat_of_lt' (Nat.lt_of_le_of_lt (Nat.min_le_left _ _) hlt)]
    exact Nat.min_le_left _ _
  have := congrArg UInt64.toNat heq
  rw [UInt64.toNat_sub_of_le _ _ (UInt64.le_iff_toNat_le.2 hle)] at this
  rw [show ULLONG_MAX.toNat = 2 ^ 64 - 1 from rfl] at this
  omega

theorem good_bodyIdentity {left : Nat} (hs : parser.state = .bodyIdentity) (h : parser.Sound 1)
    (hok : parser.httpErrno = .ok) : (bodyIdentity parser left).Good parser := by
  have hlength : parser.contentLength ≠ 0 ∧ parser.contentLength ≠ ULLONG_MAX := by
    simpa only [Parser.Sound, hs] using h
  have hbody : ∀ f : Field, f.open parser.state ∨ some Field.body = some f → f = .body := by
    intro f hf
    cases f <;> simp [hs, Field.open, State.inUrl] at hf ⊢
  unfold bodyIdentity
  apply Move.Good.asserting hlength
  dsimp only
  split
  · refine ⟨by simp, fun _ => hok, fun _ => trivial, fun _ => ⟨trivial, ?_⟩, by simp, ?_⟩
    · rw [hs]
      exact Nat.zero_lt_one
    · intro _ f hf
      rw [hbody f hf]
      exact .inr rfl
  · rename_i hzero
    refine good_advance hok ?_ fun f hf => .inl ?_
    · simp only [Parser.Sound, hs]
      exact ⟨hzero, sub_ne_max hlength.2 left⟩
    · rw [hbody f hf]
      simp [hs, Field.open]

theorem unhex_lt {value : Nat} (h : unhex ch = some value) : value < 16 := by
  unfold unhex at h
  split at h
  · rename_i hch
    have : ch.toNat ≤ 57 := UInt8.le_iff_toNat_le.1 hch.2
    cases h
    omega
  split at h
  · rename_i hch
    have : ch.toNat ≤ 70 := UInt8.le_iff_toNat_le.1 hch.2
    cases h
    omega
  split at h
  · rename_i hch
    have : ch.toNat ≤ 102 := UInt8.le_iff_toNat_le.1 hch.2
    cases h
    omega
  split at h
  · cases h
    decide
  · cases h

theorem ofNat_ne_max {value : Nat} (h : value < 16) : UInt64.ofNat value ≠ ULLONG_MAX := by
  intro heq
  have := congrArg UInt64.toNat heq
  rw [UInt64.toNat_ofNat_of_lt' (Nat.lt_trans h (by decide))] at this
  rw [show ULLONG_MAX.toNat = 2 ^ 64 - 1 from rfl] at this
  omega

/-- In every state of a chunked body the flag is set. -/
theorem Parser.Sound.chunked {n : Nat} (h : parser.Sound n)
    (hs : parser.state = .chunkSizeStart ∨ parser.state = .chunkSize ∨
      parser.state = .chunkParameters ∨ parser.state = .chunkSizeAlmostDone ∨
      parser.state = .chunkData ∨ parser.state = .chunkDataAlmostDone ∨
      parser.state = .chunkDataDone) : parser.flags.chunked = true := by
  unfold Parser.Sound at h
  rcases hs with hs | hs | hs | hs | hs | hs | hs
  all_goals
    simp only [hs] at h
    first | exact h | exact h.1

theorem good_chunkSizeStart (hs : parser.state = .chunkSizeStart) (h : parser.Sound 1)
    (hok : parser.httpErrno = .ok) : (chunkSizeStart parser ch).Good parser := by
  have hfree : parser.state.unmarked := by rw [hs]; rfl
  have hsound : parser.flags.chunked = true ∧ parser.nread = 1 := by
    simpa only [Parser.Sound, hs] using h
  unfold chunkSizeStart
  apply Move.Good.asserting hsound.2
  apply Move.Good.asserting hsound.1
  split
  · exact good_refuse (by simp) none
  · rename_i value hvalue
    exact good_free hfree hok ⟨hsound.1, ofNat_ne_max (unhex_lt hvalue)⟩

theorem good_chunkSize (hs : parser.state = .chunkSize) (h : parser.Sound 1)
    (hok : parser.httpErrno = .ok) : (chunkSize parser ch).Good parser := by
  have hfree : parser.state.unmarked := by rw [hs]; rfl
  have hsound : parser.flags.chunked = true ∧ parser.contentLength ≠ ULLONG_MAX := by
    simpa only [Parser.Sound, hs] using h
  unfold chunkSize
  apply Move.Good.asserting hsound.1
  split
  · exact good_free hfree hok hsound
  split
  · split
    · exact good_free hfree hok hsound
    · exact good_refuse (by simp) none
  · refine good_lengthDigit fun t ht => good_free hfree hok ?_
    simp only [Parser.Sound, hs]
    exact ⟨hsound.1, ht⟩

theorem good_chunkSizeAlmostDone (hs : parser.state = .chunkSizeAlmostDone) (h : parser.Sound 1)
    (hok : parser.httpErrno = .ok) : (chunkSizeAlmostDone parser ch).Good parser := by
  have hfree : parser.state.unmarked := by rw [hs]; rfl
  have hsound : parser.flags.chunked = true ∧ parser.contentLength ≠ ULLONG_MAX := by
    simpa only [Parser.Sound, hs] using h
  unfold chunkSizeAlmostDone
  apply Move.Good.asserting hsound.1
  apply Move.Good.strictCheck
  dsimp only
  split
  · exact good_free hfree hok trivial
  · rename_i hzero
    exact good_free hfree hok ⟨hsound.1, hzero, hsound.2⟩

theorem good_chunkData {left : Nat} (hs : parser.state = .chunkData) (h : parser.Sound 1)
    (hok : parser.httpErrno = .ok) : (chunkData parser left).Good parser := by
  have hsound : parser.flags.chunked = true ∧ parser.contentLength ≠ 0 ∧
      parser.contentLength ≠ ULLONG_MAX := by
    simpa only [Parser.Sound, hs] using h
  have hbody : ∀ f : Field, f.open parser.state ∨ some Field.body = some f → f = .body := by
    intro f hf
    cases f <;> simp [hs, Field.open, State.inUrl] at hf ⊢
  unfold chunkData
  apply Move.Good.asserting hsound.1
  apply Move.Good.asserting hsound.2
  dsimp only
  split
  · rename_i hzero
    refine good_advance hok ⟨hsound.1, hzero⟩ fun f hf => .inl ?_
    rw [hbody f hf]
    rfl
  · rename_i hzero
    refine good_advance hok ?_ fun f hf => .inl ?_
    · simp only [Parser.Sound, hs]
      exact ⟨hsound.1, hzero, sub_ne_max hsound.2.2 left⟩
    · rw [hbody f hf]
      simp [hs, Field.open]

theorem good_chunkDataAlmostDone (hs : parser.state = .chunkDataAlmostDone) (h : parser.Sound 1)
    (hok : parser.httpErrno = .ok) {left : Nat} : (switch parser ch left).Good parser := by
  have hsound : parser.flags.chunked = true ∧ parser.contentLength = 0 := by
    simpa only [Parser.Sound, hs] using h
  simp only [switch, hs]
  apply Move.Good.asserting hsound.1
  apply Move.Good.asserting hsound.2
  apply Move.Good.strictCheck
  refine good_advance hok hsound.1 fun f hf => .inr ?_
  cases f <;> simp [hs, Field.open, State.inUrl, Call.delivers] at hf ⊢

theorem good_startReqOrRes (hs : parser.state = .startReqOrRes) (hok : parser.httpErrno = .ok)
    {left : Nat} : (switch parser ch left).Good parser := by
  have hfree : parser.state.unmarked := by rw [hs]; rfl
  simp only [switch, hs]
  split
  · exact good_free hfree hok (by simp only [Parser.Sound, hs])
  split
  · exact good_free hfree hok trivial
  · exact good_again hfree hok (fun _ => trivial) (by rw [hs]; exact Nat.zero_lt_one)

/-- **One pass through the switch.** -/
theorem switch_good (h : parser.Sound 1) (hok : parser.httpErrno = .ok) (left : Nat) :
    (switch parser ch left).Good parser := by
  have hrefuse : ∀ {e : Errno} {next : Parser}, e ≠ .paused → (refuse next e).Good parser :=
    fun he => good_refuse he none
  unfold switch
  cases hs : parser.state
  case startReqOrRes =>
    have := @good_startReqOrRes parser ch hs hok left
    rwa [switch, hs] at this
  case chunkDataAlmostDone =>
    have := @good_chunkDataAlmostDone parser ch hs h hok left
    rwa [switch, hs] at this
  case startReq => exact good_startReq hs hok
  case reqMethod => exact good_reqMethod hs h hok
  case headerFieldStart => exact good_headerFieldStart hs hok
  case headerField => exact good_headerField hs h hok
  case headerValueStart => exact good_headerValueStart hs hok
  case headerValue => exact good_headerValue hs h hok
  case headersAlmostDone => exact good_headersAlmostDone hs hok
  case headersDone => exact good_headersDone hs hok
  case bodyIdentity => exact good_bodyIdentity hs h hok
  case chunkSizeStart => exact good_chunkSizeStart hs h hok
  case chunkSize => exact good_chunkSize hs h hok
  case chunkSizeAlmostDone => exact good_chunkSizeAlmostDone hs h hok
  case chunkData => exact good_chunkData hs h hok
  case bodyIdentityEof =>
    refine good_advance hok (by simp only [Parser.Sound, hs]) fun f hf => .inl ?_
    cases f <;> simp [hs, Field.open, State.inUrl] at hf ⊢
  case reqSchema | reqSchemaSlash | reqSchemaSlashSlash | reqServerStart =>
    dsimp only
    split
    · exact hrefuse (by simp)
    · exact good_urlChar hok (.inl rfl) (.inl (by rw [hs]; rfl))
  case reqServer | reqServerWithAt | reqPath | reqQueryStringStart | reqQueryString
      | reqFragmentStart | reqFragment =>
    dsimp only
    split
    · exact good_urlEnd (by rw [hs]; rfl) hok trivial
    split
    · refine good_urlEnd (by rw [hs]; rfl) hok ?_
      split <;> trivial
    · exact good_urlChar hok (.inl rfl) (.inl (by rw [hs]; rfl))
  all_goals
    have hfree : parser.state.unmarked := by rw [hs]; rfl
    have hstay : ∀ call, parser.Sound 0 → Move.Good { parser := parser, call := call } parser :=
      fun _ => good_free hfree hok
  case resH | resHT | resHTT | resHTTP | resLineAlmostDone | reqHttpH | reqHttpHT | reqHttpHTT
      | reqHttpHTTP | headerAlmostDone =>
    apply Move.Good.strictCheck
    exact good_free hfree hok trivial
  case messageDone => exact good_complete hfree hok
  case resOrRespH =>
    dsimp only
    split
    · exact good_free hfree hok trivial
    split
    · exact hrefuse (by simp)
    · exact good_free hfree hok (show 2 ≤ Method.head.string.length by decide)
  case headerValueLws =>
    dsimp only
    split
    · exact good_free hfree hok trivial
    · exact good_again hfree hok (fun _ => trivial) (by rw [hs]; exact Nat.lt_succ_self 2)
  case chunkDataDone =>
    have hchunked := h.chunked (by simp [hs])
    apply Move.Good.asserting hchunked
    apply Move.Good.strictCheck
    exact good_free hfree hok ⟨hchunked, rfl⟩
  case chunkParameters =>
    have hsound : parser.flags.chunked = true ∧ parser.contentLength ≠ ULLONG_MAX := by
      simpa only [Parser.Sound, hs] using h
    apply Move.Good.asserting hsound.1
    split
    · exact good_free hfree hok hsound
    · exact hstay _ (by simpa only [Parser.Sound, hs] using hsound)
  case reqSpacesBeforeUrl =>
    dsimp only
    split
    · exact hstay _ (by simp only [Parser.Sound, hs])
    · exact good_urlChar hok (.inr rfl) (.inr hfree)
  case resHttpMajor | resHttpMinor | reqHttpMajor =>
    dsimp only
    split
    · exact good_free hfree hok trivial
    · exact good_versionDigit hfree hok trivial
  case reqHttpMinor =>
    dsimp only
    split
    · exact good_free hfree hok trivial
    split
    · exact good_free hfree hok trivial
    · exact good_versionDigit hfree hok trivial
  all_goals
    dsimp only
    repeat' split
    all_goals first
      | exact hrefuse (by simp)
      | exact good_free hfree hok trivial
      | exact good_free hfree hok (by simp only [Parser.Sound, hs])

end Switch

/-! ## Marks and callbacks -/

section Marks

variable {marks : Marks} {s : State}

/-- Every mark that is set may be set in the state. -/
def Marks.Fit (marks : Marks) (s : State) : Prop :=
  ∀ f : Field, (marks.get f).isSome → f.open s

@[simp] theorem Marks.get_put (marks : Marks) (value : Option (List UInt8)) (f g : Field) :
    (marks.put value f).get g = if g = f then value else marks.get g := by
  cases f <;> cases g <;> rfl

@[simp] theorem Marks.get_pass (marks : Marks) (bytes : List UInt8) (f : Field) :
    (marks.pass bytes).get f = (marks.get f).map (· ++ bytes) := by
  cases f <;> rfl

theorem Marks.isSome_mark {m : Option Field} {f : Field} (h : ((marks.mark m).get f).isSome) :
    (marks.get f).isSome ∨ m = some f := by
  cases m with
  | none => exact .inl h
  | some g =>
    unfold Marks.mark at h
    dsimp only at h
    split at h
    · exact .inl h
    · rw [Marks.get_put] at h
      split at h
      · rename_i hfg
        exact .inr (by rw [hfg])
      · exact .inl h

theorem Marks.Fit.pass (h : marks.Fit s) (bytes : List UInt8) : (marks.pass bytes).Fit s := by
  intro f hf
  rw [Marks.get_pass, Option.isSome_map] at hf
  exact h f hf

/-- Two marks are never open in one state. -/
theorem open_unique {f g : Field} (hf : f.open s) (hg : g.open s) : f = g := by
  revert hf hg
  cases f <;> cases g <;> cases s <;> simp [Field.open, State.inUrl]

theorem Marks.Fit.count_le (h : marks.Fit s) : marks.count ≤ 1 := by
  have hone : ∀ f g : Field, (marks.get f).isSome → (marks.get g).isSome → f = g :=
    fun f g hf hg => open_unique (h f hf) (h g hg)
  unfold Marks.count
  have h₁ := hone .headerField .headerValue
  have h₂ := hone .headerField .url
  have h₃ := hone .headerField .body
  have h₄ := hone .headerValue .url
  have h₅ := hone .headerValue .body
  have h₆ := hone .url .body
  revert h₁ h₂ h₃ h₄ h₅ h₆
  simp only [Marks.get]
  cases marks.headerField <;> cases marks.headerValue <;> cases marks.url <;> cases marks.body <;>
    simp

theorem Marks.start_fit (s : State) : (Marks.start s).Fit s := by
  intro f hf
  cases s <;> cases f <;> first | rfl | cases hf

end Marks

section Callbacks

variable {σ : Type u} {settings : Settings σ} {frame next : Frame σ}

/-- What a callback leaves of the parser: the error, if it has set one. -/
inductive Replied (parser : Parser) : Parser → Prop where
  | ok : Replied parser parser
  | error {e : Errno} : e ≠ .ok → Replied parser { parser with httpErrno := e }

theorem parser_replied (frame : Frame σ) (reply : Reply σ) {e : Errno} (he : e ≠ .ok) :
    Replied frame.parser (frame.replied reply e).parser ∧
      (frame.replied reply e).marks = frame.marks := by
  unfold Frame.replied
  refine ⟨?_, rfl⟩
  dsimp only
  split
  · exact .error he
  split
  · exact .error (by simp)
  · exact .ok

theorem notify_sound (hok : frame.parser.httpErrno = .ok) (which : Notice) :
    ∃ next, frame.notify settings which = .ok next ∧ Replied frame.parser next.parser ∧
      next.marks = frame.marks := by
  unfold Frame.notify
  rw [if_neg (by simp [hok])]
  split
  · exact ⟨frame, rfl, .ok, rfl⟩
  · obtain ⟨hp, hm⟩ := parser_replied frame (‹Callback σ› frame.parser frame.user)
      (show which.errno ≠ .ok by cases which <;> simp [Notice.errno])
    exact ⟨_, rfl, hp, hm⟩

/-- The macro delivers the mark and clears it, unless the callback stops the parser. -/
theorem data_sound (hok : frame.parser.httpErrno = .ok) (field : Field) (more : List UInt8) :
    ∃ next, frame.data settings field more = .ok next ∧ Replied frame.parser next.parser ∧
      (next.parser.httpErrno = .ok → next.marks = frame.marks.put none field) := by
  unfold Frame.data
  rw [if_neg (by simp [hok])]
  split
  · rename_i hnone
    refine ⟨frame, rfl, .ok, fun _ => ?_⟩
    cases field <;> simp only [Marks.get] at hnone <;> simp only [Marks.put, ← hnone]
  · rename_i bytes _
    cases hcb : settings.dataCallback field with
    | none =>
      dsimp only
      rw [if_neg (by simp [hok])]
      exact ⟨_, rfl, .ok, fun _ => rfl⟩
    | some callback =>
      dsimp only
      obtain ⟨hp, hm⟩ := parser_replied frame (callback frame.parser frame.user (bytes ++ more))
        (show field.errno ≠ .ok by cases field <;> simp [Field.errno])
      split
      · rename_i herr
        exact ⟨_, rfl, hp, fun h => absurd h herr⟩
      · exact ⟨_, rfl, hp, fun _ => by rw [hm]⟩

/-- What a macro leaves of the parser. -/
structure Called (parser next : Parser) : Prop where
  state : next.state = parser.state
  sound : ∀ n, parser.Sound n → next.Sound n

theorem Called.of_replied {parser p next : Parser} (hstate : p.state = parser.state)
    (hsound : ∀ n, parser.Sound n → p.Sound n) (h : Replied p next) : Called parser next := by
  cases h with
  | ok => exact ⟨hstate, hsound⟩
  | error _ => exact ⟨hstate, hsound⟩

theorem sound_skipbody {parser : Parser} (skipbody : Bool) (n : Nat) (h : parser.Sound n) :
    Parser.Sound n { parser with flags := { parser.flags with skipbody := skipbody } } := by
  unfold Parser.Sound at h ⊢
  cases hs : parser.state <;> simp only [hs] at h ⊢ <;> exact h

theorem headersComplete_sound (frame : Frame σ) :
    Called frame.parser (frame.headersComplete settings).parser ∧
      (frame.headersComplete settings).marks = frame.marks := by
  have hid : ∀ n, frame.parser.Sound n → frame.parser.Sound n := fun _ => id
  unfold Frame.headersComplete
  split
  · exact ⟨⟨rfl, hid⟩, rfl⟩
  dsimp only
  split
  · refine ⟨?_, rfl⟩
    unfold Frame.replied
    dsimp only
    rw [if_neg (by simp)]
    have hskip := fun n => @sound_skipbody frame.parser true n
    split
    · exact ⟨rfl, hskip⟩
    · exact ⟨rfl, hskip⟩
  · obtain ⟨hp, hm⟩ := parser_replied frame
      (‹Callback σ› frame.parser frame.user) (show Errno.cbHeadersComplete ≠ .ok by simp)
    exact ⟨.of_replied rfl hid hp, hm⟩

/-- The macro of a move does not abort; when it lets the parser go on, it has cleared the marks
that it delivers. -/
theorem call_sound (hok : frame.parser.httpErrno = .ok) (through : List UInt8)
    (call : Option Call) : ∃ next, frame.call settings through call = .ok next ∧
      Called frame.parser next.parser ∧ (next.parser.httpErrno = .ok → ∀ f : Field,
        (next.marks.get f).isSome → (frame.marks.get f).isSome ∧ ¬ Call.delivers f call) := by
  have hdata : ∀ field more, ∃ next, frame.data settings field more = .ok next ∧
      Called frame.parser next.parser ∧ (next.parser.httpErrno = .ok → ∀ f : Field,
        (next.marks.get f).isSome → (frame.marks.get f).isSome ∧ ¬ f = field) := by
    intro field more
    obtain ⟨next, hnext, hreply, hmarks⟩ := @data_sound σ settings frame hok field more
    refine ⟨next, hnext, .of_replied rfl (fun _ => id) hreply, fun hn f hf => ?_⟩
    rw [hmarks hn, Marks.get_put] at hf
    split at hf
    · cases hf
    · exact ⟨hf, ‹_›⟩
  unfold Frame.call
  split
  · exact ⟨frame, rfl, ⟨rfl, fun _ => id⟩, fun _ f hf => ⟨hf, by simp [Call.delivers]⟩⟩
  · obtain ⟨next, hnext, hreply, hmarks⟩ := @notify_sound σ settings frame hok ‹_›
    refine ⟨next, hnext, .of_replied rfl (fun _ => id) hreply, fun _ f hf => ?_⟩
    rw [hmarks] at hf
    exact ⟨hf, by simp [Call.delivers]⟩
  · obtain ⟨next, hnext, hcalled, hmarks⟩ := hdata ‹_› []
    exact ⟨next, hnext, hcalled, fun hn f hf => by simpa [Call.delivers] using hmarks hn f hf⟩
  · obtain ⟨next, hnext, hcalled, hmarks⟩ := hdata ‹_› []
    exact ⟨next, hnext, hcalled, fun hn f hf => by simpa [Call.delivers] using hmarks hn f hf⟩
  · obtain ⟨next, hnext, hcalled, hmarks⟩ := hdata .body through
    exact ⟨next, hnext, hcalled, fun hn f hf => by simpa [Call.delivers] using hmarks hn f hf⟩
  · obtain ⟨hcalled, hmarks⟩ := @headersComplete_sound σ settings frame
    refine ⟨_, rfl, hcalled, fun _ f hf => ?_⟩
    rw [hmarks] at hf
    exact ⟨hf, by simp [Call.delivers]⟩

end Callbacks

/-! ## A byte, a block, a run -/

section Execute

variable {σ : Type u} {settings : Settings σ}

/-- What a call leaves: it can only be taken up again without an error or after a pause, and is
sound then. -/
def Settled (parser : Parser) : Prop :=
  parser.httpErrno = .ok ∨ parser.httpErrno = .paused → parser.Sound 0

/-- The frame between two bytes. -/
structure Frame.Sound (frame : Frame σ) (n : Nat) : Prop where
  errno : frame.parser.httpErrno = .ok
  parser : frame.parser.Sound n
  marks : frame.marks.Fit frame.parser.state

/-- The flow after a byte. -/
def Flow.Sound : Flow σ → Prop
  | .advance frame _ => frame.Sound 0
  | .stop frame _ => Settled frame.parser
  | .abort _ => False

theorem settled_failed {parser : Parser} (h : parser.httpErrno ≠ .paused) :
    Settled parser.failed := by
  intro herr
  unfold Parser.failed at herr
  split at herr
  · simp at herr
  · rename_i hne
    exact absurd herr (not_or.2 ⟨hne, h⟩)

theorem perform_sound {frame : Frame σ} {m : Move} (hm : m.Good frame.parser)
    (hmarks : frame.marks.Fit frame.parser.state) (skipped : Nat) (ahead : List UInt8)
    {again : Frame σ → Nat → List UInt8 → Flow σ}
    (hagain : ∀ next : Frame σ, next.Sound 1 →
      next.parser.state.rank < frame.parser.state.rank → ∀ k bytes, (again next k bytes).Sound) :
    (perform settings frame m skipped ahead again).Sound := by
  unfold perform
  extract_lets marks ahead' skipped'
  by_cases herr : m.next = .error
  · obtain ⟨hcall, hpaused⟩ := hm.error herr
    rw [hcall]
    simp only [Frame.call, perform.finishMove, herr]
    exact settled_failed hpaused
  have hok : ({ frame with parser := m.parser, marks := marks } : Frame σ).parser.httpErrno = .ok :=
    hm.errno herr
  obtain ⟨next, hnext, hcalled, hclear⟩ :=
    @call_sound σ settings { frame with parser := m.parser, marks := marks } hok
      (ahead'.take 1) m.call
  rw [hnext]
  have hsettled : Settled next.parser := fun _ => hcalled.sound 0 (hm.sound herr)
  have hfit : next.parser.httpErrno = .ok → next.marks.Fit next.parser.state := by
    intro hn f hf
    obtain ⟨hset, hnot⟩ := hclear hn f hf
    rw [Marks.get_pass, Option.isSome_map] at hset
    have hmark := (Marks.isSome_mark hset).imp_left (hmarks f)
    rw [hcalled.state]
    exact (hm.marks herr f hmark).resolve_right hnot
  have hfinish : next.parser.httpErrno = .ok →
      (perform.finishMove m again next skipped' ahead').Sound := by
    intro hn
    unfold perform.finishMove
    split
    · exact ⟨hn, hcalled.sound 0 (hm.sound herr), (hfit hn).pass _⟩
    · rename_i hnext
      obtain ⟨hone, hrank⟩ := hm.again hnext
      exact hagain next ⟨hn, hcalled.sound 1 hone, hfit hn⟩ (by rw [hcalled.state]; exact hrank) _ _
    · rename_i h
      exact absurd h herr
    · exact hsettled
    · rename_i a h
      exact hm.no_abort a h
  dsimp only
  split
  · split
    · exact hsettled
    · rename_i hn
      exact hfinish (not_not.1 hn)
  · rename_i hnone
    rw [hnone] at hnext
    cases hnext
    exact hfinish hok

/-- A byte is executed as often as the rank of the state allows. -/
theorem reexecute_sound (ch : UInt8) {passes : Nat} {frame : Frame σ} (h : frame.Sound 1)
    (hrank : frame.parser.state.rank < passes) (skipped : Nat) (ahead : List UInt8) :
    (reexecute settings ch passes frame skipped ahead).Sound := by
  induction passes generalizing frame skipped ahead with
  | zero => exact absurd hrank (Nat.not_lt_zero _)
  | succ passes ih =>
    refine perform_sound (switch_good h.parser h.errno ahead.length) h.marks skipped ahead ?_
    intro next hnext hlt k bytes
    exact ih hnext (Nat.lt_of_lt_of_le hlt (Nat.le_of_lt_succ hrank)) k bytes

theorem rank_lt (s : State) : s.rank < PASSES := by
  cases s <;> decide

theorem finish_sound {frame : Frame σ} (h : frame.Sound 0) (read : Nat) :
    ∃ o, frame.finish settings read = .ok o ∧ Settled o.parser := by
  have hgo : ∀ (fields : List Field) (frame : Frame σ), frame.parser.httpErrno = .ok →
      frame.parser.Sound 0 → ∃ o, Frame.finish.go settings read frame fields = .ok o ∧
        Settled o.parser := by
    intro fields
    induction fields with
    | nil => exact fun frame _ hsound => ⟨_, rfl, fun _ => hsound⟩
    | cons field fields ih =>
      intro frame hok hsound
      obtain ⟨next, hnext, hreply, -⟩ := @data_sound σ settings frame hok field []
      have hcalled : Called frame.parser next.parser := .of_replied rfl (fun _ => id) hreply
      unfold Frame.finish.go
      rw [hnext]
      dsimp only
      split
      · exact ⟨_, rfl, fun _ => hcalled.sound 0 hsound⟩
      · rename_i hn
        exact ih next (not_not.1 hn) (hcalled.sound 0 hsound)
  unfold Frame.finish
  rw [if_neg (Nat.not_lt.2 h.marks.count_le)]
  exact hgo _ frame h.errno h.parser

@[simp] theorem counted_state (parser : Parser) : parser.counted.state = parser.state := by
  unfold Parser.counted
  split <;> rfl

@[simp] theorem counted_errno (parser : Parser) :
    parser.counted.httpErrno = parser.httpErrno := by
  unfold Parser.counted
  split <;> rfl

theorem sound_counted {parser : Parser} (h : parser.Sound 0) : parser.counted.Sound 1 := by
  unfold Parser.counted
  split
  · unfold Parser.Sound at h ⊢
    cases hs : parser.state <;> simp only [hs] at h ⊢ <;> first | exact h | skip
    exact ⟨h.1, by rw [h.2]⟩
  · rename_i hbody
    unfold Parser.Sound at h ⊢
    cases hs : parser.state <;> simp only [hs] at h ⊢ <;> first | exact h | skip
    exact absurd rfl (hs ▸ hbody)

theorem loop_sound {frame : Frame σ} (h : frame.Sound 0) (read skip : Nat) (bytes : List UInt8) :
    ∃ o, loop settings frame read skip bytes = .ok o ∧ Settled o.parser := by
  induction bytes generalizing frame read skip with
  | nil =>
    unfold loop
    exact finish_sound h read
  | cons ch rest ih =>
    cases skip with
    | succ skip => exact ih h _ _
    | zero =>
      unfold loop
      dsimp only
      split
      · refine ⟨_, rfl, fun herr => ?_⟩
        simp at herr
      · have hflow := @reexecute_sound σ settings ch PASSES
          { frame with parser := frame.parser.counted }
          ⟨(counted_errno _).trans h.errno, sound_counted h.parser,
            by simpa only [counted_state] using h.marks⟩ (rank_lt _) 0 (ch :: rest)
        split
        · rename_i heq
          rw [heq] at hflow
          exact hflow.elim
        · rename_i heq
          rw [heq] at hflow
          exact ⟨_, rfl, hflow⟩
        · rename_i heq
          rw [heq] at hflow
          exact ih hflow _ _

/-- `http_parser_execute` returns on a parser that can be taken up, and leaves such a parser. -/
theorem execute_sound {parser : Parser} (h : Settled parser) (user : σ) (data : List UInt8) :
    ∃ o, execute settings parser user data = .ok o ∧ Settled o.parser := by
  unfold execute
  split
  · exact ⟨_, rfl, h⟩
  rename_i hok
  rw [not_not] at hok
  have hsound := h (.inl hok)
  split
  · split
    · obtain ⟨next, hnext, hreply, -⟩ :=
        @notify_sound σ settings ⟨parser, {}, user⟩ hok .messageComplete
      have hcalled : Called parser next.parser := .of_replied rfl (fun _ => id) hreply
      rw [hnext]
      exact ⟨_, rfl, fun _ => hcalled.sound 0 hsound⟩
    all_goals exact ⟨_, rfl, fun _ => hsound⟩
  · exact @loop_sound σ settings ⟨parser, Marks.start parser.state, user⟩
      ⟨hok, hsound, Marks.start_fit _⟩ 0 0 data

end Execute

section Runs

variable {σ : Type u}

/-- What the application does with a parser. -/
inductive Use where
  | execute (data : List UInt8)
  | pause (paused : Bool)
  deriving DecidableEq, Repr

/-- One use of a parser. -/
def use (settings : Settings σ) (s : Parser × σ) : Use → Except Assertion (Parser × σ)
  | .execute data => (execute settings s.1 s.2 data).map fun o => (o.parser, o.user)
  | .pause paused => (s.1.pause paused).map fun parser => (parser, s.2)

/-- A parser in an error state is not paused. -/
def Allowed (s : Parser × σ) (u : Use) : Prop :=
  ∀ paused, u = .pause paused → s.1.httpErrno = .ok ∨ s.1.httpErrno = .paused

variable {settings : Settings σ}

theorem use_sound {s : Parser × σ} {u : Use} (h : Settled s.1) (hu : Allowed s u) :
    ∃ t, use settings s u = .ok t ∧ Settled t.1 := by
  cases u with
  | execute data =>
    obtain ⟨o, ho, hsettled⟩ := @execute_sound σ settings s.1 h s.2 data
    exact ⟨(o.parser, o.user), by rw [use, ho]; rfl, hsettled⟩
  | pause paused =>
    have herr := hu paused rfl
    refine ⟨_, by rw [use, Parser.pause, if_pos herr]; rfl, fun _ => ?_⟩
    exact h herr

theorem settled_init (type : ParserType) : Settled (Parser.init type) := by
  intro _
  cases type <;> trivial

/-- **No assertion of `http_parser.c` fails**, and no constant is read behind its end: every
sequence of calls of `http_parser_execute` and `http_parser_pause` on an initialised parser
returns, whatever the bytes are, whatever the callbacks answer, and whichever of them pause the
parser, as long as a parser in an error state is not paused. -/
theorem runs_never_abort (type : ParserType) (settings : Settings σ) (user : σ) (uses : List Use)
    (h : Meets (use settings) Allowed (Parser.init type, user) uses) :
    ∃ s, run (use settings) (Parser.init type, user) uses = .ok s := by
  have hkeep : ∀ s u s', Settled s.1 → Allowed s u → use settings s u = .ok s' →
      Settled s'.1 := by
    intro s u s' hs hu hstep
    obtain ⟨t, ht, hsettled⟩ := @use_sound σ settings s u hs hu
    obtain rfl : t = s' := Except.ok.inj (ht.symm.trans hstep)
    exact hsettled
  have hsafe : ∀ a, run (use settings) (Parser.init type, user) uses ≠ .error a := by
    intro a
    refine run_ne_error_of_meets (I := fun s => Settled s.1) hkeep ?_ (settled_init type) h
    intro s u hs hu
    obtain ⟨t, ht, -⟩ := @use_sound σ settings s u hs hu
    rw [ht]
    rintro ⟨⟩
  cases hrun : run (use settings) (Parser.init type, user) uses with
  | ok s => exact ⟨s, rfl⟩
  | error a => exact absurd hrun (hsafe a)

/-- The parsers that an application can hold. -/
def Reached (parser : Parser) : Prop :=
  ∃ (σ : Type) (type : ParserType) (settings : Settings σ) (user : σ) (uses : List Use)
    (s : Parser × σ), Meets (use settings) Allowed (Parser.init type, user) uses ∧
      run (use settings) (Parser.init type, user) uses = .ok s ∧ s.1 = parser

theorem Reached.settled {parser : Parser} (h : Reached parser) : Settled parser := by
  obtain ⟨σ, type, settings, user, uses, s, hallowed, hrun, rfl⟩ := h
  refine run_invariant_of_meets (I := fun s : Parser × σ => Settled s.1) ?_ (settled_init type)
    hallowed hrun
  intro s u s' hs hu hstep
  obtain ⟨t, ht, hsettled⟩ := @use_sound σ settings s u hs hu
  obtain rfl : t = s' := Except.ok.inj (ht.symm.trans hstep)
  exact hsettled

theorem reached_init (type : ParserType) : Reached (Parser.init type) :=
  ⟨Unit, type, {}, (), [], _, trivial, rfl, rfl⟩

/-- A parser that is paused in the middle of a response and taken up again. -/
def sampleUses : List Use :=
  [.execute (text "HTTP/1.1 2"), .pause true, .pause false, .execute (text "00 OK")]

theorem runs_never_abort_sample :
    ∃ s, run (use (σ := Unit) {}) (Parser.init .response, ()) sampleUses = .ok s := by
  refine runs_never_abort .response {} () sampleUses ?_
  unfold sampleUses
  rw [meets_cons_ok rfl]
  refine ⟨by rintro _ ⟨⟩, ?_⟩
  rw [meets_cons_ok rfl]
  refine ⟨fun _ _ => .inl rfl, ?_⟩
  rw [meets_cons_ok rfl]
  refine ⟨fun _ _ => .inr rfl, ?_⟩
  rw [meets_cons_ok rfl]
  exact ⟨by rintro _ ⟨⟩, trivial⟩

end Runs

end Rsva11001.Http
