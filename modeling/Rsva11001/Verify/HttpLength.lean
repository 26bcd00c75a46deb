import Mathlib.Data.Bool.AllAny
import Rsva11001.Http.Response
import Rsva11001.Verify.HttpMachine

/-!
# How large a length may be

`content_length` takes a `Content-Length` and the size of a chunk, digit by digit and modulo
`2 ^ 64`, and the test for an overflow compares each number with the one before the digit. Every
number below `ULLONG_MAX` is read as it stands and no other is (`length_read_iff`). But not every
other is refused: a number that passes `2 ^ 64` can still be larger than the one before.
-/

namespace Rsva11001.Http

open Lib

variable {parser q : Parser} {ch : UInt8} {read : UInt8 → Option Nat} {base : Nat}

/-! ## A digit -/

theorem counted_head (hs : parser.state.parsingHeader = true) :
    parser.counted = { parser with nread := parser.nread + 1 } :=
  if_pos hs

theorem overflowing_head (hs : parser.state.parsingHeader = true)
    (hn : parser.nread < HTTP_MAX_HEADER_SIZE) : parser.counted.overflowing = false := by
  simp [counted_head hs, Parser.overflowing, Nat.not_lt.2 hn]

theorem step_head (hs : parser.state.parsingHeader = true)
    (hn : parser.nread < HTTP_MAX_HEADER_SIZE)
    (hpass : Parser.pass ch PASSES { parser with nread := parser.nread + 1 } = .go q []) :
    parser.step ch = .go q [] := by
  have hbulk : parser.state.bulk = false := by
    revert hs
    cases parser.state <;> simp [State.parsingHeader, State.bulk]
  unfold Parser.step
  rw [overflowing_head hs hn, if_neg (by simp), counted_head hs, hpass, hbulk]
  rfl

theorem step_head_stop (hs : parser.state.parsingHeader = true)
    (hn : parser.nread < HTTP_MAX_HEADER_SIZE) {next : Parser} {k : Nat}
    (hpass : Parser.pass ch PASSES { parser with nread := parser.nread + 1 } = .stop next k) :
    parser.step ch = .stop next k := by
  unfold Parser.step
  rw [overflowing_head hs hn, if_neg (by simp), counted_head hs, hpass]

theorem decimal_eq_some {c : UInt8} {d : Nat} (h : decimal c = some d) :
    isNum c = true ∧ digit c = d := by
  unfold decimal at h
  split at h
  · rename_i hnum
    exact ⟨hnum, Option.some.inj h⟩
  · cases h

theorem ne_of_isNum {c : UInt8} (h : isNum c = true) (d : UInt8) (hd : isNum d = false) :
    c ≠ d := by
  rintro rfl
  rw [h] at hd
  cases hd

theorem hexadecimal_eq_some {c : UInt8} {d : Nat} (h : hexadecimal c = some d) :
    unhex c = some d ∧ c ≠ CR := by
  unfold hexadecimal at h
  split at h
  · refine ⟨h, ?_⟩
    rintro rfl
    cases h
  · cases h

/-- A length that has been read stays below the limit. -/
theorem lengthDigit_eq {base v d : Nat} (hbase : 0 < base)
    (hlt : v * base + d < ULLONG_MAX.toNat) :
    lengthDigit { parser with contentLength := .ofNat v } (.ofNat base) d =
      { parser := { parser with contentLength := .ofNat (v * base + d) } } := by
  have hmax : ULLONG_MAX.toNat = 2 ^ 64 - 1 := rfl
  have hv : v ≤ v * base := Nat.le_mul_of_pos_right v hbase
  have ht : UInt64.ofNat v * UInt64.ofNat base + UInt64.ofNat d = UInt64.ofNat (v * base + d) := by
    simp
  unfold lengthDigit
  dsimp only
  rw [ht, if_neg]
  rintro (h | h)
  · rw [UInt64.lt_iff_toNat_lt, UInt64.toNat_ofNat', UInt64.toNat_ofNat'] at h
    omega
  · have := congrArg UInt64.toNat h
    rw [UInt64.toNat_ofNat'] at this
    omega

/-- What the bytes do that make up a length: the first brings the parser from `parser` to `q` with
its digit, and each further one gives `q` another number. -/
structure ReadsLength (parser q : Parser) (read : UInt8 → Option Nat) (base : Nat) : Prop where
  pos : 0 < base
  small : ∀ c d, read c = some d → d < ULLONG_MAX.toNat
  head : q.state.parsingHeader = true
  first : ∀ c d, read c = some d → parser.nread < HTTP_MAX_HEADER_SIZE →
    parser.step c = .go { q with contentLength := .ofNat d, nread := parser.nread + 1 } []
  more : ∀ c d v n, read c = some d → switch { q with contentLength := v, nread := n } c 1 =
    lengthDigit { q with contentLength := v, nread := n } (.ofNat base) d

section Digit

variable {v : UInt64} {n d : Nat}

/-- A further digit, when the test lets it pass. -/
theorem ReadsLength.step_more (h : ReadsLength parser q read base)
    (hn : n < HTTP_MAX_HEADER_SIZE) (hd : read ch = some d)
    (hpass : ¬ (v * .ofNat base + .ofNat d < v ∨ v * .ofNat base + .ofNat d = ULLONG_MAX)) :
    Parser.step { q with contentLength := v, nread := n } ch =
      .go { q with contentLength := v * .ofNat base + .ofNat d, nread := n + 1 } [] := by
  have hdigit : lengthDigit { q with contentLength := v, nread := n + 1 } (.ofNat base) d =
      { parser := { q with contentLength := v * .ofNat base + .ofNat d, nread := n + 1 } } :=
    if_neg hpass
  refine step_head h.head hn ?_
  unfold PASSES Parser.pass
  simp only [h.more ch d v (n + 1) hd, hdigit]

/-- A further digit, when the test does not let it pass. -/
theorem ReadsLength.step_refused (h : ReadsLength parser q read base)
    (hn : n < HTTP_MAX_HEADER_SIZE) (hd : read ch = some d)
    (hfail : v * .ofNat base + .ofNat d < v ∨ v * .ofNat base + .ofNat d = ULLONG_MAX) :
    Parser.step { q with contentLength := v, nread := n } ch =
      .stop { q with
        contentLength := v, nread := n + 1, httpErrno := .invalidContentLength } 0 := by
  have hdigit : lengthDigit { q with contentLength := v, nread := n + 1 } (.ofNat base) d =
      refuse { q with contentLength := v, nread := n + 1 } .invalidContentLength := if_pos hfail
  refine @step_head_stop { q with contentLength := v, nread := n } ch h.head hn _ _ ?_
  unfold PASSES Parser.pass
  simp only [h.more ch d v (n + 1) hd, hdigit]
  rfl

end Digit

/-- The value of a `Content-Length`. -/
theorem readsLength_header (hs : parser.state = .headerValueStart)
    (hlength : parser.headerState = .contentLength) :
    ReadsLength parser { parser with state := .headerValue, index := 0 } decimal 10 where
  pos := by omega
  small := by
    intro c d hd
    obtain ⟨hnum, rfl⟩ := decimal_eq_some hd
    have := c.toNat_lt
    have hmax : ULLONG_MAX.toNat = 2 ^ 64 - 1 := rfl
    unfold digit
    omega
  head := rfl
  first := by
    intro c d hd hn
    obtain ⟨hnum, rfl⟩ := decimal_eq_some hd
    have hcr := ne_of_isNum hnum CR rfl
    have hlf := ne_of_isNum hnum LF rfl
    have hsp := ne_of_isNum hnum SP rfl
    have hht := ne_of_isNum hnum HT rfl
    refine step_head (by rw [hs]; rfl) hn ?_
    unfold PASSES Parser.pass
    simp [switch, hs, hlength, headerValueStart, hnum, hcr, hlf, hsp, hht]
  more := by
    intro c d v n hd
    obtain ⟨hnum, rfl⟩ := decimal_eq_some hd
    have hcr := ne_of_isNum hnum CR rfl
    have hlf := ne_of_isNum hnum LF rfl
    have hsp := ne_of_isNum hnum SP rfl
    simp [switch, headerValue, hlength, hnum, hcr, hlf, hsp]

/-- The size of a chunk. -/
theorem readsLength_chunk (hs : parser.state = .chunkSizeStart)
    (hchunked : parser.flags.chunked = true) (hnread : parser.nread = 0) :
    ReadsLength parser { parser with state := .chunkSize } hexadecimal 16 where
  pos := by omega
  small := by
    intro c d hd
    have hunhex := (hexadecimal_eq_some hd).1
    have := c.toNat_lt
    have hmax : ULLONG_MAX.toNat = 2 ^ 64 - 1 := rfl
    unfold unhex at hunhex
    grind
  head := rfl
  first := by
    intro c d hd hn
    refine step_head (by rw [hs]; rfl) hn ?_
    unfold PASSES Parser.pass switch
    simp [hs, hnread, chunkSizeStart, asserting, hchunked, (hexadecimal_eq_some hd).1]
  more := by
    intro c d v n hd
    obtain ⟨hunhex, hcr⟩ := hexadecimal_eq_some hd
    simp [switch, chunkSize, asserting, hchunked, hunhex, hcr]

/-! ## A numeral -/

/-- What becomes of a numeral of `len` digits that denotes `n`. -/
inductive LengthFed (parser q : Parser) (len n : Nat) (fed : Fed Parser UInt8) : Prop where
  | taken : fed =
      ⟨{ q with contentLength := .ofNat n, nread := parser.nread + len }, [], len, false⟩ →
    UInt64.ofNat n ≠ ULLONG_MAX → LengthFed parser q len n fed
  | refused : fed.stopped = true → fed.state.httpErrno = .invalidContentLength →
    ULLONG_MAX.toNat ≤ n → LengthFed parser q len n fed

/-- One digit more. -/
theorem LengthFed.more (hreads : ReadsLength parser q read base) {bytes : List UInt8} {n d : Nat}
    (hd : read ch = some d) (hroom : parser.nread + bytes.length < HTTP_MAX_HEADER_SIZE)
    (h : LengthFed parser q bytes.length n (feed Parser.step parser bytes)) :
    LengthFed parser q (bytes.length + 1) (n * base + d)
      (feed Parser.step parser (bytes ++ [ch])) := by
  have hle : n ≤ n * base := Nat.le_mul_of_pos_right n hreads.pos
  rw [feed_append]
  cases h with
  | refused hstopped herr hn =>
    rw [if_pos hstopped]
    exact .refused hstopped herr (by omega)
  | taken hfed hne =>
    rw [hfed, if_neg (by simp)]
    have ht : UInt64.ofNat n * .ofNat base + .ofNat d = UInt64.ofNat (n * base + d) := by simp
    by_cases hfail : UInt64.ofNat n * .ofNat base + .ofNat d < UInt64.ofNat n ∨
        UInt64.ofNat n * .ofNat base + .ofNat d = ULLONG_MAX
    · rw [feed_cons_stop (hreads.step_refused hroom hd hfail)]
      refine .refused rfl rfl (Nat.le_of_not_lt fun hlt => ?_)
      have hpass := @lengthDigit_eq q base n d hreads.pos hlt
      unfold lengthDigit at hpass
      dsimp only at hpass
      rw [if_pos hfail] at hpass
      have hnext : Next.error = Next.advance := congrArg Move.next hpass
      cases hnext
    · rw [feed_cons_go (hreads.step_more hroom hd hfail), ht]
      exact .taken rfl fun h => hfail (.inr (ht.trans h))

/-- **A numeral**, digit by digit. -/
theorem lengthFed (hreads : ReadsLength parser q read base) (digits : Digits read)
    (hroom : parser.nread + digits.bytes.length ≤ HTTP_MAX_HEADER_SIZE) :
    LengthFed parser q digits.bytes.length (digits.value base)
      (feed Parser.step parser digits.bytes) := by
  obtain ⟨bytes, hne, hsome⟩ := digits
  obtain ⟨c, rest, rfl⟩ := List.exists_cons_of_ne_nil hne
  unfold Digits.value
  dsimp only at hroom ⊢
  induction rest using List.reverseRecOn with
  | nil =>
    obtain ⟨d, hd⟩ := Option.isSome_iff_exists.1 (hsome c List.mem_cons_self)
    rw [List.filterMap_cons_some hd, List.filterMap_nil, positional_singleton]
    refine .taken ?_ fun h => ?_
    · rw [feed_cons_go (hreads.first c d hd hroom)]
      rfl
    · have hsmall := hreads.small c d hd
      have hmax : ULLONG_MAX.toNat = 2 ^ 64 - 1 := rfl
      have := congrArg UInt64.toNat h
      rw [UInt64.toNat_ofNat'] at this
      omega
  | append_singleton rest e ih =>
    obtain ⟨f, hf⟩ := Option.isSome_iff_exists.1
      (hsome e (List.mem_cons_of_mem c (List.mem_append_right _ List.mem_cons_self)))
    rw [← List.cons_append] at hsome hroom ⊢
    rw [List.length_append, List.length_singleton] at hroom ⊢
    rw [List.filterMap_append, List.filterMap_cons_some hf, List.filterMap_nil, positional_concat]
    exact (ih (by simp) (fun d hd => hsome d (List.mem_append_left _ hd)) (by omega)).more hreads
      hf (by omega)

/-- A number below the limit is read as it stands. -/
theorem ReadsLength.runs (hreads : ReadsLength parser q read base) {digits : Digits read}
    (hlt : digits.value base < ULLONG_MAX.toNat)
    (hroom : parser.nread + digits.bytes.length ≤ HTTP_MAX_HEADER_SIZE) :
    Runs Parser.step parser digits.bytes
      { q with
        contentLength := .ofNat (digits.value base)
        nread := parser.nread + digits.bytes.length } [] := by
  cases lengthFed hreads digits hroom with
  | taken hfed _ => exact hfed
  | refused _ _ hn => exact absurd hlt (Nat.not_lt.2 hn)

/-! ## Which lengths are read right -/

/-- Where a length is read, with what digits and to which base. -/
inductive AtLength (parser : Parser) : (UInt8 → Option Nat) → Nat → Prop where
  | header : parser.state = .headerValueStart → parser.headerState = .contentLength →
    AtLength parser decimal 10
  | chunk : parser.state = .chunkSizeStart → AtLength parser hexadecimal 16

theorem AtLength.reads (h : AtLength parser read base) (hsound : parser.Sound 0) :
    ∃ q, ReadsLength parser q read base ∧ q.httpErrno = parser.httpErrno := by
  cases h with
  | header hs hlength => exact ⟨_, readsLength_header hs hlength, rfl⟩
  | chunk hs =>
    unfold Parser.Sound at hsound
    rw [hs] at hsound
    exact ⟨_, readsLength_chunk hs hsound.1 hsound.2, rfl⟩

/-- **The lengths that are read right.** However the digits of a length are cut into blocks: when
they set no error, `content_length` is the number modulo `2 ^ 64`, and it is the number exactly for
the numbers below `ULLONG_MAX`. -/
theorem length_read_iff (hreached : Reached parser) (hok : parser.httpErrno = .ok)
    (hat : AtLength parser read base) {digits : Digits read} {blocks : List (List UInt8)}
    (hne : ∀ b ∈ blocks, b ≠ []) (hblocks : blocks.flatten = digits.bytes)
    (hroom : parser.nread + digits.bytes.length ≤ HTTP_MAX_HEADER_SIZE) :
    ∃ next slices,
      run (use record) (parser, []) (blocks.map .execute) = .ok (next, slices) ∧
        (next.httpErrno = .ok → next.contentLength.toNat = digits.value base % 2 ^ 64) ∧
        (next.httpErrno = .ok ∧ next.contentLength.toNat = digits.value base ↔
          digits.value base < ULLONG_MAX.toNat) := by
  have hsound := hreached.settled (.inl hok)
  obtain ⟨q, hreads, hq⟩ := hat.reads hsound
  have hfed := lengthFed hreads digits hroom
  rw [← hblocks] at hfed
  have hrun := @run_blocks parser [] hok hsound (by simp) blocks hne _ rfl
  have hmax : ULLONG_MAX.toNat = 2 ^ 64 - 1 := rfl
  cases hfed with
  | refused hstopped herr hn =>
    have hbad : (feed Parser.step parser blocks.flatten).state.httpErrno ≠ .ok := by
      rw [herr]
      decide
    obtain ⟨slices, hslices, -⟩ := hrun (.inr hbad)
    exact ⟨_, slices, hslices, fun h => absurd h hbad, fun h => absurd h.1 hbad, fun h => by omega⟩
  | taken hfed hne =>
    obtain ⟨slices, hslices, -⟩ := hrun (.inl (by rw [hfed]))
    rw [hfed] at hslices
    have hvalue : (UInt64.ofNat (digits.value base)).toNat = digits.value base % 2 ^ 64 :=
      UInt64.toNat_ofNat'
    refine ⟨_, slices, hslices, fun _ => hvalue, fun h => ?_, fun h => ⟨hq.trans hok, ?_⟩⟩
    · have heq : (UInt64.ofNat (digits.value base)).toNat = digits.value base := h.2
      have hne' : (UInt64.ofNat (digits.value base)).toNat ≠ ULLONG_MAX.toNat :=
        fun h => hne (UInt64.toNat_inj.1 h)
      omega
    · exact hvalue.trans (Nat.mod_eq_of_lt (by omega))

/-! A number that passes `2 ^ 64` and is not refused. -/

/-- The parser in front of the value of a `Content-Length`. -/
def sampleAtValue : Parser :=
  match run (use record) (Parser.init .response, [])
    [.execute (text "HTTP/1.0 200 OK\nContent-Length:")] with
  | .ok (parser, _) => parser
  | .error _ => .init .response

theorem reached_sampleAtValue : Reached sampleAtValue :=
  ⟨_, .response, record, [], [.execute (text "HTTP/1.0 200 OK\nContent-Length:")], _,
    ⟨by rintro _ ⟨⟩, fun _ _ => trivial⟩, rfl, rfl⟩

def sampleDigits : Digits decimal :=
  ⟨text "25000000000000000000", by decide, List.all_iff_forall_prop.1 rfl⟩

theorem length_read_iff_sample : ∃ next slices,
    run (use record) (sampleAtValue, [])
        ([text "25000000000", text "000000000"].map .execute) = .ok (next, slices) ∧
      next.httpErrno = .ok ∧ next.contentLength.toNat = 6553255926290448384 := by
  obtain ⟨next, slices, hrun, hmod, -⟩ := @length_read_iff _ _ _ reached_sampleAtValue rfl
    (.header rfl rfl) sampleDigits [text "25000000000", text "000000000"] (by decide) (by decide)
    (by decide)
  have hok : (run (use record) (sampleAtValue, [])
      ([text "25000000000", text "000000000"].map .execute)).map (fun s => s.1.httpErrno) =
        .ok .ok := by rfl
  rw [hrun] at hok
  exact ⟨next, slices, hrun, Except.ok.inj hok, hmod (Except.ok.inj hok)⟩

end Rsva11001.Http
