import Mathlib.Data.Bool.AllAny
import Rsva11001.Verify.HttpHead

/-!
# Responses round trip

The byte machine reads every response of `Http/Response.lean` to its end and puts out its body
(`runs_response`), and so it does with responses one after the other on a persistent connection
(`runs_responses`). `http_parser_execute` then hands `on_body` the bodies and nothing else, however
the stream is cut into blocks (`responses_delivered`).
-/

namespace Rsva11001.Http

open Lib

variable {p q : Parser} {ch : UInt8}

/-! ## The bytes of a body -/

theorem step_body (hs : p.state.parsingHeader = false) {o : List UInt8}
    (hpass : Parser.pass ch PASSES p = .go q o) :
    p.step ch = .go q (if p.state.bulk then [ch] else []) := by
  have hcounted : p.counted = p := if_neg (by simp [hs])
  have hover : p.overflowing = false := by simp [Parser.overflowing, hs]
  unfold Parser.step
  rw [hcounted, hover, if_neg (by simp), hpass]

/-- A count of bytes that can be taken down. -/
theorem toNat_length {n : Nat} (hlt : n < ULLONG_MAX.toNat) : (UInt64.ofNat n).toNat = n := by
  have hmax : ULLONG_MAX.toNat = 2 ^ 64 - 1 := rfl
  rw [UInt64.toNat_ofNat', Nat.mod_eq_of_lt (by omega)]

theorem length_pred_ofNat (n : Nat) :
    UInt64.ofNat (n + 1) - UInt64.ofNat 1 = UInt64.ofNat n := by
  rw [UInt64.ofNat_add]
  simp

theorem length_ne {n : Nat} (hpos : 0 < n) (hlt : n < ULLONG_MAX.toNat) :
    UInt64.ofNat n ≠ 0 ∧ UInt64.ofNat n ≠ ULLONG_MAX := by
  have hn := toNat_length hlt
  refine ⟨fun h => ?_, fun h => ?_⟩
  · rw [h] at hn
    exact absurd hn (by simp; omega)
  · rw [h] at hn
    omega

/-- A body that ends with the connection. -/
theorem runs_untilEof (p : Parser) (data : List UInt8) :
    Runs Parser.step { p with state := .bodyIdentityEof } data
      { p with state := .bodyIdentityEof } data := by
  induction data with
  | nil => exact Runs.nil _
  | cons c data ih =>
    exact Runs.cons (step_body (q := { p with state := .bodyIdentityEof }) rfl rfl) ih

section Counted

variable {n : Nat} (hlt : n + 1 < ULLONG_MAX.toNat)

include hlt

theorem min_ofNat : min (UInt64.ofNat (n + 1)).toNat 1 = 1 := by
  rw [toNat_length hlt]
  omega

/-- One byte of a body with a length, before the last. -/
theorem step_sized (p : Parser) (hpos : 0 < n) (ch : UInt8) :
    Parser.step { p with state := .bodyIdentity, contentLength := .ofNat (n + 1) } ch =
      .go { p with state := .bodyIdentity, contentLength := .ofNat n } [ch] := by
  refine step_body rfl (o := []) ?_
  have hne := length_ne (Nat.succ_pos n) hlt
  have hne' := (length_ne hpos (Nat.lt_of_succ_lt hlt)).1
  unfold PASSES Parser.pass switch
  simp only [bodyIdentity, asserting, if_pos hne, min_ofNat hlt, length_pred_ofNat, if_neg hne']

/-- The last byte of a body with a length. -/
theorem step_sizedLast (p : Parser) (hn : n = 0) (ch : UInt8) :
    Parser.step { p with state := .bodyIdentity, contentLength := .ofNat (n + 1) } ch =
      .go { p with
        state := { p with state := .messageDone, contentLength := 0 : Parser }.newMessage
        contentLength := 0 } [ch] := by
  refine step_body rfl (o := []) ?_
  have hne := length_ne (Nat.succ_pos n) hlt
  subst hn
  unfold PASSES Parser.pass switch
  simp only [bodyIdentity, asserting, if_pos hne, min_ofNat hlt, length_pred_ofNat]
  rfl

end Counted

/-- A body with a length. -/
theorem runs_sized (p : Parser) {data : List UInt8} (hne : data ≠ [])
    (hlt : data.length < ULLONG_MAX.toNat) :
    Runs Parser.step { p with state := .bodyIdentity, contentLength := .ofNat data.length } data
      { p with
        state := { p with state := .messageDone, contentLength := 0 : Parser }.newMessage
        contentLength := 0 } data := by
  induction data with
  | nil => exact absurd rfl hne
  | cons c data ih =>
    rw [List.length_cons] at hlt ⊢
    by_cases hnil : data = []
    · subst hnil
      exact Runs.single (step_sizedLast hlt p rfl c)
    · exact Runs.cons (step_sized hlt p (List.length_pos_iff.2 hnil) c)
        (ih hnil (Nat.lt_of_succ_lt hlt))

/-! ## Chunks -/

section ChunkBytes

variable (hchunked : p.flags.chunked = true)

include hchunked

theorem step_chunkByte {n : Nat} (hlt : n + 1 < ULLONG_MAX.toNat) (ch : UInt8) :
    Parser.step { p with state := .chunkData, contentLength := .ofNat (n + 1) } ch =
      .go { p with
        state := if n = 0 then .chunkDataAlmostDone else .chunkData
        contentLength := .ofNat n } [ch] := by
  refine step_body rfl (o := []) ?_
  have hne := length_ne (Nat.succ_pos n) hlt
  unfold PASSES Parser.pass switch
  simp only [chunkData, asserting, if_pos hne, if_pos hchunked, min_ofNat hlt, length_pred_ofNat]
  by_cases hn : n = 0
  · subst hn
    rfl
  · rw [if_neg (length_ne (Nat.pos_of_ne_zero hn) (Nat.lt_of_succ_lt hlt)).1, if_neg hn]

/-- The data of a chunk. -/
theorem runs_chunkData {data : List UInt8} (hne : data ≠ [])
    (hlt : data.length < ULLONG_MAX.toNat) :
    Runs Parser.step { p with state := .chunkData, contentLength := .ofNat data.length } data
      { p with state := .chunkDataAlmostDone, contentLength := 0 } data := by
  induction data with
  | nil => exact absurd rfl hne
  | cons c data ih =>
    rw [List.length_cons] at hlt ⊢
    have hstep := step_chunkByte hchunked hlt c
    by_cases hnil : data = []
    · subst hnil
      exact Runs.single hstep
    · rw [if_neg (by simpa using hnil)] at hstep
      exact Runs.cons hstep (ih hnil (Nat.lt_of_succ_lt hlt))

/-- The end of a chunk. -/
theorem runs_chunkEnd :
    Runs Parser.step { p with state := .chunkDataAlmostDone, contentLength := 0 } [CR, LF]
      { p with state := .chunkSizeStart, contentLength := 0, nread := 0 } [] := by
  have hcr : Parser.step { p with state := .chunkDataAlmostDone, contentLength := 0 } CR =
      .go { p with state := .chunkDataDone, contentLength := 0 } [] := by
    refine step_body rfl (o := []) ?_
    unfold PASSES Parser.pass switch
    simp [asserting, hchunked, strictCheck]
  have hlf : Parser.step { p with state := .chunkDataDone, contentLength := 0 } LF =
      .go { p with state := .chunkSizeStart, contentLength := 0, nread := 0 } [] := by
    refine step_body rfl (o := []) ?_
    unfold PASSES Parser.pass switch
    simp [asserting, hchunked, strictCheck]
  exact Runs.cons hcr (Runs.single hlf)

/-- The digits of a chunk's size. -/
theorem runs_size {digits : Digits hexadecimal} (hlt : digits.value 16 < ULLONG_MAX.toNat)
    (hle : digits.bytes.length ≤ HTTP_MAX_HEADER_SIZE) :
    Runs Parser.step { p with state := .chunkSizeStart, nread := 0 } digits.bytes
      { p with
        state := .chunkSize, contentLength := .ofNat (digits.value 16)
        nread := digits.bytes.length } [] := by
  let start : Parser := { p with state := .chunkSizeStart, nread := 0 }
  have hroom : start.nread + digits.bytes.length ≤ HTTP_MAX_HEADER_SIZE := by
    rwa [show start.nread = 0 from rfl, Nat.zero_add]
  have hrun := (@readsLength_chunk start rfl hchunked rfl).runs hlt hroom
  rw [show start.nread = 0 from rfl, Nat.zero_add] at hrun
  exact hrun

/-- What else stands in the line of a chunk. -/
theorem walks_extension {extension : List UInt8}
    (hstart : ∀ c, extension.head? = some c → c = chr ';' ∨ c = SP)
    (htext : ∀ c ∈ extension, c ≠ CR) :
    Walks { p with state := .chunkSize } (extension ++ [CR])
      { p with state := .chunkSizeAlmostDone } := by
  cases extension with
  | nil =>
    refine .move rfl (fun n => ?_) fun n => ?_ <;> simp [switch, chunkSize, asserting, hchunked]
  | cons c rest =>
    have hfirst : Walks { p with state := .chunkSize } [c]
        { p with state := .chunkParameters } := by
      rcases hstart c rfl with rfl | rfl <;>
        refine .move rfl (fun n => ?_) fun n => ?_ <;>
        simp [switch, chunkSize, asserting, hchunked, unhex, chr, SP, CR]
    have hrest : Walks { p with state := .chunkParameters } rest
        { p with state := .chunkParameters } := by
      refine .stay fun d hd => ?_
      have hcr := htext d (List.mem_cons_of_mem c hd)
      refine .move rfl (fun n => ?_) fun n => ?_ <;> simp [switch, asserting, hchunked, hcr]
    have hend : Walks { p with state := .chunkParameters } [CR]
        { p with state := .chunkSizeAlmostDone } := by
      refine .move rfl (fun n => ?_) fun n => ?_ <;> simp [switch, asserting, hchunked]
    exact hfirst.cons (hrest.append hend)

/-- The line of a chunk. -/
theorem runs_chunkLine (line : ChunkLine) {next : Parser}
    (hnext : Parser.pass LF PASSES
      { p with
        state := .chunkSizeAlmostDone, contentLength := .ofNat (line.size.value 16)
        nread := line.size.bytes.length + (line.extension.length + 1) + 1 } = .go next []) :
    Runs Parser.step { p with state := .chunkSizeStart, nread := 0 } line.encode next [] := by
  have hle := line.length_le
  have hsize := @runs_size p hchunked line.size line.value_lt (by omega)
  have hextension := walks_extension
    (p := { p with contentLength := .ofNat (line.size.value 16) }) hchunked line.extension_start
    line.extension_text line.size.bytes.length (by simp; omega)
  rw [List.length_append] at hextension
  have hbytes : line.encode = line.size.bytes ++ ((line.extension ++ [CR]) ++ [LF]) := by
    simp [ChunkLine.encode]
  rw [hbytes]
  refine hsize.silent (hextension.silent (Runs.single (step_head rfl ?_ hnext)))
  dsimp only [List.length_singleton]
  omega

/-- A chunk. -/
theorem copies_chunk (chunk : Chunk) :
    Copies Parser.step { p with state := .chunkSizeStart, nread := 0 } chunk.layout
      { p with state := .chunkSizeStart, contentLength := 0, nread := 0 } := by
  have hsize := chunk.size_eq
  have hlt : chunk.data.length < ULLONG_MAX.toNat := hsize ▸ chunk.line.value_lt
  have hpos := List.length_pos_iff.2 chunk.ne_nil
  have hline := @runs_chunkLine p hchunked chunk.line
    { p with state := .chunkData, contentLength := .ofNat chunk.data.length, nread := 0 } (by
    rw [hsize]
    unfold PASSES Parser.pass switch
    simp only [chunkSizeAlmostDone, asserting, if_pos hchunked, strictCheck]
    rw [if_neg (by simp), if_neg (length_ne hpos hlt).1])
  have hdata := runs_chunkData (p := { p with nread := 0 }) hchunked chunk.ne_nil hlt
  have hend := runs_chunkEnd (p := { p with nread := 0 }) hchunked
  exact (Copies.plain hline).append ((Copies.content step_out hdata).append (Copies.plain hend))

/-- Chunks, one after the other. -/
theorem copies_chunks (chunks : List Chunk) : ∃ length,
    Copies Parser.step { p with state := .chunkSizeStart, nread := 0 }
      (chunks.flatMap Chunk.layout)
      { p with state := .chunkSizeStart, contentLength := length, nread := 0 } := by
  induction chunks generalizing p with
  | nil => exact ⟨_, Copies.nil _⟩
  | cons chunk chunks ih =>
    obtain ⟨length, hrest⟩ := @ih { p with contentLength := 0 } hchunked
    exact ⟨length, (copies_chunk hchunked chunk).append hrest⟩

end ChunkBytes

/-! ## The end of a head -/

theorem header_flags_trailing (header : Header) (flags : Flags) (trailing : Bool) :
    header.flags { flags with trailing := trailing } =
      { header.flags flags with trailing := trailing } := by
  unfold Header.flags
  repeat' split
  all_goals rfl

theorem headersFlags_trailing (headers : List Header) (flags : Flags) (trailing : Bool) :
    headersFlags headers { flags with trailing := trailing } =
      { headersFlags headers flags with trailing := trailing } := by
  induction headers generalizing flags with
  | nil => rfl
  | cons header headers ih =>
    show headersFlags headers (header.flags _) = _
    rw [header_flags_trailing]
    exact ih _

/-- Headers set flags and reset none, and they leave the parser's own alone. -/
theorem headersFlags_keep (headers : List Header) (flags : Flags) :
    (headersFlags headers flags).trailing = flags.trailing ∧
      (headersFlags headers flags).skipbody = flags.skipbody ∧
      (flags.chunked = true → (headersFlags headers flags).chunked = true) := by
  have hheader : ∀ (header : Header) (flags : Flags),
      (header.flags flags).trailing = flags.trailing ∧
        (header.flags flags).skipbody = flags.skipbody ∧
        (flags.chunked = true → (header.flags flags).chunked = true) := by
    intro header flags
    unfold Header.flags
    repeat' split
    all_goals exact ⟨rfl, rfl, by simp⟩
  induction headers generalizing flags with
  | nil => exact ⟨rfl, rfl, id⟩
  | cons header headers ih =>
    obtain ⟨htrailing, hskip, hchunked⟩ := ih (header.flags flags)
    obtain ⟨htrailing', hskip', hchunked'⟩ := hheader header flags
    exact ⟨htrailing.trans htrailing', hskip.trans hskip', fun h => hchunked (hchunked' h)⟩

/-- Where a message leaves the parser whose end has been found. -/
def Head.next (head : Head) (flags : Flags) : State :=
  if (if 0 < head.status.major.value 10 ∧ 0 < head.status.minor.value 10 then
    !flags.connectionClose else flags.connectionKeepAlive) then .startRes
  else .dead

theorem newMessage_eq {head : Head} (htype : p.type = .response)
    (hmajor : p.httpMajor = head.status.major.value 10)
    (hminor : p.httpMinor = head.status.minor.value 10) (hneeds : p.messageNeedsEof = false) :
    p.newMessage = head.next p.flags := by
  have hstart : p.startState = .startRes := by simp [Parser.startState, htype]
  unfold Parser.newMessage Parser.shouldKeepAlive Head.next
  rw [hstart, hneeds, hmajor, hminor]
  split
  · cases p.flags.connectionClose <;> rfl
  · cases p.flags.connectionKeepAlive <;> rfl

theorem walks_headersEnd {s : State} (hs : s.betweenHeaders) :
    Walks { p with state := s } [CR] { p with state := .headersAlmostDone } := by
  cases s with
  | headerFieldStart => exact .byte rfl fun _ => rfl
  | headerValueLws => exact .byte rfl fun _ => rfl
  | _ => exact absurd hs id

/-- Where the parser of a response stands behind the head. -/
def Parser.afterHead (p : Parser) : State :=
  if p.flags.chunked then .chunkSizeStart
  else if p.contentLength = 0 then p.newMessage
  else if p.contentLength ≠ ULLONG_MAX then .bodyIdentity
  else if p.messageNeedsEof then .bodyIdentityEof
  else p.newMessage

theorem pass_headDone (htype : p.type = .response) (hmethod : p.method ≠ .connect)
    (htrailing : p.flags.trailing = false) (hskip : p.flags.skipbody = false)
    (hupgrade : p.flags.upgrade = false) (hs : p.state = .headersAlmostDone) :
    Parser.pass LF PASSES p =
      .go { p with state := p.afterHead, upgrade := false, nread := 0 } [] := by
  obtain ⟨type, flags, state, headerState, index, nread, contentLength, httpMajor, httpMinor,
    statusCode, method, httpErrno, upgrade⟩ := p
  dsimp only at htype hmethod htrailing hskip hupgrade hs
  subst hs htype
  unfold PASSES Parser.pass switch
  simp only [headersAlmostDone, strictCheck, htrailing, hupgrade, hmethod, ne_eq, not_true_eq_false,
    if_false, Bool.false_eq_true, decide_false, Bool.or_false]
  unfold Parser.pass switch
  simp only [headersDone, strictCheck, hskip, ne_eq, not_true_eq_false, if_false,
    Bool.false_eq_true, reduceCtorEq, false_or]
  unfold Parser.afterHead
  by_cases hchunked : flags.chunked = true
  · simp [hchunked]
  by_cases hzero : contentLength = 0
  · simp [hchunked, hzero, complete]
    rfl
  by_cases hlength : contentLength = ULLONG_MAX
  · subst hlength
    have hsame : Parser.messageNeedsEof ⟨.response, flags, .headersAlmostDone, headerState, index,
          nread, ULLONG_MAX, httpMajor, httpMinor, statusCode, method, httpErrno, upgrade⟩ =
        Parser.messageNeedsEof ⟨.response, flags, .headersDone, headerState, index, 0, ULLONG_MAX,
          httpMajor, httpMinor, statusCode, method, httpErrno, false⟩ := rfl
    rw [hsame]
    cases Parser.messageNeedsEof ⟨.response, flags, .headersDone, headerState, index, 0, ULLONG_MAX,
        httpMajor, httpMinor, statusCode, method, httpErrno, false⟩ with
    | false =>
      simp [hchunked, hzero, complete]
      rfl
    | true => simp [hchunked, hzero]
  · simp [hchunked, hzero, hlength]

theorem pass_trailersDone (htrailing : p.flags.trailing = true)
    (hs : p.state = .headersAlmostDone) :
    Parser.pass LF PASSES p = .go { p with state := p.newMessage } [] := by
  obtain ⟨type, flags, state, headerState, index, nread, contentLength, httpMajor, httpMinor,
    statusCode, method, httpErrno, upgrade⟩ := p
  dsimp only at htrailing hs
  subst hs
  unfold PASSES Parser.pass switch
  simp only [headersAlmostDone, strictCheck, htrailing, ne_eq, not_true_eq_false, if_false, if_true,
    complete]

/-! ## A response -/

/-- The parser at the start of a response, with bytes counted before it. -/
structure AtStart (p : Parser) (n : Nat) : Prop where
  type : p.type = .response
  state : p.state = .startRes
  method : p.method ≠ .connect
  nread : p.nread = n

theorem atStart_init : AtStart (.init .response) 0 :=
  ⟨rfl, rfl, by decide, rfl⟩

/-- What the parser knows behind a head. -/
structure Parser.Knows (p : Parser) (head : Head) : Prop where
  type : p.type = .response
  method : p.method ≠ .connect
  flags : p.flags = head.flags
  contentLength : p.contentLength = head.contentLength
  httpMajor : p.httpMajor = head.status.major.value 10
  httpMinor : p.httpMinor = head.status.minor.value 10
  statusCode : p.statusCode = head.status.code.value 10
  nread : p.nread = 0

/-- **The head of a response.** -/
theorem runs_head {n : Nat} (hp : AtStart p n) (head : Head)
    (hlen : n + head.encode.length ≤ HTTP_MAX_HEADER_SIZE) (hup : head.flags.upgrade = false) :
    ∃ q : Parser, q.Knows head ∧
      Runs Parser.step p head.encode { q with state := q.afterHead } [] := by
  let p₁ : Parser :=
    { p with
      flags := {}, contentLength := ULLONG_MAX
      httpMajor := head.status.major.value 10, httpMinor := head.status.minor.value 10
      statusCode := head.status.code.value 10 }
  have hstatus : Walks p head.status.encode { p₁ with state := .headerFieldStart } := by
    have hwalk := walks_status p head.status
    rwa [← hp.state] at hwalk
  obtain ⟨s, hs, index, hbetween, hheaders⟩ :=
    walks_headers (s := .headerFieldStart) trivial p₁ head.headers
  let p₂ : Parser :=
    { p₁ with
      headerState := hs, index := index, flags := head.flags
      contentLength := head.contentLength }
  have hcr : Walks { p₂ with state := s } [CR] { p₂ with state := .headersAlmostDone } :=
    walks_headersEnd hbetween
  have hwalk : Walks p (head.status.encode ++ (encodeHeaders head.headers ++ [CR]))
      { p₂ with state := .headersAlmostDone } := hstatus.append (hheaders.append hcr)
  have hbytes : head.encode =
      head.status.encode ++ (encodeHeaders head.headers ++ [CR]) ++ [LF] := by
    simp [Head.encode]
  rw [hbytes, List.length_append, List.length_singleton] at hlen
  obtain ⟨htrailing, hskip, -⟩ := headersFlags_keep head.headers {}
  let q : Parser := { p₂ with state := .headersAlmostDone, upgrade := false, nread := 0 }
  refine ⟨q, ⟨hp.type, hp.method, rfl, rfl, rfl, rfl, rfl, rfl⟩, ?_⟩
  have hrun := hwalk n (by omega)
  rw [← hp.nread] at hrun
  rw [hbytes]
  refine hrun.silent (Runs.single (step_head rfl (by dsimp only; rw [hp.nread]; omega) ?_))
  exact pass_headDone hp.type hp.method htrailing hskip hup rfl

/-- The bytes that stay counted behind a body. -/
def Body.leftover : Body → Nat
  | .chunked _ last => (encodeHeaders last.trailers).length + 2
  | _ => 0

/-- Where the parser stands behind a response. -/
def Response.after (response : Response) : State :=
  match response.body with
  | .untilEof _ => .bodyIdentityEof
  | _ => if response.persistent then .startRes else .dead

/-- The parser behind a response. -/
structure Behind (p : Parser) (response : Response) : Prop where
  type : p.type = .response
  state : p.state = response.after
  method : p.method ≠ .connect
  nread : p.nread = response.body.leftover

section Bodies

variable {head : Head} (h : q.Knows head)

include h

theorem copies_sizedBody (hup : head.flags.upgrade = false) {data : List UInt8}
    (hfits : head.framing = .sized data.length) :
    ∃ q', Copies Parser.step { q with state := q.afterHead } (content data) q' ∧
      Behind q' ⟨head, .sized data, hfits, hup⟩ := by
  have hafter : Response.after ⟨head, .sized data, hfits, hup⟩ = head.next q.flags := by
    rw [h.flags]
    rfl
  have hframing := hfits
  unfold Head.framing at hframing
  dsimp only at hframing
  have hchunked : ¬ q.flags.chunked = true := by
    intro hchunked
    rw [h.flags] at hchunked
    rw [if_pos hchunked] at hframing
    cases hframing
  rw [← h.flags, if_neg hchunked, ← h.contentLength, ← h.statusCode] at hframing
  by_cases hnone : q.contentLength = ULLONG_MAX
  · rw [if_neg (not_not.2 hnone)] at hframing
    split at hframing
    · rename_i hcode
      have hdata : data = [] := List.eq_nil_of_length_eq_zero (Framing.sized.inj hframing).symm
      subst hdata
      have hneeds : q.messageNeedsEof = false := by
        unfold Parser.messageNeedsEof
        rw [if_neg (by simp [h.type]), if_pos (by tauto)]
      have hstate : q.afterHead = q.newMessage := by
        unfold Parser.afterHead
        rw [if_neg hchunked, if_neg (by rw [hnone]; decide), if_neg (not_not.2 hnone), hneeds,
          if_neg (by simp)]
      refine ⟨_, Copies.nil _, h.type, ?_, h.method, h.nread⟩
      rw [hafter]
      exact hstate.trans (newMessage_eq h.type h.httpMajor h.httpMinor hneeds)
    · cases hframing
  · rw [if_pos hnone] at hframing
    have hlength : q.contentLength = .ofNat data.length := by
      rw [← Framing.sized.inj hframing, UInt64.ofNat_toNat]
    by_cases hnil : data = []
    · subst hnil
      have hneeds : q.messageNeedsEof = false := by
        unfold Parser.messageNeedsEof
        simp [h.type, hnone]
      have hstate : q.afterHead = q.newMessage := by
        unfold Parser.afterHead
        rw [if_neg hchunked, if_pos (by rw [hlength]; rfl)]
      refine ⟨_, Copies.nil _, h.type, ?_, h.method, h.nread⟩
      rw [hafter]
      exact hstate.trans (newMessage_eq h.type h.httpMajor h.httpMinor hneeds)
    · have hlt : data.length < ULLONG_MAX.toNat := by
        have hne : q.contentLength.toNat ≠ ULLONG_MAX.toNat :=
          fun heq => hnone (UInt64.toNat_inj.1 heq)
        have hmax : ULLONG_MAX.toNat = 2 ^ 64 - 1 := rfl
        have hword := q.contentLength.toNat_lt
        rw [← Framing.sized.inj hframing]
        omega
      have hpos := List.length_pos_iff.2 hnil
      have hstate : q.afterHead = .bodyIdentity := by
        unfold Parser.afterHead
        rw [if_neg hchunked, if_neg (by rw [hlength]; exact (length_ne hpos hlt).1), if_pos hnone]
      have hrun := runs_sized q hnil hlt
      rw [← hlength, ← hstate] at hrun
      refine ⟨_, Copies.content step_out hrun, h.type, ?_, h.method, h.nread⟩
      rw [hafter]
      refine newMessage_eq h.type h.httpMajor h.httpMinor ?_
      unfold Parser.messageNeedsEof
      simp [h.type, ULLONG_MAX]

theorem copies_chunkedBody (hup : head.flags.upgrade = false) {chunks : List Chunk}
    {last : LastChunk} (hfits : head.framing = .chunked) :
    ∃ q', Copies Parser.step { q with state := q.afterHead }
        (Body.chunked chunks last).layout q' ∧
      Behind q' ⟨head, .chunked chunks last, hfits, hup⟩ := by
  have hchunked : q.flags.chunked = true := by
    have hframing := hfits
    unfold Head.framing at hframing
    dsimp only at hframing
    rw [h.flags]
    by_contra hnot
    rw [if_neg hnot] at hframing
    split at hframing
    · cases hframing
    split at hframing <;> cases hframing
  have hstate : { q with state := q.afterHead } =
      { q with state := .chunkSizeStart, nread := 0 } := by
    unfold Parser.afterHead
    rw [if_pos hchunked, ← h.nread]
  obtain ⟨length, hchunks⟩ := copies_chunks hchunked chunks
  have hline := @runs_chunkLine { q with contentLength := length } hchunked last.line
    { q with
      state := .headerFieldStart, contentLength := 0, nread := 0
      flags := { q.flags with trailing := true } } (by
    rw [last.size_eq]
    unfold PASSES Parser.pass switch
    simp [chunkSizeAlmostDone, asserting, hchunked, strictCheck])
  let q₁ : Parser :=
    { q with contentLength := 0, nread := 0, flags := { q.flags with trailing := true } }
  obtain ⟨s, hs, index, hbetween, hheaders⟩ :=
    walks_headers (s := .headerFieldStart) trivial q₁ last.trailers
  let q₂ : Parser :=
    { q₁ with
      headerState := hs, index := index, flags := headersFlags last.trailers q₁.flags
      contentLength := headersLength last.trailers q₁.contentLength }
  have hcr : Walks { q₂ with state := s } [CR] { q₂ with state := .headersAlmostDone } :=
    walks_headersEnd hbetween
  have hle := last.length_le
  have hwalk := (hheaders.append hcr) 0 (by simp; omega)
  have hflags : q₂.flags = { headersFlags last.trailers head.flags with trailing := true } := by
    rw [← h.flags]
    exact headersFlags_trailing last.trailers q.flags true
  let q₃ : Parser :=
    { q₂ with
      state := .headersAlmostDone, nread := (encodeHeaders last.trailers).length + 2 }
  have hlf : Parser.step
      { q₂ with
        state := .headersAlmostDone
        nread := 0 + (encodeHeaders last.trailers ++ [CR]).length } LF =
      .go { q₃ with state := q₃.newMessage } [] := by
    refine step_head rfl (by simp; omega) ?_
    have hcount : 0 + (encodeHeaders last.trailers ++ [CR]).length + 1 =
        (encodeHeaders last.trailers).length + 2 := by simp
    rw [hcount]
    exact pass_trailersDone (p := q₃) (by rw [hflags]) rfl
  have hneeds : q₃.messageNeedsEof = false := by
    have hkeep := (headersFlags_keep last.trailers q₁.flags).2.2 hchunked
    unfold Parser.messageNeedsEof
    simp [q₃, q₂, q₁, h.type, hkeep]
  refine ⟨{ q₃ with state := q₃.newMessage }, ?_, h.type, ?_, h.method, rfl⟩
  · have hlast := hline.silent (hwalk.silent (Runs.single hlf))
    have hbytes : last.line.encode ++ ((encodeHeaders last.trailers ++ [CR]) ++ [LF]) =
        last.encode := by
      simp [LastChunk.encode]
    rw [hbytes] at hlast
    rw [hstate]
    exact hchunks.append (Copies.plain hlast)
  · refine (newMessage_eq (p := q₃) h.type h.httpMajor h.httpMinor hneeds).trans ?_
    rw [show q₃.flags = _ from hflags]
    rfl

/-- The body of a response. -/
theorem copies_body {body : Body} (hfits : body.Fits head.framing)
    (hup : head.flags.upgrade = false) :
    ∃ q', Copies Parser.step { q with state := q.afterHead } body.layout q' ∧
      Behind q' ⟨head, body, hfits, hup⟩ := by
  cases body with
  | sized data => exact copies_sizedBody h hup hfits
  | chunked chunks last => exact copies_chunkedBody h hup hfits
  | untilEof data =>
    have hframing : head.framing = .untilEof := hfits
    have hskip : q.flags.skipbody = false := by
      rw [h.flags]
      exact (headersFlags_keep head.headers {}).2.1
    unfold Head.framing at hframing
    rw [← h.flags, ← h.contentLength, ← h.statusCode] at hframing
    dsimp only at hframing
    have hstate : q.afterHead = .bodyIdentityEof := by
      split at hframing
      · cases hframing
      split at hframing
      · cases hframing
      split at hframing
      · cases hframing
      rename_i hchunked hlength hcode
      have hlength := not_not.1 hlength
      have hneeds : q.messageNeedsEof = true := by
        unfold Parser.messageNeedsEof
        simp [h.type, hskip, hchunked, hlength, not_or.1 hcode]
      unfold Parser.afterHead
      rw [if_neg hchunked, if_neg (by rw [hlength]; decide), if_neg (not_not.2 hlength),
        if_pos hneeds]
    refine ⟨{ q with state := .bodyIdentityEof }, ?_, h.type, rfl, h.method, h.nread⟩
    rw [hstate]
    exact Copies.content step_out (runs_untilEof q data)

end Bodies

/-- **A response.** -/
theorem copies_response {n : Nat} (hp : AtStart p n) (response : Response)
    (hlen : n + response.head.encode.length ≤ HTTP_MAX_HEADER_SIZE) :
    ∃ q, Copies Parser.step p response.layout q ∧ Behind q response := by
  obtain ⟨q, hknows, hhead⟩ := runs_head hp response.head hlen response.no_upgrade
  obtain ⟨q', hbody, hbehind⟩ := copies_body hknows response.fits response.no_upgrade
  exact ⟨q', (Copies.plain hhead).append hbody, hbehind⟩

/-! ## Responses, one after the other -/

/-- No head is too long, with what is left counted before it. -/
def Paced : Nat → List Response → Prop
  | _, [] => True
  | n, response :: responses =>
    n + response.head.encode.length ≤ HTTP_MAX_HEADER_SIZE ∧
      Paced response.body.leftover responses

instance : (n : Nat) → (responses : List Response) → Decidable (Paced n responses)
  | _, [] => .isTrue trivial
  | n, response :: responses =>
    have := instDecidablePaced response.body.leftover responses
    inferInstanceAs (Decidable (n + response.head.encode.length ≤ HTTP_MAX_HEADER_SIZE ∧ _))

/-- Behind a response on a persistent connection the next one starts. -/
theorem Behind.atStart {response : Response} (h : Behind p response)
    (halive : response.persistent = true) : AtStart p response.body.leftover := by
  refine ⟨h.type, h.state.trans ?_, h.method, h.nread⟩
  unfold Response.after
  rw [halive]
  unfold Response.persistent at halive
  revert halive
  cases response.body with
  | untilEof data => exact nofun
  | sized data => exact fun _ => rfl
  | chunked chunks last => exact fun _ => rfl

/-- **Responses.** All but the last keep the connection. -/
theorem copies_responses {n : Nat} (hp : AtStart p n) {responses : List Response}
    {last : Response} (hpaced : Paced n (responses ++ [last]))
    (halive : ∀ r ∈ responses, r.persistent = true) :
    ∃ q, Copies Parser.step p (responsesLayout (responses ++ [last])) q ∧ Behind q last := by
  induction responses generalizing p n with
  | nil =>
    obtain ⟨q, hcopies, hbehind⟩ := copies_response hp last hpaced.1
    exact ⟨q, by simpa [responsesLayout] using hcopies, hbehind⟩
  | cons response responses ih =>
    obtain ⟨q, hcopies, hbehind⟩ := copies_response hp response hpaced.1
    obtain ⟨q', hrest, hlast⟩ := ih (hbehind.atStart (halive response List.mem_cons_self)) hpaced.2
      fun r hr => halive r (List.mem_cons_of_mem response hr)
    exact ⟨q', hcopies.append hrest, hlast⟩

/-- What the byte machine has made of the beginning of responses. -/
theorem runs_responses {n : Nat} (hp : AtStart p n) {responses : List Response} {last : Response}
    (hpaced : Paced n (responses ++ [last])) (halive : ∀ r ∈ responses, r.persistent = true)
    {bytes : List UInt8} (hbytes : bytes <+: encodeResponses (responses ++ [last])) :
    ∃ q, Runs Parser.step p bytes q (responsesData (responses ++ [last]) bytes.length) ∧
      (bytes = encodeResponses (responses ++ [last]) → Behind q last) := by
  obtain ⟨q, hcopies, hbehind⟩ := copies_responses hp hpaced halive
  have htake := List.prefix_iff_eq_take.1 hbytes
  rw [← symbols_responsesLayout, ← List.map_take] at htake
  by_cases hall : bytes = encodeResponses (responses ++ [last])
  · refine ⟨q, ?_, fun _ => hbehind⟩
    have hrun := hcopies.1
    rw [symbols_responsesLayout, ← hall] at hrun
    rw [responsesData, hall, ← length_responsesLayout, List.take_length]
    exact hall ▸ hrun
  · obtain ⟨r, hrun⟩ := hcopies.2 bytes.length
    rw [← htake] at hrun
    exact ⟨r, hrun, fun h => absurd h hall⟩

/-- **Round trip.** The bytes of responses, or the first of them, are cut into blocks in any way.
`http_parser_execute` has then handed `on_body` exactly what the bodies carry among the bytes read:
it holds nothing back and hands over nothing else, and no slice is empty. Behind the last response
all bodies have been handed over, and it is ready for the next if that one keeps the connection. -/
theorem responses_delivered {responses : List Response} {last : Response}
    (hpaced : Paced 0 (responses ++ [last])) (halive : ∀ r ∈ responses, r.persistent = true)
    {blocks : List (List UInt8)} (hne : ∀ b ∈ blocks, b ≠ [])
    (hblocks : blocks.flatten <+: encodeResponses (responses ++ [last])) :
    ∃ parser slices,
      run (use record) (.init .response, []) (blocks.map .execute) = .ok (parser, slices) ∧
        slices.flatten = responsesData (responses ++ [last]) blocks.flatten.length ∧
        (∀ d ∈ slices, d ≠ []) ∧ parser.httpErrno = .ok ∧
        (blocks.flatten = encodeResponses (responses ++ [last]) →
          slices.flatten = (responses ++ [last]).flatMap (fun response => response.body.data) ∧
            Behind parser last) := by
  obtain ⟨q, hrun, hbehind⟩ := runs_responses atStart_init hpaced halive hblocks
  unfold Runs at hrun
  have hok : q.httpErrno = .ok ∧ q.Sound 0 := by
    have hstopped : (feed Parser.step (.init .response) blocks.flatten).stopped = false := by
      rw [hrun]
    have := feed_invariant (I := fun p : Parser => p.httpErrno = .ok ∧ p.Sound 0)
      (fun _ _ _ _ => step_sound) (show _ ∧ (Parser.init .response).Sound 0 from ⟨rfl, trivial⟩)
      hstopped
    rwa [hrun] at this
  obtain ⟨all, hall, hslices, -, hbody⟩ := @run_blocks (.init .response) [] rfl trivial (by simp)
    blocks hne _ hrun.symm (.inl rfl)
  have hdata : all.flatten = responsesData (responses ++ [last]) blocks.flatten.length := by
    simpa using hbody hok.1
  refine ⟨q, all, hall, hdata, hslices, hok.1, fun hwhole => ⟨?_, hbehind hwhole⟩⟩
  rw [hdata, hwhole, responsesData_all]

/-! A response in chunks, with one behind it that the end of the connection ends. -/

def sampleStatus : StatusLine where
  major := ⟨text "1", by decide, List.all_iff_forall_prop.1 rfl⟩
  minor := ⟨text "1", by decide, List.all_iff_forall_prop.1 rfl⟩
  code := ⟨text "200", by decide, List.all_iff_forall_prop.1 rfl⟩
  reason := some (text "OK")
  major_lt := by decide
  minor_lt := by decide
  code_lt := by decide
  reason_text := by
    rintro _ ⟨⟩
    exact List.all_iff_forall_prop.1 rfl

/-- A response with this head alone ends with the connection. -/
theorem framing_sampleStatus : Head.framing ⟨sampleStatus, []⟩ = .untilEof := by
  decide

theorem upgrade_sampleStatus : (Head.flags ⟨sampleStatus, []⟩).upgrade = false := by
  decide

def sampleHeader : Header where
  name := text "Transfer-Encoding"
  blank := [SP]
  value := text "Chunked "
  name_ne_nil := by decide
  name_token := List.all_iff_forall_prop.1 rfl
  blank_space := List.all_iff_forall_prop.1 rfl
  value_text := List.all_iff_forall_prop.1 rfl
  value_start := by
    rintro _ ⟨⟩
    decide
  length := fun h => absurd h (by decide)

def sampleChunk : Chunk where
  line := ⟨⟨text "02", by decide, List.all_iff_forall_prop.1 rfl⟩, text ";x",
    by rintro _ ⟨⟩; decide, List.all_iff_forall_prop.1 rfl, by decide, by decide⟩
  data := text "ab"
  ne_nil := by decide
  size_eq := by decide

def sampleLast : LastChunk where
  line := ⟨⟨text "0", by decide, List.all_iff_forall_prop.1 rfl⟩, [], nofun, nofun, by decide,
    by decide⟩
  trailers := []
  size_eq := by decide
  length_le := by decide

def sampleChunked : Response where
  head := ⟨sampleStatus, [sampleHeader]⟩
  body := .chunked [sampleChunk] sampleLast
  fits := show Head.framing _ = _ by decide
  no_upgrade := by decide

def sampleEndless : Response where
  head := ⟨sampleStatus, []⟩
  body := .untilEof (text "cd")
  fits := framing_sampleStatus
  no_upgrade := upgrade_sampleStatus

def sampleStream : List UInt8 :=
  encodeResponses ([sampleChunked] ++ [sampleEndless])

/-- The stream breaks off in the second body. -/
theorem responses_delivered_sample : ∃ parser slices,
    run (use record) (.init .response, [])
        ([sampleStream.take 60, (sampleStream.take 83).drop 60].map .execute) =
        .ok (parser, slices) ∧
      slices.flatten = text "abc" := by
  obtain ⟨parser, slices, hrun, hslices, -⟩ := @responses_delivered [sampleChunked] sampleEndless
    (by decide) (by decide) [sampleStream.take 60, (sampleStream.take 83).drop 60] (by decide)
    (by decide)
  exact ⟨parser, slices, hrun, hslices.trans (by decide)⟩

end Rsva11001.Http
