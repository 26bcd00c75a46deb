import Rsva11001.Http.Url

/-!
# `http_parser.c`: `http_parser_execute`

The parser's loop over a block of bytes. `switch` is one pass through the `switch` statement: what
it assigns, which mark it sets, how far it moves `p` and which callback macro it runs, as a `Move`;
`reexecute` carries a move out and passes through the switch again after a `goto reexecute_byte`;
`loop` is the `for` loop and `execute` the whole function.

A mark is the list of the bytes from the marked one up to `p`, which is what the callback is given.
A callback sees the parser and the application's data; it answers with its value, and may pause the
parser.
-/

namespace Rsva11001.Http

universe u

/-! ## Callbacks -/

/-- What a callback does: the value it returns, whether it pauses the parser, and the application's
data after it. -/
structure Reply (σ : Type u) where
  ret : Int
  paused : Bool
  user : σ

/-- `http_cb` -/
abbrev Callback (σ : Type u) : Type u :=
  Parser → σ → Reply σ

/-- `http_data_cb` -/
abbrev DataCallback (σ : Type u) : Type u :=
  Parser → σ → List UInt8 → Reply σ

/-- `http_parser_settings` -/
structure Settings (σ : Type u) where
  onMessageBegin : Option (Callback σ) := none
  onUrl : Option (DataCallback σ) := none
  onStatusComplete : Option (Callback σ) := none
  onHeaderField : Option (DataCallback σ) := none
  onHeaderValue : Option (DataCallback σ) := none
  onHeadersComplete : Option (Callback σ) := none
  onBody : Option (DataCallback σ) := none
  onMessageComplete : Option (Callback σ) := none

/-- The assertions of `http_parser.c` that do not hold by the types. `unending` stands for a byte
that is executed again for ever. -/
inductive Assertion where
  | errnoOk
  | headerState
  | headerValueState
  | methodIndex
  | contentLength
  | chunked
  | chunkNread
  | oneMark
  | pauseInError
  | unending
  deriving DecidableEq, Repr

/-- The marks, by the callback that gets the bytes. -/
inductive Field where
  | headerField
  | headerValue
  | url
  | body
  deriving DecidableEq, Repr

/-- The callbacks that get no bytes, less `on_headers_complete`. -/
inductive Notice where
  | messageBegin
  | statusComplete
  | messageComplete
  deriving DecidableEq, Repr

/-- The callback macros as the switch uses them. -/
inductive Call where
  /-- `CALLBACK_NOTIFY` -/
  | notify (which : Notice)
  /-- `CALLBACK_DATA` -/
  | data (field : Field)
  /-- `CALLBACK_DATA_NOADVANCE` -/
  | dataNoadvance (field : Field)
  /-- `CALLBACK_DATA_(body, p - body_mark + 1, p - data)` -/
  | bodyThrough
  /-- the call of `on_headers_complete` -/
  | headersComplete
  deriving DecidableEq, Repr

/-- How a case of the switch is left. -/
inductive Next where
  /-- `break` -/
  | advance
  /-- `goto reexecute_byte` -/
  | again
  /-- `goto error` -/
  | error
  /-- `return (p - data) + 1` -/
  | leave
  /-- a failed `assert` -/
  | abort (which : Assertion)
  deriving DecidableEq, Repr

/-- One pass through the switch. -/
structure Move where
  parser : Parser
  mark : Option Field := none
  skip : Nat := 0
  call : Option Call := none
  next : Next := .advance

/-! ## The switch -/

/-- `SET_ERRNO` and `goto error`. -/
def refuse (parser : Parser) (e : Errno) : Move where
  parser := { parser with httpErrno := e }
  next := .error

/-- `STRICT_CHECK` and what follows it. -/
def strictCheck (cond : Prop) [Decidable cond] (parser : Parser) (move : Move) : Move :=
  if cond then refuse parser .strict else move

/-- `assert` and what follows it. -/
def asserting (cond : Prop) [Decidable cond] (parser : Parser) (which : Assertion) (move : Move) :
    Move :=
  if cond then move else { parser := parser, next := .abort which }

/-- A further digit of a version number, `value` being the number with it. -/
def versionDigit (parser next : Parser) (ch : UInt8) (value : Nat) : Move :=
  if !isNum ch then refuse parser .invalidVersion
  else if 999 < value then refuse next .invalidVersion
  else { parser := next }

/-- The method a request starts with, by its first letter. -/
def firstMethod (ch : UInt8) : Option Method :=
  if ch = chr 'C' then some .connect
  else if ch = chr 'D' then some .delete
  else if ch = chr 'G' then some .get
  else if ch = chr 'H' then some .head
  else if ch = chr 'L' then some .lock
  else if ch = chr 'M' then some .mkcol
  else if ch = chr 'N' then some .notify
  else if ch = chr 'O' then some .options
  else if ch = chr 'P' then some .post
  else if ch = chr 'R' then some .report
  else if ch = chr 'S' then some .subscribe
  else if ch = chr 'T' then some .trace
  else if ch = chr 'U' then some .unlock
  else none

/-- The case `s_start_req`. -/
def startReq (parser : Parser) (ch : UInt8) : Move :=
  if ch = CR ∨ ch = LF then { parser := parser }
  else
    let parser := { parser with flags := {}, contentLength := ULLONG_MAX }
    if !isAlpha ch then refuse parser .invalidMethod
    else
      let parser := { parser with method := .delete, index := 1 }
      match firstMethod ch with
      | none => refuse parser .invalidMethod
      | some method =>
        { parser := { parser with method := method, state := .reqMethod }
          call := some (.notify .messageBegin) }

/-- The character of a method at `index`, with the terminator of the C string. -/
def Method.char? (method : Method) (index : Nat) : Option UInt8 :=
  (method.string ++ [0])[index]?

/-- The cases in `s_req_method` for a character that is not the one expected: the method that the
request may still have, or the error that is set before `goto error`, if any. -/
def otherMethod (method : Method) (index : Nat) (ch : UInt8) : Except (Option Errno) Method :=
  if method = .connect then
    if index = 1 ∧ ch = chr 'H' then .ok .checkout
    else if index = 2 ∧ ch = chr 'P' then .ok .copy
    else .error none
  else if method = .mkcol then
    if index = 1 ∧ ch = chr 'O' then .ok .move
    else if index = 1 ∧ ch = chr 'E' then .ok .merge
    else if index = 1 ∧ ch = chr '-' then .ok .msearch
    else if index = 2 ∧ ch = chr 'A' then .ok .mkactivity
    else .error none
  else if method = .subscribe then
    if index = 1 ∧ ch = chr 'E' then .ok .search else .error none
  else if index = 1 ∧ method = .post then
    if ch = chr 'R' then .ok .propfind
    else if ch = chr 'U' then .ok .put
    else if ch = chr 'A' then .ok .patch
    else .error none
  else if index = 2 then
    -- no character is refused here
    if method = .put then if ch = chr 'R' then .ok .purge else .ok method
    else if method = .unlock then if ch = chr 'S' then .ok .unsubscribe else .ok method
    else .ok method
  else if index = 4 ∧ method = .propfind ∧ ch = chr 'P' then .ok .proppatch
  else .error (some .invalidMethod)

/-- The case `s_req_method`. -/
def reqMethod (parser : Parser) (ch : UInt8) : Move :=
  if ch = 0 then refuse parser .invalidMethod
  else
    match parser.method.char? parser.index with
    | none => { parser := parser, next := .abort .methodIndex }
    | some matcher =>
      let parser' := { parser with index := parser.index + 1 }
      if ch = SP ∧ matcher = 0 then { parser := { parser' with state := .reqSpacesBeforeUrl } }
      else if ch = matcher then { parser := parser' }
      else
        match otherMethod parser.method parser.index ch with
        | .ok method => { parser := { parser' with method := method } }
        | .error none => { parser := parser, next := .error }
        | .error (some e) => refuse parser e

/-- `parser->state = parse_url_char(..)`, called in the state `s`. -/
def urlChar (parser : Parser) (s : State) (ch : UInt8) (mark : Option Field) : Move :=
  let parser := { parser with state := parseUrlChar s ch }
  if parser.state = .dead then { refuse parser .invalidUrl with mark := mark }
  else { parser := parser, mark := mark }

/-- The header state after the first character of a header's name. -/
def firstHeaderState (c : UInt8) : HeaderState :=
  if c = chr 'c' then .c
  else if c = chr 'p' then .matchingProxyConnection
  else if c = chr 't' then .matchingTransferEncoding
  else if c = chr 'u' then .matchingUpgrade
  else .general

/-- The case `s_header_field_start`. -/
def headerFieldStart (parser : Parser) (ch : UInt8) : Move :=
  if ch = CR then { parser := { parser with state := .headersAlmostDone } }
  else if ch = LF then { parser := { parser with state := .headersAlmostDone }, next := .again }
  else if tokens ch = 0 then refuse parser .invalidHeaderToken
  else
    { parser :=
        { parser with
          index := 0, state := .headerField, headerState := firstHeaderState (tokens ch) }
      mark := some .headerField }

/-- The cases that match the bytes of a name or a value with a constant: `c` is compared with the
character at the next index, and the last one leads to `found`. -/
def matching (constant : List UInt8) (found : HeaderState) (parser : Parser) (c : UInt8) : Parser :=
  let index := parser.index + 1
  if constant.length < index ∨ (constant ++ [0])[index]? ≠ some c then
    { parser with index := index, headerState := .general }
  else if index = constant.length - 1 then { parser with index := index, headerState := found }
  else { parser with index := index }

/-- The inner switch of the case `s_header_field`, for a character of a name. -/
def headerFieldChar (parser : Parser) (ch c : UInt8) : Option Parser :=
  match parser.headerState with
  | .general => some parser
  | .c =>
    some { parser with
      index := parser.index + 1, headerState := if c = chr 'o' then .co else .general }
  | .co =>
    some { parser with
      index := parser.index + 1, headerState := if c = chr 'n' then .con else .general }
  | .con =>
    some { parser with
      index := parser.index + 1
      headerState :=
        if c = chr 'n' then .matchingConnection
        else if c = chr 't' then .matchingContentLength
        else .general }
  | .matchingConnection => some (matching CONNECTION .connection parser c)
  | .matchingProxyConnection => some (matching PROXY_CONNECTION .connection parser c)
  | .matchingContentLength => some (matching CONTENT_LENGTH .contentLength parser c)
  | .matchingTransferEncoding => some (matching TRANSFER_ENCODING .transferEncoding parser c)
  | .matchingUpgrade => some (matching UPGRADE .upgrade parser c)
  | .connection | .contentLength | .transferEncoding | .upgrade =>
    some (if ch ≠ SP then { parser with headerState := .general } else parser)
  | _ => none

/-- The case `s_header_field`. -/
def headerField (parser : Parser) (ch : UInt8) : Move :=
  if tokens ch ≠ 0 then
    match headerFieldChar parser ch (tokens ch) with
    | some parser => { parser := parser }
    | none => { parser := parser, next := .abort .headerState }
  else if ch = chr ':' then
    { parser := { parser with state := .headerValueStart }, call := some (.data .headerField) }
  else if ch = CR then
    { parser := { parser with state := .headerAlmostDone }, call := some (.data .headerField) }
  else if ch = LF then
    { parser := { parser with state := .headerFieldStart }, call := some (.data .headerField) }
  else refuse parser .invalidHeaderToken

/-- The case `s_header_value_start`. -/
def headerValueStart (parser : Parser) (ch : UInt8) : Move :=
  if ch = SP ∨ ch = HT then { parser := parser }
  else
    let parser := { parser with state := .headerValue, index := 0 }
    let go (parser : Parser) : Move := { parser := parser, mark := some .headerValue }
    if ch = CR then
      { go { parser with headerState := .general, state := .headerAlmostDone } with
        call := some (.data .headerValue) }
    else if ch = LF then
      { go { parser with state := .headerFieldStart } with call := some (.data .headerValue) }
    else
      let c := lower ch
      match parser.headerState with
      | .upgrade =>
        go { parser with
          flags := { parser.flags with upgrade := true }, headerState := .general }
      | .transferEncoding =>
        if c = chr 'c' then go { parser with headerState := .matchingTransferEncodingChunked }
        else go { parser with headerState := .general }
      | .contentLength =>
        if !isNum ch then
          { refuse parser .invalidContentLength with mark := some .headerValue }
        else go { parser with contentLength := .ofNat (digit ch) }
      | .connection =>
        if c = chr 'k' then go { parser with headerState := .matchingConnectionKeepAlive }
        else if c = chr 'c' then go { parser with headerState := .matchingConnectionClose }
        else go { parser with headerState := .general }
      | _ => go { parser with headerState := .general }

/-- A further digit of `content_length`, in a numeral to `base`. The test for an overflow compares
with the number before the digit. -/
def lengthDigit (parser : Parser) (base : UInt64) (value : Nat) : Move :=
  let t := parser.contentLength * base + .ofNat value
  if t < parser.contentLength ∨ t = ULLONG_MAX then refuse parser .invalidContentLength
  else { parser := { parser with contentLength := t } }

/-- The case `s_header_value`. -/
def headerValue (parser : Parser) (ch : UInt8) : Move :=
  if ch = CR then
    { parser := { parser with state := .headerAlmostDone }, call := some (.data .headerValue) }
  else if ch = LF then
    { parser := { parser with state := .headerAlmostDone }
      call := some (.dataNoadvance .headerValue), next := .again }
  else
    let c := lower ch
    match parser.headerState with
    | .general => { parser := parser }
    | .connection | .transferEncoding => { parser := parser, next := .abort .headerValueState }
    | .contentLength =>
      if ch = SP then { parser := parser }
      else if !isNum ch then refuse parser .invalidContentLength
      else lengthDigit parser 10 (digit ch)
    | .matchingTransferEncodingChunked =>
      { parser := matching CHUNKED .transferEncodingChunked parser c }
    | .matchingConnectionKeepAlive =>
      { parser := matching KEEP_ALIVE .connectionKeepAlive parser c }
    | .matchingConnectionClose => { parser := matching CLOSE .connectionClose parser c }
    | .transferEncodingChunked | .connectionKeepAlive | .connectionClose =>
      if ch ≠ SP then { parser := { parser with headerState := .general } }
      else { parser := parser }
    | _ => { parser := { parser with state := .headerValue, headerState := .general } }

/-- The flags after a header, by what its value has been found to be. -/
def headerFlags (parser : Parser) : Flags :=
  match parser.headerState with
  | .connectionKeepAlive => { parser.flags with connectionKeepAlive := true }
  | .connectionClose => { parser.flags with connectionClose := true }
  | .transferEncodingChunked => { parser.flags with chunked := true }
  | _ => parser.flags

/-- `parser->state = NEW_MESSAGE()` and the callback for the end of a message. -/
def complete (parser : Parser) : Move where
  parser := { parser with state := parser.newMessage }
  call := some (.notify .messageComplete)

/-- The case `s_headers_almost_done`. -/
def headersAlmostDone (parser : Parser) (ch : UInt8) : Move :=
  strictCheck (ch ≠ LF) parser <|
    if parser.flags.trailing then complete parser
    else
      { parser :=
          { parser with
            state := .headersDone
            upgrade := parser.flags.upgrade || decide (parser.method = .connect) }
        call := some .headersComplete, next := .again }

/-- The case `s_headers_done`. -/
def headersDone (parser : Parser) (ch : UInt8) : Move :=
  strictCheck (ch ≠ LF) parser <|
    let parser := { parser with nread := 0 }
    if parser.upgrade then { complete parser with next := .leave }
    else if parser.flags.skipbody then complete parser
    else if parser.flags.chunked then { parser := { parser with state := .chunkSizeStart } }
    else if parser.contentLength = 0 then complete parser
    else if parser.contentLength ≠ ULLONG_MAX then
      { parser := { parser with state := .bodyIdentity } }
    else if parser.type = .request ∨ !parser.messageNeedsEof then complete parser
    else { parser := { parser with state := .bodyIdentityEof } }

/-- The case `s_body_identity`, with `left` bytes from `p` to the end of the block. -/
def bodyIdentity (parser : Parser) (left : Nat) : Move :=
  let toRead := min parser.contentLength.toNat left
  asserting (parser.contentLength ≠ 0 ∧ parser.contentLength ≠ ULLONG_MAX) parser .contentLength <|
    let parser := { parser with contentLength := parser.contentLength - .ofNat toRead }
    if parser.contentLength = 0 then
      { parser := { parser with state := .messageDone }
        mark := some .body, skip := toRead - 1, call := some .bodyThrough, next := .again }
    else { parser := parser, mark := some .body, skip := toRead - 1 }

/-- The case `s_chunk_size_start`. -/
def chunkSizeStart (parser : Parser) (ch : UInt8) : Move :=
  asserting (parser.nread = 1) parser .chunkNread <|
    asserting parser.flags.chunked parser .chunked <|
      match unhex ch with
      | none => refuse parser .invalidChunkSize
      | some value =>
        { parser := { parser with contentLength := .ofNat value, state := .chunkSize } }

/-- The case `s_chunk_size`. -/
def chunkSize (parser : Parser) (ch : UInt8) : Move :=
  asserting parser.flags.chunked parser .chunked <|
    if ch = CR then { parser := { parser with state := .chunkSizeAlmostDone } }
    else
      match unhex ch with
      | none =>
        if ch = chr ';' ∨ ch = SP then { parser := { parser with state := .chunkParameters } }
        else refuse parser .invalidChunkSize
      | some value => lengthDigit parser 16 value

/-- The case `s_chunk_size_almost_done`. -/
def chunkSizeAlmostDone (parser : Parser) (ch : UInt8) : Move :=
  asserting parser.flags.chunked parser .chunked <|
    strictCheck (ch ≠ LF) parser <|
      let parser := { parser with nread := 0 }
      if parser.contentLength = 0 then
        { parser :=
            { parser with
              flags := { parser.flags with trailing := true }, state := .headerFieldStart } }
      else { parser := { parser with state := .chunkData } }

/-- The case `s_chunk_data`. -/
def chunkData (parser : Parser) (left : Nat) : Move :=
  let toRead := min parser.contentLength.toNat left
  asserting parser.flags.chunked parser .chunked <|
    asserting (parser.contentLength ≠ 0 ∧ parser.contentLength ≠ ULLONG_MAX) parser
        .contentLength <|
      let parser := { parser with contentLength := parser.contentLength - .ofNat toRead }
      { parser :=
          if parser.contentLength = 0 then { parser with state := .chunkDataAlmostDone }
          else parser
        mark := some .body, skip := toRead - 1 }

/-- One pass through the switch for the byte `ch`, with `left` bytes from `p` to the end of the
block. The switch has a case for every state. -/
def switch (parser : Parser) (ch : UInt8) (left : Nat) : Move :=
  match parser.state with
  | .dead =>
    if ch = CR ∨ ch = LF then { parser := parser } else refuse parser .closedConnection
  | .startReqOrRes =>
    if ch = CR ∨ ch = LF then { parser := parser }
    else
      let parser := { parser with flags := {}, contentLength := ULLONG_MAX }
      if ch = chr 'H' then
        { parser := { parser with state := .resOrRespH }, call := some (.notify .messageBegin) }
      else { parser := { parser with type := .request, state := .startReq }, next := .again }
  | .resOrRespH =>
    if ch = chr 'T' then { parser := { parser with type := .response, state := .resHT } }
    else if ch ≠ chr 'E' then refuse parser .invalidConstant
    else
      { parser :=
          { parser with type := .request, method := .head, index := 2, state := .reqMethod } }
  | .startRes =>
    let parser := { parser with flags := {}, contentLength := ULLONG_MAX }
    if ch = chr 'H' then
      { parser := { parser with state := .resH }, call := some (.notify .messageBegin) }
    else if ch = CR ∨ ch = LF then { parser := parser, call := some (.notify .messageBegin) }
    else refuse parser .invalidConstant
  | .resH => strictCheck (ch ≠ chr 'T') parser { parser := { parser with state := .resHT } }
  | .resHT => strictCheck (ch ≠ chr 'T') parser { parser := { parser with state := .resHTT } }
  | .resHTT => strictCheck (ch ≠ chr 'P') parser { parser := { parser with state := .resHTTP } }
  | .resHTTP =>
    strictCheck (ch ≠ chr '/') parser { parser := { parser with state := .resFirstHttpMajor } }
  | .resFirstHttpMajor =>
    if !isNum ch then refuse parser .invalidVersion
    else { parser := { parser with httpMajor := digit ch, state := .resHttpMajor } }
  | .resHttpMajor =>
    if ch = chr '.' then { parser := { parser with state := .resFirstHttpMinor } }
    else
      let value := parser.httpMajor * 10 + digit ch
      versionDigit parser { parser with httpMajor := value } ch value
  | .resFirstHttpMinor =>
    if !isNum ch then refuse parser .invalidVersion
    else { parser := { parser with httpMinor := digit ch, state := .resHttpMinor } }
  | .resHttpMinor =>
    if ch = SP then { parser := { parser with state := .resFirstStatusCode } }
    else
      let value := parser.httpMinor * 10 + digit ch
      versionDigit parser { parser with httpMinor := value } ch value
  | .resFirstStatusCode =>
    if !isNum ch then if ch = SP then { parser := parser } else refuse parser .invalidStatus
    else { parser := { parser with statusCode := digit ch, state := .resStatusCode } }
  | .resStatusCode =>
    if !isNum ch then
      if ch = SP then { parser := { parser with state := .resStatus } }
      else if ch = CR then { parser := { parser with state := .resLineAlmostDone } }
      else if ch = LF then { parser := { parser with state := .headerFieldStart } }
      else refuse parser .invalidStatus
    else
      let parser := { parser with statusCode := parser.statusCode * 10 + digit ch }
      if 999 < parser.statusCode then refuse parser .invalidStatus else { parser := parser }
  | .resStatus =>
    if ch = CR then { parser := { parser with state := .resLineAlmostDone } }
    else if ch = LF then { parser := { parser with state := .headerFieldStart } }
    else { parser := parser }
  | .resLineAlmostDone =>
    strictCheck (ch ≠ LF) parser
      { parser := { parser with state := .headerFieldStart }
        call := some (.notify .statusComplete) }
  | .startReq => startReq parser ch
  | .reqMethod => reqMethod parser ch
  | .reqSpacesBeforeUrl =>
    if ch = SP then { parser := parser }
    else
      urlChar parser (if parser.method = .connect then .reqServerStart else parser.state) ch
        (some .url)
  | .reqSchema | .reqSchemaSlash | .reqSchemaSlashSlash | .reqServerStart =>
    if ch = SP ∨ ch = CR ∨ ch = LF then refuse parser .invalidUrl
    else urlChar parser parser.state ch none
  | .reqServer | .reqServerWithAt | .reqPath | .reqQueryStringStart | .reqQueryString
  | .reqFragmentStart | .reqFragment =>
    if ch = SP then
      { parser := { parser with state := .reqHttpStart }, call := some (.data .url) }
    else if ch = CR ∨ ch = LF then
      { parser :=
          { parser with
            httpMajor := 0, httpMinor := 9
            state := if ch = CR then .reqLineAlmostDone else .headerFieldStart }
        call := some (.data .url) }
    else urlChar parser parser.state ch none
  | .reqHttpStart =>
    if ch = chr 'H' then { parser := { parser with state := .reqHttpH } }
    else if ch = SP then { parser := parser }
    else refuse parser .invalidConstant
  | .reqHttpH =>
    strictCheck (ch ≠ chr 'T') parser { parser := { parser with state := .reqHttpHT } }
  | .reqHttpHT =>
    strictCheck (ch ≠ chr 'T') parser { parser := { parser with state := .reqHttpHTT } }
  | .reqHttpHTT =>
    strictCheck (ch ≠ chr 'P') parser { parser := { parser with state := .reqHttpHTTP } }
  | .reqHttpHTTP =>
    strictCheck (ch ≠ chr '/') parser { parser := { parser with state := .reqFirstHttpMajor } }
  | .reqFirstHttpMajor =>
    if ch < chr '1' ∨ chr '9' < ch then refuse parser .invalidVersion
    else { parser := { parser with httpMajor := digit ch, state := .reqHttpMajor } }
  | .reqHttpMajor =>
    if ch = chr '.' then { parser := { parser with state := .reqFirstHttpMinor } }
    else
      let value := parser.httpMajor * 10 + digit ch
      versionDigit parser { parser with httpMajor := value } ch value
  | .reqFirstHttpMinor =>
    if !isNum ch then refuse parser .invalidVersion
    else { parser := { parser with httpMinor := digit ch, state := .reqHttpMinor } }
  | .reqHttpMinor =>
    if ch = CR then { parser := { parser with state := .reqLineAlmostDone } }
    else if ch = LF then { parser := { parser with state := .headerFieldStart } }
    else
      let value := parser.httpMinor * 10 + digit ch
      versionDigit parser { parser with httpMinor := value } ch value
  | .reqLineAlmostDone =>
    if ch ≠ LF then refuse parser .lfExpected
    else { parser := { parser with state := .headerFieldStart } }
  | .headerFieldStart => headerFieldStart parser ch
  | .headerField => headerField parser ch
  | .headerValueStart => headerValueStart parser ch
  | .headerValue => headerValue parser ch
  | .headerAlmostDone =>
    strictCheck (ch ≠ LF) parser
      { parser := { parser with state := .headerValueLws, flags := headerFlags parser } }
  | .headerValueLws =>
    if ch = SP ∨ ch = HT then { parser := { parser with state := .headerValueStart } }
    else { parser := { parser with state := .headerFieldStart }, next := .again }
  | .headersAlmostDone => headersAlmostDone parser ch
  | .headersDone => headersDone parser ch
  | .bodyIdentity => bodyIdentity parser left
  | .bodyIdentityEof => { parser := parser, mark := some .body, skip := left - 1 }
  | .messageDone => complete parser
  | .chunkSizeStart => chunkSizeStart parser ch
  | .chunkSize => chunkSize parser ch
  | .chunkParameters =>
    asserting parser.flags.chunked parser .chunked <|
      if ch = CR then { parser := { parser with state := .chunkSizeAlmostDone } }
      else { parser := parser }
  | .chunkSizeAlmostDone => chunkSizeAlmostDone parser ch
  | .chunkData => chunkData parser left
  | .chunkDataAlmostDone =>
    asserting parser.flags.chunked parser .chunked <|
      asserting (parser.contentLength = 0) parser .contentLength <|
        strictCheck (ch ≠ CR) parser
          { parser := { parser with state := .chunkDataDone }, call := some (.data .body) }
  | .chunkDataDone =>
    asserting parser.flags.chunked parser .chunked <|
      strictCheck (ch ≠ LF) parser
        { parser := { parser with nread := 0, state := .chunkSizeStart } }

/-! ## Marks and callbacks -/

/-- The four marks. -/
structure Marks where
  headerField : Option (List UInt8) := none
  headerValue : Option (List UInt8) := none
  url : Option (List UInt8) := none
  body : Option (List UInt8) := none

namespace Marks

def get (marks : Marks) : Field → Option (List UInt8)
  | .headerField => marks.headerField
  | .headerValue => marks.headerValue
  | .url => marks.url
  | .body => marks.body

/-- The marks with one of them assigned. -/
def put (marks : Marks) (value : Option (List UInt8)) : Field → Marks
  | .headerField => { marks with headerField := value }
  | .headerValue => { marks with headerValue := value }
  | .url => { marks with url := value }
  | .body => { marks with body := value }

/-- `MARK`: a mark that is set stays. -/
def mark (marks : Marks) : Option Field → Marks
  | none => marks
  | some field => if (marks.get field).isSome then marks else marks.put (some []) field

/-- The marks after `p` has moved over the bytes. -/
def pass (marks : Marks) (bytes : List UInt8) : Marks where
  headerField := marks.headerField.map (· ++ bytes)
  headerValue := marks.headerValue.map (· ++ bytes)
  url := marks.url.map (· ++ bytes)
  body := marks.body.map (· ++ bytes)

/-- How many marks are set. -/
def count (marks : Marks) : Nat :=
  marks.headerField.isSome.toNat + marks.headerValue.isSome.toNat + marks.url.isSome.toNat +
    marks.body.isSome.toNat

/-- The marks set at the start of a block. -/
def start : State → Marks
  | .headerField => { headerField := some [] }
  | .headerValue => { headerValue := some [] }
  | .reqPath | .reqSchema | .reqSchemaSlash | .reqSchemaSlashSlash | .reqServerStart | .reqServer
  | .reqServerWithAt | .reqQueryStringStart | .reqQueryString | .reqFragmentStart
  | .reqFragment => { url := some [] }
  | _ => {}

end Marks

/-- What `http_parser_execute` works on: the parser, the marks and the application's data. -/
structure Frame (σ : Type u) where
  parser : Parser
  marks : Marks
  user : σ

namespace Settings

variable {σ : Type u} (settings : Settings σ)

def dataCallback : Field → Option (DataCallback σ)
  | .headerField => settings.onHeaderField
  | .headerValue => settings.onHeaderValue
  | .url => settings.onUrl
  | .body => settings.onBody

def noticeCallback : Notice → Option (Callback σ)
  | .messageBegin => settings.onMessageBegin
  | .statusComplete => settings.onStatusComplete
  | .messageComplete => settings.onMessageComplete

end Settings

/-- `HPE_CB_##FOR` for the data callbacks. -/
def Field.errno : Field → Errno
  | .headerField => .cbHeaderField
  | .headerValue => .cbHeaderValue
  | .url => .cbUrl
  | .body => .cbBody

/-- `HPE_CB_##FOR` for the others. -/
def Notice.errno : Notice → Errno
  | .messageBegin => .cbMessageBegin
  | .statusComplete => .cbStatusComplete
  | .messageComplete => .cbMessageComplete

namespace Frame

variable {σ : Type u}

/-- The frame after a callback. -/
def replied (frame : Frame σ) (reply : Reply σ) (e : Errno) : Frame σ :=
  { frame with
    user := reply.user
    parser :=
      if reply.ret ≠ 0 then { frame.parser with httpErrno := e }
      else if reply.paused then { frame.parser with httpErrno := .paused }
      else frame.parser }

/-- `CALLBACK_NOTIFY_` up to its `return`. -/
def notify (settings : Settings σ) (frame : Frame σ) (which : Notice) :
    Except Assertion (Frame σ) :=
  if frame.parser.httpErrno ≠ .ok then .error .errnoOk
  else
    match settings.noticeCallback which with
    | none => .ok frame
    | some callback => .ok (frame.replied (callback frame.parser frame.user) which.errno)

/-- `CALLBACK_DATA_` up to its `return`, for the marked bytes and `more`. The mark stays when the
function returns there. -/
def data (settings : Settings σ) (frame : Frame σ) (field : Field) (more : List UInt8) :
    Except Assertion (Frame σ) :=
  if frame.parser.httpErrno ≠ .ok then .error .errnoOk
  else
    match frame.marks.get field with
    | none => .ok frame
    | some bytes =>
      let frame : Frame σ :=
        match settings.dataCallback field with
        | none => frame
        | some callback =>
          frame.replied (callback frame.parser frame.user (bytes ++ more)) field.errno
      if frame.parser.httpErrno ≠ .ok then .ok frame
      else .ok { frame with marks := frame.marks.put none field }

/-- The call of `on_headers_complete`, whose value 1 says that there is no body. -/
def headersComplete (settings : Settings σ) (frame : Frame σ) : Frame σ :=
  match settings.onHeadersComplete with
  | none => frame
  | some callback =>
    let reply := callback frame.parser frame.user
    if reply.ret = 1 then
      let parser := { frame.parser with flags := { frame.parser.flags with skipbody := true } }
      { frame with parser := parser }.replied { reply with ret := 0 } .ok
    else frame.replied reply .cbHeadersComplete

/-- Runs the macro of a move; `through` is the byte at `p`. -/
def call (settings : Settings σ) (frame : Frame σ) (through : List UInt8) :
    Option Call → Except Assertion (Frame σ)
  | none => .ok frame
  | some (.notify which) => frame.notify settings which
  | some (.data field) | some (.dataNoadvance field) => frame.data settings field []
  | some .bodyThrough => frame.data settings .body through
  | some .headersComplete => .ok (frame.headersComplete settings)

end Frame

/-- How many bytes behind `p` the value counts that a macro returns. -/
def Call.returns : Call → Nat
  | .notify _ | .data _ => 1
  | .dataNoadvance _ | .bodyThrough | .headersComplete => 0

/-! ## The loop -/

/-- What `http_parser_execute` returns, and what it leaves. -/
structure Outcome (σ : Type u) where
  parser : Parser
  user : σ
  read : Nat

/-- How the loop goes on after a byte: with the next byte behind `skip` more, or not. -/
inductive Flow (σ : Type u) where
  | advance (frame : Frame σ) (skip : Nat)
  | stop (frame : Frame σ) (read : Nat)
  | abort (which : Assertion)

variable {σ : Type u}

/-- The label `error`. -/
def Parser.failed (parser : Parser) : Parser :=
  if parser.httpErrno = .ok then { parser with httpErrno := .unknown } else parser

/-- Carries out a move: `ahead` are the bytes from `p` on, and `p` has moved by `skipped` since the
byte was read. -/
def perform (settings : Settings σ) (frame : Frame σ) (move : Move) (skipped : Nat)
    (ahead : List UInt8) (again : Frame σ → Nat → List UInt8 → Flow σ) : Flow σ :=
  let marks := (frame.marks.mark move.mark).pass (ahead.take move.skip)
  let ahead := ahead.drop move.skip
  let skipped := skipped + move.skip
  match { frame with parser := move.parser, marks := marks : Frame σ }.call settings
      (ahead.take 1) move.call with
  | .error which => .abort which
  | .ok frame =>
    match move.call with
    | some call =>
      if frame.parser.httpErrno ≠ .ok then .stop frame (skipped + call.returns)
      else finishMove frame skipped ahead
    | none => finishMove frame skipped ahead
where
  finishMove (frame : Frame σ) (skipped : Nat) (ahead : List UInt8) : Flow σ :=
    match move.next with
    | .advance => .advance { frame with marks := frame.marks.pass (ahead.take 1) } skipped
    | .again => again frame skipped ahead
    | .error => .stop { frame with parser := frame.parser.failed } skipped
    | .leave => .stop frame (skipped + 1)
    | .abort which => .abort which

/-- The label `reexecute_byte` for the byte `ch`, passed through at most so many times. -/
def reexecute (settings : Settings σ) (ch : UInt8) : Nat → Frame σ → Nat → List UInt8 → Flow σ
  | 0, _, _, _ => .abort .unending
  | passes + 1, frame, skipped, ahead =>
    perform settings frame (switch frame.parser ch ahead.length) skipped ahead
      (reexecute settings ch passes)

/-- More passes than any byte needs. -/
def PASSES : Nat := 5

/-- The loop has run out of bytes: the callbacks for the marks that are left. -/
def Frame.finish (settings : Settings σ) (frame : Frame σ) (read : Nat) :
    Except Assertion (Outcome σ) :=
  if 1 < frame.marks.count then .error .oneMark
  else go frame [.headerField, .headerValue, .url, .body]
where
  go (frame : Frame σ) : List Field → Except Assertion (Outcome σ)
    | [] => .ok ⟨frame.parser, frame.user, read⟩
    | field :: fields =>
      match frame.data settings field [] with
      | .error which => .error which
      | .ok frame =>
        if frame.parser.httpErrno ≠ .ok then .ok ⟨frame.parser, frame.user, read⟩
        else go frame fields

/-- The count of a byte of the head, `++parser->nread`. -/
def Parser.counted (parser : Parser) : Parser :=
  if parser.state.parsingHeader then { parser with nread := parser.nread + 1 } else parser

/-- The head has grown too long. -/
def Parser.overflowing (parser : Parser) : Bool :=
  parser.state.parsingHeader && HTTP_MAX_HEADER_SIZE < parser.nread

/-- The `for` loop, `read` bytes behind the start of the block and `skip` bytes before `p`. -/
def loop (settings : Settings σ) : Frame σ → Nat → Nat → List UInt8 → Except Assertion (Outcome σ)
  | frame, read, _, [] => frame.finish settings read
  | frame, read, skip + 1, _ :: rest => loop settings frame (read + 1) skip rest
  | frame, read, 0, ch :: rest =>
    let parser := frame.parser.counted
    if parser.overflowing then .ok ⟨{ parser with httpErrno := .headerOverflow }, frame.user, read⟩
    else
      match reexecute settings ch PASSES { frame with parser := parser } 0 (ch :: rest) with
      | .abort which => .error which
      | .stop frame n => .ok ⟨frame.parser, frame.user, read + n⟩
      | .advance frame skip => loop settings frame (read + 1) skip rest

/-- `http_parser_execute` -/
def execute (settings : Settings σ) (parser : Parser) (user : σ) (data : List UInt8) :
    Except Assertion (Outcome σ) :=
  if parser.httpErrno ≠ .ok then .ok ⟨parser, user, 0⟩
  else if data = [] then
    match parser.state with
    | .bodyIdentityEof =>
      match Frame.notify settings ⟨parser, {}, user⟩ .messageComplete with
      | .error which => .error which
      | .ok frame => .ok ⟨frame.parser, frame.user, 0⟩
    | .dead | .startReqOrRes | .startRes | .startReq => .ok ⟨parser, user, 0⟩
    | _ => .ok ⟨{ parser with httpErrno := .invalidEofState }, user, 1⟩
  else loop settings ⟨parser, Marks.start parser.state, user⟩ 0 0 data

/-- `http_parser_pause` -/
def Parser.pause (parser : Parser) (paused : Bool) : Except Assertion Parser :=
  if parser.httpErrno = .ok ∨ parser.httpErrno = .paused then
    .ok { parser with httpErrno := if paused then .paused else .ok }
  else .error .pauseInError

end Rsva11001.Http
