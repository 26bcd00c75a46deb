import Mathlib.Algebra.Group.Int.Defs
import Mathlib.Algebra.Group.Nat.Defs
import Mathlib.Data.List.Basic

/-!
# `http_parser.c`: the parser record

The enumerations, the character tables and the record of the vendored HTTP parser, compiled in its
strict mode, with the functions that read or reset the record. `Http/Url.lean` and
`Http/Execute.lean` hold the parser itself.

`content_length` can wrap and is 64 bits wide here as well. The other counters stay below the width
of their C types: `nread` is checked at every increment, `http_major`, `http_minor` and
`status_code` stop at three digits, and `index` counts within one of the constants below.
-/

namespace Rsva11001.Http

/-- The byte of an ASCII character. -/
def chr (c : Char) : UInt8 :=
  c.toNat.toUInt8

/-- The bytes of a string literal. -/
def text (s : String) : List UInt8 :=
  s.toList.map chr

def ULLONG_MAX : UInt64 := 18446744073709551615
def HTTP_MAX_HEADER_SIZE : Nat := 80 * 1024

def CR : UInt8 := 13
def LF : UInt8 := 10
def SP : UInt8 := 32
def HT : UInt8 := 9

def PROXY_CONNECTION : List UInt8 := text "proxy-connection"
def CONNECTION : List UInt8 := text "connection"
def CONTENT_LENGTH : List UInt8 := text "content-length"
def TRANSFER_ENCODING : List UInt8 := text "transfer-encoding"
def UPGRADE : List UInt8 := text "upgrade"
def CHUNKED : List UInt8 := text "chunked"
def KEEP_ALIVE : List UInt8 := text "keep-alive"
def CLOSE : List UInt8 := text "close"

/-! ## Character classes -/

/-- `tokens`: the lower case of a character that may stand in a token, or 0. The entries behind
the 128 listed ones are 0. -/
def tokens (ch : UInt8) : UInt8 :=
  if chr 'A' ≤ ch ∧ ch ≤ chr 'Z' then ch + 32
  else if chr 'a' ≤ ch ∧ ch ≤ chr 'z' then ch
  else if chr '0' ≤ ch ∧ ch ≤ chr '9' then ch
  else if ch ∈ text "!#$%&'*+-.^_`|~" then ch
  else 0

/-- `unhex`: the value of a hexadecimal digit, `none` for -1. The source lists 128 of the 256
entries, so that the others are 0 and not -1. -/
def unhex (ch : UInt8) : Option Nat :=
  if chr '0' ≤ ch ∧ ch ≤ chr '9' then some (ch.toNat - 48)
  else if chr 'A' ≤ ch ∧ ch ≤ chr 'F' then some (ch.toNat - 55)
  else if chr 'a' ≤ ch ∧ ch ≤ chr 'f' then some (ch.toNat - 87)
  else if 128 ≤ ch then some 0
  else none

/-- `LOWER` -/
def lower (ch : UInt8) : UInt8 :=
  ch ||| 32

/-- `IS_NUM` -/
def isNum (ch : UInt8) : Bool :=
  chr '0' ≤ ch ∧ ch ≤ chr '9'

/-- `IS_ALPHA` -/
def isAlpha (ch : UInt8) : Bool :=
  chr 'a' ≤ lower ch ∧ lower ch ≤ chr 'z'

/-- `ch - '0'` for a digit. -/
def digit (ch : UInt8) : Nat :=
  ch.toNat - 48

/-! ## Enumerations -/

/-- `enum http_parser_type` -/
inductive ParserType where
  | request
  | response
  | both
  deriving DecidableEq, Repr

/-- `enum http_method` -/
inductive Method where
  | delete
  | get
  | head
  | post
  | put
  | connect
  | options
  | trace
  | copy
  | lock
  | mkcol
  | move
  | propfind
  | proppatch
  | search
  | unlock
  | report
  | mkactivity
  | checkout
  | merge
  | msearch
  | notify
  | subscribe
  | unsubscribe
  | patch
  | purge
  deriving DecidableEq, Repr

/-- `method_strings` -/
def Method.string : Method → List UInt8
  | .delete => text "DELETE"
  | .get => text "GET"
  | .head => text "HEAD"
  | .post => text "POST"
  | .put => text "PUT"
  | .connect => text "CONNECT"
  | .options => text "OPTIONS"
  | .trace => text "TRACE"
  | .copy => text "COPY"
  | .lock => text "LOCK"
  | .mkcol => text "MKCOL"
  | .move => text "MOVE"
  | .propfind => text "PROPFIND"
  | .proppatch => text "PROPPATCH"
  | .search => text "SEARCH"
  | .unlock => text "UNLOCK"
  | .report => text "REPORT"
  | .mkactivity => text "MKACTIVITY"
  | .checkout => text "CHECKOUT"
  | .merge => text "MERGE"
  | .msearch => text "M-SEARCH"
  | .notify => text "NOTIFY"
  | .subscribe => text "SUBSCRIBE"
  | .unsubscribe => text "UNSUBSCRIBE"
  | .patch => text "PATCH"
  | .purge => text "PURGE"

/-- `enum http_errno`, the ones that the parser sets. -/
inductive Errno where
  | ok
  | cbMessageBegin
  | cbStatusComplete
  | cbUrl
  | cbHeaderField
  | cbHeaderValue
  | cbHeadersComplete
  | cbBody
  | cbMessageComplete
  | invalidEofState
  | headerOverflow
  | closedConnection
  | invalidVersion
  | invalidStatus
  | invalidMethod
  | invalidUrl
  | lfExpected
  | invalidHeaderToken
  | invalidContentLength
  | invalidChunkSize
  | invalidConstant
  | strict
  | paused
  | unknown
  deriving DecidableEq, Repr

/-- `enum state` -/
inductive State where
  | dead
  | startReqOrRes
  | resOrRespH
  | startRes
  | resH
  | resHT
  | resHTT
  | resHTTP
  | resFirstHttpMajor
  | resHttpMajor
  | resFirstHttpMinor
  | resHttpMinor
  | resFirstStatusCode
  | resStatusCode
  | resStatus
  | resLineAlmostDone
  | startReq
  | reqMethod
  | reqSpacesBeforeUrl
  | reqSchema
  | reqSchemaSlash
  | reqSchemaSlashSlash
  | reqServerStart
  | reqServer
  | reqServerWithAt
  | reqPath
  | reqQueryStringStart
  | reqQueryString
  | reqFragmentStart
  | reqFragment
  | reqHttpStart
  | reqHttpH
  | reqHttpHT
  | reqHttpHTT
  | reqHttpHTTP
  | reqFirstHttpMajor
  | reqHttpMajor
  | reqFirstHttpMinor
  | reqHttpMinor
  | reqLineAlmostDone
  | headerFieldStart
  | headerField
  | headerValueStart
  | headerValue
  | headerValueLws
  | headerAlmostDone
  | chunkSizeStart
  | chunkSize
  | chunkParameters
  | chunkSizeAlmostDone
  | headersAlmostDone
  | headersDone
  | chunkData
  | chunkDataAlmostDone
  | chunkDataDone
  | bodyIdentity
  | bodyIdentityEof
  | messageDone
  deriving DecidableEq, Repr

/-- `PARSING_HEADER`: the states up to `s_headers_done`. -/
def State.parsingHeader : State → Bool
  | .chunkData | .chunkDataAlmostDone | .chunkDataDone | .bodyIdentity | .bodyIdentityEof
  | .messageDone => false
  | _ => true

/-- `enum header_states` -/
inductive HeaderState where
  | general
  | c
  | co
  | con
  | matchingConnection
  | matchingProxyConnection
  | matchingContentLength
  | matchingTransferEncoding
  | matchingUpgrade
  | connection
  | contentLength
  | transferEncoding
  | upgrade
  | matchingTransferEncodingChunked
  | matchingConnectionKeepAlive
  | matchingConnectionClose
  | transferEncodingChunked
  | connectionKeepAlive
  | connectionClose
  deriving DecidableEq, Repr

/-! ## The record -/

/-- `enum flags`, the bits of the field `flags`. -/
structure Flags where
  chunked : Bool := false
  connectionKeepAlive : Bool := false
  connectionClose : Bool := false
  trailing : Bool := false
  upgrade : Bool := false
  skipbody : Bool := false
  deriving DecidableEq, Repr

/-- `struct http_parser`, without the pointer that the application keeps in it. -/
structure Parser where
  type : ParserType
  flags : Flags
  state : State
  headerState : HeaderState
  index : Nat
  nread : Nat
  contentLength : UInt64
  httpMajor : Nat
  httpMinor : Nat
  statusCode : Nat
  method : Method
  httpErrno : Errno
  upgrade : Bool
  deriving DecidableEq, Repr

namespace Parser

/-- `http_parser_init` -/
def init (type : ParserType) : Parser where
  type := type
  flags := {}
  state :=
    match type with
    | .request => .startReq
    | .response => .startRes
    | .both => .startReqOrRes
  headerState := .general
  index := 0
  nread := 0
  contentLength := 0
  httpMajor := 0
  httpMinor := 0
  statusCode := 0
  method := .delete
  httpErrno := .ok
  upgrade := false

/-- `http_message_needs_eof` -/
def messageNeedsEof (parser : Parser) : Bool :=
  if parser.type = .request then false
  else if parser.statusCode / 100 = 1 ∨ parser.statusCode = 204 ∨ parser.statusCode = 304 ∨
      parser.flags.skipbody then false
  else if parser.flags.chunked ∨ parser.contentLength ≠ ULLONG_MAX then false
  else true

/-- `http_should_keep_alive` -/
def shouldKeepAlive (parser : Parser) : Bool :=
  if 0 < parser.httpMajor ∧ 0 < parser.httpMinor then
    if parser.flags.connectionClose then false else !parser.messageNeedsEof
  else
    if !parser.flags.connectionKeepAlive then false else !parser.messageNeedsEof

/-- `start_state` -/
def startState (parser : Parser) : State :=
  if parser.type = .request then .startReq else .startRes

/-- `NEW_MESSAGE` -/
def newMessage (parser : Parser) : State :=
  if parser.shouldKeepAlive then parser.startState else .dead

end Parser

end Rsva11001.Http
