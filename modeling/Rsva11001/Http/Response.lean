import Mathlib.Data.List.DropRight
import Rsva11001.Http.Basic
import Rsva11001.Lib.Positional
import Rsva11001.Lib.Transducer

/-!
# Responses

What a response is, as a text: a status line, headers, an empty line, and a body that the headers
delimit. This is the format for which `http_parser.c` has been written and not the parser; the
parser is measured by it in `Verify/HttpResponse.lean`. `encode` gives the bytes, and `layout` the
bytes with those marked that the body carries.
-/

namespace Rsva11001.Http

open Lib

/-! ## Numerals -/

/-- A row of digits; `read` is the value of a digit. -/
structure Digits (read : UInt8 → Option Nat) where
  bytes : List UInt8
  ne_nil : bytes ≠ []
  isSome : ∀ c ∈ bytes, (read c).isSome = true

def Digits.value {read : UInt8 → Option Nat} (digits : Digits read) (base : Nat) : Nat :=
  positional base (digits.bytes.filterMap read)

def decimal (c : UInt8) : Option Nat :=
  if isNum c then some (digit c) else none

def hexadecimal (c : UInt8) : Option Nat :=
  if c < 128 then unhex c else none

/-! ## Headers -/

/-- What the bytes of a length must be. -/
def IsLength (value : List UInt8) : Prop :=
  (∀ c ∈ value, isNum c = true) ∧ positional 10 (value.map digit) < ULLONG_MAX.toNat

/-- A header, with the white space before its value. -/
structure Header where
  name : List UInt8
  blank : List UInt8
  value : List UInt8
  name_ne_nil : name ≠ []
  name_token : ∀ c ∈ name, tokens c ≠ 0
  blank_space : ∀ c ∈ blank, c = SP ∨ c = HT
  value_text : ∀ c ∈ value, c ≠ CR ∧ c ≠ LF
  value_start : ∀ c, value.head? = some c → c ≠ SP ∧ c ≠ HT
  length : name.map tokens = CONTENT_LENGTH → IsLength value

namespace Header

def encode (header : Header) : List UInt8 :=
  header.name ++ chr ':' :: (header.blank ++ (header.value ++ [CR, LF]))

/-- The name is the constant, in whatever case. -/
def Named (header : Header) (constant : List UInt8) : Prop :=
  header.name.map tokens = constant

/-- The value is the constant, in whatever case, with spaces behind it. -/
def Says (header : Header) (constant : List UInt8) : Prop :=
  (header.value.rdropWhile (· = SP)).map lower = constant

instance (header : Header) (constant : List UInt8) : Decidable (header.Named constant) :=
  inferInstanceAs (Decidable (_ = _))

instance (header : Header) (constant : List UInt8) : Decidable (header.Says constant) :=
  inferInstanceAs (Decidable (_ = _))

/-- What a header adds to what is known of the message. -/
def flags (header : Header) (flags : Flags) : Flags :=
  if header.value = [] then flags
  else if header.Named UPGRADE then { flags with upgrade := true }
  else if header.Named TRANSFER_ENCODING then
    if header.Says CHUNKED then { flags with chunked := true } else flags
  else if header.Named CONNECTION ∨ header.Named PROXY_CONNECTION then
    if header.Says KEEP_ALIVE then { flags with connectionKeepAlive := true }
    else if header.Says CLOSE then { flags with connectionClose := true }
    else flags
  else flags

/-- The length of the body, when the header gives it. -/
def contentLength (header : Header) (length : UInt64) : UInt64 :=
  if header.Named CONTENT_LENGTH ∧ header.value ≠ [] then
    .ofNat (positional 10 (header.value.map digit))
  else length

end Header

/-- Headers, one after the other. -/
def encodeHeaders (headers : List Header) : List UInt8 :=
  headers.flatMap Header.encode

def headersFlags (headers : List Header) (flags : Flags) : Flags :=
  headers.foldl (fun flags header => header.flags flags) flags

def headersLength (headers : List Header) (length : UInt64) : UInt64 :=
  headers.foldl (fun length header => header.contentLength length) length

/-! ## The head -/

structure StatusLine where
  major : Digits decimal
  minor : Digits decimal
  code : Digits decimal
  reason : Option (List UInt8)
  major_lt : major.value 10 < 1000
  minor_lt : minor.value 10 < 1000
  code_lt : code.value 10 < 1000
  reason_text : ∀ text, reason = some text → ∀ c ∈ text, c ≠ CR ∧ c ≠ LF

def StatusLine.encode (line : StatusLine) : List UInt8 :=
  text "HTTP/" ++ line.major.bytes ++ chr '.' :: (line.minor.bytes ++ SP :: (line.code.bytes ++
    ((line.reason.map (SP :: ·)).getD [] ++ [CR, LF])))

structure Head where
  status : StatusLine
  headers : List Header

/-- How the end of a body is found. -/
inductive Framing where
  | sized (length : Nat)
  | chunked
  | untilEof
  deriving DecidableEq, Repr

namespace Head

def encode (head : Head) : List UInt8 :=
  head.status.encode ++ (encodeHeaders head.headers ++ [CR, LF])

def flags (head : Head) : Flags :=
  headersFlags head.headers {}

def contentLength (head : Head) : UInt64 :=
  headersLength head.headers ULLONG_MAX

def framing (head : Head) : Framing :=
  let code := head.status.code.value 10
  if head.flags.chunked then .chunked
  else if head.contentLength ≠ ULLONG_MAX then .sized head.contentLength.toNat
  else if code / 100 = 1 ∨ code = 204 ∨ code = 304 then .sized 0
  else .untilEof

end Head

/-! ## The body -/

/-- The line before a chunk: its size, and what else stands there. -/
structure ChunkLine where
  size : Digits hexadecimal
  extension : List UInt8
  extension_start : ∀ c, extension.head? = some c → c = chr ';' ∨ c = SP
  extension_text : ∀ c ∈ extension, c ≠ CR
  length_le : size.bytes.length + extension.length + 2 ≤ HTTP_MAX_HEADER_SIZE
  value_lt : size.value 16 < ULLONG_MAX.toNat

def ChunkLine.encode (line : ChunkLine) : List UInt8 :=
  line.size.bytes ++ (line.extension ++ [CR, LF])

structure Chunk where
  line : ChunkLine
  data : List UInt8
  ne_nil : data ≠ []
  size_eq : line.size.value 16 = data.length

def Chunk.encode (chunk : Chunk) : List UInt8 :=
  chunk.line.encode ++ (chunk.data ++ [CR, LF])

def Chunk.layout (chunk : Chunk) : List (UInt8 × Bool) :=
  plain chunk.line.encode ++ (content chunk.data ++ plain [CR, LF])

/-- The chunk that ends a body, with the headers behind it. -/
structure LastChunk where
  line : ChunkLine
  trailers : List Header
  size_eq : line.size.value 16 = 0
  length_le : (encodeHeaders trailers).length + 2 ≤ HTTP_MAX_HEADER_SIZE

def LastChunk.encode (last : LastChunk) : List UInt8 :=
  last.line.encode ++ (encodeHeaders last.trailers ++ [CR, LF])

inductive Body where
  | sized (data : List UInt8)
  | chunked (chunks : List Chunk) (last : LastChunk)
  | untilEof (data : List UInt8)

namespace Body

def encode : Body → List UInt8
  | .sized data => data
  | .chunked chunks last => chunks.flatMap Chunk.encode ++ last.encode
  | .untilEof data => data

/-- What the body carries. -/
def data : Body → List UInt8
  | .sized data => data
  | .chunked chunks _ => chunks.flatMap Chunk.data
  | .untilEof data => data

def layout : Body → List (UInt8 × Bool)
  | .sized data => content data
  | .chunked chunks last => chunks.flatMap Chunk.layout ++ plain last.encode
  | .untilEof data => content data

@[simp] theorem symbols_layout (body : Body) : body.layout.map Prod.fst = body.encode := by
  cases body with
  | sized data => exact symbols_content data
  | chunked chunks last =>
    simp only [layout, encode, List.map_append, List.map_flatMap, Chunk.layout, symbols_plain,
      symbols_content]
    rfl
  | untilEof data => exact symbols_content data

@[simp] theorem kept_layout (body : Body) : kept body.layout = body.data := by
  cases body with
  | sized data => exact kept_content data
  | chunked chunks last => simp [layout, data, Chunk.layout]
  | untilEof data => exact kept_content data

/-- The body ends where the framing says. -/
def Fits : Body → Framing → Prop
  | .sized data, framing => framing = .sized data.length
  | .chunked _ _, framing => framing = .chunked
  | .untilEof _, framing => framing = .untilEof

/-- The headers behind a body in chunks. -/
def trailers : Body → List Header
  | .chunked _ last => last.trailers
  | _ => []

end Body

/-- A response that stays with HTTP. -/
structure Response where
  head : Head
  body : Body
  fits : body.Fits head.framing
  no_upgrade : head.flags.upgrade = false

namespace Response

def encode (response : Response) : List UInt8 :=
  response.head.encode ++ response.body.encode

def layout (response : Response) : List (UInt8 × Bool) :=
  plain response.head.encode ++ response.body.layout

/-- The sender takes further requests on the same connection. -/
def persistent (response : Response) : Bool :=
  let flags := headersFlags response.body.trailers response.head.flags
  match response.body with
  | .untilEof _ => false
  | _ =>
    if 0 < response.head.status.major.value 10 ∧ 0 < response.head.status.minor.value 10 then
      !flags.connectionClose
    else flags.connectionKeepAlive

end Response

/-! ## Responses, one after the other -/

def encodeResponses (responses : List Response) : List UInt8 :=
  responses.flatMap Response.encode

def responsesLayout (responses : List Response) : List (UInt8 × Bool) :=
  responses.flatMap Response.layout

/-- What the bodies carry among the first `n` bytes. -/
def responsesData (responses : List Response) (n : Nat) : List UInt8 :=
  kept ((responsesLayout responses).take n)

@[simp] theorem symbols_responsesLayout (responses : List Response) :
    (responsesLayout responses).map Prod.fst = encodeResponses responses := by
  simp only [responsesLayout, List.map_flatMap, Response.layout, List.map_append, symbols_plain,
    Body.symbols_layout]
  rfl

theorem length_responsesLayout (responses : List Response) :
    (responsesLayout responses).length = (encodeResponses responses).length := by
  rw [← symbols_responsesLayout, List.length_map]

/-- All that the bodies carry. -/
theorem responsesData_all (responses : List Response) :
    responsesData responses (encodeResponses responses).length =
      responses.flatMap fun response => response.body.data := by
  rw [responsesData, ← length_responsesLayout, List.take_length]
  simp [responsesLayout, Response.layout]

end Rsva11001.Http
