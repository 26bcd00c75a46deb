import Rsva11001.Adapter.Globals

/-!
# Client requests

`handleNewRequest` answers a request with 404, with the last image of a camera, or puts it in the
queue of a camera until the next image arrives. The query string parser belongs to sandgrouse and
is a parameter.
-/

namespace Rsva11001

open Lib

def QUERY_BUFFER_SIZE : Nat := 256

/-- The buffer on the stack that the query string parser copies values to. -/
abbrev QueryBuffer := Region UInt8 QUERY_BUFFER_SIZE

/-- `sg_queryStringParser`. `findFirst` is given the key, the buffer and `*length`; on success it
leaves a buffer and a length. -/
structure Sandgrouse where
  Query : Type
  init : CString → Option Query
  findFirst : Query → CString → QueryBuffer → Nat → Option (Query × QueryBuffer × Nat)

/-! ## Numbers in requests -/

def isspace (b : UInt8) : Bool :=
  b = 32 || (9 ≤ b && b ≤ 13)

def isdigit (b : UInt8) : Bool :=
  48 ≤ b && b ≤ 57

/-- The number that a row of decimal digits denotes. -/
def digitsValue (digits : List UInt8) : Nat :=
  digits.foldl (fun acc b => acc * 10 + (b.toNat - 48)) 0

/-- What `strtoul` returns: its value, whether it sets `errno`, and `*endptr`. -/
structure Strtoul where
  value : Nat
  erange : Bool
  endChar : UInt8
  deriving DecidableEq, Repr

/-- The optional sign: whether it is a minus, and what follows it. -/
def strtoulSign : List UInt8 → Bool × List UInt8
  | [] => (false, [])
  | b :: rest =>
    if b = 45 then (true, rest) else if b = 43 then (false, rest) else (false, b :: rest)

/-- `strtoul` in base 10 on the bytes of a buffer, or `none` when it reads beyond them. -/
def strtoul (nptr : List UInt8) : Option Strtoul := do
  let (negative, digits) := strtoulSign (nptr.dropWhile isspace)
  let number := digits.takeWhile isdigit
  let endChar ← (digits.dropWhile isdigit).head?
  if number = [] then
    -- no conversion: the end pointer is `nptr`
    return ⟨0, false, ← nptr.head?⟩
  else if digitsValue number > ULONG_MAX then return ⟨ULONG_MAX, true, endChar⟩
  else if negative then return ⟨(2 ^ 64 - digitsValue number) % 2 ^ 64, false, endChar⟩
  else return ⟨digitsValue number, false, endChar⟩

/-! ## Routing -/

/-- What `handleNewRequest` decides to do with a request. -/
inductive Route where
  | notFound
  | wait (src : Nat)
  | send (src : Nat)
  deriving DecidableEq, Repr

/-- The camera that the value of `source` asks for, or `none` for one that is answered with 404. -/
def parseSource (numCameras : Nat) (buffer : QueryBuffer) (length : Nat) :
    Except Halt (Option Nat) :=
  if length = 0 then .ok (some 0)
  else do
    let r ← access .queryValue (strtoul buffer.cells)
    if r.value = ULONG_MAX ∧ r.erange then return none
    else if r.endChar ≠ 0 then return none
    else if r.value > UINT_MAX then return none
    else if r.value ≥ numCameras then return none
    else return some r.value

/-- The part of `handleNewRequest` that looks at the request. `stack` is what the value buffer
holds when the function is entered. -/
def route (sg : Sandgrouse) (numCameras : Nat) (conn : SgConnection) (stack : QueryBuffer) :
    Except Halt Route :=
  if conn.method ≠ some (ascii "GET") then .ok .notFound
  else if conn.pathInfo ≠ some (ascii "/camera.jpg") then .ok .notFound
  else
    match conn.queryString.bind sg.init with
    | none => .ok .notFound
    | some parser =>
      match sg.findFirst parser (ascii "source") stack QUERY_BUFFER_SIZE with
      | none => .ok .notFound
      | some (parser, buffer, length) => do
        match ← parseSource numCameras buffer length with
        | none => return .notFound
        | some src =>
          if ¬ src < numCameras then .error (.assertFailed .handleNewRequestSource)
          else
            match sg.findFirst parser (ascii "wait") buffer QUERY_BUFFER_SIZE with
            | none => return .notFound
            | some (_, buffer, length) =>
              if length = 1 ∧ buffer.cells.take 1 = ascii "1" then return .wait src
              else return .send src

/-! ## Answering -/

/-- The size of the buffer for the value of `Content-Length`. -/
def LENGTH_BUFFER_SIZE : Nat := 16

/-- The response headers set by `sendJpeg`. -/
def jpegHeaders (size : Nat) (host : Option CString) : List (CString × CString) :=
  [(ascii "Content-Type", ascii "image/jpeg"), (ascii "Status", ascii "200 OK"),
    (ascii "Content-Length", (decimal size).take (LENGTH_BUFFER_SIZE - 1)),
    (ascii "Connection", ascii "Close"), (ascii "Cache-Control", ascii "no-cache")] ++
    (host.map fun h => (ascii "Host", h)).toList

namespace Globals

variable {P : HttpParser}

/-- `sg_send404` -/
def send404 (g : Globals P) (conn : SgConnection) : Globals P :=
  g.say [.response conn.id .notFound]

/-- `sendJpeg`; `writeOk` is the outcome of `sg_connection_writeResponse`. -/
def sendJpeg (g : Globals P) (conn : SgConnection) (data : List UInt8) (size : Nat)
    (writeOk : Bool) : Bool × Globals P :=
  if Connection.snprintfResult (decimal size).length = LENGTH_BUFFER_SIZE then
    (true, g.send404 conn)
  else (writeOk, g.say [.response conn.id (.jpeg (jpegHeaders size conn.httpHost) data size)])

/-- `pendingRequests[src].connections[numPending] = conn; numPending++` -/
def enqueue (g : Globals P) (src : Slot) (conn : SgConnection) : Except Halt (Globals P) := do
  let queue := g.pendingRequests src
  let index := queue.numPending
  let connections ← access .pendingConnections (queue.connections.write index [some conn])
  return (g.setQueue src ⟨connections, index + 1⟩).say [.queued src conn.id index]

/-- What is supplied to one call of `handleNewRequest`. -/
structure RequestEnv where
  stack : QueryBuffer
  writeOk : Bool

/-- `handleNewRequest` -/
def handleNewRequest (g : Globals P) (sg : Sandgrouse) (conn : SgConnection) (e : RequestEnv) :
    Except Halt (Bool × Globals P) := do
  let g := g.say [.handed conn.id]
  match ← route sg g.numCameras conn e.stack with
  | .notFound => return (true, g.send404 conn)
  | .wait src => do
    let src ← slot .pendingConnections src
    let g ← (g.say [.routed src conn.id]).enqueue src conn
    return (true, g)
  | .send src => do
    let src ← slot .lastImage src
    let g := g.say [.routed src conn.id]
    match (g.lastImage src).data with
    | none => return (true, g.send404 conn)
    | some image => return g.sendJpeg conn image.bytes (g.lastImage src).size e.writeOk

end Globals

end Rsva11001
