import Rsva11001.Connection.Recv

/-!
# Driving the socket

`rsva11001_connection_process` finishes the non-blocking connect, writes what is left of the
request and reads until the socket has no more. The results of its system calls are supplied as
lists, one entry for each call of the loop; a list that ends inside its loop means that the call
has not returned.
-/

namespace Rsva11001

open Lib

/-- The result of `poll` on one descriptor with a timeout of 0. -/
inductive PollResult where
  | error
  | notReady
  | ready (pollout : Bool)
  deriving DecidableEq, Repr

/-- The result of `getsockopt` for `SO_ERROR`: failure, an option of another size, or the error
pending on the socket. -/
inductive SockOptResult where
  | error
  | otherSize
  | pending (opt : Nat)
  deriving DecidableEq, Repr

/-- The result of `send`; it never takes more bytes than it is given. -/
inductive SendResult where
  | sent (n : Nat)
  | wouldBlock
  | error
  deriving DecidableEq, Repr

/-- The bytes of one successful read. -/
structure Block where
  bytes : List UInt8
  ne_nil : bytes ≠ []
  length_le : bytes.length ≤ BUFFER_SIZE

/-- The result of `recv` on the socket. -/
inductive RecvResult where
  | data (block : Block)
  | wouldBlock
  | shutdown
  | error

/-- The results of the calls made by `process`. -/
structure ProcessEnv where
  poll : PollResult
  getsockopt : SockOptResult
  sends : List SendResult
  recvs : List RecvResult

/-- What `process` returns: its value, the connection, the bytes the socket took, and the payloads
of the messages completed. -/
structure ProcessResult (P : HttpParser) where
  ret : Bool
  conn : Connection P
  sent : List UInt8
  accepted : List (List UInt8)

namespace Connection

variable {P : HttpParser}

/-- The payload of the message completed by the callback that led from `this` to `next`. The
callback has swapped the buffers then, and the message is at the front of the one it filled. -/
def completed (this next : Connection P) : Option (List UInt8) :=
  if next.ping = this.ping then none
  else do
    let buffer ← next.receiveBuffer this.active
    let lengthField ← buffer.read 4 4
    buffer.read HEADER_SIZE (ntohl lengthField)

/-- The callbacks made with the slices of one block: whether all of them returned 0. The parser
makes no further one after a callback has returned something else. -/
def callbacks (this : Connection P) :
    List (List UInt8) → Except Halt (Bool × Connection P × List (List UInt8))
  | [] => .ok (true, this, [])
  | data :: rest => do
    let (ret, next) ← this.recv data
    let payload := (this.completed next).toList
    if ret ≠ 0 then return (false, next, payload)
    else do
      let (all, last, payloads) ← next.callbacks rest
      return (all, last, payload ++ payloads)

/-- `http_parser_execute`. A parser with an error set consumes nothing, and a callback that does
not return 0 sets one. -/
def execute (this : Connection P) (block : List UInt8) :
    Except Halt (Connection P × List (List UInt8)) :=
  match this.parser with
  | none => .ok (this, [])
  | some s => do
    let (all, next, payloads) ← this.callbacks (P.body s block)
    return ({ next with parser := if all then P.next s block else none }, payloads)

/-- The first block of `process`. The value is `some ret` when `process` returns `ret` there. -/
def checkConnected (this : Connection P) (e : ProcessEnv) : Option Bool × Connection P :=
  if this.connected then (none, this)
  else
    match e.poll with
    | .error => (some false, this)
    | .notReady => (some true, this)
    | .ready pollout =>
      if !pollout then (some false, this)
      else
        match e.getsockopt with
        | .error => (some false, this)
        | .otherSize => (some false, this)
        | .pending opt =>
          if opt ≠ 0 then (some false, this)
          else (none, { this with connected := true })

/-- The write loop. The value is `some false` when `process` returns there. -/
def writeLoop (this : Connection P) (sends : List SendResult) :
    Except Halt (Option Bool × Connection P × List UInt8) :=
  if this.bytesWritten = this.outputLength then .ok (none, this, [])
  else
    match sends with
    | [] => .error .unfinished
    | result :: rest => do
      let amountToWrite := subFast this.outputLength this.bytesWritten
      if amountToWrite = 0 then .error (.assertFailed .processAmountToWrite)
      else do
        let buffer ← access .processSend this.outputBuffer
        let src ← access .processSend (buffer.read this.bytesWritten amountToWrite)
        match result with
        | .error => return (some false, this, [])
        | .wouldBlock => return (none, this, [])
        | .sent n =>
          if n = 0 then return (some false, this, [])
          else do
            let taken := src.take n
            let (ret, this, sent) ← writeLoop
              { this with bytesWritten := this.bytesWritten + taken.length } rest
            return (ret, this, taken ++ sent)

/-- The read loop: what `process` returns, and the payloads of the messages completed. -/
def readLoop (this : Connection P) :
    List RecvResult → Except Halt (Bool × Connection P × List (List UInt8))
  | [] => .error .unfinished
  | .shutdown :: _ => .ok (false, this, [])
  | .error :: _ => .ok (false, this, [])
  | .wouldBlock :: _ => .ok (true, this, [])
  | .data block :: rest => do
    let (next, payloads) ← this.execute block.bytes
    let (ret, last, more) ← next.readLoop rest
    return (ret, last, payloads ++ more)

/-- `rsva11001_connection_process` -/
def process (this : Connection P) (e : ProcessEnv) : Except Halt (ProcessResult P) :=
  if this.sockfd.isNone then .error (.assertFailed .processSockfd)
  else
    match this.checkConnected e with
    | (some ret, this) => .ok ⟨ret, this, [], []⟩
    | (none, this) => do
      let (ret, this, sent) ← this.writeLoop e.sends
      match ret with
      | some ret => return ⟨ret, this, sent, []⟩
      | none => do
        let (ret, this, accepted) ← this.readLoop e.recvs
        return ⟨ret, this, sent, accepted⟩

end Connection

end Rsva11001
