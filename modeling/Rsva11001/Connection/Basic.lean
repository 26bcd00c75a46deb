import Mathlib.Algebra.Group.Int.Defs
import Mathlib.Algebra.Group.Nat.Defs
import Mathlib.Data.List.Basic
import Rsva11001.Lib.Region
import Rsva11001.Lib.Run
import Rsva11001.Connection.Parser

/-!
# The camera connection: data model, configuration, opening and closing

The functions of `rsva11001.c` on `rsva11001_connection`, less the ones that move bytes
(`Connection/Recv.lean`, `Connection/Process.lean`). A function of the source is a Lean function
of the same words on the connection record; the results of the system calls it makes are
arguments. An execution that fails an assertion or leaves an allocated block has no next state
and is a `Halt`.

`unsigned int` and `uint32_t` are 32 bits wide, `size_t`, `unsigned long` and `uint_fast32_t` are
64 bits wide; arithmetic on them is on `Nat`, reduced where the source can wrap. The texts in
`lastError` and the log lines are left out: nothing reads them back.
-/

namespace Rsva11001

open Lib

/-! ## Bytes, strings and machine arithmetic -/

/-- The bytes of a NUL-terminated string, without the terminator. -/
abbrev CString := List UInt8

/-- The bytes of a string literal. -/
def ascii (s : String) : CString :=
  s.toList.map fun c => c.toNat.toUInt8

/-- `%u`: the decimal numeral of an unsigned number. -/
def decimal (n : Nat) : CString :=
  (Nat.toDigits 10 n).map fun c => c.toNat.toUInt8

def UINT_MAX : Nat := 2 ^ 32 - 1
def ULONG_MAX : Nat := 2 ^ 64 - 1
def INT_MAX : Nat := 2 ^ 31 - 1

/-- The size of the largest object. -/
def PTRDIFF_MAX : Nat := 2 ^ 63 - 1

/-- Subtraction of 64-bit unsigned numbers. -/
def subFast (a b : Nat) : Nat :=
  (a + (2 ^ 64 - b)) % 2 ^ 64

theorem subFast_of_le {a b : Nat} (h : b ≤ a) (ha : a < 2 ^ 64) : subFast a b = a - b := by
  unfold subFast
  omega

theorem subFast_of_lt {a b : Nat} (h : a < b) (hb : b < 2 ^ 64) :
    subFast a b = 2 ^ 64 - (b - a) := by
  unfold subFast
  omega

/-- `ntohl` on the four bytes of a 32-bit number in network order. -/
def ntohl (b : List UInt8) : Nat :=
  b.foldl (fun acc x => acc * 256 + x.toNat) 0

/-- The four bytes of a 32-bit number in network order. -/
def htonl (n : Nat) : List UInt8 :=
  [(n / 2 ^ 24).toUInt8, (n / 2 ^ 16).toUInt8, (n / 2 ^ 8).toUInt8, n.toUInt8]

@[simp] theorem length_htonl (n : Nat) : (htonl n).length = 4 := rfl

theorem ntohl_htonl {n : Nat} (h : n < 2 ^ 32) : ntohl (htonl n) = n := by
  simp only [ntohl, htonl, List.foldl_cons, List.foldl_nil, Nat.toUInt8_eq, UInt8.toNat_ofNat']
  omega

theorem exists_bytes {b : List UInt8} (h : b.length = 4) : ∃ x y z w, b = [x, y, z, w] :=
  match b, h with
  | [x, y, z, w], _ => ⟨x, y, z, w, rfl⟩

theorem ntohl_lt {b : List UInt8} (h : b.length = 4) : ntohl b < 2 ^ 32 := by
  obtain ⟨x, y, z, w, rfl⟩ := exists_bytes h
  have hx := x.toNat_lt
  have hy := y.toNat_lt
  have hz := z.toNat_lt
  have hw := w.toNat_lt
  simp only [ntohl, List.foldl_cons, List.foldl_nil]
  omega

theorem htonl_ntohl {b : List UInt8} (h : b.length = 4) : htonl (ntohl b) = b := by
  obtain ⟨x, y, z, w, rfl⟩ := exists_bytes h
  have hx := x.toNat_lt
  have hy := y.toNat_lt
  have hz := z.toNat_lt
  have hw := w.toNat_lt
  simp only [ntohl, htonl, List.foldl_cons, List.foldl_nil, List.cons.injEq, and_true,
    Nat.toUInt8_eq, ← UInt8.toNat_inj, UInt8.toNat_ofNat']
  refine ⟨?_, ?_, ?_, ?_⟩ <;> omega

/-! ## Halting -/

/-- The assertions of the program. -/
inductive AssertSite where
  | recvActiveReceiveBuffer
  | recvActiveReceiveBufferAllocated
  | recvActiveReceiveBufferSize
  | recvSpaceRemaining
  | processSockfd
  | processAmountToWrite
  | openNextCameraActive
  | processActiveCameraActive
  | writeImageFilePending
  | handleNewRequestSource
  deriving DecidableEq, Repr

/-- The memory accesses of the program that are bounded by nothing but the sizes involved. -/
inductive AccessSite where
  | recvCopy
  | recvHeader
  | recvFooter
  | recvOverflow
  | getLatestImageHeader
  | getLatestImageFooter
  | openZeroing
  | processSend
  | closeActiveCamera
  | conns
  | lastImage
  | pendingConnections
  | queryValue
  | configurationCopy
  | numCamerasValue
  deriving DecidableEq, Repr

/-- Why an execution has no next state. `unfinished` is no failure: the system-call results that
were supplied end inside a loop, so the call has not returned. -/
inductive Halt where
  | assertFailed (site : AssertSite)
  | outOfRange (site : AccessSite)
  | unfinished
  deriving DecidableEq, Repr

/-- The value of a memory access, which halts the program when it leaves its block. -/
def access {α : Type} (site : AccessSite) : Option α → Except Halt α
  | some a => .ok a
  | none => .error (.outOfRange site)

/-- The target of a pointer that is asserted not to be NULL. -/
def asserted {α : Type} (site : AssertSite) : Option α → Except Halt α
  | some a => .ok a
  | none => .error (.assertFailed site)

@[simp] theorem access_some {α : Type} (site : AccessSite) (a : α) :
    access site (some a) = .ok a := rfl

@[simp] theorem access_none {α : Type} (site : AccessSite) :
    access site (none : Option α) = .error (.outOfRange site) := rfl

@[simp] theorem asserted_some {α : Type} (site : AssertSite) (a : α) :
    asserted site (some a) = .ok a := rfl

@[simp] theorem asserted_none {α : Type} (site : AssertSite) :
    asserted site (none : Option α) = .error (.assertFailed site) := rfl

theorem access_eq_ok {α : Type} {site : AccessSite} {o : Option α} {a : α} :
    access site o = .ok a ↔ o = some a := by
  cases o <;> simp [access]

/-- An access halts at its own site only. -/
theorem access_avoids {α : Type} {x : Halt} {site : AccessSite} (hx : x ≠ .outOfRange site)
    (o : Option α) : Avoids x (access site o) := by
  cases o with
  | none => exact avoids_error (Ne.symm hx)
  | some a => exact avoids_ok a

theorem asserted_eq_ok {α : Type} {site : AssertSite} {o : Option α} {a : α} :
    asserted site o = .ok a ↔ o = some a := by
  cases o <;> simp [asserted]

@[simp] theorem ok_bind {ε α β : Type} (a : α) (f : α → Except ε β) :
    (Except.ok a >>= f) = f a := rfl

@[simp] theorem error_bind {ε α β : Type} (e : ε) (f : α → Except ε β) :
    (Except.error e >>= f) = .error e := rfl

/-- A sequenced computation succeeds exactly when its first part does and the rest succeeds on
the result. -/
theorem bind_eq_ok {ε α β : Type} {x : Except ε α} {f : α → Except ε β} {b : β} :
    (x >>= f) = .ok b ↔ ∃ a, x = .ok a ∧ f a = .ok b := by
  cases x <;> simp

/-! ## The connection record -/

def BASE_BUFFER_SIZE : Nat := 16383 * 2
def OUTPUT_BUFFER_SIZE : Nat := 512
def BUFFER_SIZE : Nat := 16383

/-- The size of the `username`, `password` and `hostname` fields. -/
def FIELD_SIZE : Nat := 64

def MAX_CHAN : Nat := 9
def MIN_CHAN : Nat := 1

abbrev ReceiveBuffer := Region UInt8 BASE_BUFFER_SIZE

/-- The field a buffer pointer points at. -/
inductive Side where
  | ping
  | pong
  deriving DecidableEq, Repr

def Side.other : Side → Side
  | .ping => .pong
  | .pong => .ping

@[simp] theorem Side.other_other (s : Side) : s.other.other = s := by
  cases s <;> rfl

/-- `struct rsva11001_connection_t`. A descriptor of -1 and a NULL pointer are `none`. `parser` is
`none` before `http_parser_init` and from the moment `http_errno` is set. -/
@[ext] structure Connection (P : HttpParser) where
  sockfd : Option Nat
  username : CString
  password : CString
  hostname : CString
  channel : Nat
  outputBuffer : Option (Region UInt8 OUTPUT_BUFFER_SIZE)
  outputLength : Nat
  bytesWritten : Nat
  ping : Bool
  pingReceiveBuffer : Option ReceiveBuffer
  pingReceiveBufferSize : Nat
  pongReceiveBuffer : Option ReceiveBuffer
  pongReceiveBufferSize : Nat
  activeReceiveBuffer : Option Side
  activeReceiveBufferSize : Option Side
  activeReceiveBufferBytesReceived : Nat
  parser : Option P.State
  connected : Bool

namespace Connection

variable {P : HttpParser}

/-- `*activeReceiveBuffer` for a pointer to the given field. -/
def receiveBuffer (this : Connection P) : Side → Option ReceiveBuffer
  | .ping => this.pingReceiveBuffer
  | .pong => this.pongReceiveBuffer

/-- `*activeReceiveBufferSize` for a pointer to the given field. -/
def receiveBufferSize (this : Connection P) : Side → Nat
  | .ping => this.pingReceiveBufferSize
  | .pong => this.pongReceiveBufferSize

/-- Stores into the block behind the given field. -/
def setReceiveBuffer (this : Connection P) (side : Side) (b : ReceiveBuffer) : Connection P :=
  match side with
  | .ping => { this with pingReceiveBuffer := some b }
  | .pong => { this with pongReceiveBuffer := some b }

/-- Stores into the size field that goes with the given buffer. -/
def setReceiveBufferSize (this : Connection P) (side : Side) (n : Nat) : Connection P :=
  match side with
  | .ping => { this with pingReceiveBufferSize := n }
  | .pong => { this with pongReceiveBufferSize := n }

/-- The field whose buffer `ping` makes the active one. -/
def active (this : Connection P) : Side :=
  if this.ping then .ping else .pong

/-- `rsva11001_connection_swapBuffers` -/
def swapBuffers (this : Connection P) : Connection P :=
  if this.ping then
    { this with
      activeReceiveBuffer := some .pong
      activeReceiveBufferSize := some .pong
      ping := !this.ping }
  else
    { this with
      activeReceiveBuffer := some .ping
      activeReceiveBufferSize := some .ping
      ping := !this.ping }

/-- `rsva11001_connection_malloc`, when the allocation succeeds. The two fields it leaves
unset, `activeReceiveBufferSize` and `activeReceiveBufferBytesReceived`, and `bytesWritten` are
read only after `open` has set them. -/
def malloc (P : HttpParser) : Connection P where
  sockfd := none
  username := []
  password := []
  hostname := []
  channel := 0
  outputBuffer := none
  outputLength := 0
  bytesWritten := 0
  ping := true
  pingReceiveBuffer := none
  pingReceiveBufferSize := 0
  pongReceiveBuffer := none
  pongReceiveBufferSize := 0
  activeReceiveBuffer := none
  activeReceiveBufferSize := none
  activeReceiveBufferBytesReceived := 0
  parser := none
  connected := false

/-- `rsva11001_connection_configure` -/
def configure (this : Connection P) (hostname username password : CString) (channel : Nat) :
    Bool × Connection P :=
  if this.sockfd.isSome then (false, this)
  else if FIELD_SIZE ≤ hostname.length ∨ FIELD_SIZE ≤ username.length ∨
      FIELD_SIZE ≤ password.length then (false, this)
  else if channel > MAX_CHAN ∨ channel < MIN_CHAN then (false, this)
  else (true, { this with hostname, username, password, channel })

/-! ## Opening -/

/-- The result of the non-blocking `connect`. -/
inductive ConnectResult where
  | connected
  | inProgress
  | error
  deriving DecidableEq, Repr

/-- The results of the calls made by `open`. A successful `malloc` yields a block whose contents
are whatever was there. -/
structure OpenEnv where
  socket : Option Nat
  getaddrinfo : Bool
  connect : ConnectResult
  mallocOutput : Option (Region UInt8 OUTPUT_BUFFER_SIZE)
  mallocPong : Option ReceiveBuffer
  mallocPing : Option ReceiveBuffer

/-- What `open` returns: its value, the connection, and the descriptors it passed to `close`. -/
structure OpenResult (P : HttpParser) where
  ret : Bool
  conn : Connection P
  closed : List Nat

def HTTP_PATH : CString := ascii "/snapshot.html"

/-- The formatted request; `file` is the string substituted for `__FILE__`. -/
def request (this : Connection P) (file : CString) : CString :=
  ascii "GET " ++ HTTP_PATH ++ ascii "?" ++ this.username ++ ascii "&" ++ this.password ++
    ascii "&PTZCONTROL=CH" ++ decimal this.channel ++ ascii "\r\n" ++
    ascii "User-Agent: " ++ file ++ ascii "\r\n" ++
    ascii "Accept: */*\r\n" ++
    ascii "Host: " ++ this.hostname ++ ascii "\r\n" ++
    ascii "Connection: Close\r\n" ++
    ascii "\r\n"

/-- The value of `snprintf` for a text of the given length, an `int`. -/
def snprintfResult (length : Nat) : Int :=
  if length ≤ INT_MAX then length else -1

/-- What `snprintf` leaves in a buffer of `n` bytes: the text cut to `n - 1` bytes, and a NUL. -/
def snprintf {n : Nat} (buffer : Region UInt8 n) (text : CString) : Option (Region UInt8 n) :=
  buffer.write 0 (text.take (n - 1) ++ [0])

/-- `if(not this->pongReceiveBuffer) …; bzero(…)`, and the same for the ping buffer. A receive
buffer whose allocation fails is zeroed through a NULL pointer. -/
def zeroReceiveBuffer (this : Connection P) (side : Side) (malloc : Option ReceiveBuffer) :
    Except Halt (Connection P) :=
  match this.receiveBuffer side, malloc with
  | some _, _ => .ok (this.setReceiveBuffer side (Region.fill 0 BASE_BUFFER_SIZE))
  | none, some _ =>
    .ok ((this.setReceiveBufferSize side BASE_BUFFER_SIZE).setReceiveBuffer side
      (Region.fill 0 BASE_BUFFER_SIZE))
  | none, none => .error (.outOfRange .openZeroing)

/-- The part of `open` after the request has been stored: the receive buffers and the parser. -/
def resetReceiver (this : Connection P) (e : OpenEnv) : Except Halt (Connection P) := do
  let this ← this.zeroReceiveBuffer .pong e.mallocPong
  let this ← this.zeroReceiveBuffer .ping e.mallocPing
  return { this with
    ping := true
    activeReceiveBuffer := some .ping
    activeReceiveBufferSize := some .ping
    activeReceiveBufferBytesReceived := 0
    parser := some P.init }

end Connection

open Connection in
/-- `rsva11001_connection_open` -/
def Connection.open {P : HttpParser} (this : Connection P) (file : CString) (e : OpenEnv) :
    Except Halt (OpenResult P) :=
  if this.sockfd.isSome then .ok ⟨true, this, []⟩
  else
    match e.socket with
    | none => .ok ⟨false, this, []⟩
    | some fd =>
      let this := { this with sockfd := some fd }
      if !e.getaddrinfo then .ok ⟨false, { this with sockfd := none }, [fd]⟩
      else if e.connect = .error then .ok ⟨false, { this with sockfd := none }, [fd]⟩
      else
        let this := { this with connected := false }
        match this.outputBuffer.or e.mallocOutput with
        | none => .ok ⟨false, { this with sockfd := none }, [fd]⟩
        | some buffer =>
          let text := this.request file
          let this := { this with outputBuffer := snprintf buffer text }
          let requestSize := snprintfResult text.length
          -- the socket stays open on this exit
          if requestSize = OUTPUT_BUFFER_SIZE then .ok ⟨false, this, []⟩
          else do
            let this := { this with
              outputLength := (requestSize % 2 ^ 64).toNat
              bytesWritten := 0 }
            let this ← this.resetReceiver e
            return ⟨true, this, []⟩

namespace Connection

variable {P : HttpParser}

/-- `rsva11001_connection_close`, where `closeOk` is the outcome of `close`. -/
def close (this : Connection P) (closeOk : Bool) : Bool × Connection P :=
  if this.sockfd.isNone then (true, this)
  else if !closeOk then (false, this)
  else (true, { this with sockfd := none })

end Connection

end Rsva11001
