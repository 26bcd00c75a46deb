import Rsva11001.Connection.Basic

/-!
# The receive callback and the image retrieval

`rsva11001_connection_recv` assembles a message in the active buffer and swaps the buffers when
the message is complete; `rsva11001_connection_getLatestImage` reads the inactive buffer.
-/

namespace Rsva11001

open Lib

def HEADER_SIZE : Nat := 8
def HEADER : List UInt8 := ascii "JPGS"
def FOOTER_SIZE : Nat := 4
def FOOTER : List UInt8 := ascii "JPGE"

/-- `HEADER_SIZE + jpegLength + FOOTER_SIZE`, a sum of 32-bit numbers. -/
def totalLength (jpegLength : Nat) : Nat :=
  (HEADER_SIZE + jpegLength + FOOTER_SIZE) % 2 ^ 32

namespace Connection

variable {P : HttpParser}

/-- The first block of `recv`: the new data go behind the bytes already in the active buffer, as
far as they fit. -/
def recvStore (this : Connection P) (side : Side) (buffer : ReceiveBuffer) (data : List UInt8)
    (spaceRemaining : Nat) : Except Halt (ReceiveBuffer × Connection P) := do
  let amountToCopy := min data.length spaceRemaining
  let buffer ← access .recvCopy
    (buffer.write this.activeReceiveBufferBytesReceived (data.take amountToCopy))
  return (buffer, { this.setReceiveBuffer side buffer with
    activeReceiveBufferBytesReceived := this.activeReceiveBufferBytesReceived + amountToCopy })

/-- The last block of `recv`, for a message of `total` bytes that is complete: the buffers are
swapped and the bytes of `data` behind the message go to the new active buffer. -/
def recvSwap (this : Connection P) (oldSize total : Nat) (data : List UInt8) :
    Except Halt (Connection P) := do
  let bytesReceivedThisCall := subFast total oldSize
  let overflow := subFast data.length bytesReceivedThisCall
  let this := this.swapBuffers
  let side ← access .recvOverflow this.activeReceiveBuffer
  let buffer ← access .recvOverflow (this.receiveBuffer side)
  -- the source range starts at `data + bytesReceivedThisCall` and has `overflow` bytes
  let src ← access .recvOverflow
    (if bytesReceivedThisCall + overflow ≤ data.length then
      some ((data.drop bytesReceivedThisCall).take overflow) else none)
  let buffer ← access .recvOverflow (buffer.write 0 src)
  return { this.setReceiveBuffer side buffer with activeReceiveBufferBytesReceived := overflow }

/-- The part of `recv` after the new data have been stored: it looks for a whole message. -/
def recvInspect (this : Connection P) (buffer : ReceiveBuffer) (oldSize : Nat)
    (data : List UInt8) : Except Halt (Nat × Connection P) :=
  if this.activeReceiveBufferBytesReceived < HEADER_SIZE then .ok (0, this)
  else do
    let magic ← access .recvHeader (buffer.read 0 4)
    if magic ≠ HEADER then return (1, this)
    else do
      let lengthField ← access .recvHeader (buffer.read 4 4)
      let jpegLength := ntohl lengthField
      let total := totalLength jpegLength
      if total ≤ this.activeReceiveBufferBytesReceived then do
        -- the pointer is the buffer plus `HEADER_SIZE` plus `jpegLength`, without reduction
        let footer ← access .recvFooter (buffer.read (HEADER_SIZE + jpegLength) FOOTER_SIZE)
        if footer ≠ FOOTER then return (1, this)
        else do
          let this ← this.recvSwap oldSize total data
          return (0, this)
      else return (0, this)

/-- `rsva11001_connection_recv` -/
def recv (this : Connection P) (data : List UInt8) : Except Halt (Nat × Connection P) := do
  let side ← asserted .recvActiveReceiveBuffer this.activeReceiveBuffer
  let buffer ← asserted .recvActiveReceiveBufferAllocated (this.receiveBuffer side)
  let sizeSide ← asserted .recvActiveReceiveBufferSize this.activeReceiveBufferSize
  let spaceRemaining :=
    subFast (this.receiveBufferSize sizeSide) this.activeReceiveBufferBytesReceived
  if spaceRemaining = 0 then .error (.assertFailed .recvSpaceRemaining)
  else do
    let (buffer, stored) ← this.recvStore side buffer data spaceRemaining
    stored.recvInspect buffer this.activeReceiveBufferBytesReceived data

/-- What `getLatestImage` returns: its value, `*size`, and the bytes written to `out`. -/
structure LatestImage where
  ret : Bool
  size : Nat
  out : List UInt8
  deriving DecidableEq, Repr

/-- `rsva11001_connection_getLatestImage`, called with `*size = size`. -/
def getLatestImage (this : Connection P) (size : Nat) : Except Halt LatestImage := do
  let buffer ← access .getLatestImageHeader (this.receiveBuffer this.active.other)
  let magic ← access .getLatestImageHeader (buffer.read 0 4)
  if magic ≠ HEADER then return ⟨true, 0, []⟩
  else do
    let lengthField ← access .getLatestImageHeader (buffer.read 4 4)
    let jpegLength := ntohl lengthField
    let footer ← access .getLatestImageFooter (buffer.read (HEADER_SIZE + jpegLength) FOOTER_SIZE)
    if footer ≠ FOOTER then return ⟨true, 0, []⟩
    else if size < jpegLength then return ⟨false, 0, []⟩
    else do
      let out ← access .getLatestImageFooter (buffer.read HEADER_SIZE jpegLength)
      return ⟨true, jpegLength, out⟩

end Connection

end Rsva11001
