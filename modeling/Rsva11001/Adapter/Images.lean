import Rsva11001.Adapter.Requests

/-!
# From the active camera to the image file

`processActiveCamera` drives the active connection and retrieves its image; `writeImageFile`
publishes an image as a file, keeps the file mapped as the last image of a camera, and answers the
requests that have been waiting for it.
-/

namespace Rsva11001

open Lib

/-- The result of `unlink`; that the file does not exist is not an error. -/
inductive UnlinkResult where
  | ok
  | noEntry
  | error
  deriving DecidableEq, Repr

/-- The results of the calls made by `writeImageFile`; `responses k` is the outcome of the response
to the `k`-th waiting request. -/
structure WriteEnv where
  unlink : UnlinkResult
  «open» : Option Nat
  ftruncate : Bool
  mmap : Option Nat
  close : Bool
  munmap : Bool
  responses : Nat → Bool
  server : ServerEnv

/-- The results of the calls made while a camera event is handled: by `processActiveCamera`, and
`closeAfter` by the reactor. -/
structure CameraEnv where
  process : ProcessEnv
  close : Bool
  write : WriteEnv
  closeAfter : Bool

/-- The size of the image buffer of `processActiveCamera`. -/
def IMAGE_BUFFER_SIZE : Nat := 30000

namespace Globals

variable {P : HttpParser}

/-- The loop that fills the waiting requests of `i`, from the `k`-th on, for `n` more of them. The
outcome of a response is logged by the source and has no other effect. -/
def fillPending (g : Globals P) (i : Slot) (responses : Nat → Bool) (k : Nat) :
    Nat → Except Halt (Globals P)
  | 0 => .ok g
  | n + 1 => do
    let queue := g.pendingRequests i
    let cell ← access .pendingConnections (queue.connections.read k 1)
    let conn ← asserted .writeImageFilePending (cell.head?.bind id)
    let image := g.lastImage i
    let data ← access .lastImage image.data
    let g := (g.sendJpeg conn data.bytes image.size (responses k)).2
    let connections ← access .pendingConnections (queue.connections.write k [none])
    (g.setQueue i { queue with connections }).fillPending i responses (k + 1) n

def setLastImage (g : Globals P) (i : Slot) (image : LastImage) : Globals P :=
  { g with lastImage := Function.update g.lastImage i image }

/-- The part of `writeImageFile` that replaces the last image and answers the waiting requests. -/
def storeImage (g : Globals P) (i : Slot) (buffer : List UInt8) (addr : Nat) (e : WriteEnv) :
    Except Halt (Bool × Globals P) := do
  let g := (g.setLastImage i ⟨some ⟨addr, buffer⟩, buffer.length⟩).say [.stored i buffer]
  let g ← g.fillPending i e.responses 0 (g.pendingRequests i).numPending
  let g := g.setQueue i { g.pendingRequests i with numPending := 0 }
  return (e.server.ok, g.serverProcess e.server)

/-- `writeImageFile`, on an image of `buffer.length` bytes. -/
def writeImageFile (g : Globals P) (buffer : List UInt8) (e : WriteEnv) :
    Except Halt (Bool × Globals P) :=
  let g := g.say [.writeImage buffer]
  if e.unlink = .error then .ok (false, g)
  else
    match e.open with
    | none => .ok (false, g)
    | some fd =>
      let g := g.say [.fileOpened fd]
      if !e.ftruncate then .ok (false, g)
      else
        match e.mmap with
        | none => .ok (false, g)
        | some addr =>
          let g := g.say [.mapped addr buffer.length]
          if !e.close then .ok (false, g)
          else do
            let g := g.say [.fileClosed fd]
            let i ← slot .lastImage g.cameraIterator
            match (g.lastImage i).data with
            | none => g.storeImage i buffer addr e
            | some old =>
              if !e.munmap then return (false, g)
              else (g.say [.unmapped old.addr (g.lastImage i).size]).storeImage i buffer addr e

/-- What `processActiveCamera` comes to before it would write an image: it returns, or it calls
`writeImageFile` on the image. -/
inductive Retrieval where
  | done (code : Int)
  | write (buffer : List UInt8)
  deriving DecidableEq, Repr

/-- The part of `processActiveCamera` before the call of `writeImageFile`. -/
def retrieveImage (g : Globals P) (e : CameraEnv) : Except Halt (Retrieval × Globals P) := do
  let i ← asserted .processActiveCameraActive g.activeCamera
  let conn ← access .conns (g.conns i)
  let r ← conn.process e.process
  let g := (g.setConn i r.conn).say (r.accepted.map (.accepted i))
  if !r.ret then return (.done (-1), g)
  else do
    let image ← r.conn.getLatestImage IMAGE_BUFFER_SIZE
    if !image.ret then return (.done (-1), g)
    else if image.size = 0 then return (.done 0, g)
    else
      let closed := r.conn.close e.close
      let g := g.setConn i closed.2
      if !closed.1 then return (.done (-2), g.say [.unclosed i])
      else return (.write (image.out.take image.size), g)

/-- `globals.activeCamera = NULL` -/
def clearActive (g : Globals P) : Globals P :=
  { g with activeCamera := none }.say (g.activeCamera.toList.map .cleared)

/-- `processActiveCamera` -/
def processActiveCamera (g : Globals P) (e : CameraEnv) : Except Halt (Int × Globals P) := do
  match ← g.retrieveImage e with
  | (.done code, g) => return (code, g)
  | (.write buffer, g) => do
    let (written, g) ← g.writeImageFile buffer e.write
    if !written then return (-1, g)
    else return (0, g.clearActive)

end Globals

end Rsva11001
