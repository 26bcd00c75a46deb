import Rsva11001.Adapter.Configuration
import Rsva11001.Adapter.Reactor

/-!
# The program from its start to its exit

`main` with the functions around the reactor: what they acquire, and what is given back when the
reactor has ended. `done` is a history variable with the descriptors and objects that were acquired
and given back, oldest first. The memory and the descriptors that the connections and the images
hold while the reactor runs are not in it; what is left of them shows in the globals.
-/

namespace Rsva11001

open Lib

/-- What `main` and its functions acquire and give back; a descriptor is `closed` when `close` is
called on it, whatever the call returns. -/
inductive Deed where
  | opened (fd : Nat)
  | closed (fd : Nat)
  | serverAllocated
  | serverInitialised
  | serverDestroyed
  | serverFreed
  | cameraFreed (camera : Slot)
  deriving DecidableEq, Repr

/-- The results of the calls made by `main` and its functions outside the reactor. `fdValid` says
whether the descriptor of the server is no error, and `closeCamera i` is the outcome of closing the
socket of the camera `i` at the end. -/
structure MainEnv where
  environment : Environment
  sigprocmask : Bool
  signalfd : Option Nat
  epollCreate : Option Nat
  epollCtlSignal : Bool
  malloc : Nat → Bool
  serverMalloc : Bool
  serverInit : Bool
  fdValid : Bool
  epollCtlServer : Bool
  closeCamera : Slot → Bool

/-- The program. A descriptor that has not been created is `none`. -/
structure Program (P : HttpParser) where
  globals : Globals P
  signalFd : Option Nat
  epollFd : Option Nat
  done : List Deed

namespace Program

variable {P : HttpParser}

def start (P : HttpParser) : Program P :=
  ⟨.zeroed P, none, none, []⟩

def did (p : Program P) (deeds : List Deed) : Program P :=
  { p with done := p.done ++ deeds }

/-- `setupSignalFd` -/
def setupSignalFd (p : Program P) (e : MainEnv) : Bool × Program P :=
  if !e.sigprocmask then (false, p)
  else
    match e.signalfd with
    | none => (false, p)
    | some fd => (true, { p with signalFd := some fd }.did [.opened fd])

/-- `setupEpollFd` -/
def setupEpollFd (p : Program P) (e : MainEnv) : Bool × Program P :=
  match e.epollCreate with
  | none => (false, p)
  | some fd => (e.epollCtlSignal, { p with epollFd := some fd }.did [.opened fd])

/-- `setupScgiServer` -/
def setupScgiServer (p : Program P) (e : MainEnv) : Bool × Program P :=
  if !e.serverMalloc then (false, p)
  else
    let p := p.did [.serverAllocated]
    if !e.serverInit then (false, p.did [.serverFreed])
    else
      let p := p.did [.serverInitialised]
      if !e.fdValid then (false, p.did [.serverDestroyed, .serverFreed])
      else if !e.epollCtlServer then (false, p.did [.serverDestroyed, .serverFreed])
      else (true, p)

/-- `closeScgiServer` -/
def closeScgiServer (p : Program P) : Program P :=
  p.did [.serverDestroyed, .serverFreed]

/-- `rsva11001_connection_destroy`: the socket is closed if there is one, and the buffers are
freed. -/
def destroy (camera : Connection P) : List Deed :=
  camera.sockfd.toList.map .closed

/-- The loop of `cleanupCameraConnections` from `i` on, for `n` more cameras. -/
def cleanupFrom (p : Program P) (e : MainEnv) (i : Nat) : Nat → Except Halt (Program P)
  | 0 => .ok p
  | n + 1 => do
    let s ← slot .conns i
    let camera ← access .conns (p.globals.conns s)
    let closed := camera.close (e.closeCamera s)
    let p := p.did (camera.sockfd.toList.map .closed ++ destroy closed.2 ++ [.cameraFreed s])
    let globals := { p.globals with conns := Function.update p.globals.conns s none }
    { p with globals }.cleanupFrom e (i + 1) n

/-- `cleanupCameraConnections` -/
def cleanupCameraConnections (p : Program P) (e : MainEnv) : Except Halt (Program P) :=
  p.cleanupFrom e 0 p.globals.numCameras

/-- `cleanUpFds` and what follows it. -/
def cleanUp (p : Program P) (e : MainEnv) : Except Halt (Program P) :=
  (p.did (p.signalFd.toList.map .closed ++ p.epollFd.toList.map .closed)).cleanupCameraConnections e

/-- How far `main` has come: it has returned, or the reactor has not yet ended. -/
inductive Progress (P : HttpParser) where
  | exited (status : Nat) (p : Program P)
  | running

/-- The part of `main` behind the set-up of the cameras. -/
def serve (p : Program P) (sg : Sandgrouse) (e : MainEnv) (es : List Env) :
    Except Halt (Progress P) :=
  match p.setupScgiServer e with
  | (false, p) => do
    let p ← p.cleanUp e
    return .exited 0 p
  | (true, p) => do
    let r ← run (Reactor.step sg) (Reactor.start p.globals) es
    if r.control ≠ .stopped then return .running
    let p ← { p with globals := r.globals }.closeScgiServer.cleanUp e
    return .exited 0 p

/-- `main`, when the steps of the reactor are the ones with the results `es`. -/
def main (P : HttpParser) (sg : Sandgrouse) (e : MainEnv) (es : List Env) :
    Except Halt (Progress P) := do
  let p := start P
  let (configured, globals) ← p.globals.readConfiguration e.environment
  let p := { p with globals }
  if !configured then return .exited 1 p
  let (ok, p) := p.setupSignalFd e
  if !ok then return .exited 1 p
  let (ok, p) := p.setupEpollFd e
  if !ok then return .exited 1 p
  let (connected, globals) ← p.globals.setupCameraConnections e.malloc
  let p := { p with globals }
  if !connected then return .exited 1 p
  p.serve sg e es

end Program

end Rsva11001
