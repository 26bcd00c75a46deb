import Mathlib.Data.Fintype.Basic
import Mathlib.Logic.Function.Basic
import Rsva11001.Connection.Process

/-!
# The adapter: data model, camera setup and camera switching

The `globals` of `main.c`, and its functions that set up and open the camera connections. `log` is
a history variable: what the program has been seen to do, oldest entry first. No function reads it.

The sandgrouse library and the kernel are outside: what their functions return is an argument. The
server's queue of requests that are ready to be handed over is part of the state, and each call of
`sg_server_process` appends to it.
-/

namespace Rsva11001

open Lib

def MAX_NUM_CAMERAS : Nat := 8
def MAX_PENDING_REQUESTS : Nat := 64
def SCGI_ID : Nat := 2
def SIGFD_ID : Nat := 1
def CAMERA_ID : Nat := 0

/-- An index into the arrays that have one entry for each camera. -/
abbrev Slot := Fin MAX_NUM_CAMERAS

/-- `sg_connection`: a request with the headers the adapter looks up. -/
structure SgConnection where
  id : Nat
  method : Option CString
  pathInfo : Option CString
  queryString : Option CString
  httpHost : Option CString
  deriving DecidableEq, Repr

/-- What is sent to a client. -/
inductive Response where
  | notFound
  | jpeg (headers : List (CString × CString)) (data : List UInt8) (size : Nat)
  deriving DecidableEq, Repr

/-- The history of a run. `opened`, `unclosed` and `cleared` name the slot of the connection that
`open` was called on, whose socket could not be closed, or that was dropped; `accepted` the slot of
the active camera; `stored` and `queued` the slot that was indexed; `routed` the source a request
was found to be for. `writeImage` is a call of `writeImageFile`. -/
inductive Event where
  | opened (camera : Slot)
  | accepted (camera : Slot) (payload : List UInt8)
  | unclosed (camera : Slot)
  | cleared (camera : Slot)
  | writeImage (payload : List UInt8)
  | fileOpened (fd : Nat)
  | fileClosed (fd : Nat)
  | mapped (addr size : Nat)
  | unmapped (addr size : Nat)
  | stored (slot : Slot) (payload : List UInt8)
  | handed (request : Nat)
  | routed (slot : Slot) (request : Nat)
  | queued (slot : Slot) (request index : Nat)
  | response (request : Nat) (r : Response)
  deriving DecidableEq, Repr

/-- `lastImage[i].data`, when it is not NULL: a mapping and the bytes in it. -/
structure Mapping where
  addr : Nat
  bytes : List UInt8
  deriving DecidableEq, Repr

structure LastImage where
  data : Option Mapping
  size : Nat
  deriving DecidableEq, Repr

structure PendingRequests where
  connections : Region (Option SgConnection) MAX_PENDING_REQUESTS
  numPending : Nat

/-- `globals`. `activeCamera` points at the connection in a slot. -/
structure Globals (P : HttpParser) where
  conns : Slot → Option (Connection P)
  activeCamera : Option Slot
  cameraIterator : Nat
  numCameras : Nat
  lastImage : Slot → LastImage
  pendingRequests : Slot → PendingRequests
  username : CString
  password : CString
  host : CString
  ready : List SgConnection
  log : List Event

/-- The outcome of `sg_server_process`, and the requests it makes ready. -/
structure ServerEnv where
  ok : Bool
  ready : List SgConnection

/-- An index into an array of one entry for each camera. -/
def slot (site : AccessSite) (i : Nat) : Except Halt Slot :=
  access site (if h : i < MAX_NUM_CAMERAS then some ⟨i, h⟩ else none)

theorem slot_eq_ok {site : AccessSite} {i : Nat} {s : Slot} : slot site i = .ok s ↔ s.val = i := by
  unfold slot
  rw [access_eq_ok]
  split
  · rw [Option.some.injEq, Fin.ext_iff, eq_comm]
  · rename_i h
    have := s.isLt
    constructor
    · rintro ⟨⟩
    · omega

namespace Globals

variable {P : HttpParser}

/-- `bzero` of the globals, with the values that `readConfiguration` stores in them. -/
def configured (P : HttpParser) (host username password : CString) (numCameras : Nat) :
    Globals P where
  conns := fun _ => none
  activeCamera := none
  cameraIterator := 0
  numCameras := numCameras
  lastImage := fun _ => ⟨none, 0⟩
  pendingRequests := fun _ => ⟨Region.fill none MAX_PENDING_REQUESTS, 0⟩
  username := username
  password := password
  host := host
  ready := []
  log := []

def say (g : Globals P) (events : List Event) : Globals P :=
  { g with log := g.log ++ events }

def setConn (g : Globals P) (i : Slot) (c : Connection P) : Globals P :=
  { g with conns := Function.update g.conns i (some c) }

def setQueue (g : Globals P) (i : Slot) (queue : PendingRequests) : Globals P :=
  { g with pendingRequests := Function.update g.pendingRequests i queue }

/-- `sg_server_process` -/
def serverProcess (g : Globals P) (e : ServerEnv) : Globals P :=
  { g with ready := g.ready ++ e.ready }

/-- The loop of `setupCameraConnections` from `i` on, for `n` more cameras; `malloc i` is the
outcome of the allocation for camera `i`. -/
def setupFrom (g : Globals P) (malloc : Nat → Bool) (i : Nat) : Nat → Except Halt (Bool × Globals P)
  | 0 => .ok (true, g)
  | n + 1 =>
    if !malloc i then .ok (false, g)
    else
      match (Connection.malloc P).configure g.host g.username g.password (i + 1) with
      | (false, _) => .ok (false, g)
      | (true, conn) => do
        let s ← slot .conns i
        (g.setConn s conn).setupFrom malloc (i + 1) n

/-- `setupCameraConnections` -/
def setupCameraConnections (g : Globals P) (malloc : Nat → Bool) :
    Except Halt (Bool × Globals P) :=
  { g with conns := fun _ => none, cameraIterator := 0 }.setupFrom malloc 0 g.numCameras

/-- The results of the calls made by `openNextCameraConnection`; `file` is the string substituted
for `__FILE__`. -/
structure OpenNextEnv where
  file : CString
  «open» : Connection.OpenEnv
  epollCtl : Bool

/-- `openNextCameraConnection` -/
def openNextCameraConnection (g : Globals P) (e : OpenNextEnv) :
    Except Halt (Bool × Globals P) := do
  let i ← slot .conns g.cameraIterator
  let next := (g.cameraIterator + 1) % 2 ^ 32
  let g := { g with
    activeCamera := (g.conns i).map fun _ => i
    cameraIterator := if next ≥ g.numCameras then 0 else next }
  let conn ← asserted .openNextCameraActive (g.conns i)
  let r ← conn.open e.file e.open
  let g := (g.setConn i r.conn).say [.opened i]
  return (r.ret && e.epollCtl, g)

end Globals

end Rsva11001
