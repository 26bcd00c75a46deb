import Rsva11001.Lib.Run
import Rsva11001.Adapter.Images

/-!
# The reactor

The nested loops of `reactor` as a machine. `Control` says where the loops stand; one step runs to
the next point at which the program waits, looks at its next event, or takes its next request. The
results of the system calls made on the way are the input of the step.
-/

namespace Rsva11001

open Lib

def MAX_EVENTS : Nat := 4
def EPOLLERR : UInt32 := 0x008
def EPOLLHUP : UInt32 := 0x010

/-- `struct epoll_event` -/
structure EpollEvent where
  id : Nat
  events : UInt32
  deriving DecidableEq, Repr

/-- What one call of `epoll_wait` reports. -/
structure Batch where
  events : List EpollEvent
  length_le : events.length ≤ MAX_EVENTS

inductive WaitResult where
  | interrupted
  | error
  | events (batch : Batch)

/-- Where the loops stand: before a test of `not shutdown`, before a call of `epoll_wait`, within
the events of a batch (`full` when it has `MAX_EVENTS` of them), within the loop over the new
requests with the events that are still to come, behind that loop, or at the end. -/
inductive Control where
  | outer
  | wait
  | dispatch (full : Bool) (rest : List EpollEvent)
  | serve (full : Bool) (rest : List EpollEvent)
  | served (full : Bool) (rest : List EpollEvent)
  | stopped
  deriving DecidableEq, Repr

/-- What is supplied to one step. -/
structure Env where
  next : Globals.OpenNextEnv
  wait : WaitResult
  camera : CameraEnv
  server : ServerEnv
  request : Globals.RequestEnv

structure Reactor (P : HttpParser) where
  globals : Globals P
  control : Control
  shutdown : Bool

namespace Reactor

variable {P : HttpParser}

def start (g : Globals P) : Reactor P :=
  ⟨g, .outer, false⟩

/-- The active camera is closed and dropped; when it cannot be closed, the reactor shuts down. -/
def dropCamera (r : Reactor P) (closeOk : Bool) : Except Halt (Reactor P) := do
  let i ← access .closeActiveCamera r.globals.activeCamera
  let conn ← access .closeActiveCamera (r.globals.conns i)
  let closed := conn.close closeOk
  let g := r.globals.setConn i closed.2
  if !closed.1 then return { r with globals := g.say [.unclosed i], shutdown := true }
  else return { r with globals := g.clearActive }

/-- `case CAMERA_ID` -/
def cameraEvent (r : Reactor P) (ev : EpollEvent) (e : CameraEnv) : Except Halt (Reactor P) :=
  if ev.events &&& EPOLLERR ≠ 0 ∨ ev.events &&& EPOLLHUP ≠ 0 then r.dropCamera e.closeAfter
  else do
    let (code, g) ← r.globals.processActiveCamera e
    let r := { r with globals := g }
    if code = 0 then return r
    else if code = -1 then r.dropCamera e.closeAfter
    else return { r with shutdown := true }

/-- One call of `sg_server_process` by the reactor, which shuts down when it fails. -/
def serverEvent (r : Reactor P) (e : ServerEnv) : Reactor P :=
  { r with globals := r.globals.serverProcess e, shutdown := r.shutdown || !e.ok }

/-- One pass through the `switch` on the id of an event. -/
def dispatchEvent (r : Reactor P) (ev : EpollEvent) (full : Bool) (rest : List EpollEvent)
    (e : Env) : Except Halt (Reactor P) :=
  if ev.id = CAMERA_ID then do
    let r ← r.cameraEvent ev e.camera
    return { r with control := .dispatch full rest }
  else if ev.id = SIGFD_ID then .ok { r with control := .dispatch full rest, shutdown := true }
  else if ev.id = SCGI_ID then
    .ok { r.serverEvent e.server with
      control := if e.server.ok then .serve full rest else .dispatch full rest }
  else .ok { r with control := .dispatch full rest, shutdown := true }

/-- One call of `handleNewRequest`. The loop is left when it fails. -/
def serveRequest (r : Reactor P) (sg : Sandgrouse) (conn : SgConnection)
    (ready : List SgConnection) (full : Bool) (rest : List EpollEvent) (e : Globals.RequestEnv) :
    Except Halt (Reactor P) := do
  let (handled, g) ← { r.globals with ready }.handleNewRequest sg conn e
  let r := { r with globals := g }
  if !handled then return { r with control := .served full rest, shutdown := true }
  else return { r with control := .serve full rest }

/-- One step of `reactor`. -/
def step (sg : Sandgrouse) (r : Reactor P) (e : Env) : Except Halt (Reactor P) :=
  match r.control with
  | .outer =>
    if r.shutdown then .ok { r with control := .stopped }
    else if r.globals.activeCamera.isSome then .ok { r with control := .wait }
    else do
      let (opened, g) ← r.globals.openNextCameraConnection e.next
      let r := { r with globals := g }
      if !opened then return { r with shutdown := true }
      else return { r with control := .wait }
  | .wait =>
    match e.wait with
    | .interrupted => .ok { r with control := .outer }
    | .error => .ok { r with control := .stopped }
    | .events batch =>
      .ok { r with control := .dispatch (batch.events.length = MAX_EVENTS) batch.events }
  | .dispatch full [] =>
    .ok { r with control := if full ∧ r.globals.activeCamera.isSome then .wait else .outer }
  | .dispatch full (ev :: rest) => r.dispatchEvent ev full rest e
  | .serve full rest =>
    match r.globals.ready with
    | [] => .ok { r.serverEvent e.server with control := .dispatch full rest }
    | conn :: ready => r.serveRequest sg conn ready full rest e.request
  | .served full rest => .ok { r.serverEvent e.server with control := .dispatch full rest }
  | .stopped => .ok r

/-- The reactor in the state in which `main` enters it, with `n` cameras set up. -/
def Initial (n : Nat) (r : Reactor P) : Prop :=
  ∃ host username password malloc g, 1 ≤ n ∧
    (Globals.configured P host username password n).setupCameraConnections malloc =
      .ok (true, g) ∧ r = start g

end Reactor

end Rsva11001
