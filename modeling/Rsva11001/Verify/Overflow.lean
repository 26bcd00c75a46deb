import Rsva11001.Verify.Clients

/-!
# Where a queue can overflow

Two of the places where the program can halt are reached or not for reasons that lie in the state of
the adapter: the store behind the queue of a camera, and the assertion that there is a next camera.
For every other function a lemma says that it does not halt at either (`Guarded`). The assertion
never fails (`step_avoids`), and a store leaves its queue exactly when a request has to wait for a
camera for which 64 have been queued since its last image (`step_overflows_iff`).
-/

namespace Rsva11001

open Lib

/-- The halts that are not ruled out by where the code could come to them, but by the state of the
adapter. -/
def Guarded (x : Halt) : Prop :=
  x = .outOfRange .pendingConnections ∨ x = .assertFailed .openNextCameraActive

section Rules

variable {α : Type} {x : Halt} (hx : Guarded x)

include hx

theorem guarded_access {site : AccessSite} (h : site ≠ .pendingConnections) (o : Option α) :
    Avoids x (access site o) := by
  refine access_avoids ?_ o
  rcases hx with rfl | rfl
  · simpa using h.symm
  · rintro ⟨⟩

theorem guarded_assertFailed {site : AssertSite} (h : site ≠ .openNextCameraActive) :
    Avoids x (.error (.assertFailed site) : Except Halt α) := by
  refine avoids_error ?_
  rcases hx with rfl | rfl
  · rintro ⟨⟩
  · simpa using h

theorem guarded_asserted {site : AssertSite} (h : site ≠ .openNextCameraActive) (o : Option α) :
    Avoids x (asserted site o) := by
  cases o with
  | none => exact guarded_assertFailed hx h
  | some a => exact avoids_ok a

theorem guarded_unfinished : Avoids x (.error .unfinished : Except Halt α) := by
  refine avoids_error ?_
  rcases hx with rfl | rfl <;> rintro ⟨⟩

end Rules

namespace Connection

variable {P : HttpParser} {x : Halt}

/-! ## Receiving -/

/-- Where the read loop can halt. -/
def receiveHalts : List Halt :=
  [.assertFailed .recvActiveReceiveBuffer, .assertFailed .recvActiveReceiveBufferAllocated,
    .assertFailed .recvActiveReceiveBufferSize, .assertFailed .recvSpaceRemaining,
    .outOfRange .recvCopy, .outOfRange .recvHeader, .outOfRange .recvFooter,
    .outOfRange .recvOverflow, .unfinished]

section Receiving

variable (hx : x ∉ receiveHalts)

include hx

theorem receive_error {α : Type} {y : Halt} (h : y ∈ receiveHalts) :
    Avoids x (.error y : Except Halt α) :=
  avoids_error fun heq => hx (heq ▸ h)

theorem receive_access {α : Type} {site : AccessSite} (h : .outOfRange site ∈ receiveHalts)
    (o : Option α) : Avoids x (access site o) := by
  cases o with
  | none => exact receive_error hx h
  | some a => exact avoids_ok a

theorem receive_asserted {α : Type} {site : AssertSite} (h : .assertFailed site ∈ receiveHalts)
    (o : Option α) : Avoids x (asserted site o) := by
  cases o with
  | none => exact receive_error hx h
  | some a => exact avoids_ok a

theorem recv_avoids (c : Connection P) (data : List UInt8) : Avoids x (c.recv data) := by
  unfold recv
  refine (receive_asserted hx (by decide) _).bind fun side _ => ?_
  refine (receive_asserted hx (by decide) _).bind fun buffer _ => ?_
  refine (receive_asserted hx (by decide) _).bind fun sizeSide _ => ?_
  simp only
  split
  · exact receive_error hx (by decide)
  refine Avoids.bind ?_ fun stored _ => ?_
  · unfold recvStore
    refine (receive_access hx (by decide) _).bind fun b _ => avoids_ok _
  · unfold recvInspect
    split
    · exact avoids_ok _
    refine (receive_access hx (by decide) _).bind fun magic _ => ?_
    split
    · exact avoids_ok _
    refine (receive_access hx (by decide) _).bind fun field _ => ?_
    simp only
    split
    · refine (receive_access hx (by decide) _).bind fun footer _ => ?_
      split
      · exact avoids_ok _
      refine Avoids.bind ?_ fun swapped _ => avoids_ok _
      unfold recvSwap
      refine (receive_access hx (by decide) _).bind fun _ _ => ?_
      refine (receive_access hx (by decide) _).bind fun _ _ => ?_
      refine (receive_access hx (by decide) _).bind fun _ _ => ?_
      exact (receive_access hx (by decide) _).bind fun _ _ => avoids_ok _
    · exact avoids_ok _

theorem callbacks_avoids {ds : List (List UInt8)} :
    ∀ c : Connection P, Avoids x (c.callbacks ds) := by
  induction ds with
  | nil => exact fun c => avoids_ok _
  | cons d ds ih =>
    intro c
    rw [callbacks]
    refine (recv_avoids hx c d).bind fun next _ => ?_
    simp only
    split
    · exact avoids_ok _
    · exact (ih _).bind fun _ _ => avoids_ok _

theorem execute_avoids (c : Connection P) (block : List UInt8) :
    Avoids x (c.execute block) := by
  unfold execute
  split
  · exact avoids_ok _
  · exact (callbacks_avoids hx c).bind fun _ _ => avoids_ok _

theorem readLoop_avoids {recvs : List RecvResult} :
    ∀ c : Connection P, Avoids x (c.readLoop recvs) := by
  induction recvs with
  | nil => exact fun c => receive_error hx (by decide)
  | cons result rest ih =>
    intro c
    cases result with
    | data block =>
      rw [readLoop]
      refine (execute_avoids hx c block.bytes).bind fun next _ => ?_
      exact (ih _).bind fun _ _ => avoids_ok _
    | wouldBlock | shutdown | error => exact avoids_ok _

end Receiving

theorem guarded_receive (hx : Guarded x) : x ∉ receiveHalts := by
  rcases hx with rfl | rfl <;> decide

variable (hx : Guarded x)

include hx

theorem getLatestImage_avoids (c : Connection P) (size : Nat) :
    Avoids x (c.getLatestImage size) := by
  unfold getLatestImage
  refine (guarded_access hx (by decide) _).bind fun buffer _ => ?_
  refine (guarded_access hx (by decide) _).bind fun magic _ => ?_
  split
  · exact avoids_ok _
  refine (guarded_access hx (by decide) _).bind fun field _ => ?_
  refine (guarded_access hx (by decide) _).bind fun footer _ => ?_
  split
  · exact avoids_ok _
  split
  · exact avoids_ok _
  · exact (guarded_access hx (by decide) _).bind fun _ _ => avoids_ok _

theorem writeLoop_avoids {sends : List SendResult} :
    ∀ c : Connection P, Avoids x (c.writeLoop sends) := by
  induction sends with
  | nil =>
    intro c
    unfold writeLoop
    split
    · exact avoids_ok _
    · exact guarded_unfinished hx
  | cons result rest ih =>
    intro c
    unfold writeLoop
    split
    · exact avoids_ok _
    simp only
    split
    · exact guarded_assertFailed hx (by decide)
    refine (guarded_access hx (by decide) _).bind fun buffer _ => ?_
    refine (guarded_access hx (by decide) _).bind fun src _ => ?_
    cases result with
    | error | wouldBlock => exact avoids_ok _
    | sent n =>
      simp only
      split
      · exact avoids_ok _
      · exact (ih _).bind fun _ _ => avoids_ok _

theorem process_avoids (c : Connection P) (e : ProcessEnv) : Avoids x (c.process e) := by
  unfold process
  split
  · exact guarded_assertFailed hx (by decide)
  split
  · exact avoids_ok _
  · refine (writeLoop_avoids hx _).bind fun written _ => ?_
    simp only
    split
    · exact avoids_ok _
    · exact (readLoop_avoids (guarded_receive hx) _).bind fun _ _ => avoids_ok _

theorem open_avoids (c : Connection P) (file : CString) (e : OpenEnv) :
    Avoids x (c.open file e) := by
  have hzero : ∀ (c : Connection P) (s : Side) (m : Option ReceiveBuffer),
      Avoids x (c.zeroReceiveBuffer s m) := by
    intro c s m
    unfold zeroReceiveBuffer
    split
    · exact avoids_ok _
    · exact avoids_ok _
    · exact guarded_access hx (by decide) none
  unfold Connection.open
  split
  · exact avoids_ok _
  split
  · exact avoids_ok _
  simp only
  split
  · exact avoids_ok _
  split
  · exact avoids_ok _
  split
  · exact avoids_ok _
  split
  · exact avoids_ok _
  refine Avoids.bind ?_ fun _ _ => avoids_ok _
  unfold resetReceiver
  refine (hzero _ _ _).bind fun _ _ => ?_
  exact (hzero _ _ _).bind fun _ _ => avoids_ok _

end Connection

namespace Globals

variable {P : HttpParser}

section Guarded

variable {x : Halt} (hx : Guarded x)

include hx

/-- The next camera is opened without a failed assertion when there is one. -/
theorem openNext_avoids {g : Globals P} (e : OpenNextEnv)
    (hnext : ∀ i : Slot, i.val = g.cameraIterator → (g.conns i).isSome) :
    Avoids x (g.openNextCameraConnection e) := by
  unfold openNextCameraConnection
  refine (guarded_access hx (by decide) _).bind fun i hi => ?_
  obtain ⟨c, hc⟩ := Option.isSome_iff_exists.1 (hnext i (slot_eq_ok.1 hi))
  simp only [hc, asserted_some, ok_bind]
  exact (Connection.open_avoids hx _ _ _).bind fun _ _ => avoids_ok _

theorem retrieveImage_avoids (g : Globals P) (e : CameraEnv) : Avoids x (g.retrieveImage e) := by
  unfold retrieveImage
  refine (guarded_asserted hx (by decide) _).bind fun i _ => ?_
  refine (guarded_access hx (by decide) _).bind fun c _ => ?_
  refine (Connection.process_avoids hx c e.process).bind fun r _ => ?_
  simp only
  split
  · exact avoids_ok _
  refine (Connection.getLatestImage_avoids hx _ _).bind fun image _ => ?_
  split
  · exact avoids_ok _
  split
  · exact avoids_ok _
  split
  · exact avoids_ok _
  · exact avoids_ok _

theorem writeImageFile_avoids {g : Globals P} {b : Board} {image : List UInt8} (e : WriteEnv)
    (h : Represents g b) (hsize : image.length ≤ IMAGE_BUFFER_SIZE) :
    Avoids x (g.writeImageFile image e) := by
  have hstore : ∀ (new : List Event) (i : Slot) (addr : Nat),
      Avoids x ((g.say new).storeImage i image addr e) := by
    intro new i addr
    have hrep : Represents (g.say new) b := h.same rfl rfl
    obtain ⟨g₁, hg₁, -⟩ := storeImage_board hrep i hsize addr e
    rw [hg₁]
    exact avoids_ok _
  unfold writeImageFile
  split
  · exact avoids_ok _
  split
  · exact avoids_ok _
  simp only [say_say]
  split
  · exact avoids_ok _
  split
  · exact avoids_ok _
  split
  · exact avoids_ok _
  refine (guarded_access hx (by decide) _).bind fun i _ => ?_
  split
  · exact hstore _ i _
  split
  · exact avoids_ok _
  · exact hstore _ i _

theorem route_avoids (sg : Sandgrouse) (n : Nat) (conn : SgConnection) (stack : QueryBuffer) :
    Avoids x (route sg n conn stack) := by
  unfold route
  split
  · exact avoids_ok _
  split
  · exact avoids_ok _
  split
  · exact avoids_ok _
  split
  · exact avoids_ok _
  refine Avoids.bind ?_ fun source _ => ?_
  · unfold parseSource
    split
    · exact avoids_ok _
    refine (guarded_access hx (by decide) _).bind fun r _ => ?_
    split
    · exact avoids_ok _
    split
    · exact avoids_ok _
    split
    · exact avoids_ok _
    split
    · exact avoids_ok _
    · exact avoids_ok _
  · split
    · exact avoids_ok _
    split
    · exact guarded_assertFailed hx (by decide)
    split
    · exact avoids_ok _
    split
    · exact avoids_ok _
    · exact avoids_ok _

end Guarded

/-- A new request overflows a queue exactly when it has to wait at one that is full. -/
theorem handleNewRequest_overflows {n : Nat} {g : Globals P} {b : Board} {sg : Sandgrouse}
    {conn : SgConnection} {e : RequestEnv} (h : Represents g b) (hn : g.numCameras = n)
    (hle : n ≤ MAX_NUM_CAMERAS) :
    g.handleNewRequest sg conn e = .error (.outOfRange .pendingConnections) ↔
      ∃ src : Slot, route sg n conn e.stack = .ok (.wait src.val) ∧
        (g.pendingRequests src).numPending = MAX_PENDING_REQUESTS := by
  have hcams : (g.say [.handed conn.id]).numCameras = n := hn
  cases hroute : route sg n conn e.stack with
  | error err =>
    unfold handleNewRequest
    simp only [hcams, hroute]
    refine ⟨fun herror => ?_, by rintro ⟨src, ⟨⟩, -⟩⟩
    cases herror
    exact absurd hroute (route_avoids (.inl rfl) sg n conn e.stack)
  | ok target =>
    cases target with
    | notFound =>
      unfold handleNewRequest
      simp only [hcams, hroute]
      exact ⟨by rintro ⟨⟩, by rintro ⟨src, ⟨⟩, -⟩⟩
    | send src =>
      unfold handleNewRequest
      simp only [hcams, hroute]
      refine ⟨fun herror => absurd herror ?_, by rintro ⟨src, ⟨⟩, -⟩⟩
      refine (guarded_access (.inl rfl) (by decide) _).bind fun s _ => ?_
      split
      · exact avoids_ok _
      · exact avoids_ok _
    | wait src =>
      have hlt : src < MAX_NUM_CAMERAS := by
        have := route_lt hroute src (.inl rfl)
        omega
      obtain ⟨s, rfl⟩ : ∃ s : Slot, s.val = src := ⟨⟨src, hlt⟩, rfl⟩
      have hrep : Represents (g.say [.handed conn.id, .routed s conn.id]) b := h.same rfl rfl
      rw [handleNewRequest_waits (by rw [hn]; exact hroute)]
      rcases enqueue_board hrep s conn with ⟨hroom, g', hg', -⟩ | ⟨hfull, hg'⟩
      · rw [hg']
        refine ⟨by rintro ⟨⟩, ?_⟩
        rintro ⟨s', hs', hfull⟩
        obtain rfl : s = s' := by simpa [Fin.ext_iff] using hs'
        rw [h.numPending] at hfull
        omega
      · rw [hg']
        exact ⟨fun _ => ⟨s, rfl, by rw [h.numPending, hfull]⟩, fun _ => rfl⟩

end Globals

namespace Reactor

open Globals

variable {P : HttpParser}

/-- When the step takes a request that has to wait for a camera, fewer requests than a queue has
cells have been queued for this camera since an image was last stored for it. -/
def Spaced (sg : Sandgrouse) (r : Reactor P) (e : Env) : Prop :=
  ∀ full rest conn ready, r.control = .serve full rest → r.globals.ready = conn :: ready →
    ∀ src : Slot, route sg r.globals.numCameras conn e.request.stack = .ok (.wait src.val) →
      (waitingSince src r.globals.log).length < MAX_PENDING_REQUESTS

/-- What is in a queue is what has come to it since the last image. -/
theorem OnBoard.numPending_since {n : Nat} {r : Reactor P} {b : Board} (h : OnBoard n r b)
    (i : Slot) :
    (r.globals.pendingRequests i).numPending = (waitingSince i r.globals.log).length := by
  rw [h.represents.numPending, ← h.run.waiting_since, List.length_map]

theorem cameraEvent_avoids {n : Nat} {x : Halt} (hx : Guarded x) {r : Reactor P} {b : Board}
    {ev : EpollEvent} {e : CameraEnv} (h : Represents r.globals b) (hcams : Cameras n r.globals)
    (hw : Watched r.globals) : Avoids x (r.cameraEvent ev e) := by
  have hdrop : ∀ (r : Reactor P) (closeOk : Bool), Avoids x (r.dropCamera closeOk) := by
    intro r closeOk
    unfold dropCamera
    refine (guarded_access hx (by decide) _).bind fun i _ => ?_
    refine (guarded_access hx (by decide) _).bind fun c _ => ?_
    simp only
    split
    · exact avoids_ok _
    · exact avoids_ok _
  unfold cameraEvent
  split
  · exact hdrop _ _
  refine Avoids.bind ?_ fun code _ => ?_
  · unfold processActiveCamera
    refine (retrieveImage_avoids hx _ _).bind fun retrieved hretrieved => ?_
    split
    · exact avoids_ok _
    · rename_i image g
      have hsame := (retrieveImage_onlyCameras hretrieved).sameClients
      have hsize := (retrieve_accepted hcams hw hretrieved).1
      have hg := h.same hsame.lastImage hsame.pendingRequests
      refine (writeImageFile_avoids hx e.write hg hsize).bind fun written _ => ?_
      simp only
      split
      · exact avoids_ok _
      · exact avoids_ok _
  · simp only
    split
    · exact avoids_ok _
    split
    · exact hdrop _ _
    · exact avoids_ok _

/-- The request is the one that is taken. -/
theorem serve_overflows_iff {n : Nat} {sg : Sandgrouse} {r : Reactor P} {b : Board}
    (h : OnBoard n r b) (conn : SgConnection) (ready : List SgConnection) (full : Bool)
    (rest : List EpollEvent) (e : RequestEnv) :
    r.serveRequest sg conn ready full rest e = .error (.outOfRange .pendingConnections) ↔
      ∃ src : Slot, route sg n conn e.stack = .ok (.wait src.val) ∧
        (r.globals.pendingRequests src).numPending = MAX_PENDING_REQUESTS := by
  obtain ⟨g, hg⟩ : ∃ g, g = { r.globals with ready } := ⟨_, rfl⟩
  have hrep : Represents g b := h.represents.same (by rw [hg]) (by rw [hg])
  have hn : g.numCameras = n := by
    rw [hg]
    exact h.inv.cameras.numCameras
  have hqueue : g.pendingRequests = r.globals.pendingRequests := by rw [hg]
  rw [← hqueue, ← handleNewRequest_overflows hrep hn h.inv.cameras.le]
  unfold serveRequest
  rw [← hg]
  cases g.handleNewRequest sg conn e with
  | error err =>
    constructor
    · rintro ⟨⟩
      rfl
    · rintro ⟨⟩
      rfl
  | ok handled =>
    rw [ok_bind]
    refine ⟨?_, by rintro ⟨⟩⟩
    intro herror
    simp only at herror
    split at herror
    · cases herror
    · cases herror

/-- Of the requests, at most the one that is taken makes a step halt so. -/
theorem step_avoids {n : Nat} {x : Halt} (hx : Guarded x) {sg : Sandgrouse} {r : Reactor P}
    {b : Board} {e : Env} (h : OnBoard n r b)
    (hserve : ∀ full rest conn ready, r.control = .serve full rest →
      r.globals.ready = conn :: ready →
      Avoids x (r.serveRequest sg conn ready full rest e.request)) : Avoids x (step sg r e) := by
  unfold step
  split
  · split
    · exact avoids_ok _
    split
    · exact avoids_ok _
    refine (openNext_avoids hx _ fun i hi => ?_).bind fun opened _ => ?_
    · rw [h.inv.cameras.configured i, hi, h.inv.cameras.iterator]
      exact Nat.mod_lt _ h.inv.cameras.pos
    simp only
    split
    · exact avoids_ok _
    · exact avoids_ok _
  · split
    · exact avoids_ok _
    · exact avoids_ok _
    · exact avoids_ok _
  · exact avoids_ok _
  · rename_i full ev rest hc
    unfold dispatchEvent
    split
    · have hw := h.inv.watched (by intro hl; simp [hc] at hl)
      exact (cameraEvent_avoids hx h.represents h.inv.cameras hw).bind fun _ _ => avoids_ok _
    split
    · exact avoids_ok _
    split
    · exact avoids_ok _
    · exact avoids_ok _
  · rename_i full rest hc
    split
    · exact avoids_ok _
    · rename_i conn ready hready
      exact hserve full rest conn ready hc hready
  · exact avoids_ok _
  · exact avoids_ok _

/-- **Overflow.** A step stores beyond a queue exactly when a request has to wait for a camera for
which as many as a queue holds have been queued since its last image. -/
theorem step_overflows_iff {n : Nat} {sg : Sandgrouse} {r : Reactor P} {b : Board} {e : Env}
    (h : OnBoard n r b) :
    step sg r e = .error (.outOfRange .pendingConnections) ↔ ¬ Spaced sg r e := by
  have hn := h.inv.cameras.numCameras
  constructor
  · intro herror hspaced
    refine step_avoids (.inl rfl) h (fun full rest conn ready hc hready => ?_) herror
    intro herror
    obtain ⟨src, hroute, hfull⟩ := (serve_overflows_iff h conn ready full rest e.request).1 herror
    rw [← hn] at hroute
    have := hspaced full rest conn ready hc hready src hroute
    rw [← h.numPending_since] at this
    omega
  · intro hspaced
    unfold Spaced at hspaced
    push Not at hspaced
    obtain ⟨full, rest, conn, ready, hc, hready, src, hroute, hfull⟩ := hspaced
    rw [← h.numPending_since] at hfull
    have hle := (h.represents.queue src).length_le
    rw [Nat.zero_add, ← h.represents.numPending] at hle
    unfold step
    simp only [hc, hready]
    refine (serve_overflows_iff h conn ready full rest e.request).2 ⟨src, ?_, by omega⟩
    rw [← hn]
    exact hroute

end Reactor

end Rsva11001
