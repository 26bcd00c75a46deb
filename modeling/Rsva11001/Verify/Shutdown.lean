import Rsva11001.Verify.Pending

/-!
# What stops the reactor

`Cause`: what the reactor shuts down for. On the waiting path a response that cannot be written
changes nothing (`processActiveCamera_written`); on the immediate path it stops the reactor. A run
is unharmed by its clients exactly when no response of an image fails on the immediate path
(`unharmed_iff`).
-/

namespace Rsva11001

open Lib

/-- The results of the same calls, when every response can be written. -/
def CameraEnv.written (e : CameraEnv) : CameraEnv :=
  { e with write := { e.write with responses := fun _ => true } }

def Globals.RequestEnv.written (e : Globals.RequestEnv) : Globals.RequestEnv :=
  { e with writeOk := true }

def Env.written (e : Env) : Env :=
  { e with
    camera := e.camera.written
    request := e.request.written }

namespace Globals

variable {P : HttpParser}

theorem snd_sendJpeg (g : Globals P) (conn : SgConnection) (data : List UInt8) (size : Nat)
    (ok ok' : Bool) : (g.sendJpeg conn data size ok).2 = (g.sendJpeg conn data size ok').2 := by
  unfold sendJpeg
  split
  · rfl
  · rfl

theorem fillPending_responses (responses responses' : Nat → Bool) (i : Slot) {n : Nat} :
    ∀ {g : Globals P} {k : Nat},
      g.fillPending i responses k n = g.fillPending i responses' k n := by
  induction n with
  | zero => exact fun {_ _} => rfl
  | succ n ih =>
    intro g k
    simp only [fillPending, ih]
    congr 1
    funext cell
    congr 1
    funext conn
    congr 1
    funext data
    rw [snd_sendJpeg g conn data.bytes _ (responses k) (responses' k)]

/-- The responses to those who waited have no effect. -/
theorem writeImageFile_responses (g : Globals P) (buffer : List UInt8) (e : WriteEnv)
    (responses : Nat → Bool) :
    g.writeImageFile buffer { e with responses } = g.writeImageFile buffer e := by
  have hstore : ∀ (g : Globals P) i addr,
      g.storeImage i buffer addr { e with responses } = g.storeImage i buffer addr e := by
    intro g i addr
    unfold storeImage
    simp only [fillPending_responses responses e.responses i]
  unfold writeImageFile
  simp only [hstore]

theorem processActiveCamera_written (g : Globals P) (e : CameraEnv) :
    g.processActiveCamera e.written = g.processActiveCamera e := by
  have hretrieve : g.retrieveImage e.written = g.retrieveImage e := rfl
  unfold processActiveCamera
  rw [hretrieve]
  unfold CameraEnv.written
  simp only [writeImageFile_responses]

/-- The outcome of a response matters only where an image is sent at once. -/
theorem handleNewRequest_written {g : Globals P} {sg : Sandgrouse} {conn : SgConnection}
    {e : RequestEnv} (h : ∀ (src : Slot) image,
      route sg g.numCameras conn e.stack = .ok (.send src.val) →
        (g.lastImage src).data = some image → e.writeOk = true) :
    g.handleNewRequest sg conn e.written = g.handleNewRequest sg conn e := by
  unfold handleNewRequest
  simp only
  have hroute : route sg (g.say [.handed conn.id]).numCameras conn e.written.stack =
      route sg g.numCameras conn e.stack := rfl
  have hroute' : route sg (g.say [.handed conn.id]).numCameras conn e.stack =
      route sg g.numCameras conn e.stack := rfl
  rw [hroute, hroute']
  cases hr : route sg g.numCameras conn e.stack with
  | error => rfl
  | ok target =>
    rw [ok_bind, ok_bind]
    cases target with
    | notFound | wait => rfl
    | send src =>
      simp only
      cases hs : slot .lastImage src with
      | error => rfl
      | ok s =>
        obtain rfl := slot_eq_ok.1 hs
        simp only [ok_bind]
        cases himage : (g.lastImage s).data with
        | none =>
          have hsaid : (((g.say [.handed conn.id]).say [.routed s conn.id]).lastImage s).data =
            none := himage
          simp only [hsaid]
        | some image =>
          have hok := h s image hr himage
          have hsaid : (((g.say [.handed conn.id]).say [.routed s conn.id]).lastImage s).data =
            some image := himage
          simp only [hsaid, hok]
          rfl

end Globals

namespace Reactor

open Globals

variable {P : HttpParser}

/-- What the reactor shuts down for: a signal, an event of an unknown kind, the server, a camera
that cannot be opened, and a camera that cannot be closed, when it hangs up, when handling it has
failed, or when it has sent an image. A camera that is connected but cannot be added to epoll
counts as one that cannot be opened: `openNextCameraConnection` returns false for both. -/
inductive Cause (r : Reactor P) (e : Env) : Prop
  | signal {full : Bool} {ev : EpollEvent} {rest : List EpollEvent}
      (hc : r.control = .dispatch full (ev :: rest)) (hid : ev.id = SIGFD_ID)
  | unknown {full : Bool} {ev : EpollEvent} {rest : List EpollEvent}
      (hc : r.control = .dispatch full (ev :: rest))
      (hid : ev.id ∉ [CAMERA_ID, SIGFD_ID, SCGI_ID])
  | server {full : Bool} {ev : EpollEvent} {rest : List EpollEvent}
      (hc : r.control = .dispatch full (ev :: rest)) (hid : ev.id = SCGI_ID)
      (hok : e.server.ok = false)
  | finish {full : Bool} {rest : List EpollEvent}
      (hc : r.control = .serve full rest ∧ r.globals.ready = [] ∨ r.control = .served full rest)
      (hok : e.server.ok = false)
  | opening {g : Globals P} (hc : r.control = .outer)
      (h : r.globals.openNextCameraConnection e.next = .ok (false, g))
  | hangup {full : Bool} {ev : EpollEvent} {rest : List EpollEvent}
      (hc : r.control = .dispatch full (ev :: rest)) (hid : ev.id = CAMERA_ID) (hup : Hangup ev)
      (hclose : e.camera.closeAfter = false)
  | failed {full : Bool} {ev : EpollEvent} {rest : List EpollEvent} {g : Globals P}
      (hc : r.control = .dispatch full (ev :: rest)) (hid : ev.id = CAMERA_ID)
      (hup : ¬ Hangup ev) (h : r.globals.processActiveCamera e.camera = .ok (-1, g))
      (hclose : e.camera.closeAfter = false)
  | image {full : Bool} {ev : EpollEvent} {rest : List EpollEvent} {g : Globals P}
      (hc : r.control = .dispatch full (ev :: rest)) (hid : ev.id = CAMERA_ID)
      (hup : ¬ Hangup ev) (h : r.globals.processActiveCamera e.camera = .ok (-2, g))
      (hclose : e.camera.close = false)

/-- The step is unharmed by the clients: it shuts the reactor down for a cause only, and does what
it would do if every response could be written. -/
structure Unharmed (sg : Sandgrouse) (r : Reactor P) (e : Env) : Prop where
  cause : ∀ r', step sg r e = .ok r' → r.shutdown = false → r'.shutdown = true → Cause r e
  same : step sg r e = step sg r e.written

/-- When the next request is answered at once with an image, the response can be written. -/
def Written (sg : Sandgrouse) (r : Reactor P) (e : Env) : Prop :=
  ∀ full rest conn ready (src : Slot) image, r.control = .serve full rest →
    r.globals.ready = conn :: ready →
    route sg r.globals.numCameras conn e.request.stack = .ok (.send src.val) →
    (r.globals.lastImage src).data = some image → e.request.writeOk = true

/-! ## Causes -/

/-- `processActiveCamera` returns one of its three codes, the last when the socket cannot be
closed. -/
theorem processActiveCamera_code {g g' : Globals P} {e : CameraEnv} {code : Int}
    (h : g.processActiveCamera e = .ok (code, g')) :
    code = 0 ∨ code = -1 ∨ code = -2 ∧ e.close = false := by
  obtain ⟨t, g₁, hretrieve, hdone⟩ := processActiveCamera_cases h
  rcases hdone with ⟨rfl, -⟩ | ⟨buffer, b, g₂, -, -, ⟨-, rfl, -⟩ | ⟨-, rfl, -⟩⟩
  · obtain ⟨i, c, r, -, -, -, hcases⟩ := retrieveImage_cases hretrieve
    cases hcases with
    | failed | refused => exact .inr (.inl rfl)
    | idle => exact .inl rfl
    | unclosed _ _ _ _ hclose =>
      refine .inr (.inr ⟨rfl, ?_⟩)
      rcases Connection.close_cases r.conn e.close with ⟨htrue, -⟩ | ⟨-, -, hopen⟩
      · rw [htrue] at hclose
        cases hclose
      · rwa [Connection.close_isOpen hopen] at hclose
  · exact .inr (.inl rfl)
  · exact .inl rfl

theorem dropCamera_shutdown {r r' : Reactor P} {closeOk : Bool}
    (h : r.dropCamera closeOk = .ok r') (hs : r.shutdown = false) (hs' : r'.shutdown = true) :
    closeOk = false := by
  obtain ⟨i, c, -, -, ⟨hclose, -, -⟩ | rfl⟩ := dropCamera_cases h
  · exact hclose
  · have hs' : r.shutdown = true := hs'
    rw [hs] at hs'
    cases hs'

theorem cause_cameraEvent {r r' : Reactor P} {e : Env} {full : Bool} {ev : EpollEvent}
    {rest : List EpollEvent} (hc : r.control = .dispatch full (ev :: rest))
    (hid : ev.id = CAMERA_ID) (h : r.cameraEvent ev e.camera = .ok r') (hs : r.shutdown = false)
    (hs' : r'.shutdown = true) : Cause r e := by
  rcases cameraEvent_cases h with ⟨hup, hdrop⟩ | ⟨hup, code, g, hprocess, hcode⟩
  · exact .hangup hc hid hup (dropCamera_shutdown hdrop hs hs')
  rcases hcode with ⟨-, rfl⟩ | ⟨rfl, hdrop⟩ | ⟨hne, hne', rfl⟩
  · have hs' : r.shutdown = true := hs'
    rw [hs] at hs'
    cases hs'
  · exact .failed hc hid hup hprocess (dropCamera_shutdown hdrop hs hs')
  · rcases processActiveCamera_code hprocess with rfl | rfl | ⟨rfl, hclose⟩
    · exact absurd rfl hne
    · exact absurd rfl hne'
    · exact .image hc hid hup hprocess hclose

/-- A request is handled with success unless the response of an image cannot be written. -/
theorem handleNewRequest_ok {g g' : Globals P} {sg : Sandgrouse} {conn : SgConnection}
    {e : RequestEnv} (h : g.handleNewRequest sg conn e = .ok (false, g')) :
    e.writeOk = false ∧ ∃ (src : Slot) (image : Mapping),
      route sg g.numCameras conn e.stack = .ok (.send src.val) ∧
        (g.lastImage src).data = some image := by
  cases handleNewRequest_cases h with
  | @sent src image _ _ hroute himage hsend =>
    refine ⟨?_, src, image, hroute, himage⟩
    unfold sendJpeg at hsend
    split at hsend
    · cases hsend
    · exact congrArg Prod.fst hsend

theorem cause_of_written {sg : Sandgrouse} {r r' : Reactor P} {e : Env} (hw : Written sg r e)
    (h : step sg r e = .ok r') (hs : r.shutdown = false) (hs' : r'.shutdown = true) :
    Cause r e := by
  have hkept : r.shutdown ≠ true := by simp [hs]
  have hserver : (r.shutdown || !e.server.ok) = true → e.server.ok = false := by
    intro hor
    simpa [hs] using hor
  cases step_cases h with
  | moved | batch => exact absurd hs' hkept
  | @opened b g hc _ _ hopen =>
    obtain rfl : b = false := by simpa using hs'
    exact .opening hc hopen
  | camera hc hid hcamera => exact cause_cameraEvent hc hid hcamera hs hs'
  | @flagged ev full rest hc hcam hserver =>
    by_cases hid : ev.id = SIGFD_ID
    · exact .signal hc hid
    · exact .unknown hc (by simp [hcam, hid, hserver])
  | server hc hid => exact .server hc hid (hserver hs')
  | @finish full rest hc hready =>
    refine @Cause.finish P r e full rest ?_ (hserver hs')
    rcases hc with hc | hc
    · exact .inl ⟨hc, hready hc⟩
    · exact .inr hc
  | @request conn ready full b rest g hc hready hreq =>
    obtain rfl : b = false := by simpa [hs] using hs'
    obtain ⟨hfail, src, image, hroute, himage⟩ := handleNewRequest_ok hreq
    rw [hw full rest conn ready src image hc hready hroute himage] at hfail
    cases hfail

/-! ## The outcome of responses -/

theorem step_written {sg : Sandgrouse} {r : Reactor P} {e : Env} (hw : Written sg r e) :
    step sg r e = step sg r e.written := by
  unfold step
  cases hc : r.control with
  | outer | wait | served | stopped => rfl
  | dispatch full rest =>
    cases rest with
    | nil => rfl
    | cons ev rest =>
      have hcamera : r.cameraEvent ev e.written.camera = r.cameraEvent ev e.camera := by
        have hprocess := processActiveCamera_written r.globals e.camera
        have hclose : e.written.camera.closeAfter = e.camera.closeAfter := rfl
        have hwritten : e.written.camera = e.camera.written := rfl
        unfold cameraEvent
        rw [hclose, hwritten, hprocess]
      simp only [dispatchEvent, hcamera]
      rfl
  | serve full rest =>
    cases hready : r.globals.ready with
    | nil => rfl
    | cons conn ready =>
      have hrequest : handleNewRequest { r.globals with ready } sg conn e.request.written =
          handleNewRequest { r.globals with ready } sg conn e.request :=
        handleNewRequest_written fun src image hroute himage =>
          hw full rest conn ready src image hc hready hroute himage
      have hwritten : e.written.request = e.request.written := rfl
      simp only [serveRequest, hwritten, hrequest]

theorem unharmed_step_iff {n : Nat} {sg : Sandgrouse} {r : Reactor P} {e : Env}
    (h : ∃ b, OnBoard n r b) : Unharmed sg r e ↔ Written sg r e := by
  constructor
  · intro hun full rest conn ready src image hc hready hroute himage
    obtain ⟨b, hb⟩ := h
    obtain ⟨g, hstep, -⟩ := serve_sends hb hc hready hroute himage
    obtain ⟨g', hstep', -⟩ := serve_sends (e := e.written) hb hc hready hroute himage
    -- the loop over the requests goes on in one case and not in the other
    have hcontrol :=
      congrArg Reactor.control (Except.ok.inj (hstep.symm.trans (hun.same.trans hstep')))
    by_contra hfail
    rw [Bool.not_eq_true] at hfail
    have hok : e.written.request.writeOk = true := rfl
    simp [hfail, hok] at hcontrol
  · exact fun hw => ⟨fun r' => cause_of_written hw, step_written hw⟩

/-- **One client and the service.** A run is unharmed by its clients in every step exactly when no
response fails where an image is sent at once. -/
theorem unharmed_iff {n : Nat} {sg : Sandgrouse} {r₀ : Reactor P} (h₀ : Initial n r₀)
    (es : List Env) :
    Meets (step sg) (Unharmed sg) r₀ es ↔ Meets (step sg) (Written sg) r₀ es := by
  have hinv : ∃ b, OnBoard n r₀ b := ⟨.empty, onBoard_initial h₀⟩
  exact meets_congr (fun _ _ _ => onBoard_step) (fun _ _ => unharmed_step_iff) hinv

theorem unharmed_iff_sample : ∃ (r₀ r : Reactor .untilEof), Initial 1 r₀ ∧
    Lib.run (step plainSandgrouse) r₀ (waitingEnvs ++ answeringEnvs fun _ => false) = .ok r ∧
      r.shutdown = false ∧ answered r.globals.log = [7, 8] ∧
      Meets (step plainSandgrouse) (Unharmed plainSandgrouse) r₀
        (waitingEnvs ++ answeringEnvs fun _ => false) := by
  obtain ⟨r₀, r, h₀, hrun, hshutdown, hlog, -⟩ := sample_served fun _ => false
  refine ⟨r₀, r, h₀, hrun, hshutdown, by rw [hlog]; rfl, (unharmed_iff h₀ _).2 ?_⟩
  -- the response at once is the last step's
  have hok : ∀ e ∈ waitingEnvs ++ answeringEnvs fun _ => false, e.request.writeOk = true := by
    simp [waitingEnvs, readyEnvs, answeringEnvs, reports, calm]
  exact (meets_of_forall hok).mono fun _ _ hw _ _ _ _ _ _ _ _ _ _ => hw

/-- The camera's image has been delivered, and a request for it is ready. -/
theorem sample_requested : ∃ (r₀ r : Reactor .untilEof) (es : List Env), Initial 1 r₀ ∧
    Lib.run (step plainSandgrouse) r₀ es = .ok r ∧ r.control = .serve false [] ∧
      r.shutdown = false ∧ r.globals.numCameras = 1 ∧
      r.globals.ready = [sampleRequest 7 "0"] ∧
      (r.globals.lastImage first).data = some ⟨4096, sampleMessage.payload⟩ := by
  obtain ⟨conns, c, pr, h₀, -, hopen, -, -, -, hstep⟩ :=
    @sample_delivers 1 (by decide) (by decide) plainSandgrouse false [serverReady] sampleMessage
      sampleMessage_fits (by decide) (by decide) first rfl
  obtain ⟨g, hg⟩ : ∃ g, g = (afterOpen (sampleGlobals .untilEof 1 conns) first c).delivered first
      first pr sampleMessage.payload := ⟨_, rfl⟩
  have himage : (g.lastImage first).data = some ⟨4096, sampleMessage.payload⟩ := by
    rw [hg]
    rw [lastImage_delivered]
  rw [← hg] at hstep
  have hready : g.ready = [] := by
    rw [hg]
    rfl
  refine ⟨_, ⟨g.serverProcess ⟨true, [sampleRequest 7 "0"]⟩, .serve false [], false⟩,
    [calm, reports bothBatch, _,
      { calm with server := ⟨true, [sampleRequest 7 "0"]⟩ }], h₀,
    run_cons_ok.2 ⟨_, hopen, run_cons_ok.2 ⟨_, rfl, run_cons_ok.2 ⟨_, hstep,
      run_cons_ok.2 ⟨_, rfl, run_nil _⟩⟩⟩⟩, rfl, rfl, ?_, ?_, himage⟩
  · rw [hg]
    rfl
  · show g.ready ++ _ = _
    rw [hready]
    rfl

/-- A client that closes its connection before it is answered stops the reactor. -/
theorem not_unharmed : ∃ (r₀ r r' : Reactor .untilEof) (es : List Env) (e : Env), Initial 1 r₀ ∧
    Lib.run (step plainSandgrouse) r₀ es = .ok r ∧ step plainSandgrouse r e = .ok r' ∧
      r.shutdown = false ∧ r'.shutdown = true ∧ ¬ Cause r e := by
  obtain ⟨r₀, r, es, h₀, hrun, hc, hs, hn, hready, himage⟩ := sample_requested
  obtain ⟨b, hb⟩ := run_board h₀ hrun
  obtain ⟨e, he⟩ : ∃ e : Env, e = { calm with request := ⟨calm.request.stack, false⟩ } := ⟨_, rfl⟩
  have hroute : route plainSandgrouse r.globals.numCameras (sampleRequest 7 "0")
      e.request.stack = .ok (.send first.val) := by
    rw [hn]
    exact (route_sampleRequest (by decide) 7 _).2
  obtain ⟨g, hstep, -⟩ := serve_sends hb hc hready hroute himage
  refine ⟨r₀, r, _, es, e, h₀, hrun, hstep, hs, by simp [hs, he], fun hcause => ?_⟩
  cases hcause with
  | signal hc' | unknown hc' | server hc' | opening hc' | hangup hc' | failed hc' | image hc' =>
    rw [hc] at hc'
    cases hc'
  | finish hc' =>
    rcases hc' with ⟨-, hnone⟩ | hc'
    · rw [hready] at hnone
      cases hnone
    · rw [hc] at hc'
      cases hc'

end Reactor

end Rsva11001
