import Rsva11001.Verify.Clients

/-!
# How requests are served

What becomes of the requests when the system calls and the camera do their part: one that has to
wait is put in the queue of its camera (`serve_waits`) and answered when an image is delivered
(`delivers_waiting`), any other is answered at once with the last image (`serve_sends`).
-/

namespace Rsva11001

open Lib

namespace Globals

variable {P : HttpParser}

/-- An image is published where none was, and those who wait for it are answered. -/
theorem publishes_waiting {g : Globals P} {b : Board} {i : Slot} {image : List UInt8}
    (h : Represents g b) (hi : i.val = g.cameraIterator) (hnone : b.image i = none)
    (hsize : image.length ≤ IMAGE_BUFFER_SIZE) (responses : Nat → Bool) :
    ∃ g', g.writeImageFile image { writeAll with responses } = .ok (true, g') ∧
      g'.ready = g.ready ∧ SameCameras g g' ∧ Represents g' (b.publish i image) ∧
      g'.log = g.log ++ [.writeImage image, .fileOpened 7, .mapped 4096 image.length,
        .fileClosed 7] ++ .stored i image :: (b.waiting i).map (answerWith image) := by
  obtain ⟨g₁, hg₁⟩ : ∃ g₁, g₁ = g.say [.writeImage image, .fileOpened 7,
      .mapped 4096 image.length, .fileClosed 7] := ⟨_, rfl⟩
  have hslot : slot .lastImage g.cameraIterator = .ok i := slot_eq_ok.2 hi
  have hdata : (g.lastImage i).data = none := by
    rw [← h.image i] at hnone
    exact Option.map_eq_none_iff.1 hnone
  have hrep : Represents g₁ b := by
    rw [hg₁]
    exact h.same rfl rfl
  obtain ⟨g', hstore, hlog, hrep'⟩ :=
    storeImage_board hrep i hsize 4096 { writeAll with responses }
  have hcall : g.writeImageFile image { writeAll with responses } =
      g₁.storeImage i image 4096 { writeAll with responses } := by
    unfold writeImageFile
    simp only [writeAll, reduceCtorEq, if_false, Bool.not_true, Bool.false_eq_true, say, hslot,
      ok_bind, hdata]
    rw [hg₁]
    simp only [say, List.append_assoc, List.cons_append, List.nil_append]
  have hwrite := hcall.trans hstore
  refine ⟨g', hwrite, ?_, writeImageFile_sameCameras hwrite, hrep', ?_⟩
  · obtain ⟨sent, queues, -, rfl⟩ := storeImage_cases hstore
    rw [hg₁]
    exact List.append_nil _
  · rw [hlog, hg₁]
    rfl

end Globals

namespace Reactor

open Globals

variable {P : HttpParser}

/-- A request is taken that has to wait, and there is room for it. -/
theorem serve_waits {sg : Sandgrouse} {r : Reactor P} {b : Board} {e : Env} {full : Bool}
    {rest : List EpollEvent} {conn : SgConnection} {ready : List SgConnection} {src : Slot}
    (h : Represents r.globals b) (hc : r.control = .serve full rest)
    (hready : r.globals.ready = conn :: ready)
    (hroute : route sg r.globals.numCameras conn e.request.stack = .ok (.wait src.val))
    (hroom : (b.waiting src).length < MAX_PENDING_REQUESTS) :
    ∃ g, step sg r e = .ok ⟨g, .serve full rest, r.shutdown⟩ ∧ g.ready = ready ∧
      OnlyRequests r.globals g ∧ g.log = r.globals.log ++ [.handed conn.id, .routed src conn.id,
        .queued src conn.id (b.waiting src).length] ∧
      Represents g (b.enqueue src conn) := by
  obtain ⟨g, hg⟩ : ∃ g, g = { r.globals with ready } := ⟨_, rfl⟩
  have hrep : Represents (g.say [.handed conn.id, .routed src conn.id]) b := by
    apply h.same
    · rw [hg]
      rfl
    · rw [hg]
      rfl
  rcases enqueue_board hrep src conn with ⟨-, g', hg', hlog, -, hrep'⟩ | ⟨hfull, -⟩
  · have hsame : g'.ready = ready ∧ OnlyRequests r.globals g' := by
      obtain ⟨connections, -, rfl⟩ := enqueue_cases hg'
      rw [hg]
      refine ⟨rfl, rfl, rfl, rfl, rfl, rfl, ?_⟩
      exact (Extends.append (by simp [Event.kind])).trans (.append (by simp [Event.kind]))
    refine ⟨g', ?_, hsame.1, hsame.2, ?_, hrep'⟩
    · unfold step
      simp only [hc, hready]
      unfold serveRequest
      rw [← hg, handleNewRequest_waits (by rw [hg]; exact hroute), hg']
      rfl
    · rw [hlog, hg]
      exact List.append_assoc _ _ _
  · omega

/-- A request is answered at once with an image. -/
theorem serve_sends {n : Nat} {sg : Sandgrouse} {r : Reactor P} {b : Board} {e : Env}
    {full : Bool} {rest : List EpollEvent} {conn : SgConnection} {ready : List SgConnection}
    {src : Slot} {image : Mapping} (h : OnBoard n r b) (hc : r.control = .serve full rest)
    (hready : r.globals.ready = conn :: ready)
    (hroute : route sg r.globals.numCameras conn e.request.stack = .ok (.send src.val))
    (himage : (r.globals.lastImage src).data = some image) :
    ∃ g, step sg r e = .ok ⟨g, if e.request.writeOk then .serve full rest else .served full rest,
        r.shutdown || !e.request.writeOk⟩ ∧
      g.lastImage = r.globals.lastImage ∧ g.log = r.globals.log ++ [.handed conn.id,
        .routed src conn.id, answerWith image.bytes conn] := by
  obtain ⟨g, hg⟩ : ∃ g, g = { r.globals with ready } := ⟨_, rfl⟩
  have hboard : b.image src = some image.bytes := by
    rw [← h.represents.image src, himage]
    rfl
  have hsize := h.represents.size src image himage
  have hle := (h.run.images hboard).1
  have hroute' : route sg (g.say [.handed conn.id]).numCameras conn e.request.stack =
      .ok (.send src.val) := by
    rw [hg]
    exact hroute
  have hslot : slot .lastImage src.val = .ok src := slot_eq_ok.2 rfl
  obtain ⟨g₁, hg₁⟩ : ∃ g₁, g₁ = (g.say [.handed conn.id]).say [.routed src conn.id] := ⟨_, rfl⟩
  have hlast : g₁.lastImage src = r.globals.lastImage src := by
    rw [hg₁, hg]
    rfl
  have hhandle : g.handleNewRequest sg conn e.request =
      .ok (e.request.writeOk, g₁.say [answerWith image.bytes conn]) := by
    unfold handleNewRequest
    simp only [hroute', ok_bind, hslot, ← hg₁, hlast, himage, hsize, sendJpeg_eq g₁ conn _ hle]
    rfl
  refine ⟨g₁.say [answerWith image.bytes conn], ?_, ?_, ?_⟩
  · unfold step
    simp only [hc, hready]
    unfold serveRequest
    rw [← hg, hhandle]
    cases e.request.writeOk with
    | true => simp only [ok_bind, Bool.not_true, Bool.or_false]; rfl
    | false => simp only [ok_bind, Bool.not_false, Bool.or_true]; rfl
  · rw [hg₁, hg]
    rfl
  · rw [hg₁, hg]
    simp [Globals.say]

/-- An image is delivered, and those who wait for it are answered. -/
theorem delivers_waiting {sg : Sandgrouse} {r : Reactor .untilEof} {board : Board} {full : Bool}
    {ev : EpollEvent} {rest : List EpollEvent} {i j : Slot} {c : Connection .untilEof}
    {bs : List Block} {ms : List Message} {m : Message} {tail : List UInt8} {e : Env}
    (hboard : Represents r.globals board) (hcontrol : r.control = .dispatch full (ev :: rest))
    (hid : ev.id = CAMERA_ID) (hup : ¬ Hangup ev) (hactive : r.globals.activeCamera = some i)
    (hc : r.globals.conns i = some c) (hfresh : c.Fresh) (hj : j.val = r.globals.cameraIterator)
    (hnone : board.image j = none)
    (h : jpgs.Reads BASE_BUFFER_SIZE [] (bs.map Block.bytes) ms tail)
    (hlast : ms.getLast? = some m) (hne : m.payload ≠ [])
    (hle : m.payload.length ≤ IMAGE_BUFFER_SIZE)
    (hprocess : e.camera.process = Connection.respond bs .wouldBlock)
    (hclose : e.camera.close = true) (responses : Nat → Bool)
    (hwrite : e.camera.write = { writeAll with responses }) :
    ∃ g, step sg r e = .ok ⟨g, .dispatch full rest, r.shutdown⟩ ∧
      g.ready = r.globals.ready ∧ g.numCameras = r.globals.numCameras ∧
      Represents g (board.publish j m.payload) ∧
      g.log = r.globals.log ++ ms.map (fun m => .accepted i m.payload) ++ [.writeImage m.payload,
        .fileOpened 7, .mapped 4096 m.payload.length, .fileClosed 7] ++
        .stored j m.payload :: (board.waiting j).map (answerWith m.payload) ++ [.cleared i] := by
  obtain ⟨pr, hpr, -, haccepted, hretrieve⟩ :=
    retrieves hactive hc hfresh h hlast hne hle hprocess hclose
  obtain ⟨g, hg⟩ : ∃ g, g = (r.globals.afterProcess i pr).setConn i pr.conn.disconnected :=
    ⟨_, rfl⟩
  rw [← hg] at hretrieve
  have hrep : Represents g board := by
    rw [hg]
    exact hboard.same rfl rfl
  have hiterator : j.val = g.cameraIterator := by
    rw [hg]
    exact hj
  obtain ⟨g', hpublish, hready, hsame, hrep', hlog⟩ :=
    publishes_waiting hrep hiterator hnone hle responses
  rw [← hwrite] at hpublish
  refine ⟨g'.clearActive, writes hcontrol hid hup hretrieve hpublish, ?_, ?_, hrep'.same rfl rfl,
    ?_⟩
  · rw [show g'.clearActive.ready = g'.ready from rfl, hready, hg]
    rfl
  · rw [show g'.clearActive.numCameras = g'.numCameras from rfl, hsame.numCameras, hg]
    rfl
  · have hcamera : g'.activeCamera = some i := by
      rw [hsame.activeCamera, hg]
      exact hactive
    have hfirst : g.log = r.globals.log ++ ms.map (fun m => .accepted i m.payload) := by
      rw [hg]
      show r.globals.log ++ pr.accepted.map (.accepted i) = _
      rw [haccepted, List.map_map]
      rfl
    show g'.log ++ g'.activeCamera.toList.map .cleared = _
    rw [hcamera, hlog, hfirst]
    rfl

/-! ## A sample run -/

/-- The first camera, the only one, has been opened with the connection `c`. -/
structure FirstOpen (g : Globals P) (c : Connection P) (b : Board) : Prop where
  fresh : c.Fresh
  numCameras : g.numCameras = 1
  activeCamera : g.activeCamera = some first
  conn : g.conns first = some c
  cameraIterator : first.val = g.cameraIterator
  represents : Represents g b

theorem FirstOpen.same {g g' : Globals P} {c : Connection P} {b b' : Board} (h : FirstOpen g c b)
    (hs : SameCameras g g') (hrep : Represents g' b') : FirstOpen g' c b' := by
  refine ⟨h.fresh, hs.numCameras.trans h.numCameras, hs.activeCamera.trans h.activeCamera, ?_, ?_,
    hrep⟩
  · rw [hs.conns]
    exact h.conn
  · rw [hs.cameraIterator]
    exact h.cameraIterator

/-- Requests become ready. -/
def readyEnvs (requests : List SgConnection) : List Env :=
  [calm, reports serverBatch, { calm with server := ⟨true, requests⟩ }]

theorem sample_ready (P : HttpParser) (requests : List SgConnection) :
    ∃ (r₀ : Reactor P) (g : Globals P) (c : Connection P), Initial 1 r₀ ∧
      Lib.run (step plainSandgrouse) r₀ (readyEnvs requests) = .ok ⟨g, .serve false [], false⟩ ∧
      FirstOpen g c .empty ∧ g.ready = requests ∧ g.log = [.opened first] := by
  obtain ⟨conns, c, h₀, hfresh, hopen⟩ := @sample_opens P 1 (by decide) (by decide) plainSandgrouse
  have hrep : Represents (afterOpen (sampleGlobals P 1 conns) first c) .empty :=
    ⟨fun _ => rfl, by rintro i m ⟨⟩, fun _ => Holds.fill _ _, fun _ => rfl⟩
  refine ⟨_, (afterOpen (sampleGlobals P 1 conns) first c).serverProcess ⟨true, requests⟩, c, h₀,
    run_cons_ok.2 ⟨_, hopen, run_cons_ok.2 ⟨_, rfl, run_cons_ok.2 ⟨_, rfl, run_nil _⟩⟩⟩, ?_, rfl,
    rfl⟩
  exact ⟨hfresh, rfl, rfl, conns_afterOpen (sampleGlobals P 1 conns) first c, rfl,
    hrep.same rfl rfl⟩

/-- A request waits for the image of the first camera. -/
def waitingEnvs : List Env :=
  readyEnvs [sampleRequest 7 "1"] ++ [calm, calm, calm, calm]

/-- The image is delivered, and another request is answered with it. The responses to those who
wait may fail. -/
def answeringEnvs (responses : Nat → Bool) : List Env :=
  [reports bothBatch,
    { calm with
      camera := ⟨Connection.respond (halves sampleMessage sampleMessage_fits) .wouldBlock, true,
        { writeAll with responses }, true⟩ },
    { calm with server := ⟨true, [sampleRequest 8 "0"]⟩ }, calm]

/-- What the run does. -/
def servedLog (image : List UInt8) : List Event :=
  [.opened first, .handed 7, .routed first 7, .queued first 7 0, .accepted first image,
    .writeImage image, .fileOpened 7, .mapped 4096 image.length, .fileClosed 7, .stored first image,
    answerWith image (sampleRequest 7 "1"), .cleared first, .handed 8, .routed first 8,
    answerWith image (sampleRequest 8 "0")]

theorem sample_waiting (P : HttpParser) : ∃ (r₀ : Reactor P) (g : Globals P) (c : Connection P),
    Initial 1 r₀ ∧ Lib.run (step plainSandgrouse) r₀ waitingEnvs = .ok ⟨g, .wait, false⟩ ∧
      FirstOpen g c (Board.empty.enqueue first (sampleRequest 7 "1")) ∧ g.ready = [] ∧
      g.log = [.opened first, .handed 7, .routed first 7, .queued first 7 0] := by
  obtain ⟨r₀, g, c, h₀, hrun, hg, hready, hlog⟩ := sample_ready P [sampleRequest 7 "1"]
  have hroute := (route_sampleRequest (n := 1) (by decide) 7 calm.request.stack).1
  rw [← hg.numCameras] at hroute
  obtain ⟨g₁, hwaits, hready₁, hsame, hlog₁, hrep₁⟩ :=
    @serve_waits P plainSandgrouse ⟨g, .serve false [], false⟩ .empty calm false [] _ [] first
      hg.represents rfl hready hroute (by decide)
  -- the reactor comes to wait again
  obtain ⟨g₂, hg₂⟩ : ∃ g₂, g₂ = g₁.serverProcess ⟨true, []⟩ := ⟨_, rfl⟩
  have hopen : FirstOpen g₂ c (Board.empty.enqueue first (sampleRequest 7 "1")) := by
    rw [hg₂]
    exact hg.same (hsame.sameCameras.trans (sameCameras_serverProcess g₁ ⟨true, []⟩))
      (hrep₁.same rfl rfl)
  have hserved := serves_idle plainSandgrouse hready₁ []
  rw [← hg₂] at hserved
  have hwait := waits_again plainSandgrouse (Option.isSome_of_eq_some hopen.activeCamera)
  refine ⟨r₀, g₂, c, h₀, ?_, hopen, ?_, ?_⟩
  · refine run_append_ok.2 ⟨_, hrun, run_cons_ok.2 ⟨_, hwaits, run_cons_ok.2 ⟨_, hserved, ?_⟩⟩⟩
    exact run_cons_ok.2 ⟨_, rfl, run_cons_ok.2 ⟨_, hwait, run_nil _⟩⟩
  · rw [hg₂]
    show g₁.ready ++ [] = []
    rw [hready₁, List.append_nil]
  · rw [hg₂]
    show g₁.log = _
    rw [hlog₁, hlog]
    rfl

theorem sample_served (responses : Nat → Bool) : ∃ (r₀ r : Reactor .untilEof), Initial 1 r₀ ∧
    Lib.run (step plainSandgrouse) r₀ (waitingEnvs ++ answeringEnvs responses) = .ok r ∧
      r.shutdown = false ∧ r.globals.log = servedLog sampleMessage.payload ∧
      (r.globals.lastImage first).data.map Mapping.bytes = some sampleMessage.payload := by
  obtain ⟨r₀, g, c, h₀, hrun, hg, hready, hlog⟩ := sample_waiting .untilEof
  obtain ⟨g₁, hdelivers, hready₁, hn₁, hrep₁, hlog₁⟩ :=
    @delivers_waiting plainSandgrouse ⟨g, .dispatch false [cameraReady, serverReady], false⟩ _ _
      cameraReady _ first first c (halves sampleMessage sampleMessage_fits) [sampleMessage]
      sampleMessage []
      { calm with
        camera := ⟨Connection.respond (halves sampleMessage sampleMessage_fits) .wouldBlock, true,
          { writeAll with responses }, true⟩ }
      hg.represents rfl rfl (by decide) hg.activeCamera hg.conn hg.fresh hg.cameraIterator rfl
      (reads_halves sampleMessage sampleMessage_fits) rfl (by decide) (by decide) rfl rfl responses
      rfl
  obtain ⟨g₂, hg₂⟩ : ∃ g₂, g₂ = g₁.serverProcess ⟨true, [sampleRequest 8 "0"]⟩ := ⟨_, rfl⟩
  have hserver : step plainSandgrouse ⟨g₁, .dispatch false [serverReady], false⟩
      { calm with server := ⟨true, [sampleRequest 8 "0"]⟩ } = .ok ⟨g₂, .serve false [], false⟩ := by
    rw [hg₂]
    rfl
  have hfront : Lib.run (step plainSandgrouse) r₀
      (waitingEnvs ++ (answeringEnvs responses).take 3) =
      .ok ⟨g₂, .serve false [], false⟩ := by
    refine run_append_ok.2 ⟨_, hrun, run_cons_ok.2 ⟨_, rfl, ?_⟩⟩
    exact run_cons_ok.2 ⟨_, hdelivers, run_cons_ok.2 ⟨_, hserver, run_nil _⟩⟩
  obtain ⟨b, hb⟩ := run_board h₀ hfront
  have hready₂ : g₂.ready = [sampleRequest 8 "0"] := by
    rw [hg₂]
    show g₁.ready ++ _ = _
    rw [hready₁]
    show g.ready ++ _ = _
    rw [hready]
    rfl
  have hn₂ : g₂.numCameras = 1 := by
    rw [hg₂]
    exact hn₁.trans hg.numCameras
  obtain ⟨image, himage, hbytes⟩ :
      ∃ image, (g₂.lastImage first).data = some image ∧ image.bytes = sampleMessage.payload := by
    have := hrep₁.image first
    rw [Board.image_publish_self] at this
    rw [hg₂]
    exact Option.map_eq_some_iff.1 this
  have hroute := (route_sampleRequest (n := 1) (by decide) 8 calm.request.stack).2
  rw [← hn₂] at hroute
  obtain ⟨g₃, hsends, hlast, hlog₃⟩ :=
    @serve_sends _ 1 plainSandgrouse ⟨g₂, .serve false [], false⟩ b calm
    false [] _ [] first image hb rfl hready₂ hroute himage
  have hall : waitingEnvs ++ answeringEnvs responses =
      waitingEnvs ++ (answeringEnvs responses).take 3 ++ [calm] := rfl
  refine ⟨_, ⟨g₃, .serve false [], false⟩, h₀, ?_, rfl, ?_, ?_⟩
  · rw [hall]
    exact run_append_ok.2 ⟨_, hfront, run_cons_ok.2 ⟨_, hsends, run_nil _⟩⟩
  · have hlog₂ : g₂.log = g₁.log := by rw [hg₂]; rfl
    show g₃.log = _
    rw [hlog₃, hlog₂, hlog₁, hlog, hbytes]
    rfl
  · show (g₃.lastImage first).data.map Mapping.bytes = _
    rw [hlast, himage, ← hbytes]
    rfl

end Reactor

end Rsva11001
