import Rsva11001.Verify.Clients
import Rsva11001.Verify.Refusals

/-!
# From the receiver to the image file

The receiver accepts messages of up to 32754 bytes, the buffer of `processActiveCamera` has room
for 30000. `handsOver_iff`: on which of the accepted images `writeImageFile` is called.
`handed_before_cleared`: in which runs no camera is given up while an image it has sent is lost.
-/

namespace Rsva11001

open Lib

namespace Globals

variable {P : HttpParser}

/-- When `process` returns, so does the retrieval. -/
theorem retrieve_returns {g : Globals P} {e : CameraEnv} {i : Slot} {c : Connection P}
    {pr : ProcessResult P} (hw : Watched g) (hi : g.activeCamera = some i)
    (hc : g.conns i = some c) (hp : c.process e.process = .ok pr) :
    ∃ t g', g.retrieveImage e = .ok (t, g') := by
  obtain ⟨d, carry, latest, hd, -, hrecv, -⟩ := hw i hi
  obtain rfl : c = d := Option.some.inj (hc.symm.trans hd)
  obtain ⟨-, hcomp, -⟩ := Connection.process_cases hrecv hp
  obtain ⟨carry', latest', hrecv', -⟩ := hcomp.receiving
  have himage := Connection.getLatestImage_eq hrecv' IMAGE_BUFFER_SIZE
  unfold retrieveImage
  simp only [hi, asserted_some, ok_bind, hc, access_some, hp, himage]
  split
  · exact ⟨_, _, rfl⟩
  split
  · exact ⟨_, _, rfl⟩
  split
  · exact ⟨_, _, rfl⟩
  split
  · exact ⟨_, _, rfl⟩
  · exact ⟨_, _, rfl⟩

/-- The retrieval passes on the image last accepted, when it fits and the socket can be closed. -/
theorem retrieve_write_iff {g : Globals P} {e : CameraEnv} {i : Slot} {c : Connection P}
    {pr : ProcessResult P} {p : List UInt8} (hw : Watched g) (hi : g.activeCamera = some i)
    (hc : g.conns i = some c) (hp : c.process e.process = .ok pr) (hret : pr.ret = true)
    (hne : p ≠ []) : (∃ g', g.retrieveImage e = .ok (.write p, g')) ↔
      (received g.log ++ pr.accepted).getLast? = some p ∧ p.length ≤ IMAGE_BUFFER_SIZE ∧
        e.close = true := by
  obtain ⟨t, g₁, h⟩ := retrieve_returns hw hi hc hp
  obtain ⟨j, d, r, hj, hd, hr, -, -, -, -, hfetched⟩ := retrieve_watched hw h
  obtain rfl : i = j := Option.some.inj (hi.symm.trans hj)
  obtain rfl : c = d := Option.some.inj (hc.symm.trans hd)
  obtain rfl : pr = r := Except.ok.inj (hp.symm.trans hr)
  have hnewest : ∀ q, (received g.log ++ pr.accepted).getLast? = some q → g.newest pr = q := by
    intro q hq
    unfold newest
    rw [hq]
    rfl
  constructor
  · rintro ⟨g', h'⟩
    obtain ⟨rfl, -⟩ : t = .write p ∧ g₁ = g' := by simpa using h.symm.trans h'
    cases hfetched with
    | image _ hsome hsize hclose =>
      refine ⟨?_, hsize, hclose⟩
      cases hlast : (received g.log ++ pr.accepted).getLast? with
      | none =>
        unfold newest at hsome
        rw [hlast] at hsome
        exact absurd rfl hsome
      | some q => rw [hnewest q hlast]
  · rintro ⟨hlast, hsize, hclose⟩
    have hp := hnewest p hlast
    cases hfetched with
    | failed hfail =>
      rw [hret] at hfail
      cases hfail
    | refused _ hlarge =>
      rw [hp] at hlarge
      omega
    | idle _ hnone => exact absurd (hp.symm.trans hnone) hne
    | unclosed _ _ _ hfail =>
      rw [hclose] at hfail
      cases hfail
    | image =>
      rw [hp] at h
      exact ⟨_, h⟩

/-- The call of `processActiveCamera` calls `writeImageFile` on these bytes. -/
def HandsOver (g : Globals P) (e : CameraEnv) (p : List UInt8) : Prop :=
  ∃ code g' new, g.processActiveCamera e = .ok (code, g') ∧ g'.log = g.log ++ new ∧
    .writeImage p ∈ new

theorem processActiveCamera_writes {g g₁ g₂ : Globals P} {e : CameraEnv} {p : List UInt8}
    {written : Bool} (hretrieve : g.retrieveImage e = .ok (.write p, g₁))
    (hwrite : g₁.writeImageFile p e.write = .ok (written, g₂)) : g.processActiveCamera e =
      .ok (if written then 0 else -1, if written then g₂.clearActive else g₂) := by
  unfold processActiveCamera
  rw [hretrieve, ok_bind]
  simp only [hwrite, ok_bind]
  cases written <;> rfl

theorem mem_clearActive {g : Globals P} {new : List Event} {p : List UInt8}
    (h : g.clearActive.log = g.log ++ new) : .writeImage p ∉ new := by
  obtain rfl : g.activeCamera.toList.map .cleared = new := List.append_cancel_left h
  intro hp
  obtain ⟨i, -, hi⟩ := List.mem_map.1 hp
  cases hi

/-- An image that is retrieved is handed over, and no other. -/
theorem handsOver_iff_retrieves {n : Nat} {g : Globals P} {b : Board} {e : CameraEnv}
    {p : List UInt8} (h : Represents g b) (hcams : Cameras n g) (hw : Watched g) :
    g.HandsOver e p ↔ ∃ g', g.retrieveImage e = .ok (.write p, g') := by
  constructor
  · rintro ⟨code, g', new, hprocess, hlog, hp⟩
    obtain ⟨t, g₁, hretrieve, hdone⟩ := processActiveCamera_cases hprocess
    obtain ⟨seen, hseen, hkind⟩ := (retrieveImage_onlyCameras hretrieve).log
    have hnone : .writeImage p ∉ seen := by
      intro hmem
      cases hkind _ hmem
    rcases hdone with ⟨rfl, rfl⟩ | ⟨buffer, written, g₂, rfl, hwrite, hend⟩
    · obtain rfl : seen = new := List.append_cancel_left (hseen.symm.trans hlog)
      exact absurd hp hnone
    obtain ⟨called, hcalled, hcall⟩ := writeImageFile_called hwrite
    obtain ⟨rest, hrest, hlast⟩ : ∃ rest, g'.log = g₂.log ++ rest ∧ .writeImage p ∉ rest := by
      rcases hend with ⟨-, -, rfl⟩ | ⟨-, -, rfl⟩
      · exact ⟨[], (List.append_nil _).symm, List.not_mem_nil⟩
      · exact ⟨_, rfl, mem_clearActive rfl⟩
    rw [hrest, hcalled, hseen, List.append_assoc, List.append_assoc] at hlog
    obtain rfl := List.append_cancel_left hlog
    have hp : .writeImage p ∈ called := by simpa [hnone, hlast] using hp
    obtain rfl := (hcall p).1 hp
    exact ⟨g₁, hretrieve⟩
  · rintro ⟨g₁, hretrieve⟩
    have hsame := (retrieveImage_onlyCameras hretrieve).sameClients
    obtain ⟨hsize, j, -, hlt, hiterator⟩ := retrieve_accepted hcams hw hretrieve
    have hle := hcams.le
    have hlt : g₁.cameraIterator < MAX_NUM_CAMERAS := by
      rw [hiterator]
      exact Nat.lt_of_lt_of_le (Nat.mod_lt _ hcams.pos) hle
    obtain ⟨written, g₂, hwrite⟩ := writeImageFile_returns e.write
      (h.same hsame.lastImage hsame.pendingRequests) hsize hlt
    obtain ⟨called, hcalled, hcall⟩ := writeImageFile_called hwrite
    obtain ⟨seen, hseen, -⟩ := (retrieveImage_onlyCameras hretrieve).log
    obtain ⟨rest, hrest⟩ : ∃ rest, (if written then g₂.clearActive else g₂).log =
        g₂.log ++ rest := by
      cases written with
      | false => exact ⟨[], (List.append_nil _).symm⟩
      | true => exact ⟨_, rfl⟩
    refine ⟨_, _, seen ++ called ++ rest, processActiveCamera_writes hretrieve hwrite, ?_, ?_⟩
    · rw [hrest, hcalled, hseen, List.append_assoc, List.append_assoc, List.append_assoc]
    · exact List.mem_append_left _ (List.mem_append_right _ ((hcall p).2 rfl))

end Globals

namespace Reactor

open Globals

variable {P : HttpParser}

/-- **Which image is handed over.** With a `process` that succeeds, `processActiveCamera` calls
`writeImageFile` on an image exactly when it is the one that the connection accepted last, has at
most 30000 bytes and the socket can be closed. -/
theorem handsOver_iff {n : Nat} {sg : Sandgrouse} {r₀ r : Reactor P} {es : List Env}
    (h₀ : Initial n r₀) (h : run (step sg) r₀ es = .ok r) {full : Bool} {ev : EpollEvent}
    {rest : List EpollEvent} (hcontrol : r.control = .dispatch full (ev :: rest)) {i : Slot}
    {c : Connection P} (hi : r.globals.activeCamera = some i) (hc : r.globals.conns i = some c)
    {e : CameraEnv} {pr : ProcessResult P} (hp : c.process e.process = .ok pr)
    (hret : pr.ret = true) {p : List UInt8} (hne : p ≠ []) :
    r.globals.HandsOver e p ↔ (received r.globals.log ++ pr.accepted).getLast? = some p ∧
      p.length ≤ IMAGE_BUFFER_SIZE ∧ e.close = true := by
  have hlive : Live r := by
    intro hlate
    simp [hcontrol] at hlate
  obtain ⟨b, hb⟩ := run_board h₀ h
  have hw := hb.inv.watched hlive
  rw [handsOver_iff_retrieves hb.represents hb.inv.cameras hw]
  exact retrieve_write_iff hw hi hc hp hret hne

/-- A run to an event of the camera; the camera's message is then accepted. -/
theorem sample_accepts {m : Message} (h : m.encode.length ≤ BASE_BUFFER_SIZE) {fin : RecvResult}
    (hfin : ∀ b, fin ≠ .data b) : ∃ (r₀ r : Reactor .untilEof) (es : List Env)
      (c : Connection .untilEof) (pr : ProcessResult .untilEof), Initial 1 r₀ ∧
      run (step plainSandgrouse) r₀ es = .ok r ∧ r.control = .dispatch false [cameraReady] ∧
      r.globals.activeCamera = some first ∧ r.globals.conns first = some c ∧
      c.process (sends m h fin).camera.process = .ok pr ∧ pr.ret = endsBlocked [fin] ∧
      pr.accepted = [m.payload] ∧ r.globals.log = [.opened first] := by
  obtain ⟨conns, c, h₀, hfresh, hrun⟩ :=
    @sample_reports .untilEof 1 (by decide) (by decide) plainSandgrouse
  obtain ⟨pr, hpr, hret, haccepted, -⟩ :=
    Connection.process_reads hfresh hfin (reads_halves m h)
  exact ⟨_, _, _, c, pr, h₀, hrun ⟨[cameraReady], by decide⟩, rfl, rfl, conns_afterOpen _ _ _, hpr,
    hret, haccepted, rfl⟩

theorem handsOver_iff_sample : ∃ (r : Reactor .untilEof) (e : CameraEnv), e.close = true ∧
    r.globals.HandsOver e sampleMessage.payload := by
  have hfin : ∀ b, RecvResult.wouldBlock ≠ .data b := fun b => by simp
  obtain ⟨r₀, r, es, c, pr, h₀, hrun, hcontrol, hi, hc, hpr, hret, haccepted, hlog⟩ :=
    sample_accepts sampleMessage_fits hfin
  have hne : sampleMessage.payload ≠ [] := by decide
  have hlast : (received r.globals.log ++ pr.accepted).getLast? = some sampleMessage.payload := by
    rw [hlog, haccepted]
    rfl
  exact ⟨r, _, rfl, (handsOver_iff h₀ hrun hcontrol hi hc hpr hret hne).2 ⟨hlast, by decide, rfl⟩⟩

/-- A message of 30001 bytes. -/
def largeMessage : Message :=
  ⟨List.replicate 30001 0, by rw [List.length_replicate]; decide⟩

theorem length_largeMessage : largeMessage.payload.length = 30001 :=
  List.length_replicate

/-- The connection accepts a message that is not handed over, though nothing fails. -/
theorem not_handsOver_large : ∃ (r₀ r : Reactor .untilEof) (es : List Env) (e : CameraEnv)
    (c : Connection .untilEof) (pr : ProcessResult .untilEof), Initial 1 r₀ ∧
      run (step plainSandgrouse) r₀ es = .ok r ∧ r.control = .dispatch false [cameraReady] ∧
      r.globals.activeCamera = some first ∧ r.globals.conns first = some c ∧
      c.process e.process = .ok pr ∧ pr.ret = true ∧ pr.accepted = [largeMessage.payload] ∧
      largeMessage.payload ≠ [] ∧ e.close = true ∧
      ¬ r.globals.HandsOver e largeMessage.payload := by
  have hfin : ∀ b, RecvResult.wouldBlock ≠ .data b := fun b => by simp
  have hlen := length_largeMessage
  have hsize : largeMessage.encode.length ≤ BASE_BUFFER_SIZE := by
    rw [Message.length_encode, hlen]
    decide
  obtain ⟨r₀, r, es, c, pr, h₀, hrun, hcontrol, hi, hc, hpr, hret, haccepted, -⟩ :=
    sample_accepts hsize hfin
  have hne : largeMessage.payload ≠ [] := by
    rw [← List.length_pos_iff, hlen]
    decide
  have hlive : Live r := by
    intro hlate
    simp [hcontrol] at hlate
  refine ⟨r₀, r, es, (sends largeMessage hsize .wouldBlock).camera, c, pr, h₀, hrun, hcontrol, hi,
    hc, hpr, hret, haccepted, hne, rfl, fun hands => ?_⟩
  obtain ⟨b, hb⟩ := run_board h₀ hrun
  have hw := hb.inv.watched hlive
  have hands := (handsOver_iff_retrieves hb.represents hb.inv.cameras hw).1 hands
  have hle := ((retrieve_write_iff hw hi hc hpr hret hne).1 hands).2.1
  rw [hlen] at hle
  unfold IMAGE_BUFFER_SIZE at hle
  omega

/-! ## No image is thrown away -/

end Reactor

/-- An image that is neither empty nor too large for the buffer. -/
def Eligible (p : List UInt8) : Prop :=
  p ≠ [] ∧ p.length ≤ IMAGE_BUFFER_SIZE

/-- A camera is given up: it is dropped, or the reactor shuts down with its socket unclosed. -/
def GivesUp (o : Event) : Prop :=
  ∃ i, o = .cleared i ∨ o = .unclosed i

/-- When a camera is given up, and eligible images have been received since it was opened, one of
them has been handed over. -/
def HandedOver (past : List Event) (o : Event) : Prop :=
  GivesUp o → (∃ p ∈ received past, Eligible p) →
    ∃ p ∈ received past, Eligible p ∧ .writeImage p ∈ since Event.isOpened past

theorem kind_of_givesUp {o : Event} (h : GivesUp o) : o.kind = .camera := by
  obtain ⟨i, rfl | rfl⟩ := h
  · rfl
  · rfl

theorem handedOver_of_not {o : Event} (h : ¬ GivesUp o) (past : List Event) : HandedOver past o :=
  fun hup => absurd hup h

/-- When nothing has been handed over, a camera may be given up that has sent no eligible image. -/
theorem handedOver_iff_none {t : List Event} {o : Event} (ho : GivesUp o)
    (hnone : ∀ p, .writeImage p ∉ since Event.isOpened t) :
    HandedOver t o ↔ ¬ ∃ p ∈ received t, Eligible p := by
  constructor
  · intro h heligible
    obtain ⟨p, -, -, hp⟩ := h ho heligible
    exact hnone p hp
  · exact fun h _ heligible => absurd heligible h

theorem since_append_none {t new : List Event} (hnone : ∀ p, .writeImage p ∉ since Event.isOpened t)
    (hnew : ∀ o ∈ new, o.isOpened = false ∧ ∀ p, o ≠ .writeImage p) (p : List UInt8) :
    .writeImage p ∉ since Event.isOpened (t ++ new) := by
  rw [since_append fun o ho => (hnew o ho).1]
  intro hp
  rcases List.mem_append.1 hp with hp | hp
  · exact hnone p hp
  · exact (hnew _ hp).2 p rfl

namespace Globals

variable {P : HttpParser}

theorem handed_afterProcess {g : Globals P} (h : Always HandedOver g.log) (i : Slot)
    (r : ProcessResult P) : Always HandedOver (g.afterProcess i r).log := by
  apply h.append_of_forall
  intro o ho past
  obtain ⟨p, -, rfl⟩ := List.mem_map.1 ho
  exact handedOver_of_not (by rintro ⟨j, h | h⟩ <;> cases h) past

theorem unwritten_afterProcess {g : Globals P}
    (hnone : ∀ p, .writeImage p ∉ since Event.isOpened g.log) (i : Slot) (r : ProcessResult P)
    (p : List UInt8) : .writeImage p ∉ since Event.isOpened (g.afterProcess i r).log := by
  refine since_append_none hnone (fun o ho => ?_) p
  obtain ⟨q, -, rfl⟩ := List.mem_map.1 ho
  exact ⟨rfl, fun _ => by simp⟩

theorem received_afterProcess (g : Globals P) (i : Slot) (r : ProcessResult P) :
    received (g.afterProcess i r).log = received g.log ++ r.accepted :=
  received_accepted g.log i r.accepted

end Globals

namespace Reactor

open Globals

variable {P : HttpParser}

/-- How a camera event ends. -/
inductive Visited (r : Reactor P) (ev : EpollEvent) (e : CameraEnv) (i : Slot) (c : Connection P) :
    Reactor P → Prop
  | hangup {r' : Reactor P} (hup : Hangup ev) (h : r.dropCamera e.closeAfter = .ok r') :
      Visited r ev e i c r'
  | dropped {pr : ProcessResult P} {r' : Reactor P} (hup : ¬ Hangup ev)
      (hpr : c.process e.process = .ok pr)
      (hlost : pr.ret = false ∨ IMAGE_BUFFER_SIZE < (r.globals.newest pr).length)
      (h : { r with globals := r.globals.afterProcess i pr }.dropCamera e.closeAfter = .ok r') :
      Visited r ev e i c r'
  | idle {pr : ProcessResult P} (hup : ¬ Hangup ev) (hpr : c.process e.process = .ok pr)
      (hret : pr.ret = true) (hnone : r.globals.newest pr = []) :
      Visited r ev e i c { r with globals := r.globals.afterProcess i pr }
  | unclosed {pr : ProcessResult P} (hup : ¬ Hangup ev) (hpr : c.process e.process = .ok pr)
      (heligible : Eligible (r.globals.newest pr)) (hclose : e.close = false) :
      Visited r ev e i c { r with
        globals := (r.globals.afterProcess i pr).say [.unclosed i]
        shutdown := true }
  | written {pr : ProcessResult P} {called : List Event} {r' : Reactor P} (hup : ¬ Hangup ev)
      (hpr : c.process e.process = .ok pr) (hret : pr.ret = true)
      (heligible : Eligible (r.globals.newest pr)) (hclose : e.close = true)
      (hcalled : .writeImage (r.globals.newest pr) ∈ called)
      (hkind : ∀ o ∈ called, o.kind ≠ .camera) (hactive : r'.globals.activeCamera = none)
      (hlog : r'.globals.log =
        (r.globals.afterProcess i pr).log ++ called ++ [.cleared i]) :
      Visited r ev e i c r'

/-- A camera that is dropped, or whose socket cannot be closed, is given up. -/
theorem dropCamera_givesUp {r r' : Reactor P} {closeOk : Bool} (h : r.dropCamera closeOk = .ok r') :
    ∃ o, GivesUp o ∧ r'.globals.log = r.globals.log ++ [o] := by
  obtain ⟨i, c, hi, -, ⟨-, -, rfl⟩ | rfl⟩ := dropCamera_cases h
  · exact ⟨.unclosed i, ⟨i, .inr rfl⟩, rfl⟩
  · refine ⟨.cleared i, ⟨i, .inl rfl⟩, ?_⟩
    show r.globals.log ++ r.globals.activeCamera.toList.map .cleared = _
    rw [hi]
    rfl

/-- A camera that is closed already is dropped. -/
theorem dropCamera_closed {r r' : Reactor P} {closeOk : Bool} {i : Slot} {c : Connection P}
    (hi : r.globals.activeCamera = some i) (hc : r.globals.conns i = some c)
    (hclosed : c.sockfd = none) (h : r.dropCamera closeOk = .ok r') :
    r'.globals.activeCamera = none ∧ r'.globals.log = r.globals.log ++ [.cleared i] := by
  obtain ⟨j, d, hj, hd, ⟨-, hopen, -⟩ | rfl⟩ := dropCamera_cases h
  · obtain rfl : i = j := Option.some.inj (hi.symm.trans hj)
    obtain rfl : c = d := Option.some.inj (hc.symm.trans hd)
    rw [hclosed] at hopen
    cases hopen
  · refine ⟨rfl, ?_⟩
    show r.globals.log ++ r.globals.activeCamera.toList.map .cleared = _
    rw [hi]
    rfl

theorem cameraEvent_visited {r r' : Reactor P} {ev : EpollEvent} {e : CameraEnv}
    (hw : Watched r.globals) (hr : r.cameraEvent ev e = .ok r') :
    ∃ i c, r.globals.activeCamera = some i ∧ r.globals.conns i = some c ∧
      Visited r ev e i c r' := by
  rcases cameraEvent_cases hr with ⟨hup, hdrop⟩ | ⟨hup, code, g, hprocess, hcode⟩
  · obtain ⟨i, c, hi, hc, -⟩ := dropCamera_cases hdrop
    exact ⟨i, c, hi, hc, .hangup hup hdrop⟩
  obtain ⟨t, g₁, hretrieve, hdone⟩ := processActiveCamera_cases hprocess
  obtain ⟨i, c, pr, hi, hc, hpr, -, -, -, -, hfetched⟩ := retrieve_watched hw hretrieve
  refine ⟨i, c, hi, hc, ?_⟩
  rcases hdone with ⟨rfl, rfl⟩ | ⟨buffer, b, g₂, rfl, hwrite, hb⟩
  · cases hfetched with
    | failed hret =>
      rcases hcode with ⟨hcode, -⟩ | ⟨-, hdrop⟩ | ⟨-, hcode, -⟩
      · cases hcode
      · exact .dropped hup hpr (.inl hret) hdrop
      · exact absurd rfl hcode
    | refused hret hsize =>
      rcases hcode with ⟨hcode, -⟩ | ⟨-, hdrop⟩ | ⟨-, hcode, -⟩
      · cases hcode
      · exact .dropped hup hpr (.inr hsize) hdrop
      · exact absurd rfl hcode
    | idle hret hnone =>
      rcases hcode with ⟨-, rfl⟩ | ⟨hcode, -⟩ | ⟨hcode, -, -⟩
      · exact .idle hup hpr hret hnone
      · cases hcode
      · exact absurd rfl hcode
    | unclosed hret hsome hsize hclose =>
      rcases hcode with ⟨hcode, -⟩ | ⟨hcode, -⟩ | ⟨-, -, rfl⟩
      · cases hcode
      · cases hcode
      · exact .unclosed hup hpr ⟨hsome, hsize⟩ hclose
  · cases hfetched with
    | image hret hsome hsize hclose =>
      have hsame := writeImageFile_sameCameras hwrite
      obtain ⟨called, hcalled, hkind⟩ := hsame.log
      have hcall : .writeImage (r.globals.newest pr) ∈ called := by
        obtain ⟨new, hnew, hcall⟩ := writeImageFile_called hwrite
        obtain rfl : called = new := List.append_cancel_left (hcalled.symm.trans hnew)
        exact (hcall _).2 rfl
      have hactive : g₂.activeCamera = some i := hsame.activeCamera.trans hi
      have hconn : g₂.conns i = some pr.conn.disconnected := by
        rw [hsame.conns]
        exact setConn_self
      have hend : r'.globals.activeCamera = none ∧
          r'.globals.log = g₂.log ++ [.cleared i] := by
        rcases hb with ⟨rfl, rfl, rfl⟩ | ⟨rfl, rfl, rfl⟩
        · rcases hcode with ⟨hcode, -⟩ | ⟨-, hdrop⟩ | ⟨-, hcode, -⟩
          · cases hcode
          · exact dropCamera_closed hactive hconn rfl hdrop
          · exact absurd rfl hcode
        · rcases hcode with ⟨-, rfl⟩ | ⟨hcode, -⟩ | ⟨hcode, -, -⟩
          · refine ⟨rfl, ?_⟩
            show g₂.log ++ g₂.activeCamera.toList.map .cleared = _
            rw [hactive]
            rfl
          · cases hcode
          · exact absurd rfl hcode
      exact .written hup hpr hret ⟨hsome, hsize⟩ hclose hcall hkind hend.1
        (by rw [hend.2, hcalled]; rfl)

/-- The camera event loses no image: the camera does not hang up when it has sent an eligible
image; and if it has sent one by the end of its reads, `process` does not fail, and an image that
it has sent last is not too large and its socket can be closed. -/
def KeepsImages (r : Reactor P) (ev : EpollEvent) (e : CameraEnv) : Prop :=
  ∀ i c, r.globals.activeCamera = some i → r.globals.conns i = some c →
    (Hangup ev → ¬ ∃ p ∈ received r.globals.log, Eligible p) ∧
    (¬ Hangup ev →
      (∃ p ∈ received r.globals.log ++ c.completions e.process, Eligible p) →
        c.Passes e.process ∧
          ∀ p, (received r.globals.log ++ c.completions e.process).getLast? = some p → p ≠ [] →
            p.length ≤ IMAGE_BUFFER_SIZE ∧ e.close = true)

/-- A step that handles a camera event loses no image. -/
def Keeps (r : Reactor P) (e : Env) : Prop :=
  ∀ full ev rest, r.control = .dispatch full (ev :: rest) → ev.id = CAMERA_ID →
    r.KeepsImages ev e.camera

/-- The condition in terms of what `process` returns and of the image that is then the newest. -/
theorem keepsImages_iff {r : Reactor P} {ev : EpollEvent} {e : CameraEnv} {i : Slot}
    {c : Connection P} {pr : ProcessResult P} (hi : r.globals.activeCamera = some i)
    (hc : r.globals.conns i = some c) (hup : ¬ Hangup ev) (h : c.Returned e.process pr) :
    r.KeepsImages ev e ↔ ((∃ p ∈ received (r.globals.afterProcess i pr).log, Eligible p) →
      pr.ret = true ∧ (r.globals.newest pr ≠ [] →
        (r.globals.newest pr).length ≤ IMAGE_BUFFER_SIZE ∧ e.close = true)) := by
  obtain ⟨hret, haccepted⟩ := h.inputs
  rw [received_afterProcess, hret, haccepted]
  have hlast : (∀ p, (received r.globals.log ++ c.completions e.process).getLast? = some p →
      p ≠ [] → p.length ≤ IMAGE_BUFFER_SIZE ∧ e.close = true) ↔
      (r.globals.newest pr ≠ [] →
        (r.globals.newest pr).length ≤ IMAGE_BUFFER_SIZE ∧ e.close = true) := by
    constructor
    · intro hall hne
      exact hall _ (haccepted ▸ getLast?_of_newest hne) hne
    · intro hnew p hp hne
      have hnewest : r.globals.newest pr = p := by
        unfold newest
        rw [haccepted, hp]
        rfl
      exact hnewest ▸ hnew (hnewest ▸ hne)
  constructor
  · intro hkeeps heligible
    obtain ⟨hpass, hall⟩ := (hkeeps i c hi hc).2 hup heligible
    exact ⟨hpass, hlast.1 hall⟩
  · intro hkeeps j d hj hd
    obtain rfl : i = j := Option.some.inj (hi.symm.trans hj)
    obtain rfl : c = d := Option.some.inj (hc.symm.trans hd)
    refine ⟨fun hno => absurd hno hup, fun _ heligible => ?_⟩
    obtain ⟨hpass, hnew⟩ := hkeeps heligible
    exact ⟨hpass, hlast.2 hnew⟩

theorem newest_received {r : Reactor P} {i : Slot} {pr : ProcessResult P}
    (h : Eligible (r.globals.newest pr)) :
    r.globals.newest pr ∈ received (r.globals.afterProcess i pr).log := by
  rw [received_afterProcess]
  exact newest_mem h.1

/-- **A camera event** loses no image exactly when the condition holds. -/
theorem Visited.handed_iff {r r' : Reactor P} {ev : EpollEvent} {e : CameraEnv} {i : Slot}
    {c : Connection P} (hv : Visited r ev e i c r') (hi : r.globals.activeCamera = some i)
    (hc : r.globals.conns i = some c) (hsound : c.Sound)
    (hnone : ∀ p, .writeImage p ∉ since Event.isOpened r.globals.log)
    (h : Always HandedOver r.globals.log) :
    Always HandedOver r'.globals.log ↔ r.KeepsImages ev e := by
  have hafter := fun pr => handed_afterProcess h i pr
  cases hv with
  | hangup hup hdrop =>
    obtain ⟨o, ho, hlog⟩ := dropCamera_givesUp hdrop
    rw [hlog, always_concat, and_iff_right h, handedOver_iff_none ho hnone]
    refine ⟨fun hlost j d _ _ => ⟨fun _ => hlost, fun hno => absurd hup hno⟩, fun hkeeps => ?_⟩
    exact (hkeeps i c hi hc).1 hup
  | @dropped pr _ hup hpr hlost hdrop =>
    obtain ⟨o, ho, hlog⟩ := dropCamera_givesUp hdrop
    rw [keepsImages_iff hi hc hup (Connection.process_returned hsound hpr).2, hlog, always_concat,
      and_iff_right (by exact hafter pr),
      handedOver_iff_none ho (by exact unwritten_afterProcess hnone i pr)]
    refine ⟨fun hnone heligible => absurd heligible hnone, fun hkeeps heligible => ?_⟩
    obtain ⟨hret, hnew⟩ := hkeeps heligible
    rcases hlost with hfail | hsize
    · rw [hret] at hfail
      cases hfail
    · have hne : r.globals.newest pr ≠ [] := by
        intro hnil
        rw [hnil] at hsize
        exact Nat.not_lt_zero _ hsize
      exact Nat.not_lt.2 (hnew hne).1 hsize
  | @idle pr hup hpr hret hnone =>
    rw [keepsImages_iff hi hc hup (Connection.process_returned hsound hpr).2]
    exact iff_of_true (hafter pr) fun _ => ⟨hret, fun hne => absurd hnone hne⟩
  | @unclosed pr hup hpr heligible hclose =>
    rw [keepsImages_iff hi hc hup (Connection.process_returned hsound hpr).2]
    refine iff_of_false (fun hall => ?_) fun hkeeps => ?_
    · have hlost := (always_concat.1 hall).2
      rw [handedOver_iff_none ⟨i, .inr rfl⟩ (unwritten_afterProcess hnone i pr)] at hlost
      exact hlost ⟨_, newest_received heligible, heligible⟩
    · obtain ⟨-, hnew⟩ := hkeeps ⟨_, newest_received heligible, heligible⟩
      rw [(hnew heligible.1).2] at hclose
      cases hclose
  | @written pr called _ hup hpr hret heligible hclose hcalled hkind _ hlog =>
    rw [keepsImages_iff hi hc hup (Connection.process_returned hsound hpr).2]
    refine iff_of_true ?_ fun _ => ⟨hret, fun _ => ⟨heligible.2, hclose⟩⟩
    rw [hlog, always_concat]
    have hcamera : ∀ o ∈ called, ¬ GivesUp o := fun o ho hup => hkind o ho (kind_of_givesUp hup)
    refine ⟨(hafter pr).append_of_forall fun o ho => handedOver_of_not (hcamera o ho), ?_⟩
    rintro - -
    have hsame : received ((r.globals.afterProcess i pr).log ++ called) =
        received (r.globals.afterProcess i pr).log :=
      received_extends (.append hkind)
    refine ⟨r.globals.newest pr, ?_, heligible, ?_⟩
    · rw [hsame]
      exact newest_received heligible
    · rw [since_append fun o ho => isOpened_of_kind (hkind o ho)]
      exact List.mem_append_right _ hcalled

/-! ## Runs -/

/-- The connection of the active camera is as `open` and `process` leave it, and nothing has been
handed over since it was opened. -/
structure Attended (n : Nat) (r : Reactor P) : Prop extends Inv n r where
  sound : Live r → ∀ i c, r.globals.activeCamera = some i → r.globals.conns i = some c → c.Sound
  unwritten : r.globals.activeCamera.isSome →
    ∀ p, .writeImage p ∉ since Event.isOpened r.globals.log

theorem attended_initial {n : Nat} {r : Reactor P} (h : Initial n r) : Attended n r := by
  refine ⟨inv_initial h, ?_, ?_⟩
  · obtain ⟨host, username, password, malloc, g, hn, hsetup, rfl⟩ := h
    obtain ⟨-, conns, rfl, -⟩ := setup_cameras hn hsetup
    rintro - i c ⟨⟩
  · obtain ⟨host, username, password, malloc, g, hn, hsetup, rfl⟩ := h
    obtain ⟨-, conns, rfl, -⟩ := setup_cameras hn hsetup
    rintro ⟨⟩

theorem dropCamera_attended {r r' : Reactor P} {closeOk : Bool} {i : Slot} {c : Connection P}
    (hi : r.globals.activeCamera = some i) (hc : r.globals.conns i = some c) (hsound : c.Sound)
    (hnone : ∀ p, .writeImage p ∉ since Event.isOpened r.globals.log)
    (h : r.dropCamera closeOk = .ok r') :
    (∀ j d, r'.globals.activeCamera = some j → r'.globals.conns j = some d → d.Sound) ∧
      (r'.globals.activeCamera.isSome →
        ∀ p, .writeImage p ∉ since Event.isOpened r'.globals.log) := by
  obtain ⟨j, d, hj, hd, ⟨-, -, rfl⟩ | rfl⟩ := dropCamera_cases h
  · refine ⟨fun k x hk hx => ?_, fun _ => since_append_none hnone (by simp [Event.isOpened])⟩
    obtain rfl : i = k := Option.some.inj (hi.symm.trans hk)
    obtain rfl : c = x := Option.some.inj (hc.symm.trans hx)
    exact hsound
  · exact ⟨by rintro k x ⟨⟩, by rintro ⟨⟩⟩

theorem Visited.attended {r r' : Reactor P} {ev : EpollEvent} {e : CameraEnv} {i : Slot}
    {c : Connection P} (hv : Visited r ev e i c r') (hi : r.globals.activeCamera = some i)
    (hc : r.globals.conns i = some c) (hsound : c.Sound)
    (hnone : ∀ p, .writeImage p ∉ since Event.isOpened r.globals.log) :
    (∀ j d, r'.globals.activeCamera = some j → r'.globals.conns j = some d → d.Sound) ∧
      (r'.globals.activeCamera.isSome →
        ∀ p, .writeImage p ∉ since Event.isOpened r'.globals.log) := by
  have hafter := fun pr => unwritten_afterProcess hnone i pr
  have hconn : ∀ {pr : ProcessResult P}, c.process e.process = .ok pr → ∀ j d,
      r.globals.activeCamera = some j → (r.globals.afterProcess i pr).conns j = some d →
        d.Sound := by
    intro pr hpr j d hj hd
    obtain rfl : i = j := Option.some.inj (hi.symm.trans hj)
    obtain rfl : pr.conn = d := Option.some.inj (setConn_self.symm.trans hd)
    exact (Connection.process_returned hsound hpr).1
  cases hv with
  | hangup _ hdrop => exact dropCamera_attended hi hc hsound hnone hdrop
  | dropped _ hpr _ hdrop =>
    have hsound := (Connection.process_returned hsound hpr).1
    exact dropCamera_attended (by exact hi) (by exact setConn_self) hsound (hafter _) hdrop
  | idle _ hpr => exact ⟨hconn hpr, fun _ => hafter _⟩
  | unclosed _ hpr =>
    exact ⟨hconn hpr, fun _ => since_append_none (hafter _) (by simp [Event.isOpened])⟩
  | written _ _ _ _ _ _ _ hactive =>
    rw [hactive]
    exact ⟨by rintro j d ⟨⟩, by rintro ⟨⟩⟩

theorem attended_step {n : Nat} {sg : Sandgrouse} {r r' : Reactor P} {e : Env}
    (h : Attended n r) (hs : step sg r e = .ok r') : Attended n r' := by
  suffices hrest : (Live r' → ∀ i c, r'.globals.activeCamera = some i →
      r'.globals.conns i = some c → c.Sound) ∧ (r'.globals.activeCamera.isSome →
        ∀ p, .writeImage p ∉ since Event.isOpened r'.globals.log) from
    ⟨inv_step h.toInv hs, hrest.1, hrest.2⟩
  obtain ⟨-, hactive, b, hopen, hlive⟩ | ⟨full, ev, rest, r₁, hc, -, hcamera, hr⟩ |
    ⟨hsame, hlive, ⟨new, hnew, hclient⟩, -⟩ := step_sides hs
  · obtain ⟨i, c, o, -, hc, ho, rfl, hg⟩ := openNext_cases hopen
    rw [hg]
    refine ⟨fun hl j d hj hd => ?_, fun _ p => ?_⟩
    · obtain rfl : i = j := Option.some.inj hj
      obtain rfl : o.conn = d := Option.some.inj (setConn_self.symm.trans hd)
      have hret := hlive hl
      rw [Bool.and_eq_true] at hret
      exact Connection.open_sound (h.cameras.sized i c hc) (h.cameras.all_closed hactive hc) ho
        hret.1
    · show .writeImage p ∉ since Event.isOpened (r.globals.log ++ [.opened i])
      rw [since_concat rfl]
      exact List.not_mem_nil
  · have hlive : Live r := by
      intro hl
      simp [hc] at hl
    obtain ⟨i, c, hi, hc, hv⟩ := cameraEvent_visited (h.watched hlive) hcamera
    rw [hr]
    have hnone := h.unwritten (by rw [hi]; rfl)
    obtain ⟨hsound, hunwritten⟩ := hv.attended hi hc (h.sound hlive i c hi hc) hnone
    exact ⟨fun _ => hsound, hunwritten⟩
  · rw [hsame.activeCamera, hsame.conns, hnew]
    refine ⟨fun hl => h.sound (hlive hl), fun hactive => ?_⟩
    refine since_append_none (h.unwritten hactive) fun o ho => ⟨?_, ?_⟩
    · exact isOpened_of_kind (by rw [hclient o ho]; simp)
    · rintro p rfl
      cases hclient _ ho

/-- **One step.** It loses no image exactly when the condition holds. -/
theorem step_handed_iff {n : Nat} {sg : Sandgrouse} {r r' : Reactor P} {e : Env}
    (h : Attended n r) (halways : Always HandedOver r.globals.log) (hs : step sg r e = .ok r') :
    Always HandedOver r'.globals.log ↔ Keeps r e := by
  obtain ⟨hc, -, b, hopen, -⟩ | ⟨full, ev, rest, r₁, hc, hid, hcamera, hr⟩ |
    ⟨-, -, ⟨new, hnew, hclient⟩, hother⟩ := step_sides hs
  · obtain ⟨i, c, o, -, -, -, -, hg⟩ := openNext_cases hopen
    refine iff_of_true ?_ fun full ev rest hc' => by simp [hc] at hc'
    rw [hg]
    refine always_concat.2 ⟨halways, handedOver_of_not ?_ _⟩
    rintro ⟨j, hj | hj⟩
    · cases hj
    · cases hj
  · have hlive : Live r := by
      intro hl
      simp [hc] at hl
    obtain ⟨i, c, hi, hconn, hv⟩ := cameraEvent_visited (h.watched hlive) hcamera
    have hnone := h.unwritten (by rw [hi]; rfl)
    rw [hr, hv.handed_iff hi hconn (h.sound hlive i c hi hconn) hnone halways]
    refine ⟨?_, fun hkeeps => hkeeps full ev rest hc hid⟩
    rintro hkeeps full' ev' rest' hc' -
    cases hc.symm.trans hc'
    exact hkeeps
  · refine iff_of_true ?_ fun full ev rest hc hid => absurd hid (hother full ev rest hc)
    rw [hnew]
    refine halways.append_of_forall fun o ho => handedOver_of_not fun hup => ?_
    have hkind : Kind.camera = .client := (kind_of_givesUp hup).symm.trans (hclient o ho)
    cases hkind

/-- **No image is thrown away** in a run exactly when its steps lose none. -/
theorem handed_before_cleared {n : Nat} {sg : Sandgrouse} {r₀ r : Reactor P} {es : List Env}
    (h₀ : Initial n r₀) (h : run (step sg) r₀ es = .ok r) :
    Always HandedOver r.globals.log ↔ Meets (step sg) Keeps r₀ es := by
  have hstart : (∃ b, OnBoard n r₀ b) ∧ Attended n r₀ :=
    ⟨⟨.empty, onBoard_initial h₀⟩, attended_initial h₀⟩
  have hnone : Always HandedOver r₀.globals.log := by
    obtain ⟨host, username, password, malloc, g, hn, hsetup, rfl⟩ := h₀
    obtain ⟨-, conns, rfl, -⟩ := setup_cameras hn hsetup
    exact always_nil
  have hkept : ∀ (s : Reactor P) (e : Env) (s' : Reactor P),
      (∃ b, OnBoard n s b) ∧ Attended n s → step sg s e = .ok s' →
        (∃ b, OnBoard n s' b) ∧ Attended n s' :=
    fun s e s' hs hnext => ⟨onBoard_step hs.1 hnext, attended_step hs.2 hnext⟩
  have hend := run_invariant hkept hstart h
  rw [← and_iff_right (b := Always HandedOver r.globals.log) hend]
  refine run_iff_meets (I := fun s : Reactor P =>
      ((∃ b, OnBoard n s b) ∧ Attended n s) ∧ Always HandedOver s.globals.log)
    (B := fun s : Reactor P => (∃ b, OnBoard n s b) ∧ ¬ Always HandedOver s.globals.log)
    ?_ ?_ ?_ ?_ ⟨hstart, hnone⟩ h
  · intro s e s' hs hC hnext
    exact ⟨hkept s e s' hs.1 hnext, (step_handed_iff hs.1.2 hs.2 hnext).2 hC⟩
  · intro s e s' hs hC hnext
    exact ⟨(hkept s e s' hs.1 hnext).1, fun hall => hC ((step_handed_iff hs.1.2 hs.2 hnext).1 hall)⟩
  · rintro s e s' ⟨⟨b, hb⟩, hlost⟩ hnext
    -- the history only grows
    obtain ⟨new, -, hlog, -, -⟩ := step_board hb.inv hb.represents hb.run hnext
    refine ⟨onBoard_step ⟨b, hb⟩ hnext, fun hall => hlost ?_⟩
    rw [hlog] at hall
    exact hall.front
  · exact fun s hs hI => hs.2 hI.2

theorem handed_before_cleared_sample : ∃ (r₀ r : Reactor .untilEof) (es : List Env),
    Initial 1 r₀ ∧ run (step plainSandgrouse) r₀ es = .ok r ∧
      .cleared first ∈ r.globals.log ∧ Always HandedOver r.globals.log := by
  obtain ⟨conns, c, pr, h₀, hfresh, hpr, hret, haccepted, hrun, hmeets⟩ :=
    @sample_delivery 1 (by decide) (by decide) plainSandgrouse sampleMessage sampleMessage_fits
      (by decide) (by decide) first rfl
  obtain ⟨hpass, hcomplete⟩ := (Connection.process_returned hfresh.sound hpr).2.inputs
  have hkeeps := hmeets Keeps (fun r e hother full ev rest hc => absurd hc (hother _ _)) <| by
    rintro full ev rest ⟨⟩ - i d ⟨⟩ hd
    obtain rfl : c = d := Option.some.inj ((conns_afterOpen _ _ _).symm.trans hd)
    refine ⟨fun hup => absurd hup (by decide), fun _ _ => ⟨hpass.1 hret, fun p hlast _ => ?_⟩⟩
    rw [← hcomplete, haccepted] at hlast
    cases hlast
    exact ⟨by decide, rfl⟩
  refine ⟨_, _, _, h₀, hrun, ?_, (handed_before_cleared h₀ hrun).2 hkeeps⟩
  show Event.cleared first ∈ _ ++ [.cleared first]
  exact List.mem_append_right _ List.mem_cons_self

/-- When the drain that accepts an image sees the end of the stream, the image is lost. -/
theorem not_handed_before_cleared : ∃ (r₀ r : Reactor .untilEof) (es : List Env),
    Initial 1 r₀ ∧ run (step plainSandgrouse) r₀ es = .ok r ∧
      ¬ Always HandedOver r.globals.log := by
  have hfin : ∀ b, RecvResult.shutdown ≠ .data b := fun b => by simp
  obtain ⟨r₀, r, es, c, pr, h₀, hrun, hcontrol, hi, hc, hpr, hret, haccepted, hlog⟩ :=
    sample_accepts sampleMessage_fits hfin
  obtain ⟨r', hstep, hlog'⟩ := @drops .untilEof plainSandgrouse r false cameraReady [] first c pr
    (sends sampleMessage sampleMessage_fits .shutdown) hcontrol rfl (by decide) hi hc hpr
    hret rfl
  refine ⟨r₀, r', es ++ [_], h₀, run_append_ok.2 ⟨r, hrun, run_cons_ok.2 ⟨r', hstep, run_nil r'⟩⟩,
    fun halways => ?_⟩
  rw [hlog, haccepted] at hlog'
  rw [hlog', always_concat] at halways
  obtain ⟨p, -, -, hp⟩ := halways.2 ⟨first, .inl rfl⟩
    ⟨sampleMessage.payload, List.mem_cons_self, by decide, by decide⟩
  simp [since, Event.isOpened] at hp

end Reactor

end Rsva11001
