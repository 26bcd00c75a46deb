import Rsva11001.Verify.Cameras
import Rsva11001.Verify.Chunks

/-!
# Runs in which every call succeeds

What the program does when the system calls and the camera do their part: the cameras can be set
up (`setup_succeeds`), the next one is opened (`opens`), a response is read whole and its messages
completed (`process_reads`), and the image is published (`delivers`).
-/

namespace Rsva11001

open Lib

/-! ## Setting up and opening -/

namespace Globals

variable {P : HttpParser}

theorem setupFrom_succeeds {m : Nat} : ∀ {g : Globals P} {k : Nat}, k + m ≤ MAX_NUM_CAMERAS →
    g.host.length < FIELD_SIZE → g.username.length < FIELD_SIZE →
    g.password.length < FIELD_SIZE → ∃ g', g.setupFrom (fun _ => true) k m = .ok (true, g') := by
  induction m with
  | zero => exact fun _ _ _ _ => ⟨_, rfl⟩
  | succ m ih =>
    intro g k hk hhost huser hpass
    have hle : k + 1 ≤ MAX_NUM_CAMERAS := by omega
    have hconf : ∃ c, (Connection.malloc P).configure g.host g.username g.password (k + 1) =
        (true, c) := by
      unfold MAX_NUM_CAMERAS at hle
      unfold Connection.configure
      rw [if_neg (by simp [Connection.malloc]), if_neg (by omega),
        if_neg (by unfold MAX_CHAN MIN_CHAN; omega)]
      exact ⟨_, rfl⟩
    obtain ⟨c, hc⟩ := hconf
    have hslot : slot .conns k = .ok ⟨k, hle⟩ := slot_eq_ok.2 rfl
    rw [setupFrom, if_neg (by simp)]
    simp only [hc, hslot, ok_bind]
    exact ih (by omega) hhost huser hpass

/-- The cameras can be set up when every allocation succeeds and the configuration fits. -/
theorem setup_succeeds {host username password : CString} {n : Nat} (hn : n ≤ MAX_NUM_CAMERAS)
    (hhost : host.length < FIELD_SIZE) (huser : username.length < FIELD_SIZE)
    (hpass : password.length < FIELD_SIZE) :
    ∃ g, (configured P host username password n).setupCameraConnections (fun _ => true) =
      .ok (true, g) :=
  setupFrom_succeeds (by simpa [configured] using hn) hhost huser hpass

end Globals

/-- Every call made while the next camera is opened succeeds. -/
def openNextAll : Globals.OpenNextEnv where
  file := sampleFile
  «open» := openAll
  epollCtl := true

namespace Reactor

open Globals

variable {P : HttpParser} {sg : Sandgrouse}

/-- The state when the camera at `i` has been opened with the connection `c`. -/
def afterOpen (g : Globals P) (i : Slot) (c : Connection P) : Globals P :=
  (Globals.setConn { g with activeCamera := some i, cameraIterator := g.nextIterator } i c).say
    [.opened i]

@[simp] theorem conns_afterOpen (g : Globals P) (i : Slot) (c : Connection P) :
    (afterOpen g i c).conns i = some c :=
  setConn_self

/-- With no active camera the next one is opened. -/
theorem opens {n : Nat} {r : Reactor P} {e : Env} (hcams : Cameras n r.globals)
    (hcontrol : r.control = .outer) (hshutdown : r.shutdown = false)
    (hactive : r.globals.activeCamera = none) (he : e.next = openNextAll)
    (hsize : ∀ i c, i.val = r.globals.cameraIterator → r.globals.conns i = some c →
      (c.request sampleFile).length < OUTPUT_BUFFER_SIZE) :
    ∃ i c, i.val = r.globals.cameraIterator ∧ c.Fresh ∧
      step sg r e = .ok ⟨afterOpen r.globals i c, .wait, false⟩ := by
  have hlt : r.globals.cameraIterator < n := by
    rw [hcams.iterator]
    exact Nat.mod_lt _ hcams.pos
  have hle := hcams.le
  obtain ⟨i, hi⟩ : ∃ i : Slot, i.val = r.globals.cameraIterator :=
    ⟨⟨r.globals.cameraIterator, by omega⟩, rfl⟩
  obtain ⟨c, hc⟩ := Option.isSome_iff_exists.1 ((hcams.configured i).2 (by omega))
  have hopenAll : openAll.connect ≠ .error := by decide
  obtain ⟨o, ho, hret, hfresh⟩ := Connection.open_succeeds (hcams.sized i c hc)
    (hcams.all_closed hactive hc) rfl rfl hopenAll rfl (hsize i c hi hc) rfl rfl
  refine ⟨i, o.conn, hi, hfresh, ?_⟩
  have hopen : r.globals.openNextCameraConnection e.next =
      .ok (true, afterOpen r.globals i o.conn) := by
    unfold openNextCameraConnection
    rw [slot_eq_ok.2 hi, ok_bind]
    simp only [hc, asserted_some, ok_bind, he]
    rw [show openNextAll.file = sampleFile from rfl, show openNextAll.open = openAll from rfl, ho]
    simp only [ok_bind, hret, Option.map_some]
    rfl
  unfold step
  simp only [hcontrol, hshutdown, hactive, hopen, Bool.false_eq_true, if_false, ok_bind,
    Option.isSome_none, Bool.not_true]
  rfl

end Reactor

/-! ## Reading a response -/

namespace Connection

section UntilEof

variable {c : Connection .untilEof}

theorem execute_head (h : c.parser = some HttpParser.untilEof.init) :
    c.execute HttpParser.responseHead = .ok ({ c with parser := some none }, []) := by
  unfold execute
  rw [h]
  rfl

/-- In the body every block goes to the callback. -/
theorem untilEof_rest {block : List UInt8} (hne : block ≠ []) :
    HttpParser.untilEof.body none block = [block] :=
  if_neg hne

theorem execute_body {c' : Connection .untilEof} {block : List UInt8} (hne : block ≠ [])
    (h : c.parser = some none) (hrecv : c.recv block = .ok (0, c')) :
    c.execute block = .ok ({ c' with parser := some none }, (c.completed c').toList) := by
  unfold execute
  simp only [h, untilEof_rest hne, callbacks, hrecv, ok_bind]
  simp only [ne_eq, not_true_eq_false, if_false, ok_bind, pure, Except.pure, List.append_nil]
  rfl

theorem readLoop_reads {carry r : List UInt8} {ds : List (List UInt8)} {ms : List Message}
    {fin : RecvResult} (hfin : ∀ b, fin ≠ .data b)
    (h : jpgs.Reads BASE_BUFFER_SIZE carry ds ms r) :
    ∀ {c : Connection .untilEof} {latest : Option Message} {bs : List Block},
      bs.map Block.bytes = ds → Receiving c carry latest → c.parser = some none →
      ∃ c', c.readLoop (bs.map .data ++ [fin]) =
          .ok (endsBlocked [fin], c', ms.map Message.payload) ∧
        Receiving c' r (ms.getLast?.or latest) ∧ c'.sockfd = c.sockfd := by
  induction h with
  | done =>
    intro c latest bs hbs hr hp
    obtain rfl : bs = [] := List.map_eq_nil_iff.1 hbs
    refine ⟨c, ?_, hr, rfl⟩
    cases fin with
    | data b => exact absurd rfl (hfin b)
    | wouldBlock | shutdown | error => rfl
  | @keep carry d ds ms r hpart _ ih =>
    intro c latest bs hbs hr hp
    obtain ⟨b, bs, rfl, rfl, rfl⟩ := List.map_eq_cons_iff.1 hbs
    obtain ⟨c₁, heq, hr₁, hping, hsame⟩ := recv_keep hr hpart
    have hexec := execute_body b.ne_nil hp heq
    have hnone : c.completed c₁ = none := if_pos hping
    have hr₂ := (sameReceive_setParser c₁ (some none)).receiving hr₁
    obtain ⟨c', hloop, hr', hfd⟩ := ih rfl hr₂ rfl
    refine ⟨c', ?_, hr', hfd.trans hsame.sockfd⟩
    rw [List.map_cons, List.cons_append, readLoop, hexec, ok_bind]
    simp only [hloop, ok_bind, hnone]
    rfl
  | @emit carry d rest ds m ms r hframe hle hroom hcap _ ih =>
    intro c latest bs hbs hr hp
    obtain ⟨b, bs, rfl, rfl, rfl⟩ := List.map_eq_cons_iff.1 hbs
    have hlen := congrArg List.length hframe
    have hb := b.length_le
    simp only [List.length_append] at hlen
    unfold BUFFER_SIZE at hb
    obtain ⟨c₁, heq, hr₁, hping, hsame⟩ := recv_frame hr hroom (by unfold PTRDIFF_MAX; omega)
      hframe hcap hle (by unfold BASE_BUFFER_SIZE; omega)
    have hexec := execute_body b.ne_nil hp heq
    have hsome := completed_eq hping hr₁
    have hr₂ := (sameReceive_setParser c₁ (some none)).receiving hr₁
    obtain ⟨c', hloop, hr', hfd⟩ := ih rfl hr₂ rfl
    refine ⟨c', ?_, ?_, hfd.trans hsame.sockfd⟩
    · rw [List.map_cons, List.cons_append, readLoop, hexec, ok_bind]
      simp only [hloop, ok_bind, hsome]
      rfl
    · rw [List.getLast?_cons]
      cases hlast : ms.getLast? with
      | none => simpa [hlast] using hr'
      | some m => simpa [hlast] using hr'

/-- The whole request is written at once. -/
theorem writeLoop_all {P : HttpParser} {c : Connection P} (hstart : c.bytesWritten = 0)
    (hbuffer : c.outputBuffer.isSome) (hle : c.outputLength ≤ OUTPUT_BUFFER_SIZE) :
    ∃ sent, c.writeLoop [.sent OUTPUT_BUFFER_SIZE] =
      .ok (none, { c with bytesWritten := c.outputLength }, sent) := by
  obtain ⟨b, hb⟩ := Option.isSome_iff_exists.1 hbuffer
  unfold writeLoop
  rw [hstart]
  split
  · rename_i hzero
    have hsame : ({ c with bytesWritten := c.outputLength } : Connection P) = c :=
      Connection.ext rfl rfl rfl rfl rfl rfl rfl (hzero.symm.trans hstart.symm) rfl rfl rfl
        rfl rfl rfl rfl rfl rfl rfl
    exact ⟨[], by rw [hsame]⟩
  · rename_i hpos
    have hsub : subFast c.outputLength 0 = c.outputLength := by
      rw [subFast_of_le (Nat.zero_le _), Nat.sub_zero]
      unfold OUTPUT_BUFFER_SIZE at hle
      omega
    have hread : b.read 0 c.outputLength = some (b.cells.take c.outputLength) := by
      rw [Region.read_eq_some (by omega), List.drop_zero]
    have htake : ((b.cells.take c.outputLength).take OUTPUT_BUFFER_SIZE).length =
        c.outputLength := by
      rw [List.length_take, List.length_take, b.length_cells]
      omega
    simp only [hsub, hb, access_some, ok_bind, hread, htake, Nat.zero_add]
    rw [if_neg (by omega), if_neg (by decide)]
    unfold writeLoop
    rw [if_pos rfl]
    exact ⟨_, rfl⟩

end UntilEof

/-- The block with the head of the response. -/
def headBlock : Block where
  bytes := HttpParser.responseHead
  ne_nil := by decide
  length_le := by decide

/-- The socket is connected, takes the request, and yields a response with the given body. -/
def respond (bs : List Block) (fin : RecvResult) : ProcessEnv where
  poll := .ready true
  getsockopt := .pending 0
  sends := [.sent OUTPUT_BUFFER_SIZE]
  recvs := .data headBlock :: (bs.map .data ++ [fin])

/-- The socket is connected, the request is written and the head is read. -/
theorem process_respond {c : Connection .untilEof} (hc : c.Fresh) (bs : List Block)
    (fin : RecvResult) : ∃ (w : Connection .untilEof) (sent : List UInt8), Receiving w [] none ∧
      w.parser = some none ∧ w.sockfd = c.sockfd ∧ c.process (respond bs fin) = (do
        let (ret, this, accepted) ← w.readLoop (bs.map .data ++ [fin])
        return ⟨ret, this, sent, accepted⟩) := by
  have hcheck : c.checkConnected (respond bs fin) = (none, { c with connected := true }) := by
    unfold checkConnected
    rw [hc.connected]
    rfl
  obtain ⟨d, hd⟩ : ∃ d : Connection .untilEof, d = { c with connected := true } := ⟨_, rfl⟩
  obtain ⟨sent, hwrite⟩ : ∃ sent, d.writeLoop [.sent OUTPUT_BUFFER_SIZE] =
      .ok (none, { d with bytesWritten := d.outputLength }, sent) := by
    apply writeLoop_all
    · rw [hd]
      exact hc.bytesWritten
    · rw [hd]
      exact hc.outputBuffer
    · rw [hd]
      exact hc.outputLength
  obtain ⟨w, hw⟩ : ∃ w : Connection .untilEof, w = { d with bytesWritten := d.outputLength } :=
    ⟨_, rfl⟩
  have hparser : w.parser = some HttpParser.untilEof.init := by
    rw [hw, hd]
    exact hc.parser
  have hbody : Receiving w [] none := by
    have hsame : SameReceive c w := by
      rw [hw, hd]
      exact ⟨rfl, rfl, rfl, rfl, rfl, rfl⟩
    exact hsame.receiving hc.receiving
  obtain ⟨v, hv⟩ : ∃ v : Connection .untilEof, v = { w with parser := some none } := ⟨_, rfl⟩
  refine ⟨v, sent, ?_, ?_, ?_, ?_⟩
  · rw [hv]
    exact (sameReceive_setParser w (some none)).receiving hbody
  · rw [hv]
    rfl
  · rw [hv, hw, hd]
  · unfold process
    rw [if_neg (by simpa [Option.isSome_iff_ne_none] using hc.sockfd), hcheck]
    simp only [← hd]
    rw [show (respond bs fin).sends = [.sent OUTPUT_BUFFER_SIZE] from rfl, hwrite, ok_bind, ← hw]
    simp only
    rw [show (respond bs fin).recvs = .data headBlock :: (bs.map .data ++ [fin]) from rfl, readLoop,
      show headBlock.bytes = HttpParser.responseHead from rfl, execute_head hparser, ok_bind, ← hv]
    simp only
    cases v.readLoop (bs.map .data ++ [fin]) <;> rfl

/-- **A response is read.** The messages of its body are completed as the reader that looks for one
message per chunk completes them. -/
theorem process_reads {c : Connection .untilEof} (hc : c.Fresh) {bs : List Block}
    {ms : List Message} {r : List UInt8} {fin : RecvResult} (hfin : ∀ b, fin ≠ .data b)
    (h : jpgs.Reads BASE_BUFFER_SIZE [] (bs.map Block.bytes) ms r) :
    ∃ pr, c.process (respond bs fin) = .ok pr ∧ pr.ret = endsBlocked [fin] ∧
      pr.accepted = ms.map Message.payload ∧ Receiving pr.conn r ms.getLast? ∧
      pr.conn.sockfd = c.sockfd := by
  obtain ⟨w, sent, hbody, hparser, hsockfd, hprocess⟩ := process_respond hc bs fin
  obtain ⟨c', hloop, hr', hfd⟩ := readLoop_reads hfin h rfl hbody hparser
  rw [Option.or_none] at hr'
  refine ⟨⟨endsBlocked [fin], c', sent, ms.map Message.payload⟩, ?_, rfl, rfl, hr',
    hfd.trans hsockfd⟩
  rw [hprocess, hloop]
  rfl

end Connection

/-- A message that fits the receive buffer, read in two blocks. -/
def halves (m : Message) (h : m.encode.length ≤ BASE_BUFFER_SIZE) : List Block :=
  have hlen := m.length_encode
  [⟨m.encode.take (m.encode.length / 2), by
      rw [← List.length_pos_iff, List.length_take]
      omega,
    by
      unfold BASE_BUFFER_SIZE at h
      unfold BUFFER_SIZE
      rw [List.length_take]
      omega⟩,
    ⟨m.encode.drop (m.encode.length / 2), by
      rw [← List.length_pos_iff, List.length_drop]
      omega,
    by
      unfold BASE_BUFFER_SIZE at h
      unfold BUFFER_SIZE
      rw [List.length_drop]
      omega⟩]

theorem reads_halves (m : Message) (h : m.encode.length ≤ BASE_BUFFER_SIZE) :
    jpgs.Reads BASE_BUFFER_SIZE [] ((halves m h).map Block.bytes) [m] [] := by
  have hlen := m.length_encode
  have htake : (m.encode.take (m.encode.length / 2)).length = m.encode.length / 2 := by
    rw [List.length_take]
    omega
  have hframe : [] ++ m.encode.take (m.encode.length / 2) ++ m.encode.drop (m.encode.length / 2) =
      jpgs.encode m ++ [] := by
    rw [List.nil_append, List.take_append_drop, List.append_nil, jpgs_encode]
  apply Framing.Reads.keep
  · refine ⟨m, List.take_prefix _ _, ?_, h⟩
    rw [List.nil_append, htake, jpgs_encode]
    omega
  · refine .emit hframe ?_ ?_ h .done
    · rw [List.nil_append, htake, jpgs_encode]
      omega
    · rw [List.nil_append, htake]
      omega

/-! ## Publishing an image -/

/-- Every call made by `writeImageFile` succeeds, and no request becomes ready meanwhile. -/
def writeAll : WriteEnv where
  unlink := .ok
  «open» := some 7
  ftruncate := true
  mmap := some 4096
  close := true
  munmap := true
  responses := fun _ => true
  server := ⟨true, []⟩

namespace Globals

/-- The state when an image has been stored at `i`, where none was and no request waited. -/
def published {P : HttpParser} (g : Globals P) (i : Slot) (image : List UInt8) : Globals P :=
  ((g.say [.writeImage image, .fileOpened 7, .mapped 4096 image.length,
    .fileClosed 7]).setLastImage i ⟨some ⟨4096, image⟩, image.length⟩).say [.stored i image]

theorem publishes {P : HttpParser} {g : Globals P} {i : Slot} (image : List UInt8)
    (hi : i.val = g.cameraIterator) (hnone : (g.lastImage i).data = none)
    (hempty : (g.pendingRequests i).numPending = 0) :
    g.writeImageFile image writeAll = .ok (true, g.published i image) := by
  have hqueue : Function.update g.pendingRequests i { g.pendingRequests i with numPending := 0 } =
      g.pendingRequests := by
    rw [show ({ g.pendingRequests i with numPending := 0 } : PendingRequests) =
      g.pendingRequests i by rw [← hempty], Function.update_eq_self]
  have hslot : slot .lastImage g.cameraIterator = .ok i := slot_eq_ok.2 hi
  unfold writeImageFile
  simp only [writeAll, reduceCtorEq, if_false, Bool.not_true, Bool.false_eq_true, say, hslot,
    ok_bind, hnone]
  unfold storeImage
  simp only [setLastImage, say, hempty, fillPending, ok_bind, setQueue, hqueue, serverProcess,
    published, List.append_nil, List.append_assoc, List.cons_append, List.nil_append]
  rfl

/-- A response whose last message has an image that the adapter takes. -/
theorem retrieves {g : Globals .untilEof} {i : Slot} {c : Connection .untilEof} {bs : List Block}
    {ms : List Message} {m : Message} {r : List UInt8} {e : CameraEnv}
    (hactive : g.activeCamera = some i) (hc : g.conns i = some c) (hfresh : c.Fresh)
    (h : jpgs.Reads BASE_BUFFER_SIZE [] (bs.map Block.bytes) ms r)
    (hlast : ms.getLast? = some m) (hne : m.payload ≠ [])
    (hle : m.payload.length ≤ IMAGE_BUFFER_SIZE)
    (he : e.process = Connection.respond bs .wouldBlock) (hclose : e.close = true) :
    ∃ pr, c.process e.process = .ok pr ∧ pr.ret = true ∧ pr.accepted = ms.map Message.payload ∧
      g.retrieveImage e = .ok (.write m.payload,
        (g.afterProcess i pr).setConn i pr.conn.disconnected) := by
  have hfin : ∀ b, RecvResult.wouldBlock ≠ .data b := fun b => by simp
  obtain ⟨pr, hpr, hret, haccepted, hrecv, hfd⟩ := Connection.process_reads hfresh hfin h
  have hopen : pr.conn.sockfd.isSome := by
    rw [hfd]
    exact hfresh.sockfd
  have himage := Connection.getLatestImage_eq hrecv IMAGE_BUFFER_SIZE
  rw [hlast, Connection.latestImage_eq (by rintro m ⟨⟩; exact hle)] at himage
  refine ⟨pr, by rw [he, hpr], hret, haccepted, ?_⟩
  unfold retrieveImage
  simp only [hactive, asserted_some, ok_bind, hc, access_some, he, hpr]
  rw [if_neg (by rw [hret]; simp [endsBlocked]), himage]
  simp only [ok_bind, Connection.imageBytes, Bool.not_true, Bool.false_eq_true, if_false,
    Connection.close_isOpen hopen, hclose, if_true, List.take_length]
  rw [if_neg (by simpa using hne)]
  rfl

/-- The state when the camera at `i` has been closed with the image, and the image stored at `j`. -/
def delivered {P : HttpParser} (g : Globals P) (i j : Slot) (pr : ProcessResult P)
    (image : List UInt8) : Globals P :=
  (((g.afterProcess i pr).setConn i pr.conn.disconnected).published j image).clearActive

section Delivered

variable {P : HttpParser} (g : Globals P) (i j : Slot) (pr : ProcessResult P) (image : List UInt8)

theorem conns_delivered_of_ne {k : Slot} (h : k ≠ i) :
    (g.delivered i j pr image).conns k = g.conns k := by
  simp only [delivered, published, clearActive, afterProcess, say, setConn, setLastImage,
    Function.update_of_ne h]

@[simp] theorem lastImage_delivered :
    (g.delivered i j pr image).lastImage j = ⟨some ⟨4096, image⟩, image.length⟩ := by
  simp only [delivered, published, clearActive, say, setLastImage, Function.update_self]

theorem log_delivered (h : g.activeCamera = some i) : (g.delivered i j pr image).log =
    g.log ++ pr.accepted.map (.accepted i) ++ [.writeImage image, .fileOpened 7,
      .mapped 4096 image.length, .fileClosed 7, .stored j image, .cleared i] := by
  simp only [delivered, published, clearActive, afterProcess, say, setConn, setLastImage, h,
    List.append_assoc]
  rfl

end Delivered

end Globals

namespace Reactor

open Globals

/-- An image is retrieved and published. -/
theorem writes {P : HttpParser} {sg : Sandgrouse} {r : Reactor P} {full : Bool} {ev : EpollEvent}
    {rest : List EpollEvent} {g g' : Globals P} {image : List UInt8} {e : Env}
    (hcontrol : r.control = .dispatch full (ev :: rest)) (hid : ev.id = CAMERA_ID)
    (hup : ¬ Hangup ev) (hretrieve : r.globals.retrieveImage e.camera = .ok (.write image, g))
    (hwrite : g.writeImageFile image e.camera.write = .ok (true, g')) :
    step sg r e = .ok ⟨g'.clearActive, .dispatch full rest, r.shutdown⟩ := by
  have hcamera : r.globals.processActiveCamera e.camera = .ok (0, g'.clearActive) := by
    unfold processActiveCamera
    rw [hretrieve, ok_bind]
    simp only [hwrite, ok_bind]
    rfl
  have hevent : r.cameraEvent ev e.camera = .ok { r with globals := g'.clearActive } := by
    unfold cameraEvent
    rw [if_neg (by exact hup), hcamera]
    rfl
  unfold step
  simp only [hcontrol]
  unfold dispatchEvent
  rw [if_pos hid, hevent]
  rfl

/-- An image is delivered: it is stored at the slot that the iterator has come to. -/
theorem delivers {sg : Sandgrouse} {r : Reactor .untilEof} {full : Bool} {ev : EpollEvent}
    {rest : List EpollEvent} {i j : Slot} {c : Connection .untilEof} {bs : List Block}
    {ms : List Message} {m : Message} {tail : List UInt8} {e : Env}
    (hcontrol : r.control = .dispatch full (ev :: rest)) (hid : ev.id = CAMERA_ID)
    (hup : ¬ Hangup ev) (hactive : r.globals.activeCamera = some i)
    (hc : r.globals.conns i = some c) (hfresh : c.Fresh) (hj : j.val = r.globals.cameraIterator)
    (hnone : (r.globals.lastImage j).data = none)
    (hempty : (r.globals.pendingRequests j).numPending = 0)
    (h : jpgs.Reads BASE_BUFFER_SIZE [] (bs.map Block.bytes) ms tail)
    (hlast : ms.getLast? = some m) (hne : m.payload ≠ [])
    (hle : m.payload.length ≤ IMAGE_BUFFER_SIZE)
    (hprocess : e.camera.process = Connection.respond bs .wouldBlock)
    (hclose : e.camera.close = true) (hwrite : e.camera.write = writeAll) :
    ∃ pr, c.process e.camera.process = .ok pr ∧ pr.ret = true ∧
      pr.accepted = ms.map Message.payload ∧ step sg r e =
        .ok ⟨r.globals.delivered i j pr m.payload, .dispatch full rest, r.shutdown⟩ := by
  obtain ⟨pr, hpr, hret, haccepted, hretrieve⟩ :=
    retrieves hactive hc hfresh h hlast hne hle hprocess hclose
  refine ⟨pr, hpr, hret, haccepted, ?_⟩
  obtain ⟨g, hg⟩ : ∃ g, g = (r.globals.afterProcess i pr).setConn i pr.conn.disconnected :=
    ⟨_, rfl⟩
  have hpublish : g.writeImageFile m.payload writeAll = .ok (true, g.published j m.payload) := by
    apply publishes
    · rw [hg]
      exact hj
    · rw [hg]
      exact hnone
    · rw [hg]
      exact hempty
  rw [← hg] at hretrieve
  have hstep := @writes _ sg r full ev rest g _ m.payload e hcontrol hid hup hretrieve
    (by rw [hwrite, hpublish])
  rw [hstep, hg]
  rfl

/-- A camera whose socket closes is dropped. -/
theorem dropped {P : HttpParser} {r : Reactor P} {i : Slot} {c : Connection P}
    (hactive : r.globals.activeCamera = some i) (hc : r.globals.conns i = some c) :
    ∃ r', r.dropCamera true = .ok r' ∧ r'.globals.log = r.globals.log ++ [.cleared i] := by
  have hclosed : (c.close true).1 = true := by
    unfold Connection.close
    split
    · rfl
    · rfl
  unfold dropCamera
  simp only [hactive, hc, access_some, ok_bind, hclosed, Bool.not_true, Bool.false_eq_true,
    if_false]
  refine ⟨_, rfl, ?_⟩
  show r.globals.log ++ r.globals.activeCamera.toList.map .cleared = _
  rw [hactive]
  rfl

/-- A camera whose image could not be retrieved or published is dropped. -/
theorem fails {P : HttpParser} {sg : Sandgrouse} {r : Reactor P} {full : Bool} {ev : EpollEvent}
    {rest : List EpollEvent} {i : Slot} {c : Connection P} {g : Globals P} {e : Env}
    (hcontrol : r.control = .dispatch full (ev :: rest)) (hid : ev.id = CAMERA_ID)
    (hup : ¬ Hangup ev) (hcamera : r.globals.processActiveCamera e.camera = .ok (-1, g))
    (hactive : g.activeCamera = some i) (hc : g.conns i = some c)
    (hclose : e.camera.closeAfter = true) :
    ∃ r', step sg r e = .ok r' ∧ r'.globals.log = g.log ++ [.cleared i] := by
  obtain ⟨r₂, hr₂, hlog⟩ := @dropped P { r with globals := g } i c hactive hc
  have hevent : r.cameraEvent ev e.camera = .ok r₂ := by
    unfold cameraEvent
    rw [if_neg (by exact hup), hcamera, hclose]
    simp only [ok_bind]
    rw [hr₂]
    rfl
  refine ⟨{ r₂ with control := .dispatch full rest }, ?_, hlog⟩
  unfold step
  simp only [hcontrol]
  unfold dispatchEvent
  rw [if_pos hid, hevent]
  rfl

/-- A camera whose `process` fails is dropped. -/
theorem drops {P : HttpParser} {sg : Sandgrouse} {r : Reactor P} {full : Bool} {ev : EpollEvent}
    {rest : List EpollEvent} {i : Slot} {c : Connection P} {pr : ProcessResult P} {e : Env}
    (hcontrol : r.control = .dispatch full (ev :: rest)) (hid : ev.id = CAMERA_ID)
    (hup : ¬ Hangup ev) (hactive : r.globals.activeCamera = some i)
    (hc : r.globals.conns i = some c) (hp : c.process e.camera.process = .ok pr)
    (hret : pr.ret = false) (hclose : e.camera.closeAfter = true) :
    ∃ r', step sg r e = .ok r' ∧ r'.globals.log =
      r.globals.log ++ pr.accepted.map (.accepted i) ++ [.cleared i] := by
  have hcamera :
      r.globals.processActiveCamera e.camera = .ok (-1, r.globals.afterProcess i pr) := by
    unfold processActiveCamera retrieveImage
    simp only [hactive, asserted_some, ok_bind, hc, access_some, hp, hret, Bool.not_false, if_true]
    rfl
  exact fails hcontrol hid hup hcamera hactive setConn_self hclose

end Reactor

/-! ## A sample run -/

/-- The results with which every call succeeds and nothing happens. -/
def calm : Env where
  next := openNextAll
  wait := .interrupted
  camera := ⟨Connection.respond [] .wouldBlock, true, writeAll, true⟩
  server := ⟨true, []⟩
  request := ⟨Region.fill 0 QUERY_BUFFER_SIZE, true⟩

/-- The same, when `epoll_wait` reports the events of the batch. -/
def reports (batch : Batch) : Env :=
  { calm with wait := .events batch }

def cameraReady : EpollEvent :=
  ⟨CAMERA_ID, 1⟩

def serverReady : EpollEvent :=
  ⟨SCGI_ID, 1⟩

def serverBatch : Batch :=
  ⟨[serverReady], by decide⟩

def bothBatch : Batch :=
  ⟨[cameraReady, serverReady], by decide⟩

def first : Slot :=
  ⟨0, by decide⟩

/-- Behind the last request that is ready the server is called, and others may become ready. -/
theorem serves_idle {P : HttpParser} (sg : Sandgrouse) {g : Globals P} (hready : g.ready = [])
    (ready : List SgConnection) : Reactor.step sg ⟨g, .serve false [], false⟩
      { calm with server := ⟨true, ready⟩ } =
        .ok ⟨g.serverProcess ⟨true, ready⟩, .dispatch false [], false⟩ := by
  unfold Reactor.step
  simp only [hready]
  rfl

/-- The reactor waits again while a camera is active. -/
theorem waits_again {P : HttpParser} (sg : Sandgrouse) {g : Globals P}
    (hactive : g.activeCamera.isSome = true) :
    Reactor.step sg ⟨g, .outer, false⟩ calm = .ok ⟨g, .wait, false⟩ := by
  unfold Reactor.step
  simp only [hactive, Bool.false_eq_true, if_false, if_true]

/-- A query string parser that keeps the fields of the query and copies a value as it stands. -/
def plainSandgrouse : Sandgrouse where
  Query := List (CString × CString)
  init s := some ((s.splitOn 38).map fun f => (f.takeWhile (· ≠ 61), (f.dropWhile (· ≠ 61)).drop 1))
  findFirst query key buffer _ := do
    let field ← query.find? fun f => f.1 = key
    let buffer ← buffer.write 0 field.2
    return (query, buffer, field.2.length)

/-- A request for the image of the first camera. -/
def sampleRequest (id : Nat) (wait : String) : SgConnection where
  id := id
  method := some (ascii "GET")
  pathInfo := some (ascii "/camera.jpg")
  queryString := some (ascii "source=&wait=" ++ ascii wait)
  httpHost := none

/-- A request with an empty `source` is for the first camera. -/
theorem route_first {sg : Sandgrouse} {n len : Nat} {conn : SgConnection}
    {stack b₁ b₂ : QueryBuffer}
    {q₀ q₁ q₂ : sg.Query} (hn : 1 ≤ n) (hmethod : conn.method = some (ascii "GET"))
    (hpath : conn.pathInfo = some (ascii "/camera.jpg"))
    (hquery : conn.queryString.bind sg.init = some q₀)
    (hsource : sg.findFirst q₀ (ascii "source") stack QUERY_BUFFER_SIZE = some (q₁, b₁, 0))
    (hwait : sg.findFirst q₁ (ascii "wait") b₁ QUERY_BUFFER_SIZE = some (q₂, b₂, len)) :
    route sg n conn stack =
      .ok (if len = 1 ∧ b₂.cells.take 1 = ascii "1" then .wait 0 else .send 0) := by
  unfold route
  rw [if_neg (not_not.2 hmethod), if_neg (not_not.2 hpath)]
  simp only [hquery, hsource, parseSource, if_true, ok_bind, hwait]
  rw [if_neg (by omega)]
  split
  · rfl
  · rfl

theorem route_sampleRequest {n : Nat} (hn : 1 ≤ n) (id : Nat) (stack : QueryBuffer) :
    route plainSandgrouse n (sampleRequest id "1") stack = .ok (.wait 0) ∧
      route plainSandgrouse n (sampleRequest id "0") stack = .ok (.send 0) := by
  have hwrite : ∀ (b : QueryBuffer) (v : CString), v.length ≤ QUERY_BUFFER_SIZE →
      ∃ b', b.write 0 v = some b' ∧ b'.cells.take v.length = v := by
    intro b v hv
    obtain ⟨b', hb', hcells⟩ := @Region.write_eq_some _ _ b 0 v (by omega)
    exact ⟨b', hb', by simpa using hcells⟩
  obtain ⟨b₁, hb₁, -⟩ := hwrite stack [] (by decide)
  have hroute : ∀ w : String, (ascii w).length = 1 →
      plainSandgrouse.init (ascii "source=&wait=" ++ ascii w) =
        some [(ascii "source", []), (ascii "wait", ascii w)] →
      route plainSandgrouse n (sampleRequest id w) stack =
        .ok (if ascii w = ascii "1" then .wait 0 else .send 0) := by
    intro w hw hinit
    obtain ⟨b₂, hb₂, htake⟩ := hwrite b₁ (ascii w) (by rw [hw]; decide)
    obtain ⟨query, hq⟩ : ∃ query, query = [(ascii "source", []), (ascii "wait", ascii w)] :=
      ⟨_, rfl⟩
    have hsource : plainSandgrouse.findFirst query (ascii "source") stack QUERY_BUFFER_SIZE =
        some (query, b₁, 0) := by
      have hfind : query.find? (fun f => f.1 = ascii "source") = some (ascii "source", []) := by
        rw [hq]
        rfl
      simp only [plainSandgrouse, hfind, Option.bind_eq_bind, Option.bind_some, hb₁]
      rfl
    have hwait : plainSandgrouse.findFirst query (ascii "wait") b₁ QUERY_BUFFER_SIZE =
        some (query, b₂, 1) := by
      have hfind : query.find? (fun f => f.1 = ascii "wait") = some (ascii "wait", ascii w) := by
        rw [hq]
        rfl
      simp only [plainSandgrouse, hfind, Option.bind_eq_bind, Option.bind_some, hb₂, hw]
      rfl
    rw [← hq] at hinit
    rw [@route_first plainSandgrouse n 1 (sampleRequest id w) stack b₁ b₂ query query query hn rfl
      rfl hinit hsource hwait]
    rw [hw] at htake
    simp only [htake, true_and]
  refine ⟨?_, ?_⟩
  · exact hroute "1" rfl rfl
  · exact hroute "0" rfl rfl

namespace Reactor

open Globals

/-- The globals with `n` cameras set up. -/
def sampleGlobals (P : HttpParser) (n : Nat) (conns : Slot → Option (Connection P)) : Globals P :=
  { configured P (ascii "dvr") (ascii "admin") (ascii "secret") n with conns }

theorem length_request_setUp (P : HttpParser) (i : Slot) :
    ((setUp P (ascii "dvr") (ascii "admin") (ascii "secret") i).request sampleFile).length <
      OUTPUT_BUFFER_SIZE := by
  have hdecimal : ∀ i : Slot, (decimal (i.val + 1)).length = 1 := by decide
  rw [Connection.length_request]
  show 92 + (ascii "admin").length + (ascii "secret").length + (decimal (i.val + 1)).length +
    sampleFile.length + (ascii "dvr").length < OUTPUT_BUFFER_SIZE
  rw [hdecimal i]
  decide

/-- The cameras are those that have been set up. -/
theorem sample_conns {P : HttpParser} {n : Nat} {conns : Slot → Option (Connection P)}
    (h : Initial n (start (sampleGlobals P n conns))) {i : Slot} {c : Connection P}
    (hc : conns i = some c) : c = setUp P (ascii "dvr") (ascii "admin") (ascii "secret") i := by
  obtain ⟨host, username, password, malloc, g, hn, hsetup, hstart⟩ := h
  obtain ⟨-, conns', rfl, hconns⟩ := setup_cameras hn hsetup
  have hglobals := congrArg Reactor.globals hstart
  obtain rfl : ascii "dvr" = host := congrArg Globals.host hglobals
  obtain rfl : ascii "admin" = username := congrArg Globals.username hglobals
  obtain rfl : ascii "secret" = password := congrArg Globals.password hglobals
  obtain rfl : conns = conns' := congrArg Globals.conns hglobals
  exact hconns i c hc

/-- Any number of cameras that the table has room for can be set up, and the reactor then opens the
first. -/
theorem sample_setUp {P : HttpParser} {n : Nat} (hn : 1 ≤ n) (hle : n ≤ MAX_NUM_CAMERAS)
    (sg : Sandgrouse) : ∃ conns c,
      (configured P (ascii "dvr") (ascii "admin") (ascii "secret") n).setupCameraConnections
        (fun _ => true) = .ok (true, sampleGlobals P n conns) ∧ c.Fresh ∧
      step sg (start (sampleGlobals P n conns)) calm =
        .ok ⟨afterOpen (sampleGlobals P n conns) first c, .wait, false⟩ := by
  obtain ⟨g, hg⟩ := @setup_succeeds P (ascii "dvr") (ascii "admin") (ascii "secret") n hle
    (by decide) (by decide) (by decide)
  obtain ⟨hcams, conns, rfl, hconns⟩ := setup_cameras hn hg
  have hsize : ∀ (i : Slot) c, i.val = 0 → conns i = some c →
      (c.request sampleFile).length < OUTPUT_BUFFER_SIZE := by
    intro i c _ hc
    rw [hconns i c hc]
    exact length_request_setUp P i
  obtain ⟨i, c, hi, hfresh, hstep⟩ := @opens P sg n (start (sampleGlobals P n conns)) calm hcams
    rfl rfl rfl rfl hsize
  obtain rfl : i = first := Fin.ext hi
  exact ⟨conns, c, hg, hfresh, hstep⟩

theorem sample_opens {P : HttpParser} {n : Nat} (hn : 1 ≤ n) (hle : n ≤ MAX_NUM_CAMERAS)
    (sg : Sandgrouse) : ∃ conns c, Initial n (start (sampleGlobals P n conns)) ∧ c.Fresh ∧
      step sg (start (sampleGlobals P n conns)) calm =
        .ok ⟨afterOpen (sampleGlobals P n conns) first c, .wait, false⟩ := by
  obtain ⟨conns, c, hsetup, hfresh, hstep⟩ := @sample_setUp P n hn hle sg
  exact ⟨conns, c, ⟨_, _, _, _, _, hn, hsetup, rfl⟩, hfresh, hstep⟩

/-- The results of the calls when the camera sends a message in two blocks. -/
def sends (m : Message) (h : m.encode.length ≤ BASE_BUFFER_SIZE) (fin : RecvResult) : Env :=
  { calm with camera := ⟨Connection.respond (halves m h) fin, true, writeAll, true⟩ }

/-- The first camera is opened, and events are reported. -/
theorem sample_reports {P : HttpParser} {n : Nat} (hn : 1 ≤ n) (hle : n ≤ MAX_NUM_CAMERAS)
    (sg : Sandgrouse) : ∃ conns c, Initial n (start (sampleGlobals P n conns)) ∧ c.Fresh ∧
      ∀ batch, run (step sg) (start (sampleGlobals P n conns)) [calm, reports batch] =
        .ok ⟨afterOpen (sampleGlobals P n conns) first c,
          .dispatch (batch.events.length = MAX_EVENTS) batch.events, false⟩ := by
  obtain ⟨conns, c, h₀, hfresh, hopen⟩ := @sample_opens P n hn hle sg
  refine ⟨conns, c, h₀, hfresh, fun batch => ?_⟩
  exact run_cons_ok.2 ⟨_, hopen, run_cons_ok.2 ⟨_, rfl, run_nil _⟩⟩

/-- The first camera is opened, and when its event is reported, its image is delivered. -/
theorem sample_delivers {n : Nat} (hn : 1 ≤ n) (hle : n ≤ MAX_NUM_CAMERAS) (sg : Sandgrouse)
    (full : Bool) (rest : List EpollEvent) {m : Message}
    (h : m.encode.length ≤ BASE_BUFFER_SIZE) (hne : m.payload ≠ [])
    (hsize : m.payload.length ≤ IMAGE_BUFFER_SIZE) {j : Slot} (hj : j.val = 1 % n) :
    ∃ conns c pr, Initial n (start (sampleGlobals .untilEof n conns)) ∧ c.Fresh ∧
      step sg (start (sampleGlobals .untilEof n conns)) calm =
        .ok ⟨afterOpen (sampleGlobals .untilEof n conns) first c, .wait, false⟩ ∧
      c.process (sends m h .wouldBlock).camera.process = .ok pr ∧ pr.ret = true ∧
      pr.accepted = [m.payload] ∧
      step sg ⟨afterOpen (sampleGlobals .untilEof n conns) first c,
          .dispatch full (cameraReady :: rest), false⟩
          (sends m h .wouldBlock) =
        .ok ⟨(afterOpen (sampleGlobals .untilEof n conns) first c).delivered first j pr m.payload,
          .dispatch full rest, false⟩ := by
  obtain ⟨conns, c, h₀, hfresh, hopen⟩ := @sample_opens .untilEof n hn hle sg
  have hiterator :
      j.val = (afterOpen (sampleGlobals .untilEof n conns) first c).cameraIterator := by
    rw [hj]
    show _ = if (0 + 1) % 2 ^ 32 ≥ n then 0 else (0 + 1) % 2 ^ 32
    split
    · obtain rfl : n = 1 := by omega
      rfl
    · exact Nat.mod_eq_of_lt (by omega)
  obtain ⟨pr, hpr, hret, haccepted, hstep⟩ := @delivers sg
    ⟨afterOpen (sampleGlobals .untilEof n conns) first c, .dispatch full (cameraReady :: rest),
      false⟩ _ cameraReady rest first j c (halves m h) [m] m [] (sends m h .wouldBlock) rfl rfl
    (by decide) rfl (conns_afterOpen _ _ _) hfresh hiterator rfl rfl (reads_halves m h) rfl hne
    hsize rfl rfl rfl
  exact ⟨conns, c, pr, h₀, hfresh, hopen, hpr, hret, haccepted, hstep⟩

/-- The inputs of a run in which the first camera delivers an image. -/
def delivery (m : Message) (h : m.encode.length ≤ BASE_BUFFER_SIZE) : List Env :=
  [calm, reports ⟨[cameraReady], by decide⟩, sends m h .wouldBlock]

/-- The run, for the conditions that say nothing about the steps before the image comes. -/
theorem sample_delivery {n : Nat} (hn : 1 ≤ n) (hle : n ≤ MAX_NUM_CAMERAS) (sg : Sandgrouse)
    {m : Message} (h : m.encode.length ≤ BASE_BUFFER_SIZE) (hne : m.payload ≠ [])
    (hsize : m.payload.length ≤ IMAGE_BUFFER_SIZE) {j : Slot} (hj : j.val = 1 % n) :
    ∃ conns c pr, Initial n (start (sampleGlobals .untilEof n conns)) ∧ c.Fresh ∧
      c.process (sends m h .wouldBlock).camera.process = .ok pr ∧ pr.ret = true ∧
      pr.accepted = [m.payload] ∧
      run (step sg) (start (sampleGlobals .untilEof n conns)) (delivery m h) =
        .ok ⟨(afterOpen (sampleGlobals .untilEof n conns) first c).delivered first j pr m.payload,
          .dispatch false [], false⟩ ∧
      ∀ C : Reactor .untilEof → Env → Prop,
        (∀ r e, (∀ full rest, r.control ≠ .dispatch full rest) → C r e) →
        C ⟨afterOpen (sampleGlobals .untilEof n conns) first c, .dispatch false [cameraReady],
          false⟩ (sends m h .wouldBlock) →
        Meets (step sg) C (start (sampleGlobals .untilEof n conns)) (delivery m h) := by
  obtain ⟨conns, c, pr, h₀, hfresh, hopen, hpr, hret, haccepted, hstep⟩ :=
    @sample_delivers n hn hle sg false [] m h hne hsize j hj
  have hwait : step sg ⟨afterOpen (sampleGlobals .untilEof n conns) first c, .wait, false⟩
      (reports ⟨[cameraReady], by decide⟩) =
        .ok ⟨afterOpen (sampleGlobals .untilEof n conns) first c, .dispatch false [cameraReady],
          false⟩ :=
    rfl
  refine ⟨conns, c, pr, h₀, hfresh, hpr, hret, haccepted, run_cons_ok.2 ⟨_, hopen,
    run_cons_ok.2 ⟨_, hwait, run_cons_ok.2 ⟨_, hstep, run_nil _⟩⟩⟩, fun C hother hlast => ?_⟩
  rw [delivery, meets_cons_ok hopen, meets_cons_ok hwait, meets_cons_ok hstep]
  exact ⟨hother _ _ (by simp [start]), hother _ _ (by simp), hlast, trivial⟩

end Reactor

end Rsva11001
