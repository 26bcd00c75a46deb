import Rsva11001.Adapter.Reactor
import Rsva11001.Verify.Process

/-!
# What the handlers of the reactor can do

One lemma for each function of the adapter says what a call of it that returns has done. The
functions fall on two sides: those that move the cameras leave files, images and requests alone
(`OnlyCameras`), those that publish an image or handle a request leave the cameras alone
(`SameCameras`). `step_cases` lists the steps of the reactor.
-/

namespace Rsva11001

open Lib

/-- The side of the adapter that an entry of the history is about. -/
inductive Kind where
  | camera
  | file
  | client
  deriving DecidableEq, Repr

def Event.kind : Event → Kind
  | .opened _ | .accepted _ _ | .unclosed _ | .cleared _ => .camera
  | .writeImage _ | .fileOpened _ | .fileClosed _ | .mapped _ _ | .unmapped _ _ => .file
  | .stored _ _ | .handed _ | .routed _ _ | .queued _ _ _ | .response _ _ => .client

namespace Globals

variable {P : HttpParser}

/-- The camera side is the same. -/
structure SameCameras (g g' : Globals P) : Prop where
  conns : g'.conns = g.conns
  activeCamera : g'.activeCamera = g.activeCamera
  cameraIterator : g'.cameraIterator = g.cameraIterator
  numCameras : g'.numCameras = g.numCameras
  log : Extends (fun o => o.kind ≠ .camera) g.log g'.log

/-- The client side is the same. -/
structure SameClients (g g' : Globals P) : Prop where
  lastImage : g'.lastImage = g.lastImage
  pendingRequests : g'.pendingRequests = g.pendingRequests
  log : Extends (fun o => o.kind ≠ .client) g.log g'.log

/-- Only cameras are concerned: files, images and requests are the same. -/
structure OnlyCameras (g g' : Globals P) : Prop where
  lastImage : g'.lastImage = g.lastImage
  pendingRequests : g'.pendingRequests = g.pendingRequests
  log : Extends (fun o => o.kind = .camera) g.log g'.log

/-- Only requests are concerned: cameras, files and images are the same. -/
structure OnlyRequests (g g' : Globals P) : Prop where
  conns : g'.conns = g.conns
  activeCamera : g'.activeCamera = g.activeCamera
  cameraIterator : g'.cameraIterator = g.cameraIterator
  numCameras : g'.numCameras = g.numCameras
  lastImage : g'.lastImage = g.lastImage
  log : Extends (fun o => o.kind = .client) g.log g'.log

theorem OnlyCameras.refl (g : Globals P) : OnlyCameras g g :=
  ⟨rfl, rfl, .refl _⟩

theorem OnlyCameras.trans {g g₁ g₂ : Globals P} (h : OnlyCameras g g₁) (h' : OnlyCameras g₁ g₂) :
    OnlyCameras g g₂ :=
  ⟨h'.lastImage.trans h.lastImage, h'.pendingRequests.trans h.pendingRequests, h.log.trans h'.log⟩

theorem OnlyCameras.sameClients {g g' : Globals P} (h : OnlyCameras g g') : SameClients g g' :=
  ⟨h.lastImage, h.pendingRequests, h.log.mono fun o ho => by simp [ho]⟩

theorem OnlyRequests.trans {g g₁ g₂ : Globals P} (h : OnlyRequests g g₁)
    (h' : OnlyRequests g₁ g₂) : OnlyRequests g g₂ :=
  ⟨h'.conns.trans h.conns, h'.activeCamera.trans h.activeCamera,
    h'.cameraIterator.trans h.cameraIterator, h'.numCameras.trans h.numCameras,
    h'.lastImage.trans h.lastImage, h.log.trans h'.log⟩

theorem OnlyRequests.sameCameras {g g' : Globals P} (h : OnlyRequests g g') : SameCameras g g' :=
  ⟨h.conns, h.activeCamera, h.cameraIterator, h.numCameras, h.log.mono fun o ho => by simp [ho]⟩

theorem SameCameras.trans {g g₁ g₂ : Globals P} (h : SameCameras g g₁) (h' : SameCameras g₁ g₂) :
    SameCameras g g₂ :=
  ⟨h'.conns.trans h.conns, h'.activeCamera.trans h.activeCamera,
    h'.cameraIterator.trans h.cameraIterator, h'.numCameras.trans h.numCameras, h.log.trans h'.log⟩

theorem SameClients.refl (g : Globals P) : SameClients g g :=
  ⟨rfl, rfl, .refl _⟩

theorem SameClients.trans {g g₁ g₂ : Globals P} (h : SameClients g g₁) (h' : SameClients g₁ g₂) :
    SameClients g g₂ :=
  ⟨h'.lastImage.trans h.lastImage, h'.pendingRequests.trans h.pendingRequests, h.log.trans h'.log⟩

theorem sameCameras_say {g : Globals P} {events : List Event}
    (h : ∀ o ∈ events, o.kind ≠ .camera) : SameCameras g (g.say events) :=
  ⟨rfl, rfl, rfl, rfl, .append h⟩

theorem sameClients_say {g : Globals P} {events : List Event}
    (h : ∀ o ∈ events, o.kind ≠ .client) : SameClients g (g.say events) :=
  ⟨rfl, rfl, .append h⟩

theorem onlyCameras_say {g : Globals P} {events : List Event}
    (h : ∀ o ∈ events, o.kind = .camera) : OnlyCameras g (g.say events) :=
  ⟨rfl, rfl, .append h⟩

theorem onlyRequests_say {g : Globals P} {events : List Event}
    (h : ∀ o ∈ events, o.kind = .client) : OnlyRequests g (g.say events) :=
  ⟨rfl, rfl, rfl, rfl, rfl, .append h⟩

theorem onlyCameras_setConn (g : Globals P) (i : Slot) (c : Connection P) :
    OnlyCameras g (g.setConn i c) :=
  ⟨rfl, rfl, .refl _⟩

theorem sameCameras_serverProcess (g : Globals P) (e : ServerEnv) :
    SameCameras g (g.serverProcess e) :=
  ⟨rfl, rfl, rfl, rfl, .refl _⟩

theorem onlyCameras_clearActive (g : Globals P) : OnlyCameras g g.clearActive := by
  refine ⟨rfl, rfl, .append fun o ho => ?_⟩
  obtain ⟨i, -, rfl⟩ := List.mem_map.1 ho
  rfl

/-! ## Opening the next camera -/

/-- The iterator after the camera at `i` has been opened. -/
def nextIterator (g : Globals P) : Nat :=
  if (g.cameraIterator + 1) % 2 ^ 32 ≥ g.numCameras then 0 else (g.cameraIterator + 1) % 2 ^ 32

theorem openNext_cases {g g' : Globals P} {e : OpenNextEnv} {b : Bool}
    (h : g.openNextCameraConnection e = .ok (b, g')) :
    ∃ i c r, i.val = g.cameraIterator ∧ g.conns i = some c ∧ c.open e.file e.open = .ok r ∧
      b = (r.ret && e.epollCtl) ∧
      g' = (setConn { g with activeCamera := some i, cameraIterator := g.nextIterator } i
        r.conn).say [.opened i] := by
  unfold openNextCameraConnection at h
  obtain ⟨i, hi, h⟩ := bind_eq_ok.1 h
  obtain ⟨c, hc, h⟩ := bind_eq_ok.1 h
  obtain ⟨r, hr, h⟩ := bind_eq_ok.1 h
  rw [asserted_eq_ok] at hc
  cases h
  refine ⟨i, c, r, slot_eq_ok.1 hi, hc, hr, rfl, ?_⟩
  rw [hc]
  rfl

theorem openNext_onlyCameras {g g' : Globals P} {e : OpenNextEnv} {b : Bool}
    (h : g.openNextCameraConnection e = .ok (b, g')) : OnlyCameras g g' := by
  obtain ⟨i, c, r, -, -, -, -, rfl⟩ := openNext_cases h
  exact ⟨rfl, rfl, .append (by simp [Event.kind])⟩

/-! ## The active camera -/

/-- The globals when `process` has returned. -/
def afterProcess (g : Globals P) (i : Slot) (r : ProcessResult P) : Globals P :=
  (g.setConn i r.conn).say (r.accepted.map (.accepted i))

/-- How the part of `processActiveCamera` before `writeImageFile` ends. -/
inductive Retrieved (g : Globals P) (e : CameraEnv) (i : Slot) (r : ProcessResult P) :
    Retrieval → Globals P → Prop
  | failed (hret : r.ret = false) : Retrieved g e i r (.done (-1)) (g.afterProcess i r)
  | refused {image : Connection.LatestImage} (hret : r.ret = true)
      (himage : r.conn.getLatestImage IMAGE_BUFFER_SIZE = .ok image)
      (hrefused : image.ret = false) :
      Retrieved g e i r (.done (-1)) (g.afterProcess i r)
  | idle {image : Connection.LatestImage} (hret : r.ret = true)
      (himage : r.conn.getLatestImage IMAGE_BUFFER_SIZE = .ok image) (htaken : image.ret = true)
      (hsize : image.size = 0) : Retrieved g e i r (.done 0) (g.afterProcess i r)
  | unclosed {image : Connection.LatestImage} (hret : r.ret = true)
      (himage : r.conn.getLatestImage IMAGE_BUFFER_SIZE = .ok image) (htaken : image.ret = true)
      (hsize : image.size ≠ 0) (hclose : (r.conn.close e.close).1 = false) :
      Retrieved g e i r (.done (-2))
        (((g.afterProcess i r).setConn i (r.conn.close e.close).2).say [.unclosed i])
  | image {image : Connection.LatestImage} (hret : r.ret = true)
      (himage : r.conn.getLatestImage IMAGE_BUFFER_SIZE = .ok image) (htaken : image.ret = true)
      (hsize : image.size ≠ 0) (hclose : (r.conn.close e.close).1 = true) :
      Retrieved g e i r (.write (image.out.take image.size))
        ((g.afterProcess i r).setConn i (r.conn.close e.close).2)

theorem retrieveImage_cases {g g' : Globals P} {e : CameraEnv} {t : Retrieval}
    (h : g.retrieveImage e = .ok (t, g')) : ∃ i c r, g.activeCamera = some i ∧
      g.conns i = some c ∧ c.process e.process = .ok r ∧ Retrieved g e i r t g' := by
  unfold retrieveImage at h
  obtain ⟨i, hi, h⟩ := bind_eq_ok.1 h
  obtain ⟨c, hc, h⟩ := bind_eq_ok.1 h
  obtain ⟨r, hr, h⟩ := bind_eq_ok.1 h
  rw [asserted_eq_ok] at hi
  rw [access_eq_ok] at hc
  refine ⟨i, c, r, hi, hc, hr, ?_⟩
  split at h
  · rename_i hret
    cases h
    exact .failed (by simpa using hret)
  rename_i hret
  have hret : r.ret = true := by simpa using hret
  obtain ⟨image, himage, h⟩ := bind_eq_ok.1 h
  split at h
  · rename_i hrefused
    cases h
    exact .refused hret himage (by simpa using hrefused)
  rename_i htaken
  have htaken : image.ret = true := by simpa using htaken
  split at h
  · rename_i hsize
    cases h
    exact .idle hret himage htaken hsize
  rename_i hsize
  simp only at h
  split at h
  · rename_i hclose
    cases h
    exact .unclosed hret himage htaken hsize (by simpa using hclose)
  · rename_i hclose
    cases h
    exact .image hret himage htaken hsize (by simpa using hclose)

theorem afterProcess_onlyCameras (g : Globals P) (i : Slot) (r : ProcessResult P) :
    OnlyCameras g (g.afterProcess i r) := by
  refine (onlyCameras_setConn g i r.conn).trans (onlyCameras_say fun o ho => ?_)
  obtain ⟨p, -, rfl⟩ := List.mem_map.1 ho
  rfl

theorem retrieveImage_onlyCameras {g g' : Globals P} {e : CameraEnv} {t : Retrieval}
    (h : g.retrieveImage e = .ok (t, g')) : OnlyCameras g g' := by
  obtain ⟨i, c, r, -, -, -, hcases⟩ := retrieveImage_cases h
  have hfirst := afterProcess_onlyCameras g i r
  cases hcases with
  | failed | refused | idle => exact hfirst
  | unclosed =>
    refine (hfirst.trans (onlyCameras_setConn _ _ _)).trans (onlyCameras_say fun o ho => ?_)
    obtain rfl := List.mem_singleton.1 ho
    rfl
  | image => exact hfirst.trans (onlyCameras_setConn _ _ _)

theorem processActiveCamera_cases {g g' : Globals P} {e : CameraEnv} {code : Int}
    (h : g.processActiveCamera e = .ok (code, g')) : ∃ t g₁, g.retrieveImage e = .ok (t, g₁) ∧
      (t = .done code ∧ g' = g₁ ∨ ∃ buffer b g₂, t = .write buffer ∧
        g₁.writeImageFile buffer e.write = .ok (b, g₂) ∧
        (b = false ∧ code = -1 ∧ g' = g₂ ∨ b = true ∧ code = 0 ∧ g' = g₂.clearActive)) := by
  unfold processActiveCamera at h
  obtain ⟨⟨t, g₁⟩, hretrieve, h⟩ := bind_eq_ok.1 h
  refine ⟨t, g₁, hretrieve, ?_⟩
  cases t with
  | done code' =>
    cases h
    exact .inl ⟨rfl, rfl⟩
  | write buffer =>
    obtain ⟨⟨b, g₂⟩, hwrite, h⟩ := bind_eq_ok.1 h
    refine .inr ⟨buffer, b, g₂, rfl, hwrite, ?_⟩
    cases b with
    | false =>
      cases h
      exact .inl ⟨rfl, rfl, rfl⟩
    | true =>
      cases h
      exact .inr ⟨rfl, rfl, rfl⟩

/-! ## The image file -/

theorem say_say (g : Globals P) (s t : List Event) : (g.say s).say t = g.say (s ++ t) := by
  simp only [say, List.append_assoc]

/-- What `writeImageFile` does with the old image of a camera. -/
def replaced (image : LastImage) : List Event :=
  image.data.toList.map fun old => .unmapped old.addr image.size

/-- The files and mappings of a `writeImageFile` that stores the image. -/
def publication (buffer : List UInt8) (fd addr : Nat) (old : LastImage) : List Event :=
  [.writeImage buffer, .fileOpened fd, .mapped addr buffer.length, .fileClosed fd] ++ replaced old

/-- How far `writeImageFile` gets. -/
inductive Published (g : Globals P) (buffer : List UInt8) (e : WriteEnv) : Bool → Globals P → Prop
  | uncreated (h : e.unlink = .error ∨ e.open = none) :
      Published g buffer e false (g.say [.writeImage buffer])
  | unsized {fd : Nat} (hcreated : e.unlink ≠ .error) (hopen : e.open = some fd)
      (h : e.ftruncate = false ∨ e.mmap = none) :
      Published g buffer e false (g.say [.writeImage buffer, .fileOpened fd])
  | unclosed {fd addr : Nat} (hcreated : e.unlink ≠ .error) (hopen : e.open = some fd)
      (h : e.close = false) :
      Published g buffer e false
        (g.say [.writeImage buffer, .fileOpened fd, .mapped addr buffer.length])
  | unreplaced {fd addr : Nat} {i : Slot} (hcreated : e.unlink ≠ .error)
      (hopen : e.open = some fd) (hi : i.val = g.cameraIterator)
      (hold : (g.lastImage i).data.isSome) (h : e.munmap = false) :
      Published g buffer e false
        (g.say [.writeImage buffer, .fileOpened fd, .mapped addr buffer.length, .fileClosed fd])
  | stored {fd addr : Nat} {i : Slot} {b : Bool} {g' : Globals P} (hcreated : e.unlink ≠ .error)
      (hopen : e.open = some fd)
      (hcalls : e.ftruncate = true ∧ e.mmap = some addr ∧ e.close = true)
      (hi : i.val = g.cameraIterator) (hold : (g.lastImage i).data.isSome → e.munmap = true)
      (h : (g.say (publication buffer fd addr (g.lastImage i))).storeImage i buffer addr e =
        .ok (b, g')) : Published g buffer e b g'

theorem published_cases {g g' : Globals P} {buffer : List UInt8} {e : WriteEnv} {b : Bool}
    (h : g.writeImageFile buffer e = .ok (b, g')) : Published g buffer e b g' := by
  unfold writeImageFile at h
  simp only [say_say] at h
  split at h
  · rename_i hunlink
    cases h
    exact .uncreated (.inl hunlink)
  rename_i hunlink
  split at h
  · rename_i hopen
    cases h
    exact .uncreated (.inr hopen)
  rename_i fd hopen
  split at h
  · rename_i hftruncate
    cases h
    exact .unsized hunlink hopen (.inl (by simpa using hftruncate))
  rename_i hftruncate
  split at h
  · rename_i hmmap
    cases h
    exact .unsized hunlink hopen (.inr hmmap)
  rename_i addr hmmap
  split at h
  · rename_i hclose
    cases h
    exact .unclosed hunlink hopen (by simpa using hclose)
  rename_i hclose
  have hcalls : e.ftruncate = true ∧ e.mmap = some addr ∧ e.close = true :=
    ⟨by simpa using hftruncate, hmmap, by simpa using hclose⟩
  obtain ⟨i, hi, h⟩ := bind_eq_ok.1 h
  have hi : i.val = g.cameraIterator := slot_eq_ok.1 hi
  split at h
  · rename_i hold
    have hold : (g.lastImage i).data = none := hold
    refine .stored hunlink hopen hcalls hi (by simp [hold]) ?_
    rw [publication, replaced, hold]
    exact h
  · rename_i old hold
    have hold : (g.lastImage i).data = some old := hold
    split at h
    · rename_i hmunmap
      cases h
      exact .unreplaced hunlink hopen hi (by simp [hold]) (by simpa using hmunmap)
    · rename_i hmunmap
      refine .stored hunlink hopen hcalls hi (fun _ => by simpa using hmunmap) ?_
      rw [publication, replaced, hold]
      exact h

/-- A system call of `writeImageFile` fails. -/
def StepFails (g : Globals P) (e : WriteEnv) : Prop :=
  e.unlink = .error ∨ e.open = none ∨ e.ftruncate = false ∨ e.mmap = none ∨ e.close = false ∨
    ∃ i : Slot, i.val = g.cameraIterator ∧ (g.lastImage i).data.isSome ∧ e.munmap = false

/-- How `writeImageFile` ends: with no more than file operations done, or having stored the
image. -/
inductive Written (g : Globals P) (buffer : List UInt8) (e : WriteEnv) : Bool → Globals P → Prop
  | failed {files : List Event} (hcall : ∀ p, .writeImage p ∈ files ↔ p = buffer)
      (hfiles : ∀ o ∈ files, o.kind = .file) : Written g buffer e false (g.say files)
  | stored {files : List Event} {i : Slot} {addr : Nat} {b : Bool} {g' : Globals P}
      (hcall : ∀ p, .writeImage p ∈ files ↔ p = buffer) (hfiles : ∀ o ∈ files, o.kind = .file)
      (hi : i.val = g.cameraIterator)
      (h : (g.say files).storeImage i buffer addr e = .ok (b, g')) (hcalls : ¬ g.StepFails e) :
      Written g buffer e b g'

theorem kind_publication {buffer : List UInt8} {fd addr : Nat} {old : LastImage} :
    ∀ o ∈ publication buffer fd addr old, o.kind = .file := by
  intro o ho
  rcases List.mem_append.1 ho with ho | ho
  · simp only [List.mem_cons, List.not_mem_nil, or_false] at ho
    rcases ho with rfl | rfl | rfl | rfl <;> rfl
  · obtain ⟨m, -, rfl⟩ := List.mem_map.1 ho
    rfl

theorem writeImage_publication {buffer : List UInt8} {fd addr : Nat} {old : LastImage}
    (p : List UInt8) : .writeImage p ∈ publication buffer fd addr old ↔ p = buffer := by
  simp [publication, replaced]

theorem writeImageFile_cases {g g' : Globals P} {buffer : List UInt8} {e : WriteEnv} {b : Bool}
    (h : g.writeImageFile buffer e = .ok (b, g')) : Written g buffer e b g' := by
  cases published_cases h with
  | uncreated | unsized | unclosed | unreplaced => exact .failed (by simp) (by simp [Event.kind])
  | @stored fd addr i _ _ hcreated hopen hcalls hi hold hstore =>
    refine .stored writeImage_publication kind_publication hi hstore ?_
    obtain ⟨hftruncate, hmmap, hclose⟩ := hcalls
    rintro (h | h | h | h | h | ⟨j, hj, hold', h⟩)
    · exact hcreated h
    · simp [hopen] at h
    · simp [hftruncate] at h
    · simp [hmmap] at h
    · simp [hclose] at h
    · obtain rfl : i = j := Fin.ext (hi.trans hj.symm)
      simp [hold hold'] at h

/-- `sendJpeg` sends one response. -/
theorem sendJpeg_cases (g : Globals P) (conn : SgConnection) (data : List UInt8) (size : Nat)
    (writeOk : Bool) :
    ∃ r, (g.sendJpeg conn data size writeOk).2 = g.say [.response conn.id r] := by
  unfold sendJpeg
  split
  · exact ⟨_, rfl⟩
  · exact ⟨_, rfl⟩

/-- The loop over the waiting requests sends responses and changes the queues. -/
theorem fillPending_cases {i : Slot} {responses : Nat → Bool} {n : Nat} :
    ∀ {g g' : Globals P} {k : Nat}, g.fillPending i responses k n = .ok g' →
      ∃ sent pendingRequests, (∀ o ∈ sent, ∃ id r, o = .response id r) ∧
        g' = { g.say sent with pendingRequests } := by
  induction n with
  | zero =>
    intro g g' k h
    cases h
    exact ⟨[], g.pendingRequests, by simp, by simp [say]⟩
  | succ n ih =>
    intro g g' k h
    rw [fillPending] at h
    obtain ⟨cell, -, h⟩ := bind_eq_ok.1 h
    obtain ⟨conn, -, h⟩ := bind_eq_ok.1 h
    obtain ⟨data, -, h⟩ := bind_eq_ok.1 h
    obtain ⟨connections, -, h⟩ := bind_eq_ok.1 h
    obtain ⟨r, hr⟩ := sendJpeg_cases g conn data.bytes (g.lastImage i).size (responses k)
    obtain ⟨sent, queues, hsent, rfl⟩ := ih h
    refine ⟨.response conn.id r :: sent, queues, ?_, ?_⟩
    · intro o ho
      rcases List.mem_cons.1 ho with rfl | ho
      · exact ⟨_, _, rfl⟩
      · exact hsent o ho
    · rw [hr]
      simp only [say, setQueue, List.append_assoc, List.singleton_append]

/-- An image is stored, and responses are sent. -/
theorem storeImage_cases {g g' : Globals P} {i : Slot} {buffer : List UInt8} {addr : Nat}
    {e : WriteEnv} {b : Bool} (h : g.storeImage i buffer addr e = .ok (b, g')) :
    ∃ sent pendingRequests, (∀ o ∈ sent, ∃ id r, o = .response id r) ∧
      g' = serverProcess { (g.setLastImage i ⟨some ⟨addr, buffer⟩, buffer.length⟩).say
        (.stored i buffer :: sent) with pendingRequests } e.server := by
  unfold storeImage at h
  obtain ⟨g₁, hfill, h⟩ := bind_eq_ok.1 h
  cases h
  obtain ⟨sent, queues, hsent, rfl⟩ := fillPending_cases hfill
  refine ⟨sent, Function.update queues i { queues i with numPending := 0 }, hsent, ?_⟩
  simp only [setQueue, say, List.append_assoc, List.singleton_append]

theorem storeImage_sameCameras {g g' : Globals P} {i : Slot} {buffer : List UInt8} {addr : Nat}
    {e : WriteEnv} {b : Bool} (h : g.storeImage i buffer addr e = .ok (b, g')) :
    SameCameras g g' := by
  obtain ⟨sent, queues, hsent, rfl⟩ := storeImage_cases h
  refine ⟨rfl, rfl, rfl, rfl, .append fun o ho => ?_⟩
  rcases List.mem_cons.1 ho with rfl | ho
  · simp [Event.kind]
  · obtain ⟨id, r, rfl⟩ := hsent o ho
    simp [Event.kind]

theorem writeImageFile_sameCameras {g g' : Globals P} {buffer : List UInt8} {e : WriteEnv}
    {b : Bool} (h : g.writeImageFile buffer e = .ok (b, g')) : SameCameras g g' := by
  cases writeImageFile_cases h with
  | failed _ hfiles => exact sameCameras_say fun o ho => by simp [hfiles o ho]
  | stored _ hfiles hi h =>
    exact (sameCameras_say fun o ho => by simp [hfiles o ho]).trans (storeImage_sameCameras h)

/-- A call of `writeImageFile` shows in the history, with the image it is made on. -/
theorem writeImageFile_called {g g' : Globals P} {buffer : List UInt8} {e : WriteEnv} {b : Bool}
    (h : g.writeImageFile buffer e = .ok (b, g')) :
    ∃ new, g'.log = g.log ++ new ∧ ∀ p, .writeImage p ∈ new ↔ p = buffer := by
  cases writeImageFile_cases h with
  | failed hcall => exact ⟨_, rfl, hcall⟩
  | @stored files i _ _ _ hcall _ _ h =>
    obtain ⟨sent, queues, hsent, rfl⟩ := storeImage_cases h
    refine ⟨files ++ .stored i buffer :: sent, List.append_assoc _ _ _, fun p => ?_⟩
    rw [List.mem_append, hcall p, or_iff_left]
    intro hp
    rcases List.mem_cons.1 hp with hp | hp
    · cases hp
    · obtain ⟨id, r, hp⟩ := hsent _ hp
      cases hp

/-! ## New requests -/

theorem enqueue_cases {g g' : Globals P} {src : Slot} {conn : SgConnection}
    (h : g.enqueue src conn = .ok g') : ∃ connections,
      (g.pendingRequests src).connections.write (g.pendingRequests src).numPending [some conn] =
        some connections ∧
      g' = (setQueue g src ⟨connections, (g.pendingRequests src).numPending + 1⟩).say
        [.queued src conn.id (g.pendingRequests src).numPending] := by
  unfold enqueue at h
  obtain ⟨connections, hwrite, h⟩ := bind_eq_ok.1 h
  cases h
  exact ⟨connections, access_eq_ok.1 hwrite, rfl⟩

/-- How `handleNewRequest` ends. -/
inductive Handled (g : Globals P) (sg : Sandgrouse) (conn : SgConnection) (e : RequestEnv) :
    Bool → Globals P → Prop
  | notFound (hroute : route sg g.numCameras conn e.stack = .ok .notFound) :
      Handled g sg conn e true (g.say [.handed conn.id, .response conn.id .notFound])
  | waits {src : Slot} {g' : Globals P}
      (hroute : route sg g.numCameras conn e.stack = .ok (.wait src.val))
      (h : (g.say [.handed conn.id, .routed src conn.id]).enqueue src conn = .ok g') :
      Handled g sg conn e true g'
  | noImage {src : Slot} (hroute : route sg g.numCameras conn e.stack = .ok (.send src.val))
      (himage : (g.lastImage src).data = none) : Handled g sg conn e true
        (g.say [.handed conn.id, .routed src conn.id, .response conn.id .notFound])
  | sent {src : Slot} {image : Mapping} {b : Bool} {g' : Globals P}
      (hroute : route sg g.numCameras conn e.stack = .ok (.send src.val))
      (himage : (g.lastImage src).data = some image)
      (h : (g.say [.handed conn.id, .routed src conn.id]).sendJpeg conn image.bytes
        (g.lastImage src).size e.writeOk = (b, g')) : Handled g sg conn e b g'

theorem handleNewRequest_cases {g g' : Globals P} {sg : Sandgrouse} {conn : SgConnection}
    {e : RequestEnv} {b : Bool} (h : g.handleNewRequest sg conn e = .ok (b, g')) :
    Handled g sg conn e b g' := by
  unfold handleNewRequest at h
  obtain ⟨target, hroute, h⟩ := bind_eq_ok.1 h
  cases target with
  | notFound =>
    cases h
    rw [send404, say_say]
    exact .notFound hroute
  | wait src =>
    obtain ⟨s, hs, h₁⟩ := bind_eq_ok.1 h
    obtain ⟨g₁, hqueue, h₂⟩ := bind_eq_ok.1 h₁
    obtain rfl := slot_eq_ok.1 hs
    cases h₂
    rw [say_say] at hqueue
    exact .waits hroute hqueue
  | send src =>
    obtain ⟨s, hs, h₁⟩ := bind_eq_ok.1 h
    obtain rfl := slot_eq_ok.1 hs
    simp only [say_say] at h₁
    split at h₁
    · rename_i himage
      cases h₁
      rw [send404, say_say]
      exact .noImage hroute himage
    · rename_i image himage
      exact .sent hroute himage (Except.ok.inj h₁)

theorem handleNewRequest_onlyRequests {g g' : Globals P} {sg : Sandgrouse} {conn : SgConnection}
    {e : RequestEnv} {b : Bool} (h : g.handleNewRequest sg conn e = .ok (b, g')) :
    OnlyRequests g g' := by
  cases handleNewRequest_cases h with
  | notFound => exact onlyRequests_say (by simp [Event.kind])
  | waits _ h =>
    obtain ⟨connections, -, rfl⟩ := enqueue_cases h
    refine (onlyRequests_say ?_).trans ⟨rfl, rfl, rfl, rfl, rfl, .append ?_⟩
    · simp [Event.kind]
    · simp [Event.kind]
  | noImage => exact onlyRequests_say (by simp [Event.kind])
  | sent _ _ h =>
    obtain ⟨r, hr⟩ := sendJpeg_cases _ _ _ _ _
    rw [h] at hr
    cases hr
    exact (onlyRequests_say (by simp [Event.kind])).trans (onlyRequests_say (by simp [Event.kind]))

end Globals

/-! ## Steps -/

/-- The events of the current batch that are still to come. -/
def Control.rest : Control → List EpollEvent
  | .dispatch _ rest | .serve _ rest | .served _ rest => rest
  | .outer | .wait | .stopped => []

namespace Reactor

open Globals

variable {P : HttpParser}

theorem setConn_eq_self {g : Globals P} {i : Slot} {c : Connection P} (h : g.conns i = some c) :
    g.setConn i c = g := by
  unfold Globals.setConn
  rw [← h, Function.update_eq_self]

/-- The active camera is dropped, or its socket could not be closed and the reactor shuts down. -/
theorem dropCamera_cases {r r' : Reactor P} {closeOk : Bool} (h : r.dropCamera closeOk = .ok r') :
    ∃ i c, r.globals.activeCamera = some i ∧ r.globals.conns i = some c ∧
      (closeOk = false ∧ c.sockfd.isSome ∧
          r' = { r with globals := r.globals.say [.unclosed i], shutdown := true } ∨
        r' = { r with
          globals := (r.globals.setConn i c.disconnected).clearActive }) := by
  unfold dropCamera at h
  obtain ⟨i, hi, h⟩ := bind_eq_ok.1 h
  obtain ⟨c, hc, h⟩ := bind_eq_ok.1 h
  have hc : r.globals.conns i = some c := access_eq_ok.1 hc
  refine ⟨i, c, access_eq_ok.1 hi, hc, ?_⟩
  simp only at h
  rcases Connection.close_cases c closeOk with ⟨htrue, hclosed⟩ | ⟨hfalse, hsame, hopen⟩
  · rw [htrue, hclosed] at h
    cases h
    exact .inr rfl
  · rw [hfalse, hsame, setConn_eq_self hc] at h
    cases h
    rw [Connection.close_isOpen hopen] at hfalse
    exact .inl ⟨hfalse, hopen, rfl⟩

theorem dropCamera_onlyCameras {r r' : Reactor P} {closeOk : Bool}
    (h : r.dropCamera closeOk = .ok r') : OnlyCameras r.globals r'.globals := by
  obtain ⟨i, c, -, -, ⟨-, -, rfl⟩ | rfl⟩ := dropCamera_cases h
  · refine onlyCameras_say fun o ho => ?_
    obtain rfl := List.mem_singleton.1 ho
    rfl
  · exact (onlyCameras_setConn _ _ _).trans (onlyCameras_clearActive _)

/-- An error or a hangup on the camera's socket. -/
def Hangup (ev : EpollEvent) : Prop :=
  ev.events &&& EPOLLERR ≠ 0 ∨ ev.events &&& EPOLLHUP ≠ 0

instance (ev : EpollEvent) : Decidable (Hangup ev) :=
  inferInstanceAs (Decidable (_ ∨ _))

theorem cameraEvent_cases {r r' : Reactor P} {ev : EpollEvent} {e : CameraEnv}
    (h : r.cameraEvent ev e = .ok r') :
    (Hangup ev ∧ r.dropCamera e.closeAfter = .ok r') ∨
      (¬ Hangup ev ∧ ∃ code g, r.globals.processActiveCamera e = .ok (code, g) ∧
        (code = 0 ∧ r' = { r with globals := g } ∨
          code = -1 ∧ { r with globals := g }.dropCamera e.closeAfter = .ok r' ∨
          code ≠ 0 ∧ code ≠ -1 ∧ r' = { r with globals := g, shutdown := true })) := by
  unfold cameraEvent at h
  split at h
  · rename_i hup
    exact .inl ⟨hup, h⟩
  · rename_i hup
    obtain ⟨⟨code, g⟩, hprocess, h⟩ := bind_eq_ok.1 h
    refine .inr ⟨hup, code, g, hprocess, ?_⟩
    simp only at h
    split at h
    · rename_i hcode
      cases h
      exact .inl ⟨hcode, rfl⟩
    · rename_i hcode
      split at h
      · rename_i hcode'
        exact .inr (.inl ⟨hcode', h⟩)
      · rename_i hcode'
        cases h
        exact .inr (.inr ⟨hcode, hcode', rfl⟩)

/-- The loops are not on their way out, so that events may still be handled. -/
def Live (r : Reactor P) : Prop :=
  r.control = .outer ∨ r.control = .stopped → r.shutdown = false

/-- The steps of the reactor. -/
inductive Stepped (sg : Sandgrouse) (r : Reactor P) (e : Env) : Reactor P → Prop
  | moved {control : Control} (hwait : control = .wait → Live r ∧ r.globals.activeCamera.isSome)
      (hlive : r.shutdown = false → Live r)
      (hmove : control = .outer ∨ control = .wait ∨ control = .stopped)
      (hidle : r.control.rest = [] ∧ ∀ full rest, r.control ≠ .serve full rest) :
      Stepped sg r e { r with control }
  | batch {batch : Batch} {full : Bool} (hc : r.control = .wait) (hw : e.wait = .events batch) :
      Stepped sg r e { r with control := .dispatch full batch.events }
  | opened {b : Bool} {g : Globals P} (hc : r.control = .outer) (hs : r.shutdown = false)
      (hactive : r.globals.activeCamera = none)
      (h : r.globals.openNextCameraConnection e.next = .ok (b, g)) :
      Stepped sg r e ⟨g, if b then .wait else .outer, !b⟩
  | camera {ev : EpollEvent} {full : Bool} {rest : List EpollEvent} {r₁ : Reactor P}
      (hc : r.control = .dispatch full (ev :: rest)) (hid : ev.id = CAMERA_ID)
      (h : r.cameraEvent ev e.camera = .ok r₁) :
      Stepped sg r e { r₁ with control := .dispatch full rest }
  | flagged {ev : EpollEvent} {full : Bool} {rest : List EpollEvent}
      (hc : r.control = .dispatch full (ev :: rest)) (hid : ev.id ≠ CAMERA_ID)
      (hid' : ev.id ≠ SCGI_ID) :
      Stepped sg r e { r with control := .dispatch full rest, shutdown := true }
  | server {ev : EpollEvent} {full : Bool} {rest : List EpollEvent}
      (hc : r.control = .dispatch full (ev :: rest)) (hid : ev.id = SCGI_ID) :
      Stepped sg r e { r.serverEvent e.server with
        control := if e.server.ok then .serve full rest else .dispatch full rest }
  | finish {full : Bool} {rest : List EpollEvent}
      (hc : r.control = .serve full rest ∨ r.control = .served full rest)
      (hready : r.control = .serve full rest → r.globals.ready = []) :
      Stepped sg r e { r.serverEvent e.server with control := .dispatch full rest }
  | request {conn : SgConnection} {ready : List SgConnection} {full b : Bool}
      {rest : List EpollEvent} {g : Globals P} (hc : r.control = .serve full rest)
      (hready : r.globals.ready = conn :: ready)
      (h : { r.globals with ready }.handleNewRequest sg conn e.request = .ok (b, g)) :
      Stepped sg r e ⟨g, if b then .serve full rest else .served full rest, r.shutdown || !b⟩

theorem step_cases {sg : Sandgrouse} {r r' : Reactor P} {e : Env} (h : step sg r e = .ok r') :
    Stepped sg r e r' := by
  have hlive : r.shutdown = false → Live r := fun hs _ => hs
  simp only [step] at h
  split at h
  · rename_i hc
    split at h
    · cases h
      exact .moved (by simp) hlive (by simp) (by simp [hc, Control.rest])
    · rename_i hs
      have hs : r.shutdown = false := by simpa using hs
      split at h
      · rename_i hactive
        cases h
        exact .moved (fun _ => ⟨hlive hs, hactive⟩) hlive (by simp) (by simp [hc, Control.rest])
      · rename_i hactive
        obtain ⟨⟨b, g⟩, hopen, h⟩ := bind_eq_ok.1 h
        have hstep : Stepped sg r e _ := .opened hc hs (by simpa using hactive) hopen
        cases b with
        | false =>
          cases h
          rw [hc]
          exact hstep
        | true =>
          cases h
          rw [hs]
          exact hstep
  · rename_i hc
    split at h
    · cases h
      exact .moved (by simp) hlive (by simp) (by simp [hc, Control.rest])
    · cases h
      exact .moved (by simp) hlive (by simp) (by simp [hc, Control.rest])
    · rename_i batch hw
      cases h
      exact .batch hc hw
  · rename_i full hc
    cases h
    have hbusy : Live r := by
      intro hlate
      simp [hc] at hlate
    split
    · rename_i hfull
      exact .moved (fun _ => ⟨hbusy, hfull.2⟩) hlive (by simp) (by simp [hc, Control.rest])
    · exact .moved (by simp) hlive (by simp) (by simp [hc, Control.rest])
  · rename_i full ev rest hc
    unfold dispatchEvent at h
    split at h
    · rename_i hid
      obtain ⟨r₁, hcam, h⟩ := bind_eq_ok.1 h
      cases h
      exact .camera hc hid hcam
    rename_i hid
    split at h
    · rename_i hid'
      cases h
      exact .flagged hc hid (by rw [hid']; decide)
    split at h
    · rename_i hid'
      cases h
      exact .server hc hid'
    · rename_i hid'
      cases h
      exact .flagged hc hid hid'
  · rename_i full rest hc
    split at h
    · rename_i hready
      cases h
      exact .finish (.inl hc) fun _ => hready
    · rename_i conn ready hready
      unfold serveRequest at h
      obtain ⟨⟨b, g⟩, hreq, h⟩ := bind_eq_ok.1 h
      have hstep : Stepped sg r e _ := .request hc hready hreq
      cases b with
      | false =>
        cases h
        simpa using hstep
      | true =>
        cases h
        simpa using hstep
  · rename_i full rest hc
    cases h
    exact .finish (.inr hc) (by simp [hc])
  · rename_i hc
    cases h
    have := @Stepped.moved P sg r e .stopped (by simp) hlive (by simp)
      (by simp [hc, Control.rest])
    rwa [← hc] at this

end Reactor

end Rsva11001
