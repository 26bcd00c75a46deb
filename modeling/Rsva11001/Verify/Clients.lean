import Rsva11001.Lib.Queue
import Rsva11001.Verify.Board
import Rsva11001.Verify.Progress

/-!
# The reactor does what the board says

`Represents g b`: the last images and the queues of `g` are those of the board `b`. Each step of
the reactor is one of the board (`step_board`), so that every run of it is a run of the board
(`run_board`).
-/

namespace Rsva11001

open Lib

namespace Globals

variable {P : HttpParser}

/-- The images and the queues are those of the board. -/
structure Represents (g : Globals P) (b : Board) : Prop where
  image : ∀ i, (g.lastImage i).data.map Mapping.bytes = b.image i
  size : ∀ i m, (g.lastImage i).data = some m → (g.lastImage i).size = m.bytes.length
  queue : ∀ i, Holds (g.pendingRequests i).connections 0 (b.waiting i)
  numPending : ∀ i, (g.pendingRequests i).numPending = (b.waiting i).length

theorem Represents.same {g g' : Globals P} {b : Board} (h : Represents g b)
    (himage : g'.lastImage = g.lastImage) (hqueue : g'.pendingRequests = g.pendingRequests) :
    Represents g' b := by
  refine ⟨?_, ?_, ?_, ?_⟩
  · rw [himage]
    exact h.image
  · rw [himage]
    exact h.size
  · rw [hqueue]
    exact h.queue
  · rw [hqueue]
    exact h.numPending

/-- What the board does when `g` becomes `g'`. -/
def Advances (n : Nat) (g g' : Globals P) (b : Board) : Prop :=
  ∃ new b', g'.log = g.log ++ new ∧ Board.Step n g.log b new b' ∧ Represents g' b'

theorem advances_of_same {n : Nat} {g g' : Globals P} {b : Board} (h : Represents g b)
    (hs : SameClients g g') : Advances n g g' b := by
  obtain ⟨new, hlog, hnew⟩ := hs.log
  exact ⟨new, b, hlog, .quiet hnew, h.same hs.lastImage hs.pendingRequests⟩

/-! ## Requests -/

theorem route_lt {sg : Sandgrouse} {n : Nat} {conn : SgConnection} {stack : QueryBuffer}
    {target : Route} (h : route sg n conn stack = .ok target) :
    ∀ src, target = .wait src ∨ target = .send src → src < n := by
  intro src hsrc
  unfold route at h
  split at h
  · cases h
    simp at hsrc
  split at h
  · cases h
    simp at hsrc
  split at h
  · cases h
    simp at hsrc
  split at h
  · cases h
    simp at hsrc
  obtain ⟨source, -, h⟩ := bind_eq_ok.1 h
  split at h
  · cases h
    simp at hsrc
  split at h
  · cases h
  rename_i s hlt
  split at h
  · cases h
    simp at hsrc
  split at h
  · cases h
    obtain rfl : s = src := by simpa using hsrc
    exact not_not.1 hlt
  · cases h
    obtain rfl : s = src := by simpa using hsrc
    exact not_not.1 hlt

/-- The response buffer has room for the size of every image that the image buffer has room for. -/
theorem sendJpeg_eq (g : Globals P) (conn : SgConnection) {image : List UInt8} (writeOk : Bool)
    (h : image.length ≤ IMAGE_BUFFER_SIZE) :
    g.sendJpeg conn image image.length writeOk = (writeOk, g.say [answerWith image conn]) := by
  have hdigits : (Nat.toDigits 10 image.length).length ≤ 5 := by
    rw [Nat.length_toDigits_le_iff (by omega) (by omega)]
    unfold IMAGE_BUFFER_SIZE at h
    omega
  have hresult : Connection.snprintfResult (decimal image.length).length =
      (Nat.toDigits 10 image.length).length := by
    unfold Connection.snprintfResult decimal
    rw [List.length_map, if_pos]
    unfold INT_MAX
    omega
  unfold sendJpeg
  rw [if_neg]
  · rfl
  · rw [hresult]
    unfold LENGTH_BUFFER_SIZE
    omega

theorem setQueue_self {g : Globals P} {i : Slot} {queue : PendingRequests} :
    (g.setQueue i queue).pendingRequests i = queue :=
  Function.update_self _ _ _

theorem setQueue_of_ne {g : Globals P} {i j : Slot} {queue : PendingRequests} (h : j ≠ i) :
    (g.setQueue i queue).pendingRequests j = g.pendingRequests j :=
  Function.update_of_ne h _ _

theorem setQueue_eq_self (g : Globals P) (i : Slot) : g.setQueue i (g.pendingRequests i) = g := by
  unfold setQueue
  rw [Function.update_eq_self]

/-- A queue may be replaced by one that holds other requests. -/
theorem Represents.setQueue {g : Globals P} {b b' : Board} {i : Slot} {queue : PendingRequests}
    (h : Represents g b) (himage : b'.image = b.image)
    (hother : ∀ j, j ≠ i → b'.waiting j = b.waiting j)
    (hqueue : Holds queue.connections 0 (b'.waiting i))
    (hnum : queue.numPending = (b'.waiting i).length) : Represents (g.setQueue i queue) b' := by
  refine ⟨?_, h.size, fun j => ?_, fun j => ?_⟩
  · rw [himage]
    exact h.image
  · by_cases hj : j = i
    · subst hj
      rwa [setQueue_self]
    · rw [setQueue_of_ne hj, hother j hj]
      exact h.queue j
  · by_cases hj : j = i
    · subst hj
      rwa [setQueue_self]
    · rw [setQueue_of_ne hj, hother j hj]
      exact h.numPending j

/-- The next waiting request goes to the end of its queue when there is room, and nowhere else. -/
theorem enqueue_board {g : Globals P} {b : Board} (h : Represents g b) (i : Slot)
    (conn : SgConnection) :
    (b.waiting i).length < MAX_PENDING_REQUESTS ∧ (∃ g', g.enqueue i conn = .ok g' ∧
        g'.log = g.log ++ [.queued i conn.id (b.waiting i).length] ∧
        (∀ j, j ≠ i → g'.pendingRequests j = g.pendingRequests j) ∧
        Represents g' (b.enqueue i conn)) ∨
      (b.waiting i).length = MAX_PENDING_REQUESTS ∧
        g.enqueue i conn = .error (.outOfRange .pendingConnections) := by
  have hle := (h.queue i).length_le
  rw [Nat.zero_add] at hle
  rcases Nat.lt_or_eq_of_le hle with hlt | heq
  · obtain ⟨r', hr', hholds⟩ := (h.queue i).push hlt conn
    refine .inl ⟨hlt, (setQueue g i ⟨r', (b.waiting i).length + 1⟩).say
      [.queued i conn.id (b.waiting i).length], ?_, rfl, fun j hj => setQueue_of_ne hj, ?_⟩
    · unfold enqueue
      simp only [h.numPending, hr', access_some, ok_bind]
      rfl
    · have hset : Represents (setQueue g i ⟨r', (b.waiting i).length + 1⟩) (b.enqueue i conn) := by
        have himage : (b.enqueue i conn).image = b.image := rfl
        apply h.setQueue himage (fun j hj => b.waiting_enqueue_of_ne conn hj)
        · rwa [Board.waiting_enqueue_self]
        · rw [Board.waiting_enqueue_self, List.length_append]
          rfl
      exact hset.same rfl rfl
  · refine .inr ⟨heq, ?_⟩
    unfold enqueue
    simp only [h.numPending, Holds.full heq, access_none, error_bind]

/-- A request that has to wait is put in the queue of its camera. -/
theorem handleNewRequest_waits {g : Globals P} {sg : Sandgrouse} {conn : SgConnection}
    {e : RequestEnv} {src : Slot} (h : route sg g.numCameras conn e.stack = .ok (.wait src.val)) :
    g.handleNewRequest sg conn e =
      (g.say [.handed conn.id, .routed src conn.id]).enqueue src conn >>= fun g' =>
        .ok (true, g') := by
  have hslot : slot .pendingConnections src.val = .ok src := slot_eq_ok.2 rfl
  have hroute :
      route sg (g.say [.handed conn.id]).numCameras conn e.stack = .ok (.wait src.val) := h
  unfold handleNewRequest
  simp only [hroute, ok_bind, hslot, say_say]
  rfl

theorem request_board {n : Nat} {g g' : Globals P} {b : Board} {sg : Sandgrouse}
    {conn : SgConnection} {e : RequestEnv} {ok : Bool} (h : Represents g b)
    (hrun : Board.Run n g.log b) (hn : g.numCameras = n)
    (hr : g.handleNewRequest sg conn e = .ok (ok, g')) : Advances n g g' b := by
  have hsay : ∀ events, Represents (g.say events) b := fun _ => h.same rfl rfl
  cases handleNewRequest_cases hr with
  | notFound => exact ⟨_, b, rfl, .notFound conn, hsay _⟩
  | @waits src g' hroute hqueue =>
    have hlt := route_lt hroute src (.inl rfl)
    rw [hn] at hlt
    rcases enqueue_board (hsay [.handed conn.id, .routed src conn.id]) src conn with
      ⟨hroom, g₁, hg₁, hlog, -, hrep⟩ | ⟨-, hfull⟩
    · obtain rfl : g₁ = g' := Except.ok.inj (hg₁.symm.trans hqueue)
      refine ⟨_, _, ?_, .waits hlt hroom, hrep⟩
      rw [hlog]
      exact List.append_assoc _ _ _
    · rw [hfull] at hqueue
      cases hqueue
  | @noImage src hroute himage =>
    have hlt := route_lt hroute src (.inr rfl)
    rw [hn] at hlt
    refine ⟨_, b, rfl, .noImage hlt ?_, hsay _⟩
    rw [← h.image, himage]
    rfl
  | @sent src image ok g' hroute himage hsend =>
    have hlt := route_lt hroute src (.inr rfl)
    rw [hn] at hlt
    have hboard : b.image src = some image.bytes := by
      rw [← h.image, himage]
      rfl
    rw [h.size src image himage, sendJpeg_eq _ _ _ (hrun.images hboard).1, say_say] at hsend
    cases hsend
    exact ⟨_, b, rfl, .sends hlt hboard, hsay _⟩

/-! ## Publishing an image -/

/-- The loop answers the waiting requests in order, and leaves their cells empty. -/
theorem fillPending_eq {i : Slot} {responses : Nat → Bool} {addr : Nat} {image : List UInt8}
    (hsize : image.length ≤ IMAGE_BUFFER_SIZE) {conns : List SgConnection} :
    ∀ {g : Globals P} {k : Nat}, g.lastImage i = ⟨some ⟨addr, image⟩, image.length⟩ →
      Holds (g.pendingRequests i).connections k conns →
      ∃ connections, Holds connections 0 [] ∧ g.fillPending i responses k conns.length =
        .ok ((g.setQueue i { g.pendingRequests i with connections }).say
          (conns.map (answerWith image))) := by
  induction conns with
  | nil =>
    intro g k himage hholds
    refine ⟨(g.pendingRequests i).connections, hholds.restart, ?_⟩
    rw [setQueue_eq_self]
    unfold say
    rw [List.map_nil, List.append_nil]
    rfl
  | cons conn conns ih =>
    intro g k himage hholds
    obtain ⟨r', hr', hholds'⟩ := hholds.take_front
    obtain ⟨g₁, hg₁⟩ : ∃ g₁, g₁ = (g.say [answerWith image conn]).setQueue i
        { g.pendingRequests i with connections := r' } := ⟨_, rfl⟩
    have hqueue : g₁.pendingRequests i = { g.pendingRequests i with connections := r' } := by
      rw [hg₁]
      exact setQueue_self
    have himage₁ : g₁.lastImage i = ⟨some ⟨addr, image⟩, image.length⟩ := by
      rw [hg₁]
      exact himage
    obtain ⟨connections, hempty, hfill⟩ := ih (k := k + 1) himage₁ (by rw [hqueue]; exact hholds')
    refine ⟨connections, hempty, ?_⟩
    rw [List.length_cons, fillPending]
    simp only [hholds.front, access_some, ok_bind, List.head?_cons, Option.bind_some, id_eq,
      asserted_some, himage, sendJpeg_eq g conn (responses k) hsize, hr']
    rw [← hg₁, hfill, hqueue, hg₁]
    simp only [setQueue, say, Function.update_idem, List.map_cons, List.append_assoc,
      List.singleton_append]

theorem Represents.publish {g g' : Globals P} {b : Board} {i : Slot} {addr : Nat}
    {image : List UInt8} (h : Represents g b)
    (himage : g'.lastImage = Function.update g.lastImage i ⟨some ⟨addr, image⟩, image.length⟩)
    (hempty : Holds (g'.pendingRequests i).connections 0 [])
    (hzero : (g'.pendingRequests i).numPending = 0)
    (hother : ∀ j, j ≠ i → g'.pendingRequests j = g.pendingRequests j) :
    Represents g' (b.publish i image) := by
  refine ⟨fun j => ?_, fun j m hm => ?_, fun j => ?_, fun j => ?_⟩
  · rw [himage]
    by_cases hj : j = i
    · subst hj
      rw [Function.update_self, Board.image_publish_self]
      rfl
    · rw [Function.update_of_ne hj, b.image_publish_of_ne image hj]
      exact h.image j
  · rw [himage] at hm ⊢
    by_cases hj : j = i
    · subst hj
      rw [Function.update_self] at hm ⊢
      cases hm
      rfl
    · rw [Function.update_of_ne hj] at hm ⊢
      exact h.size j m hm
  · by_cases hj : j = i
    · subst hj
      rwa [Board.waiting_publish_self]
    · rw [hother j hj, b.waiting_publish_of_ne image hj]
      exact h.queue j
  · by_cases hj : j = i
    · subst hj
      rwa [Board.waiting_publish_self]
    · rw [hother j hj, b.waiting_publish_of_ne image hj]
      exact h.numPending j

/-- **Publishing.** Storing an image answers with it those who wait at the slot. -/
theorem storeImage_board {g : Globals P} {b : Board} (h : Represents g b) (i : Slot)
    {image : List UInt8} (hsize : image.length ≤ IMAGE_BUFFER_SIZE) (addr : Nat) (e : WriteEnv) :
    ∃ g', g.storeImage i image addr e = .ok (e.server.ok, g') ∧
      g'.log = g.log ++ .stored i image :: (b.waiting i).map (answerWith image) ∧
      Represents g' (b.publish i image) := by
  obtain ⟨g₁, hg₁⟩ : ∃ g₁, g₁ = (g.setLastImage i ⟨some ⟨addr, image⟩, image.length⟩).say
      [.stored i image] := ⟨_, rfl⟩
  have himage : g₁.lastImage i = ⟨some ⟨addr, image⟩, image.length⟩ := by
    rw [hg₁]
    exact Function.update_self _ _ _
  have hqueue : g₁.pendingRequests = g.pendingRequests := by rw [hg₁]; rfl
  obtain ⟨connections, hempty, hfill⟩ := @fillPending_eq P i e.responses addr image hsize
    (b.waiting i) g₁ 0 himage (by rw [hqueue]; exact h.queue i)
  obtain ⟨g₂, hg₂⟩ : ∃ g₂, g₂ = (g₁.setQueue i { g₁.pendingRequests i with connections }).say
      ((b.waiting i).map (answerWith image)) := ⟨_, rfl⟩
  have hcells : g₂.pendingRequests i = { g₁.pendingRequests i with connections } := by
    rw [hg₂]
    exact setQueue_self
  obtain ⟨g₃, hg₃⟩ : ∃ g₃, g₃ = g₂.setQueue i { g₂.pendingRequests i with numPending := 0 } :=
    ⟨_, rfl⟩
  have hlast : g₃.pendingRequests i = { g₂.pendingRequests i with numPending := 0 } := by
    rw [hg₃]
    exact setQueue_self
  refine ⟨g₃.serverProcess e.server, ?_, ?_, ?_⟩
  · unfold storeImage
    simp only [← hg₁]
    rw [hqueue, h.numPending i, hfill, ok_bind, ← hg₂, ← hg₃]
    rfl
  · show g₃.log = _
    rw [hg₃, hg₂, hg₁]
    exact List.append_assoc _ _ _
  · have hrep : Represents g₃ (b.publish i image) := by
      refine @Represents.publish P g g₃ b i addr image h ?_ ?_ ?_ fun j hj => ?_
      · rw [hg₃, hg₂, hg₁]
        rfl
      · rw [hlast, hcells]
        exact hempty
      · rw [hlast]
      · rw [hg₃, setQueue_of_ne hj, hg₂, ← hqueue]
        exact setQueue_of_ne hj
    exact hrep.same rfl rfl

/-- A call of `writeImageFile` returns. -/
theorem writeImageFile_returns {g : Globals P} {b : Board} {image : List UInt8} (e : WriteEnv)
    (h : Represents g b) (hsize : image.length ≤ IMAGE_BUFFER_SIZE)
    (hlt : g.cameraIterator < MAX_NUM_CAMERAS) :
    ∃ ok g', g.writeImageFile image e = .ok (ok, g') := by
  obtain ⟨i, hi⟩ : ∃ i : Slot, i.val = g.cameraIterator := ⟨⟨_, hlt⟩, rfl⟩
  have hstore : ∀ (g' : Globals P) (addr : Nat), g'.lastImage = g.lastImage →
      g'.pendingRequests = g.pendingRequests →
      ∃ ok g'', g'.storeImage i image addr e = .ok (ok, g'') := by
    intro g' addr himage hqueue
    obtain ⟨g₁, hg₁, -⟩ := storeImage_board (h.same himage hqueue) i hsize addr e
    exact ⟨_, g₁, hg₁⟩
  have hslot : slot .lastImage g.cameraIterator = .ok i := slot_eq_ok.2 hi
  unfold writeImageFile
  simp only [say, hslot, ok_bind]
  split
  · exact ⟨_, _, rfl⟩
  split
  · exact ⟨_, _, rfl⟩
  split
  · exact ⟨_, _, rfl⟩
  split
  · exact ⟨_, _, rfl⟩
  split
  · exact ⟨_, _, rfl⟩
  split
  · exact hstore _ _ rfl rfl
  split
  · exact ⟨_, _, rfl⟩
  · exact hstore _ _ rfl rfl

/-- Publishing an image either comes to nothing, or it answers those who wait at the slot that the
iterator has come to. -/
theorem writeImageFile_board {g g' : Globals P} {b : Board} {image : List UInt8} {e : WriteEnv}
    {ok : Bool} (h : Represents g b) (hsize : image.length ≤ IMAGE_BUFFER_SIZE)
    (hw : g.writeImageFile image e = .ok (ok, g')) :
    SameClients g g' ∨ ∃ (i : Slot) (files : List Event), i.val = g.cameraIterator ∧
      (∀ o ∈ files, o.kind = .file) ∧
      g'.log = g.log ++ files ++ .stored i image :: (b.waiting i).map (answerWith image) ∧
      Represents g' (b.publish i image) := by
  cases writeImageFile_cases hw with
  | failed _ hfiles => exact .inl (sameClients_say fun o ho => by simp [hfiles o ho])
  | @stored files i addr _ _ _ hfiles hi hstore =>
    obtain ⟨g₁, hg₁, hlog, hrep⟩ :=
      storeImage_board (@Represents.same P g (g.say files) b h rfl rfl) i hsize addr e
    obtain ⟨-, rfl⟩ : _ ∧ g₁ = g' := by simpa using hg₁.symm.trans hstore
    exact .inr ⟨i, files, hi, hfiles, hlog, hrep⟩

/-- An image that is handed over fits the image buffer and has been accepted from the active
camera; the iterator is at the camera behind it. -/
theorem retrieve_accepted {n : Nat} {g g' : Globals P} {e : CameraEnv} {image : List UInt8}
    (h : Cameras n g) (hw : Watched g) (hr : g.retrieveImage e = .ok (.write image, g')) :
    image.length ≤ IMAGE_BUFFER_SIZE ∧ ∃ j : Slot, .accepted j image ∈ g'.log ∧ j.val < n ∧
      g'.cameraIterator = (j.val + 1) % n := by
  obtain ⟨j, c, r, hj, hc, -, -, -, -, -, hfetched⟩ := retrieve_watched hw hr
  have hlt : j.val < n := (h.configured j).1 (by rw [hc]; rfl)
  cases hfetched with
  | image _ hsome hsize =>
    refine ⟨hsize, j, ?_, hlt, h.iterator_eq hj⟩
    show _ ∈ g.log ++ r.accepted.map (.accepted j)
    rcases List.mem_append.1 (newest_mem hsome) with hold | hnew
    · -- an image that came with an earlier event
      obtain ⟨k, hk⟩ := mem_received hold
      have hlast := (h.accepted k _ hk).symm.trans (h.last j hj)
      obtain rfl : k = j := Fin.ext (Option.some.inj hlast)
      exact List.mem_append_left _ ((since_suffix _ _).subset hk)
    · exact List.mem_append_right _ (List.mem_map_of_mem hnew)

end Globals

namespace Reactor

open Globals

variable {P : HttpParser}

theorem cameraEvent_board {n : Nat} {r r' : Reactor P} {b : Board} {ev : EpollEvent}
    {e : CameraEnv} (h : Represents r.globals b) (hcams : Cameras n r.globals)
    (hw : Watched r.globals) (hr : r.cameraEvent ev e = .ok r') :
    Advances n r.globals r'.globals b := by
  rcases cameraEvent_cases hr with ⟨-, hdrop⟩ | ⟨-, code, g, hprocess, hcode⟩
  · exact advances_of_same h (dropCamera_onlyCameras hdrop).sameClients
  obtain ⟨t, g₁, hretrieve, hdone⟩ := processActiveCamera_cases hprocess
  have hfirst := (retrieveImage_onlyCameras hretrieve).sameClients
  -- what follows the image file leaves the clients alone
  have hlast : SameClients g r'.globals := by
    rcases hcode with ⟨-, rfl⟩ | ⟨-, hdrop⟩ | ⟨-, -, rfl⟩
    · exact .refl g
    · exact (dropCamera_onlyCameras hdrop).sameClients
    · exact .refl g
  rcases hdone with ⟨-, rfl⟩ | ⟨image, ok, g₂, rfl, hwrite, hg⟩
  · exact advances_of_same h (hfirst.trans hlast)
  have hclear : SameClients g₂ r'.globals := by
    rcases hg with ⟨-, -, rfl⟩ | ⟨-, -, rfl⟩
    · exact hlast
    · exact (onlyCameras_clearActive g₂).sameClients.trans hlast
  obtain ⟨hsize, j, haccepted, hlt, hiterator⟩ := retrieve_accepted hcams hw hretrieve
  have h₁ := h.same hfirst.lastImage hfirst.pendingRequests
  rcases writeImageFile_board h₁ hsize hwrite with hsame | ⟨i, files, hi, hfiles, hlog, hrep⟩
  · exact advances_of_same h ((hfirst.trans hsame).trans hclear)
  obtain ⟨new₁, hlog₁, hnew₁⟩ := hfirst.log
  obtain ⟨new₂, hlog₂, hnew₂⟩ := hclear.log
  refine ⟨new₁ ++ files ++ .stored i image :: (b.waiting i).map (answerWith image) ++ new₂,
    b.publish i image, ?_, ?_, hrep.same hclear.lastImage hclear.pendingRequests⟩
  · rw [hlog₂, hlog, hlog₁]
    simp only [List.append_assoc]
  · apply Board.Step.publishes _ hnew₂ hsize ⟨hlt, hi.trans hiterator⟩
    · rw [← List.append_assoc, ← hlog₁]
      exact List.mem_append_left _ haccepted
    · intro o ho
      rcases List.mem_append.1 ho with ho | ho
      · exact hnew₁ o ho
      · simp [hfiles o ho]

/-- **One step of the reactor is one of the board.** -/
theorem step_board {n : Nat} {sg : Sandgrouse} {r r' : Reactor P} {b : Board} {e : Env}
    (hinv : Inv n r) (h : Represents r.globals b) (hrun : Board.Run n r.globals.log b)
    (hs : step sg r e = .ok r') : Advances n r.globals r'.globals b := by
  cases step_cases hs with
  | moved | batch | flagged => exact advances_of_same h (.refl _)
  | server | finish => exact advances_of_same h ⟨rfl, rfl, .refl _⟩
  | opened _ _ _ hopen => exact advances_of_same h (openNext_onlyCameras hopen).sameClients
  | camera hc _ hcamera =>
    have hw := hinv.watched (by intro hl; simp [hc] at hl)
    have := cameraEvent_board h hinv.cameras hw hcamera
    exact this
  | @request conn ready _ _ _ g _ _ hreq =>
    obtain ⟨g₀, hg₀⟩ : ∃ g₀, g₀ = { r.globals with ready } := ⟨_, rfl⟩
    have hpop : Represents g₀ b := h.same (by rw [hg₀]) (by rw [hg₀])
    rw [← hg₀] at hreq
    have hlog : g₀.log = r.globals.log := by rw [hg₀]
    have hn : g₀.numCameras = n := by
      rw [hg₀]
      exact hinv.cameras.numCameras
    obtain ⟨new, b', hnew, hboard, hrep⟩ := request_board hpop (by rwa [hlog]) hn hreq
    rw [hlog] at hnew hboard
    exact ⟨new, b', hnew, hboard, hrep⟩

/-- The reactor is in a state that the board can be in. -/
structure OnBoard (n : Nat) (r : Reactor P) (b : Board) : Prop where
  inv : Inv n r
  represents : Represents r.globals b
  run : Board.Run n r.globals.log b

theorem onBoard_initial {n : Nat} {r : Reactor P} (h : Initial n r) : OnBoard n r .empty := by
  refine ⟨inv_initial h, ?_, ?_⟩
  · obtain ⟨host, username, password, malloc, g, hn, hsetup, rfl⟩ := h
    obtain ⟨-, conns, rfl, -⟩ := setup_cameras hn hsetup
    refine ⟨fun _ => rfl, ?_, fun _ => Holds.fill _ _, fun _ => rfl⟩
    rintro i m ⟨⟩
  · obtain ⟨host, username, password, malloc, g, hn, hsetup, rfl⟩ := h
    obtain ⟨-, conns, rfl, -⟩ := setup_cameras hn hsetup
    exact .start

theorem onBoard_step {n : Nat} {sg : Sandgrouse} {r r' : Reactor P} {e : Env}
    (h : ∃ b, OnBoard n r b) (hs : step sg r e = .ok r') : ∃ b, OnBoard n r' b := by
  obtain ⟨b, hb⟩ := h
  obtain ⟨new, b', hlog, hboard, hrep⟩ := step_board hb.inv hb.represents hb.run hs
  refine ⟨b', inv_step hb.inv hs, hrep, ?_⟩
  rw [hlog]
  exact .next hb.run hboard

/-- **The reactor refines the board.** -/
theorem run_board {n : Nat} {sg : Sandgrouse} {r₀ r : Reactor P} {es : List Env}
    (h₀ : Initial n r₀) (h : Lib.run (step sg) r₀ es = .ok r) : ∃ b, OnBoard n r b :=
  run_invariant (fun _ _ _ => onBoard_step) ⟨.empty, onBoard_initial h₀⟩ h

end Reactor

end Rsva11001
