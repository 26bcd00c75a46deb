import Rsva11001.Lib.RoundRobin
import Rsva11001.Verify.Handlers

/-!
# The cameras over whole runs

`Cameras n g`: `n` cameras are set up, only the active one can be open, and they have been opened
in turn. `Watched g`: the active camera is open, and its connection holds what the history says it
has received since it was opened. Every run from the initial state keeps both (`run_cameras`), the
second for as long as events may be handled.
-/

namespace Rsva11001

open Lib

/-! ## The history -/

def Event.isOpened : Event → Bool
  | .opened _ => true
  | _ => false

/-- The cameras opened, in order. -/
def openings (t : List Event) : List Nat :=
  t.filterMap fun
    | .opened i => some i.val
    | _ => none

/-- The payloads of the messages accepted since the last opening. -/
def received (t : List Event) : List (List UInt8) :=
  (since Event.isOpened t).filterMap fun
    | .accepted _ payload => some payload
    | _ => none

theorem isOpened_of_kind {o : Event} (h : o.kind ≠ .camera) : o.isOpened = false := by
  cases o <;> first | rfl | exact absurd rfl h

theorem openings_append (t t' : List Event) : openings (t ++ t') = openings t ++ openings t' :=
  List.filterMap_append

theorem openings_of_forall {t : List Event} (h : ∀ o ∈ t, o.isOpened = false) :
    openings t = [] := by
  refine List.filterMap_eq_nil_iff.2 fun o ho => ?_
  have := h o ho
  cases o <;> first | rfl | cases this

theorem received_opened (t : List Event) (i : Slot) : received (t ++ [.opened i]) = [] := by
  unfold received
  rw [since_concat rfl]
  rfl

theorem received_append {t new : List Event} (h : ∀ o ∈ new, o.isOpened = false) :
    received (t ++ new) = received t ++ new.filterMap fun
      | .accepted _ payload => some payload
      | _ => none := by
  unfold received
  rw [since_append h, List.filterMap_append]

theorem received_unclosed (t : List Event) (i : Slot) :
    received (t ++ [.unclosed i]) = received t := by
  rw [received_append (by simp [Event.isOpened])]
  exact List.append_nil _

theorem received_accepted (t : List Event) (i : Slot) (ps : List (List UInt8)) :
    received (t ++ ps.map (.accepted i)) = received t ++ ps := by
  rw [received_append]
  · rw [List.filterMap_map]
    congr 1
    exact List.filterMap_some
  · intro o ho
    obtain ⟨p, -, rfl⟩ := List.mem_map.1 ho
    rfl

theorem received_extends {t t' : List Event} (h : Extends (fun o => o.kind ≠ .camera) t t') :
    received t' = received t := by
  obtain ⟨new, rfl, hnew⟩ := h
  rw [received_append fun o ho => isOpened_of_kind (hnew o ho), List.filterMap_eq_nil_iff.2,
    List.append_nil]
  intro o ho
  have := hnew o ho
  cases o <;> first | rfl | exact absurd rfl this

theorem accepted_extends {t t' : List Event} {i : Slot} {p : List UInt8}
    (h : Extends (fun o => o.kind ≠ .camera) t t') (ho : .accepted i p ∈ since Event.isOpened t') :
    .accepted i p ∈ since Event.isOpened t := by
  obtain ⟨new, rfl, hnew⟩ := h
  rw [since_append fun o ho => isOpened_of_kind (hnew o ho)] at ho
  rcases List.mem_append.1 ho with ho | ho
  · exact ho
  · exact absurd rfl (hnew _ ho)

theorem mem_received {t : List Event} {p : List UInt8} (h : p ∈ received t) :
    ∃ i, .accepted i p ∈ since Event.isOpened t := by
  obtain ⟨o, ho, hp⟩ := List.mem_filterMap.1 h
  cases o with
  | accepted i q =>
    obtain rfl : q = p := Option.some.inj hp
    exact ⟨i, ho⟩
  | _ => cases hp

theorem openings_extends {t t' : List Event} (h : Extends (fun o => o.kind ≠ .camera) t t') :
    openings t' = openings t := by
  obtain ⟨new, rfl, hnew⟩ := h
  rw [openings_append, openings_of_forall fun o ho => isOpened_of_kind (hnew o ho),
    List.append_nil]

namespace Globals

variable {P : HttpParser}

/-- `n` cameras are set up, the one at `i` for channel `i + 1`, and only the active one can be
open. -/
structure Conns (n : Nat) (g : Globals P) : Prop where
  pos : 1 ≤ n
  le : n ≤ MAX_NUM_CAMERAS
  numCameras : g.numCameras = n
  configured : ∀ i, (g.conns i).isSome ↔ i.val < n
  channel : ∀ i c, g.conns i = some c → c.channel = i.val + 1
  sized : ∀ i c, g.conns i = some c → c.Sized
  exclusive : ∀ i c, g.conns i = some c → c.sockfd.isSome → g.activeCamera = some i

/-- The cameras have been opened in turn, the active one last, and the iterator is at the next.
Messages have been accepted from the camera opened last. -/
structure Rounds (n : Nat) (g : Globals P) : Prop where
  iterator : g.cameraIterator = (openings g.log).length % n
  turns : Turns n (openings g.log)
  last : ∀ i, g.activeCamera = some i → (openings g.log).getLast? = some i.val
  accepted : ∀ i p, .accepted i p ∈ since Event.isOpened g.log →
    (openings g.log).getLast? = some i.val

structure Cameras (n : Nat) (g : Globals P) : Prop extends Conns n g, Rounds n g

/-- The active camera is open and has received what the history says. -/
def Watched (g : Globals P) : Prop :=
  ∀ i, g.activeCamera = some i → ∃ c carry latest, g.conns i = some c ∧ c.sockfd.isSome ∧
    c.Receiving carry latest ∧ latest.map Message.payload = (received g.log).getLast?

theorem Conns.same {n : Nat} {g g' : Globals P} (h : Conns n g) (hs : SameCameras g g') :
    Conns n g' := by
  refine ⟨h.pos, h.le, hs.numCameras.trans h.numCameras, ?_, ?_, ?_, ?_⟩
  · rw [hs.conns]
    exact h.configured
  · rw [hs.conns]
    exact h.channel
  · rw [hs.conns]
    exact h.sized
  · rw [hs.conns, hs.activeCamera]
    exact h.exclusive

theorem Rounds.same {n : Nat} {g g' : Globals P} (h : Rounds n g) (hs : SameCameras g g') :
    Rounds n g' := by
  refine ⟨?_, ?_, ?_, ?_⟩
  · rw [hs.cameraIterator, openings_extends hs.log, h.iterator]
  · rw [openings_extends hs.log]
    exact h.turns
  · rw [hs.activeCamera, openings_extends hs.log]
    exact h.last
  · intro i p ho
    rw [openings_extends hs.log]
    exact h.accepted i p (accepted_extends hs.log ho)

theorem Cameras.same {n : Nat} {g g' : Globals P} (h : Cameras n g) (hs : SameCameras g g') :
    Cameras n g' :=
  ⟨h.toConns.same hs, h.toRounds.same hs⟩

theorem Watched.same {g g' : Globals P} (h : Watched g) (hs : SameCameras g g') : Watched g' := by
  unfold Watched
  rw [hs.activeCamera, hs.conns, received_extends hs.log]
  exact h

/-- With no active camera every connection is closed. -/
theorem Conns.all_closed {n : Nat} {g : Globals P} (h : Conns n g)
    (hactive : g.activeCamera = none) {i : Slot} {c : Connection P} (hc : g.conns i = some c) :
    c.sockfd = none := by
  by_contra hopen
  have := h.exclusive i c hc (Option.isSome_iff_ne_none.2 hopen)
  rw [hactive] at this
  cases this

section SetConn

variable {g : Globals P} {i j : Slot} {c c' d : Connection P}

@[simp] theorem setConn_self : (g.setConn i c').conns i = some c' :=
  Function.update_self _ _ _

theorem setConn_of_ne (h : j ≠ i) : (g.setConn i c').conns j = g.conns j :=
  Function.update_of_ne h _ _

theorem setConn_cases (h : (g.setConn i c').conns j = some d) :
    j = i ∧ d = c' ∨ j ≠ i ∧ g.conns j = some d := by
  by_cases hj : j = i
  · subst hj
    rw [setConn_self] at h
    exact .inl ⟨rfl, (Option.some.inj h).symm⟩
  · rw [setConn_of_ne hj] at h
    exact .inr ⟨hj, h⟩

theorem setConn_isSome (hc : g.conns i = some c) :
    ((g.setConn i c').conns j).isSome ↔ (g.conns j).isSome := by
  by_cases hj : j = i
  · subst hj
    rw [setConn_self, hc]
    exact Iff.rfl
  · rw [setConn_of_ne hj]

end SetConn

/-- The connection of the active camera may change its state. -/
theorem Conns.setConn {n : Nat} {g : Globals P} (h : Conns n g) {i : Slot}
    {c c' : Connection P} (hactive : g.activeCamera = some i) (hc : g.conns i = some c)
    (hchannel : c'.channel = c.channel) (hsized : c'.Sized) : Conns n (g.setConn i c') := by
  refine ⟨h.pos, h.le, h.numCameras, fun j => ?_, ?_, ?_, ?_⟩
  · rw [setConn_isSome hc, h.configured j]
  · intro j d hd
    rcases setConn_cases hd with ⟨rfl, rfl⟩ | ⟨-, hd⟩
    · rw [hchannel, h.channel j c hc]
    · exact h.channel j d hd
  · intro j d hd
    rcases setConn_cases hd with ⟨rfl, rfl⟩ | ⟨-, hd⟩
    · exact hsized
    · exact h.sized j d hd
  · intro j d hd hopen
    rcases setConn_cases hd with ⟨rfl, rfl⟩ | ⟨-, hd⟩
    · exact hactive
    · exact h.exclusive j d hd hopen

theorem Cameras.setConn {n : Nat} {g : Globals P} (h : Cameras n g) {i : Slot}
    {c c' : Connection P} (hactive : g.activeCamera = some i) (hc : g.conns i = some c)
    (hchannel : c'.channel = c.channel) (hsized : c'.Sized) : Cameras n (g.setConn i c') :=
  ⟨h.toConns.setConn hactive hc hchannel hsized, ⟨h.iterator, h.turns, h.last, h.accepted⟩⟩

/-- Entries that open nothing leave the turns as they are. -/
theorem Cameras.say {n : Nat} {g : Globals P} (h : Cameras n g) {events : List Event}
    (hevents : ∀ o ∈ events, o.isOpened = false)
    (haccepted : ∀ i p, .accepted i p ∈ events → g.activeCamera = some i) :
    Cameras n (g.say events) := by
  have hopen : openings (g.say events).log = openings g.log := by
    show openings (g.log ++ events) = _
    rw [openings_append, openings_of_forall hevents, List.append_nil]
  refine ⟨⟨h.pos, h.le, h.numCameras, h.configured, h.channel, h.sized, h.exclusive⟩,
    ⟨?_, ?_, ?_, ?_⟩⟩
  · rw [hopen]
    exact h.iterator
  · rw [hopen]
    exact h.turns
  · rw [hopen]
    exact h.last
  · intro i p ho
    rw [hopen]
    have ho : .accepted i p ∈ since Event.isOpened (g.log ++ events) := ho
    rw [since_append hevents] at ho
    rcases List.mem_append.1 ho with ho | ho
    · exact h.accepted i p ho
    · exact h.last i (haccepted i p ho)

/-- A socket that could not be closed is what it was. -/
theorem Cameras.unclosed {n : Nat} {g : Globals P} (h : Cameras n g) (i : Slot) :
    Cameras n (g.say [.unclosed i]) := by
  apply h.say
  · intro o ho
    obtain rfl := List.mem_singleton.1 ho
    rfl
  · intro j p ho
    cases List.mem_singleton.1 ho

theorem Watched.unclosed {g : Globals P} (h : Watched g) (i : Slot) :
    Watched (g.say [.unclosed i]) := by
  intro j hj
  obtain ⟨c, carry, latest, hc, hfd, hrecv, hlast⟩ := h j hj
  refine ⟨c, carry, latest, hc, hfd, hrecv, hlast.trans ?_⟩
  exact congrArg List.getLast? (received_unclosed g.log i).symm

/-- The active camera may be dropped once it is closed. -/
theorem Cameras.clearActive {n : Nat} {g : Globals P} (h : Cameras n g)
    (hclosed : ∀ i c, g.activeCamera = some i → g.conns i = some c → c.sockfd = none) :
    Cameras n g.clearActive := by
  have hsaid : Cameras n (g.say (g.activeCamera.toList.map .cleared)) := by
    apply h.say
    · intro o ho
      obtain ⟨i, -, rfl⟩ := List.mem_map.1 ho
      rfl
    · intro i p ho
      obtain ⟨j, -, ⟨⟩⟩ := List.mem_map.1 ho
  refine ⟨⟨h.pos, h.le, h.numCameras, h.configured, h.channel, h.sized, ?_⟩,
    ⟨hsaid.iterator, hsaid.turns, ?_, hsaid.accepted⟩⟩
  · intro i c hc hopen
    have hactive := h.exclusive i c hc hopen
    rw [hclosed i c hactive hc] at hopen
    cases hopen
  · rintro i ⟨⟩

theorem watched_clearActive (g : Globals P) : Watched g.clearActive := by
  rintro i ⟨⟩

/-! ## Setting up -/

/-- The connection that is set up for the camera at `i`. -/
def setUp (P : HttpParser) (host username password : CString) (i : Slot) : Connection P :=
  { Connection.malloc P with hostname := host, username, password, channel := i.val + 1 }

theorem setupFrom_cases {malloc : Nat → Bool} {m : Nat} : ∀ {g g' : Globals P} {k : Nat},
    g.setupFrom malloc k m = .ok (true, g') → k ≤ MAX_NUM_CAMERAS → k + m ≤ MAX_NUM_CAMERAS ∧
      ∃ conns, g' = { g with conns } ∧
        (∀ i : Slot, (conns i).isSome ↔ (g.conns i).isSome ∨ k ≤ i.val ∧ i.val < k + m) ∧
        ∀ i c, conns i = some c → g.conns i = some c ∨
          c = setUp P g.host g.username g.password i := by
  induction m with
  | zero =>
    intro g g' k h hk
    cases h
    exact ⟨hk, g.conns, rfl, fun i => ⟨.inl, fun h => h.resolve_right (by omega)⟩,
      fun i c hc => .inl hc⟩
  | succ m ih =>
    intro g g' k h hk
    rw [setupFrom] at h
    split at h
    · cases h
    split at h
    · cases h
    rename_i conn hconf
    obtain ⟨s, hs, h⟩ := bind_eq_ok.1 h
    obtain rfl := slot_eq_ok.1 hs
    obtain ⟨hle, conns, rfl, hsome, hconn⟩ := ih h s.isLt
    have hlt := s.isLt
    refine ⟨by omega, conns, rfl, fun i => ?_, fun i c hc => ?_⟩
    · rw [hsome i]
      by_cases hi : i = s
      · subst hi
        rw [setConn_self]
        exact iff_of_true (.inl rfl) (.inr ⟨Nat.le_refl _, by omega⟩)
      · rw [setConn_of_ne hi]
        have : i.val ≠ s.val := fun h => hi (Fin.ext h)
        constructor
        · rintro (h | h)
          · exact .inl h
          · right
            omega
        · rintro (h | h)
          · exact .inl h
          · right
            omega
    · rcases hconn i c hc with h | h
      · rcases setConn_cases h with ⟨rfl, rfl⟩ | ⟨-, h⟩
        · exact .inr (Connection.configure_accepted hconf).2.1
        · exact .inl h
      · exact .inr h

theorem setup_cameras {host username password : CString} {n : Nat} {malloc : Nat → Bool}
    {g : Globals P} (hn : 1 ≤ n) (h : (configured P host username password n).setupCameraConnections
      malloc = .ok (true, g)) :
    Cameras n g ∧ ∃ conns, g = { configured P host username password n with conns } ∧
      ∀ i c, conns i = some c → c = setUp P host username password i := by
  obtain ⟨hle, conns, rfl, hsome, hconn⟩ := setupFrom_cases h (Nat.zero_le _)
  have hfresh : ∀ i c, conns i = some c → c = setUp P host username password i := by
    intro i c hc
    rcases hconn i c hc with h | h
    · cases h
    · exact h
  refine ⟨⟨⟨hn, by simpa [configured] using hle, rfl, fun i => ?_, ?_, ?_, ?_⟩,
    ⟨(Nat.zero_mod n).symm, turns_nil, ?_, ?_⟩⟩, conns, rfl, hfresh⟩
  · rw [hsome i]
    simp [configured]
  · intro i c hc
    rw [hfresh i c hc]
    rfl
  · intro i c hc
    rw [hfresh i c hc]
    exact @Connection.sized_malloc P
  · intro i c hc hopen
    rw [hfresh i c hc] at hopen
    cases hopen
  · rintro i ⟨⟩
  · rintro i p ⟨⟩

/-! ## Opening the next camera -/

theorem Cameras.nextIterator {n : Nat} {g : Globals P} (h : Cameras n g) :
    g.nextIterator = ((openings g.log).length + 1) % n := by
  have hlt := Nat.mod_lt (openings g.log).length h.pos
  have hle := h.le
  unfold MAX_NUM_CAMERAS at hle
  unfold Globals.nextIterator
  rw [h.numCameras, h.iterator, Nat.mod_eq_of_lt (by omega)]
  exact next_turn h.pos _

/-- While a camera is active, the iterator is at the camera behind it. -/
theorem Rounds.iterator_eq {n : Nat} {g : Globals P} (h : Rounds n g) {i : Slot}
    (hactive : g.activeCamera = some i) : g.cameraIterator = (i.val + 1) % n := by
  have hlast := h.last i hactive
  rw [List.getLast?_eq_getElem?] at hlast
  have hturn := h.turns _ _ hlast
  have hpos : 0 < (openings g.log).length := by
    obtain ⟨hlt, -⟩ := List.getElem?_eq_some_iff.1 hlast
    omega
  rw [h.iterator, hturn, Nat.mod_add_mod, Nat.sub_add_cancel hpos]

/-- Opening the next camera keeps the turns; when it succeeds, the camera is watched. -/
theorem Cameras.openNext {n : Nat} {g g' : Globals P} {e : OpenNextEnv} {b : Bool}
    (h : Cameras n g) (hactive : g.activeCamera = none)
    (hopen : g.openNextCameraConnection e = .ok (b, g')) :
    Cameras n g' ∧ g'.activeCamera.isSome ∧ (b = true → Watched g') := by
  obtain ⟨i, c, r, hi, hc, hr, rfl, rfl⟩ := openNext_cases hopen
  have hclosed := h.all_closed hactive hc
  obtain ⟨hconfig, hopened⟩ := Connection.open_isClosed (h.sized i c hc) hclosed hr
  have hlog : openings (g.log ++ [.opened i]) =
      openings g.log ++ [(openings g.log).length % n] := by
    rw [openings_append, ← h.iterator, ← hi]
    rfl
  have hsized : r.conn.Sized := by
    cases hopened with
    | failed _ hrecv => exact hrecv.sized (h.sized i c hc)
    | opened _ _ _ hrecv => exact hrecv.sized
  have hactivated :
      Conns n { g with activeCamera := some i, cameraIterator := g.nextIterator } := by
    refine ⟨h.pos, h.le, h.numCameras, h.configured, h.channel, h.sized, fun j d hd hfd => ?_⟩
    rw [h.all_closed hactive hd] at hfd
    cases hfd
  refine ⟨⟨?_, ⟨?_, ?_, ?_, ?_⟩⟩, rfl, fun hb => ?_⟩
  · have hset := hactivated.setConn rfl hc hconfig.channel hsized
    exact ⟨hset.pos, hset.le, hset.numCameras, hset.configured, hset.channel, hset.sized,
      hset.exclusive⟩
  · show g.nextIterator = (openings (g.log ++ [.opened i])).length % n
    rw [h.nextIterator, hlog, List.length_append]
    rfl
  · show Turns n (openings (g.log ++ [.opened i]))
    rw [hlog]
    exact h.turns.concat
  · rintro j ⟨⟩
    show (openings (g.log ++ [.opened i])).getLast? = some i.val
    rw [hlog, List.getLast?_concat, ← h.iterator, hi]
  · intro j p ho
    have ho : .accepted j p ∈ since Event.isOpened (g.log ++ [.opened i]) := ho
    rw [since_concat rfl] at ho
    cases ho
  · have hret : r.ret = true := by
      rw [Bool.and_eq_true] at hb
      exact hb.1
    rintro j ⟨⟩
    cases hopened with
    | failed hfail => simp [hret] at hfail
    | opened _ _ hfd hrecv =>
      refine ⟨r.conn, [], none, setConn_self, by rw [hfd]; rfl, hrecv, ?_⟩
      show _ = (received (g.log ++ [.opened i])).getLast?
      rw [received_opened]
      rfl

/-! ## Retrieving an image -/

/-- The newest image of the active camera when `process` has returned `r`. -/
def newest (g : Globals P) (r : ProcessResult P) : List UInt8 :=
  ((received g.log ++ r.accepted).getLast?).getD []

theorem getLast?_of_newest {g : Globals P} {r : ProcessResult P} (h : g.newest r ≠ []) :
    (received g.log ++ r.accepted).getLast? = some (g.newest r) := by
  unfold newest at h ⊢
  cases hlast : (received g.log ++ r.accepted).getLast? with
  | none =>
    rw [hlast] at h
    exact absurd rfl h
  | some p => rfl

theorem newest_mem {g : Globals P} {r : ProcessResult P} (h : g.newest r ≠ []) :
    g.newest r ∈ received g.log ++ r.accepted :=
  List.mem_of_getLast? (getLast?_of_newest h)

/-- How the retrieval from a watched camera ends, in terms of the newest image. -/
inductive Fetched (g : Globals P) (e : CameraEnv) (i : Slot) (r : ProcessResult P) :
    Retrieval → Globals P → Prop
  | failed (hret : r.ret = false) : Fetched g e i r (.done (-1)) (g.afterProcess i r)
  | refused (hret : r.ret = true) (hsize : IMAGE_BUFFER_SIZE < (g.newest r).length) :
      Fetched g e i r (.done (-1)) (g.afterProcess i r)
  | idle (hret : r.ret = true) (hnone : g.newest r = []) :
      Fetched g e i r (.done 0) (g.afterProcess i r)
  | unclosed (hret : r.ret = true) (hsome : g.newest r ≠ [])
      (hsize : (g.newest r).length ≤ IMAGE_BUFFER_SIZE) (hclose : e.close = false) :
      Fetched g e i r (.done (-2)) ((g.afterProcess i r).say [.unclosed i])
  | image (hret : r.ret = true) (hsome : g.newest r ≠ [])
      (hsize : (g.newest r).length ≤ IMAGE_BUFFER_SIZE) (hclose : e.close = true) :
      Fetched g e i r (.write (g.newest r))
        ((g.afterProcess i r).setConn i r.conn.disconnected)

theorem imageBytes_eq (latest : Option Message) :
    Connection.imageBytes latest = (latest.map Message.payload).getD [] := by
  cases latest <;> rfl

/-- **One retrieval.** The active camera was open and is watched on; its newest image is passed on
unless `process` fails, the image is too large or there is none, or the socket stays open. -/
theorem retrieve_watched {g g' : Globals P} {e : CameraEnv} {t : Retrieval} (hw : Watched g)
    (h : g.retrieveImage e = .ok (t, g')) : ∃ i c r, g.activeCamera = some i ∧
      g.conns i = some c ∧ c.process e.process = .ok r ∧ r.conn.channel = c.channel ∧
      r.conn.sockfd.isSome ∧ (r.accepted ≠ [] → r.ret = endsBlocked e.process.recvs) ∧
      (∃ carry latest, r.conn.Receiving carry latest ∧
        latest.map Message.payload = (received g.log ++ r.accepted).getLast?) ∧
      Fetched g e i r t g' := by
  obtain ⟨i, c, r, hi, hc, hr, hcases⟩ := retrieveImage_cases h
  obtain ⟨c₀, carry, latest, hc₀, hfd, hrecv, hlast⟩ := hw i hi
  obtain rfl : c = c₀ := Option.some.inj (hc.symm.trans hc₀)
  obtain ⟨-, hcomp, hret⟩ := Connection.process_cases hrecv hr
  obtain ⟨carry', latest', hrecv', hlast'⟩ := hcomp.receiving
  have hnewest : latest'.map Message.payload = (received g.log ++ r.accepted).getLast? := by
    rw [hlast', Connection.lastPayload, hlast, List.getLast?_append]
  have hopen : r.conn.sockfd.isSome := by
    rw [hcomp.sockfd]
    exact hfd
  have hbytes : Connection.imageBytes latest' = g.newest r := by
    rw [imageBytes_eq, hnewest]
    rfl
  refine ⟨i, c, r, hi, hc, hr, hcomp.config.channel, hopen, hret,
    ⟨carry', latest', hrecv', hnewest⟩, ?_⟩
  have himage := Connection.getLatestImage_eq hrecv' IMAGE_BUFFER_SIZE
  by_cases hsize : IMAGE_BUFFER_SIZE < (g.newest r).length
  · -- the image is refused
    rw [Connection.latestImage_refused (by rw [hbytes]; exact hsize)] at himage
    cases hcases with
    | failed hret => exact .failed hret
    | refused hret => exact .refused hret hsize
    | idle _ hi htaken | unclosed _ hi htaken | image _ hi htaken =>
      rw [himage] at hi
      cases hi
      cases htaken
  · have htaken : Connection.latestImage latest' IMAGE_BUFFER_SIZE =
        ⟨true, (g.newest r).length, g.newest r⟩ := by
      rw [← hbytes]
      apply Connection.latestImage_eq
      rintro m rfl
      rw [← hbytes] at hsize
      exact Nat.not_lt.1 hsize
    rw [htaken] at himage
    have hsize := Nat.not_lt.1 hsize
    cases hcases with
    | failed hret => exact .failed hret
    | refused _ hi hrefused =>
      rw [himage] at hi
      cases hi
      cases hrefused
    | idle hret hi _ hzero =>
      rw [himage] at hi
      cases hi
      exact .idle hret (List.length_eq_zero_iff.1 hzero)
    | unclosed hret hi _ hpos hclose =>
      rw [himage] at hi
      cases hi
      rw [Connection.close_isOpen hopen] at hclose ⊢
      have hclose : e.close = false := hclose
      have hidem : (g.afterProcess i r).setConn i r.conn = g.afterProcess i r := by
        simp only [Globals.setConn, afterProcess, Globals.say, Function.update_idem]
      rw [hclose, if_neg (by simp), hidem]
      exact .unclosed hret (List.length_pos_iff.1 (Nat.pos_of_ne_zero hpos)) hsize hclose
    | image hret hi _ hpos hclose =>
      rw [himage] at hi
      cases hi
      rw [Connection.close_isOpen hopen] at hclose ⊢
      have hclose : e.close = true := hclose
      rw [hclose, if_pos rfl, List.take_length]
      exact .image hret (List.length_pos_iff.1 (Nat.pos_of_ne_zero hpos)) hsize hclose

theorem afterProcess_cameras {n : Nat} {g : Globals P} {i : Slot} {c : Connection P}
    {r : ProcessResult P} (h : Cameras n g) (hactive : g.activeCamera = some i)
    (hc : g.conns i = some c) (hchannel : r.conn.channel = c.channel)
    (hsized : r.conn.Sized) : Cameras n (g.afterProcess i r) := by
  apply (h.setConn hactive hc hchannel hsized).say
  · intro o ho
    obtain ⟨p, -, rfl⟩ := List.mem_map.1 ho
    rfl
  · intro j p ho
    obtain ⟨q, -, hq⟩ := List.mem_map.1 ho
    cases hq
    exact hactive

/-- A retrieval keeps the cameras; unless it passes an image on, the active one is watched on, and
if it does, the active one is closed. -/
theorem retrieve_cameras {n : Nat} {g g' : Globals P} {e : CameraEnv} {t : Retrieval}
    (h : Cameras n g) (hw : Watched g) (hr : g.retrieveImage e = .ok (t, g')) :
    Cameras n g' ∧ g'.activeCamera = g.activeCamera ∧
      ((∃ code, t = .done code) → Watched g') ∧
      ((∃ buffer, t = .write buffer) →
        ∀ i c, g'.activeCamera = some i → g'.conns i = some c → c.sockfd = none) := by
  obtain ⟨i, c, r, hi, hc, -, hchannel, hfd, -, ⟨carry, latest, hrecv, hlast⟩, hcases⟩ :=
    retrieve_watched hw hr
  have hsized : r.conn.Sized := hrecv.sized
  have hcams := afterProcess_cameras h hi hc hchannel hsized
  have hwatched : Watched (g.afterProcess i r) := by
    intro j hj
    obtain rfl : i = j := Option.some.inj (hi.symm.trans hj)
    refine ⟨r.conn, carry, latest, setConn_self, hfd, hrecv, ?_⟩
    rw [hlast]
    show _ = (received (g.log ++ r.accepted.map (.accepted i))).getLast?
    rw [received_accepted]
  cases hcases with
  | failed | refused | idle =>
    refine ⟨hcams, rfl, fun _ => hwatched, ?_⟩
    rintro ⟨buffer, ⟨⟩⟩
  | unclosed =>
    refine ⟨hcams.unclosed i, rfl, fun _ => hwatched.unclosed i, ?_⟩
    rintro ⟨buffer, ⟨⟩⟩
  | image hret hsome hsize hclose =>
    have hclosed := (Connection.sameReceive_disconnected r.conn).sized hsized
    refine ⟨?_, rfl, ?_, fun _ j d hj hd => ?_⟩
    · exact hcams.setConn hi setConn_self (Connection.channel_disconnected r.conn) hclosed
    · rintro ⟨code, ⟨⟩⟩
    · obtain rfl : i = j := Option.some.inj (hi.symm.trans hj)
      have hself : some r.conn.disconnected = some d := setConn_self.symm.trans hd
      cases hself
      rfl

end Globals

namespace Reactor

open Globals

variable {P : HttpParser}

theorem dropCamera_cameras {n : Nat} {r r' : Reactor P} {closeOk : Bool}
    (h : Cameras n r.globals) (hd : r.dropCamera closeOk = .ok r') :
    Cameras n r'.globals ∧ (Watched r.globals ∨ (∀ i c, r.globals.activeCamera = some i →
      r.globals.conns i = some c → c.sockfd = none) → Watched r'.globals) := by
  obtain ⟨i, c, hi, hc, ⟨-, hopen, rfl⟩ | rfl⟩ := dropCamera_cases hd
  · refine ⟨h.unclosed i, fun hw => Watched.unclosed (hw.resolve_right fun hclosed => ?_) i⟩
    rw [hclosed i c hi hc] at hopen
    cases hopen
  · refine ⟨?_, fun _ => watched_clearActive _⟩
    have hsized := (Connection.sameReceive_disconnected c).sized (h.sized i c hc)
    have hset := h.setConn hi hc (Connection.channel_disconnected c) hsized
    refine hset.clearActive fun j d hj hd => ?_
    obtain rfl : i = j := Option.some.inj (hi.symm.trans hj)
    have hself : some c.disconnected = some d := setConn_self.symm.trans hd
    cases hself
    rfl

theorem cameraEvent_cameras {n : Nat} {r r' : Reactor P} {ev : EpollEvent} {e : CameraEnv}
    (h : Cameras n r.globals) (hw : Watched r.globals) (hr : r.cameraEvent ev e = .ok r') :
    Cameras n r'.globals ∧ Watched r'.globals := by
  rcases cameraEvent_cases hr with ⟨-, hdrop⟩ | ⟨-, code, g, hprocess, hcode⟩
  · obtain ⟨hcams, hwatched⟩ := dropCamera_cameras h hdrop
    exact ⟨hcams, hwatched (.inl hw)⟩
  obtain ⟨t, g₁, hretrieve, hdone⟩ := processActiveCamera_cases hprocess
  obtain ⟨hcams, hactive, hwatched, hclosed⟩ := retrieve_cameras h hw hretrieve
  rcases hdone with ⟨rfl, rfl⟩ | ⟨buffer, b, g₂, rfl, hwrite, hb⟩
  · have hwatched := hwatched ⟨code, rfl⟩
    rcases hcode with ⟨-, rfl⟩ | ⟨-, hdrop⟩ | ⟨-, -, rfl⟩
    · exact ⟨hcams, hwatched⟩
    · obtain ⟨hcams', hwatched'⟩ := dropCamera_cameras (by exact hcams) hdrop
      exact ⟨hcams', hwatched' (.inl hwatched)⟩
    · exact ⟨hcams, hwatched⟩
  · have hclosed := hclosed ⟨buffer, rfl⟩
    have hsame := writeImageFile_sameCameras hwrite
    have hclosed₂ : ∀ i c, g₂.activeCamera = some i → g₂.conns i = some c → c.sockfd = none := by
      rw [hsame.activeCamera, hsame.conns]
      exact hclosed
    have hcams₂ := hcams.same hsame
    rcases hb with ⟨rfl, rfl, rfl⟩ | ⟨rfl, rfl, rfl⟩
    · rcases hcode with ⟨hcode, -⟩ | ⟨-, hdrop⟩ | ⟨-, hcode, -⟩
      · cases hcode
      · obtain ⟨hcams', hwatched'⟩ := dropCamera_cameras (by exact hcams₂) hdrop
        exact ⟨hcams', hwatched' (.inr hclosed₂)⟩
      · exact absurd rfl hcode
    · rcases hcode with ⟨-, rfl⟩ | ⟨hcode, -⟩ | ⟨hcode, -, -⟩
      · exact ⟨hcams₂.clearActive hclosed₂, watched_clearActive g₂⟩
      · cases hcode
      · exact absurd rfl hcode

/-- The cameras are in order, and the active one is watched for as long as events may come. -/
structure Inv (n : Nat) (r : Reactor P) : Prop where
  cameras : Cameras n r.globals
  watched : Live r → Watched r.globals

theorem inv_initial {n : Nat} {r : Reactor P} (h : Initial n r) : Inv n r := by
  obtain ⟨host, username, password, malloc, g, hn, hsetup, rfl⟩ := h
  obtain ⟨hcams, conns, rfl, -⟩ := setup_cameras hn hsetup
  refine ⟨hcams, ?_⟩
  rintro - i ⟨⟩

/-- The sides of the adapter on which a step may be: it opens the next camera, it handles a camera
event, or it leaves the cameras as they are. -/
theorem step_sides {sg : Sandgrouse} {r r' : Reactor P} {e : Env} (h : step sg r e = .ok r') :
    (r.control = .outer ∧ r.globals.activeCamera = none ∧ ∃ b,
        r.globals.openNextCameraConnection e.next = .ok (b, r'.globals) ∧ (Live r' → b = true)) ∨
      (∃ full ev rest r₁, r.control = .dispatch full (ev :: rest) ∧ ev.id = CAMERA_ID ∧
        r.cameraEvent ev e.camera = .ok r₁ ∧ r'.globals = r₁.globals) ∨
      SameCameras r.globals r'.globals ∧ (Live r' → Live r) ∧
        Extends (fun o => o.kind = .client) r.globals.log r'.globals.log ∧
        ∀ full ev rest, r.control = .dispatch full (ev :: rest) → ev.id ≠ CAMERA_ID := by
  have hbusy : r.control ≠ .outer → r.control ≠ .stopped → Live r := by
    rintro houter hstopped (h | h)
    · exact absurd h houter
    · exact absurd h hstopped
  cases step_cases h with
  | moved hwait hlive hmove hidle =>
    refine .inr (.inr ⟨⟨rfl, rfl, rfl, rfl, .refl _⟩, fun hl => ?_, .refl _,
      fun full ev rest hc => ?_⟩)
    · rcases hmove with rfl | rfl | rfl
      · exact hlive (hl (.inl rfl))
      · exact (hwait rfl).1
      · exact hlive (hl (.inr rfl))
    · simp [hc, Control.rest] at hidle
  | batch hc =>
    refine .inr (.inr ⟨⟨rfl, rfl, rfl, rfl, .refl _⟩, fun _ => ?_, .refl _, by simp [hc]⟩)
    exact hbusy (by simp [hc]) (by simp [hc])
  | @opened b g hc _ hactive hopen =>
    refine .inl ⟨hc, hactive, b, hopen, fun hl => ?_⟩
    cases b with
    | true => rfl
    | false => exact absurd (hl (.inl rfl)) (by simp)
  | @camera ev full rest r₁ hc hid hcamera =>
    exact .inr (.inl ⟨full, ev, rest, r₁, hc, hid, hcamera, rfl⟩)
  | @flagged ev full rest hc hid =>
    refine .inr (.inr ⟨⟨rfl, rfl, rfl, rfl, .refl _⟩, fun _ => ?_, .refl _, ?_⟩)
    · exact hbusy (by simp [hc]) (by simp [hc])
    · rintro full' ev' rest' hc'
      cases hc.symm.trans hc'
      exact hid
  | @server ev full rest hc hid =>
    refine .inr (.inr ⟨sameCameras_serverProcess r.globals e.server, fun _ => ?_, .refl _, ?_⟩)
    · exact hbusy (by simp [hc]) (by simp [hc])
    · rintro full' ev' rest' hc'
      cases hc.symm.trans hc'
      rw [hid]
      decide
  | finish hc =>
    refine .inr (.inr ⟨sameCameras_serverProcess r.globals e.server, fun _ => ?_, .refl _, ?_⟩)
    · rcases hc with hc | hc
      · exact hbusy (by simp [hc]) (by simp [hc])
      · exact hbusy (by simp [hc]) (by simp [hc])
    · rcases hc with hc | hc <;> simp [hc]
  | @request conn ready _ _ _ g hc _ hreq =>
    have hpop : SameCameras r.globals { r.globals with ready } := ⟨rfl, rfl, rfl, rfl, .refl _⟩
    have honly := handleNewRequest_onlyRequests hreq
    refine .inr (.inr ⟨hpop.trans honly.sameCameras, fun _ => ?_, honly.log, by simp [hc]⟩)
    exact hbusy (by simp [hc]) (by simp [hc])

theorem inv_step {n : Nat} {sg : Sandgrouse} {r r' : Reactor P} {e : Env} (h : Inv n r)
    (hs : step sg r e = .ok r') : Inv n r' := by
  obtain ⟨-, hactive, b, hopen, hlive⟩ | ⟨full, ev, rest, r₁, hc, -, hcamera, hr⟩ |
    ⟨hsame, hlive, -⟩ := step_sides hs
  · obtain ⟨hcams, -, hwatched⟩ := h.cameras.openNext hactive hopen
    exact ⟨hcams, fun hl => hwatched (hlive hl)⟩
  · obtain ⟨hcams, hwatched⟩ :=
      cameraEvent_cameras h.cameras (h.watched (by intro hl; simp [hc] at hl)) hcamera
    rw [← hr] at hcams hwatched
    exact ⟨hcams, fun _ => hwatched⟩
  · exact ⟨h.cameras.same hsame, fun hl => (h.watched (hlive hl)).same hsame⟩

/-- **The cameras over a run.** -/
theorem run_cameras {n : Nat} {sg : Sandgrouse} {r₀ r : Reactor P} {es : List Env}
    (h₀ : Initial n r₀) (h : run (step sg) r₀ es = .ok r) : Inv n r :=
  run_invariant (fun _ _ _ => inv_step) (inv_initial h₀) h

end Reactor

end Rsva11001
