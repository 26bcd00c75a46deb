import Rsva11001.Adapter.Main
import Rsva11001.Verify.Configuration

/-!
# What the program gives back

Once the cameras are set up, every way through `main` ends in the clean-up. The invariants of the
reactor say that it finds what it needs there: the cameras that were set up, with a socket at the
active one at most. The loop over them is followed by induction (`cleanupFrom_eq`), and the whole
is `main_releases`.
-/

namespace Rsva11001

open Lib

def Deed.ofServer : Deed → Bool
  | .serverAllocated | .serverInitialised | .serverDestroyed | .serverFreed => true
  | _ => false

namespace Program

variable {P : HttpParser} {e : MainEnv}

/-! ## The clean-up -/

/-- The descriptors passed to `close`. -/
def closes (t : List Deed) : List Nat :=
  t.filterMap fun
    | .closed fd => some fd
    | _ => none

/-- The cameras freed. -/
def freed (t : List Deed) : List Nat :=
  t.filterMap fun
    | .cameraFreed i => some i.val
    | _ => none

/-- What was done with the server. -/
def serverDeeds (t : List Deed) : List Deed :=
  t.filter Deed.ofServer

theorem closes_append (t t' : List Deed) : closes (t ++ t') = closes t ++ closes t' :=
  List.filterMap_append

theorem freed_append (t t' : List Deed) : freed (t ++ t') = freed t ++ freed t' :=
  List.filterMap_append

theorem serverDeeds_append (t t' : List Deed) :
    serverDeeds (t ++ t') = serverDeeds t ++ serverDeeds t' :=
  List.filter_append ..

@[simp] theorem closes_closed (fds : List Nat) : closes (fds.map .closed) = fds := by
  simp [closes, List.filterMap_map]

@[simp] theorem freed_closed (fds : List Nat) : freed (fds.map .closed) = [] := by
  simp [freed]

@[simp] theorem serverDeeds_closed (fds : List Nat) : serverDeeds (fds.map .closed) = [] := by
  simp [serverDeeds, Deed.ofServer]

/-- How often the clean-up closes the socket of a camera: a socket that could not be closed is
closed once more when the connection is destroyed. -/
def closings (e : MainEnv) (i : Slot) (c : Connection P) : List Nat :=
  match c.sockfd with
  | none => []
  | some fd => if e.closeCamera i then [fd] else [fd, fd]

theorem closings_eq (e : MainEnv) (i : Slot) (c : Connection P) :
    c.sockfd.toList ++ (c.close (e.closeCamera i)).2.sockfd.toList = closings e i c := by
  unfold closings Connection.close
  cases hfd : c.sockfd with
  | none => simp [hfd]
  | some fd =>
    cases e.closeCamera i with
    | true => simp
    | false => simp [hfd]

/-- The closings of the active camera, when it is one of the `n` cameras from `k` on. -/
def activeClosings (e : MainEnv) (g : Globals P) (k n : Nat) : List Nat :=
  match g.activeCamera with
  | none => []
  | some i => if k ≤ i.val ∧ i.val < k + n then ((g.conns i).map (closings e i)).getD [] else []

theorem activeClosings_of_active {g : Globals P} {i : Slot} {c : Connection P} {k n : Nat}
    (hactive : g.activeCamera = some i) (hc : g.conns i = some c) (hk : k ≤ i.val)
    (hn : i.val < k + n) : activeClosings e g k n = closings e i c := by
  simp [activeClosings, hactive, hc, hk, hn]

/-- The globals with the connection in a slot gone. -/
def dropConn (g : Globals P) (s : Slot) : Globals P :=
  { g with conns := Function.update g.conns s none }

@[simp] theorem dropConn_self (g : Globals P) (s : Slot) : (dropConn g s).conns s = none :=
  Function.update_self ..

theorem dropConn_of_ne {g : Globals P} {s i : Slot} (h : i ≠ s) :
    (dropConn g s).conns i = g.conns i :=
  Function.update_of_ne h _ _

/-- The first of the cameras and the ones behind it. -/
theorem activeClosings_cons {g : Globals P} {s : Slot} {c : Connection P} (hc : g.conns s = some c)
    (hactive : c.sockfd.isSome → g.activeCamera = some s) (n : Nat) :
    activeClosings e g s.val (n + 1) =
      closings e s c ++ activeClosings e (dropConn g s) (s.val + 1) n := by
  by_cases hs : g.activeCamera = some s
  · have hnone : activeClosings e (dropConn g s) (s.val + 1) n = [] := by
      simp [activeClosings, dropConn, hs]
    rw [hnone, List.append_nil]
    exact activeClosings_of_active hs hc (Nat.le_refl _) (by omega)
  · have hclosed : closings e s c = [] := by
      unfold closings
      cases hfd : c.sockfd with
      | none => rfl
      | some fd => exact absurd (hactive (by rw [hfd]; rfl)) hs
    rw [hclosed, List.nil_append]
    unfold activeClosings
    cases hi : g.activeCamera with
    | none => simp [dropConn, hi]
    | some i =>
      have hne : i ≠ s := fun h => hs (by rw [hi, h])
      have hval : i.val ≠ s.val := fun h => hne (Fin.ext h)
      have hactive' : (dropConn g s).activeCamera = some i := hi
      rw [hactive']
      dsimp only
      rw [dropConn_of_ne hne]
      congr 1
      exact propext ⟨fun h => ⟨by omega, by omega⟩, fun h => ⟨by omega, by omega⟩⟩

/-- What the loop leaves. -/
structure Cleaned (e : MainEnv) (p : Program P) (k n : Nat) (x : Program P) : Prop where
  gone : ∀ i : Slot, k ≤ i.val → i.val < k + n → x.globals.conns i = none
  kept : ∀ i : Slot, ¬ (k ≤ i.val ∧ i.val < k + n) → x.globals.conns i = p.globals.conns i
  freed : freed x.done = freed p.done ++ List.range' k n
  closes : closes x.done = closes p.done ++ activeClosings e p.globals k n
  server : serverDeeds x.done = serverDeeds p.done

/-- **The loop of the clean-up.** It finds every camera and lets go of it, and only the active one
can have a socket. -/
theorem cleanupFrom_eq {n : Nat} : ∀ {p : Program P} {k : Nat}, k + n ≤ MAX_NUM_CAMERAS →
    (∀ i : Slot, k ≤ i.val → i.val < k + n → (p.globals.conns i).isSome) →
    (∀ i c, p.globals.conns i = some c → c.sockfd.isSome → p.globals.activeCamera = some i) →
    ∃ x, p.cleanupFrom e k n = .ok x ∧ Cleaned e p k n x := by
  induction n with
  | zero =>
    intro p k _ _ _
    refine ⟨p, rfl, fun i _ _ => by omega, fun i _ => rfl, by simp, ?_, rfl⟩
    unfold activeClosings
    cases p.globals.activeCamera with
    | none => simp
    | some i =>
      dsimp only
      rw [if_neg (by omega), List.append_nil]
  | succ n ih =>
    intro p k hle hsome hone
    obtain ⟨s, rfl⟩ : ∃ s : Slot, s.val = k := ⟨⟨k, by omega⟩, rfl⟩
    obtain ⟨c, hc⟩ := Option.isSome_iff_exists.1 (hsome s (Nat.le_refl _) (by omega))
    let deeds : List Deed := c.sockfd.toList.map .closed ++
      destroy (c.close (e.closeCamera s)).2 ++ [.cameraFreed s]
    let q : Program P := { p.did deeds with globals := dropConn p.globals s }
    have hself : q.globals.conns s = none := dropConn_self p.globals s
    have hother : ∀ {i : Slot}, i ≠ s → q.globals.conns i = p.globals.conns i :=
      fun hi => dropConn_of_ne hi
    have hsome' : ∀ i : Slot, s.val + 1 ≤ i.val → i.val < s.val + 1 + n →
        (q.globals.conns i).isSome := by
      intro i hlo hhi
      have his : i ≠ s := by
        rintro rfl
        omega
      rw [hother his]
      exact hsome i (by omega) (by omega)
    have hone' : ∀ i c, q.globals.conns i = some c → c.sockfd.isSome →
        q.globals.activeCamera = some i := by
      intro i d hd hopen
      by_cases hi : i = s
      · subst hi
        rw [hself] at hd
        cases hd
      · rw [hother hi] at hd
        exact hone i d hd hopen
    obtain ⟨x, hx, hcleaned⟩ := @ih q (s.val + 1) (by omega) hsome' hone'
    have hslot : slot .conns s.val = .ok s := slot_eq_ok.2 rfl
    refine ⟨x, ?_, ?_⟩
    · rw [cleanupFrom, hslot, ok_bind, hc, access_some, ok_bind]
      exact hx
    · have hcloses : closes deeds = closings e s c := by
        rw [← closings_eq]
        simp only [deeds, closes_append, destroy, closes_closed]
        simp [closes]
      refine ⟨fun i hlo hhi => ?_, fun i hi => ?_, ?_, ?_, ?_⟩
      · by_cases his : i = s
        · subst his
          rw [hcleaned.kept i (by omega)]
          exact hself
        · have hval : i.val ≠ s.val := fun h => his (Fin.ext h)
          exact hcleaned.gone i (by omega) (by omega)
      · have his : i ≠ s := by
          rintro rfl
          omega
        rw [hcleaned.kept i (by omega)]
        exact hother his
      · rw [hcleaned.freed, List.range'_succ]
        simp only [q, did, deeds, freed_append, destroy, freed_closed]
        simp [freed]
      · rw [hcleaned.closes, activeClosings_cons hc (hone s c hc), ← List.append_assoc]
        simp only [q, did, closes_append, hcloses]
      · rw [hcleaned.server]
        simp only [q, did, deeds, serverDeeds_append, destroy, serverDeeds_closed]
        simp [serverDeeds, Deed.ofServer]

/-! ## From the start to the exit -/

section Main

variable {sg : Sandgrouse} {g₁ g₀ g : Globals P} {sig ep : Nat} {es : List Env}

/-- The start-up has come past the cameras. -/
structure Started (e : MainEnv) (g₁ g₀ : Globals P) (sig ep : Nat) : Prop where
  configuration : (Globals.zeroed P).readConfiguration e.environment = .ok (true, g₁)
  sigprocmask : e.sigprocmask = true
  signalfd : e.signalfd = some sig
  epollCreate : e.epollCreate = some ep
  epollCtlSignal : e.epollCtlSignal = true
  cameras : g₁.setupCameraConnections e.malloc = .ok (true, g₀)

/-- The server can be set up. -/
def serverUp (e : MainEnv) : Bool :=
  e.serverMalloc && e.serverInit && e.fdValid && e.epollCtlServer

/-- The globals when the clean-up begins: the reactor is not entered without a server, and else it
has stopped. -/
inductive Ended (sg : Sandgrouse) (e : MainEnv) (g₀ : Globals P) (es : List Env) :
    Globals P → Prop where
  | noServer : serverUp e = false → Ended sg e g₀ es g₀
  | stopped {r : Reactor P} : serverUp e = true →
    run (Reactor.step sg) (Reactor.start g₀) es = .ok r → r.control = .stopped →
    Ended sg e g₀ es r.globals

/-- The cameras can be cleaned up. -/
structure Cleanable (g : Globals P) : Prop where
  le : g.numCameras ≤ MAX_NUM_CAMERAS
  configured : ∀ i, (g.conns i).isSome ↔ i.val < g.numCameras
  exclusive : ∀ i c, g.conns i = some c → c.sockfd.isSome → g.activeCamera = some i

theorem Started.cleanable (h : Started e g₁ g₀ sig ep) : Cleanable g₀ ∧
    (1 ≤ g₀.numCameras → Reactor.Initial g₀.numCameras (Reactor.start g₀)) := by
  obtain ⟨host, password, username, s, r, -, -, -, -, -, -, -, hg₁⟩ :=
    Globals.readConfiguration_accepts h.configuration
  have hconfigured :
      g₁ = .configured P host.bytes username.bytes password.bytes r.value := hg₁
  have hcameras := h.cameras
  rw [hconfigured] at hcameras
  obtain ⟨hle, conns, rfl, hsome, hconn⟩ := Globals.setupFrom_cases hcameras (Nat.zero_le _)
  refine ⟨⟨?_, fun i => ?_, fun i c hc hopen => ?_⟩,
    fun hn => ⟨_, _, _, _, _, hn, hcameras, rfl⟩⟩
  · simpa [Globals.configured] using hle
  · rw [hsome i]
    simp [Globals.configured]
  · rcases hconn i c hc with hold | hnew
    · cases hold
    · rw [hnew] at hopen
      cases hopen

/-- Without cameras the reactor fails an assertion at once. -/
theorem run_ne_stopped (hnone : ∀ i, g.conns i = none) (hinactive : g.activeCamera = none)
    {r : Reactor P} (h : run (Reactor.step sg) (Reactor.start g) es = .ok r) :
    r.control ≠ .stopped := by
  cases es with
  | nil =>
    obtain rfl : Reactor.start g = r := by simpa [run] using h
    intro hstopped
    cases hstopped
  | cons env es =>
    obtain ⟨r₁, hstep, -⟩ := run_cons_ok.1 h
    simp only [Reactor.step, Reactor.start, hinactive] at hstep
    obtain ⟨⟨opened, g'⟩, hopen, -⟩ := bind_eq_ok.1 hstep
    unfold Globals.openNextCameraConnection at hopen
    obtain ⟨i, -, hopen⟩ := bind_eq_ok.1 hopen
    simp only [hnone i] at hopen
    cases hopen

theorem Ended.cleanable (hs : Started e g₁ g₀ sig ep) (h : Ended sg e g₀ es g) :
    Cleanable g := by
  obtain ⟨hcleanable, hinitial⟩ := hs.cleanable
  cases h with
  | noServer => exact hcleanable
  | @stopped r hup hrun hstopped =>
    by_cases hn : 1 ≤ g₀.numCameras
    · have hcams := (Reactor.run_cameras (hinitial hn) hrun).cameras
      refine ⟨?_, fun i => ?_, hcams.exclusive⟩
      · rw [hcams.numCameras]
        exact hcams.le
      · rw [hcams.numCameras]
        exact hcams.configured i
    · have hnone : ∀ i, g₀.conns i = none := by
        intro i
        rw [← Option.not_isSome_iff_eq_none, hcleanable.configured]
        omega
      have hinactive : g₀.activeCamera = none := by
        obtain ⟨_, _, _, _, _, -, -, -, -, -, -, -, hg₁⟩ :=
          Globals.readConfiguration_accepts hs.configuration
        obtain ⟨-, conns, rfl, -⟩ := Globals.setupFrom_cases hs.cameras (Nat.zero_le _)
        rw [hg₁]
        rfl
      exact absurd hstopped (run_ne_stopped hnone hinactive hrun)

theorem did_did (p : Program P) (a b : List Deed) : (p.did a).did b = p.did (a ++ b) := by
  simp [did]

theorem setupScgiServer_up (p : Program P) (h : serverUp e = true) :
    p.setupScgiServer e = (true, p.did [.serverAllocated, .serverInitialised]) := by
  unfold serverUp at h
  simp only [Bool.and_eq_true] at h
  obtain ⟨⟨⟨hmalloc, hinit⟩, hfd⟩, hctl⟩ := h
  simp [setupScgiServer, hmalloc, hinit, hfd, hctl, did_did]

/-- The lives of a server: none, one that was not initialised, and a whole one. -/
def ServerLife (deeds : List Deed) : Prop :=
  deeds = [] ∨ deeds = [.serverAllocated, .serverFreed] ∨
    deeds = [.serverAllocated, .serverInitialised, .serverDestroyed, .serverFreed]

theorem setupScgiServer_down (p : Program P) (h : serverUp e = false) : ∃ deeds,
    p.setupScgiServer e = (false, p.did deeds) ∧ ServerLife deeds ∧ serverDeeds deeds = deeds ∧
      closes deeds = [] ∧ freed deeds = [] := by
  unfold setupScgiServer
  cases hmalloc : e.serverMalloc with
  | false => exact ⟨[], by simp [did], .inl rfl, rfl, rfl, rfl⟩
  | true =>
  cases hinit : e.serverInit with
  | false =>
    exact ⟨[.serverAllocated, .serverFreed], by simp [did_did], .inr (.inl rfl), rfl, rfl, rfl⟩
  | true =>
  refine ⟨[.serverAllocated, .serverInitialised, .serverDestroyed, .serverFreed], ?_,
    .inr (.inr rfl), rfl, rfl, rfl⟩
  cases hfd : e.fdValid with
  | false => simp [did_did]
  | true =>
    have hctl : e.epollCtlServer = false := by simpa [serverUp, hmalloc, hinit, hfd] using h
    simp [did_did, hctl]

/-- What has been given back at the exit: the cameras, each once and in order; the descriptors of
the program, each once, and the socket of the active camera; the server, once, and destroyed first
if it had been initialised. -/
structure Released (e : MainEnv) (g : Globals P) (sig ep : Nat) (x : Program P) : Prop where
  conns : ∀ i, x.globals.conns i = none
  cameras : freed x.done = List.range g.numCameras
  descriptors : closes x.done = sig :: ep :: activeClosings e g 0 g.numCameras
  server : ServerLife (serverDeeds x.done)

theorem cleanUp_eq (h : Cleanable g) (deeds : List Deed) (hcloses : closes deeds = [])
    (hfreed : freed deeds = []) (hlife : ServerLife (serverDeeds deeds)) :
    ∃ x, (⟨g, some sig, some ep, deeds⟩ : Program P).cleanUp e = .ok x ∧
      Released e g sig ep x := by
  obtain ⟨x, hx, hcleaned⟩ := @cleanupFrom_eq P e g.numCameras
    ((⟨g, some sig, some ep, deeds⟩ : Program P).did [.closed sig, .closed ep]) 0
    (by simpa using h.le) (fun i _ hi => (h.configured i).2 (by simpa using hi)) h.exclusive
  refine ⟨x, hx, fun i => ?_, ?_, ?_, ?_⟩
  · by_cases hi : i.val < g.numCameras
    · exact hcleaned.gone i (Nat.zero_le _) (by simpa using hi)
    · rw [hcleaned.kept i (by simpa using hi)]
      exact Option.not_isSome_iff_eq_none.1 fun hsome => hi ((h.configured i).1 hsome)
  · rw [hcleaned.freed, List.range_eq_range']
    simp only [did, freed_append, hfreed]
    rfl
  · rw [hcleaned.closes]
    simp only [did, closes_append, hcloses]
    rfl
  · rw [hcleaned.server]
    simp only [did, serverDeeds_append]
    simpa [serverDeeds, Deed.ofServer] using hlife

/-- **The program gives back what it has acquired.** Once the cameras are set up, whatever becomes
of the server and however the reactor ends, `main` exits with status 0 and without touching a
camera that is not there. It has freed each camera once and left none in the globals, closed each of
its descriptors once, and the socket of the active camera if it has one: a second time if the first
has failed. It has freed the server if it allocated one, once. -/
theorem main_releases (hs : Started e g₁ g₀ sig ep) (hend : Ended sg e g₀ es g) :
    ∃ x, main P sg e es = .ok (.exited 0 x) ∧ Released e g sig ep x := by
  have hcleanable := hend.cleanable hs
  have hmain : main P sg e es =
      serve ⟨g₀, some sig, some ep, [.opened sig, .opened ep]⟩ sg e es := by
    simp only [main, start, hs.configuration, ok_bind, setupSignalFd, hs.sigprocmask, hs.signalfd,
      setupEpollFd, hs.epollCreate, hs.epollCtlSignal, did, Bool.not_true, Bool.false_eq_true,
      if_false, hs.cameras]
    rfl
  rw [hmain, serve]
  cases hend with
  | noServer hdown =>
    obtain ⟨deeds, heq, hlife, hserver, hcloses, hfreed⟩ := setupScgiServer_down
      (⟨g₀, some sig, some ep, [.opened sig, .opened ep]⟩ : Program P) hdown
    obtain ⟨x, hx, hreleased⟩ := @cleanUp_eq P e g₀ sig ep hcleanable
      ([.opened sig, .opened ep] ++ deeds) (by rw [closes_append, hcloses]; rfl)
      (by rw [freed_append, hfreed]; rfl) (by rw [serverDeeds_append, hserver]; exact hlife)
    refine ⟨x, ?_, hreleased⟩
    rw [heq]
    dsimp only [did]
    rw [hx, ok_bind]
    rfl
  | @stopped r hup hrun hstopped =>
    obtain ⟨x, hx, hreleased⟩ := @cleanUp_eq P e r.globals sig ep hcleanable
      [.opened sig, .opened ep, .serverAllocated, .serverInitialised, .serverDestroyed,
        .serverFreed] rfl rfl (.inr (.inr rfl))
    refine ⟨x, ?_, hreleased⟩
    rw [setupScgiServer_up _ hup]
    dsimp only [did]
    rw [hrun, ok_bind, if_neg (not_not.2 hstopped)]
    have hclosed : closeScgiServer (⟨r.globals, some sig, some ep, [.opened sig, .opened ep] ++
        [.serverAllocated, .serverInitialised]⟩ : Program P) =
        ⟨r.globals, some sig, some ep, [.opened sig, .opened ep, .serverAllocated,
          .serverInitialised, .serverDestroyed, .serverFreed]⟩ := rfl
    rw [hclosed, hx]
    rfl

end Main

/-! One camera, whose socket is open when `epoll_wait` fails, and can then not be closed. -/

def sampleMain : MainEnv where
  environment := shortEnvironment ⟨ascii "1", by decide⟩
  sigprocmask := true
  signalfd := some 3
  epollCreate := some 4
  epollCtlSignal := true
  malloc := fun _ => true
  serverMalloc := true
  serverInit := true
  fdValid := true
  epollCtlServer := true
  closeCamera := fun _ => false

theorem sample_started : ∃ conns c,
    Started sampleMain (Globals.configured P (ascii "dvr") (ascii "admin") (ascii "secret") 1)
      (Reactor.sampleGlobals P 1 conns) 3 4 ∧ c.sockfd.isSome ∧
    Reactor.step plainSandgrouse (Reactor.start (Reactor.sampleGlobals P 1 conns)) calm =
      .ok ⟨Reactor.afterOpen (Reactor.sampleGlobals P 1 conns) first c, .wait, false⟩ := by
  have hstrtoul : (⟨ascii "1", by decide⟩ : EnvValue).strtoul = .ok ⟨1, false, 0⟩ := by rfl
  have hlarge : ¬ TooLarge (⟨ascii "1", by decide⟩ : EnvValue).bytes := by
    rw [tooLarge_iff hstrtoul]
    decide
  obtain ⟨r, hr, -, hread⟩ := @shortEnvironment_accepted P _ hlarge
  obtain rfl : ⟨1, false, 0⟩ = r := Except.ok.inj (hstrtoul.symm.trans hr)
  obtain ⟨conns, c, hsetup, hfresh, hopen⟩ := @Reactor.sample_setUp P 1 (by decide) (by decide)
    plainSandgrouse
  exact ⟨conns, c, ⟨hread, rfl, rfl, rfl, rfl, hsetup⟩, hfresh.sockfd, hopen⟩

/-- It is closed twice. -/
theorem main_releases_sample : ∃ (x : Program .untilEof) (fd : Nat),
    main .untilEof plainSandgrouse sampleMain [calm, { calm with wait := .error }] =
      .ok (.exited 0 x) ∧ freed x.done = [0] ∧ closes x.done = [3, 4, fd, fd] := by
  obtain ⟨conns, c, hstarted, hsome, hopen⟩ := @sample_started .untilEof
  obtain ⟨fd, hfd⟩ := Option.isSome_iff_exists.1 hsome
  have hrun : run (Reactor.step plainSandgrouse) (Reactor.start (Reactor.sampleGlobals .untilEof 1
      conns)) [calm, { calm with wait := .error }] = .ok ⟨Reactor.afterOpen
      (Reactor.sampleGlobals .untilEof 1 conns) first c, .stopped, false⟩ :=
    run_cons_ok.2 ⟨_, hopen, run_cons_ok.2 ⟨_, rfl, run_nil _⟩⟩
  obtain ⟨x, hmain, hreleased⟩ := main_releases hstarted (.stopped rfl hrun rfl)
  have hclosings : closings sampleMain first c = [fd, fd] := by
    rw [closings, hfd]
    rfl
  refine ⟨x, fd, hmain, hreleased.cameras, ?_⟩
  rw [hreleased.descriptors, ← hclosings]
  exact congrArg _ (congrArg _ (activeClosings_of_active rfl (Reactor.conns_afterOpen ..)
    (Nat.zero_le _) Nat.zero_lt_one))

end Program

end Rsva11001
