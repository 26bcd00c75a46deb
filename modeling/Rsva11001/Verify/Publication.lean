import Mathlib
import Rsva11001.Verify.Board
import Rsva11001.Verify.Progress

/-!
# What the publication of images leaves open

`writeImageFile` opens a file, maps it, closes it and unmaps the image it replaces. Its exits after
a failure give nothing back. `Balanced`: every descriptor that has been opened has been closed, and
the mappings that are there are the last images of the cameras. A call that creates the file and
gets no further (`Clean` says that it does) breaks this for good, so a run of the reactor keeps the
balance exactly when all of its calls are clean (`publication_iff`). That a failed call changes no
image and no queue holds in every state.

`owed` keeps the account of every descriptor and mapping. No step of the reactor lowers it.
-/

namespace Rsva11001

open Lib

/-! ## Accounts -/

/-- What a call of `writeImageFile` acquires. -/
inductive Resource where
  | file (fd : Nat)
  | mapping (addr size : Nat)
  deriving DecidableEq, Repr

def Resource.taken : Resource → Event
  | .file fd => .fileOpened fd
  | .mapping addr size => .mapped addr size

def Resource.returned : Resource → Event
  | .file fd => .fileClosed fd
  | .mapping addr size => .unmapped addr size

/-- How often more the resource has been taken than returned. -/
def Resource.balance (x : Resource) (t : List Event) : Int :=
  t.count x.taken - t.count x.returned

section Balance

variable {t : List Event} {x : Resource}

theorem balance_append (x : Resource) (t t' : List Event) :
    x.balance (t ++ t') = x.balance t + x.balance t' := by
  simp only [Resource.balance, List.count_append]
  omega

/-- Entries that are not about files do not count. -/
theorem balance_of_kind (h : ∀ o ∈ t, o.kind ≠ .file) : x.balance t = 0 := by
  have hcount : ∀ o : Event, o.kind = .file → t.count o = 0 :=
    fun o ho => List.count_eq_zero.2 fun hmem => h o hmem ho
  have htaken : x.taken.kind = .file := by cases x <;> rfl
  have hreturned : x.returned.kind = .file := by cases x <;> rfl
  rw [Resource.balance, hcount _ htaken, hcount _ hreturned, sub_self]

end Balance

namespace LastImage

/-- The mapping of the last image of a camera. -/
def mapping (image : LastImage) : Option (Nat × Nat) :=
  image.data.map fun m => (m.addr, image.size)

/-- One for the mapping of the last image, and zero for any other resource. -/
def holds (image : LastImage) : Resource → Nat
  | .file _ => 0
  | .mapping addr size => if image.mapping = some (addr, size) then 1 else 0

end LastImage

namespace Globals

variable {P : HttpParser}

/-- The files are closed again, and what is mapped is held. -/
structure Balanced (g : Globals P) : Prop where
  files : ∀ fd, g.log.count (.fileOpened fd) = g.log.count (.fileClosed fd)
  mappings : ∀ addr size, g.log.count (.mapped addr size) =
    g.log.count (.unmapped addr size) +
      (Finset.univ.filter fun i => (g.lastImage i).mapping = some (addr, size)).card

/-- How often more the resource has been taken than it has been returned or is held as the last
image of a camera. -/
def owed (g : Globals P) (x : Resource) : Int :=
  x.balance g.log - (∑ i, (g.lastImage i).holds x : Nat)

theorem balanced_iff {g : Globals P} : Balanced g ↔ g.owed = 0 := by
  have hfile : ∀ fd, g.owed (.file fd) = 0 ↔
      g.log.count (.fileOpened fd) = g.log.count (.fileClosed fd) := by
    intro fd
    simp only [owed, Resource.balance, Resource.taken, Resource.returned, LastImage.holds,
      Finset.sum_const_zero]
    omega
  have hmapping : ∀ addr size, g.owed (.mapping addr size) = 0 ↔
      g.log.count (.mapped addr size) = g.log.count (.unmapped addr size) +
        (Finset.univ.filter fun i => (g.lastImage i).mapping = some (addr, size)).card := by
    intro addr size
    simp only [owed, Resource.balance, Resource.taken, Resource.returned, LastImage.holds]
    rw [← Finset.card_filter]
    omega
  constructor
  · intro h
    funext x
    cases x with
    | file fd => exact (hfile fd).2 (h.files fd)
    | mapping addr size => exact (hmapping addr size).2 (h.mappings addr size)
  · intro h
    exact ⟨fun fd => (hfile fd).1 (congrFun h _),
      fun addr size => (hmapping addr size).1 (congrFun h _)⟩

/-! ## Who leaves the files alone -/

/-- When no file is opened or mapped, and no image replaced, the account is the same. -/
theorem owed_of_kind {g g' : Globals P} (himage : g'.lastImage = g.lastImage)
    (hlog : Extends (fun o => o.kind ≠ .file) g.log g'.log) : g'.owed = g.owed := by
  obtain ⟨new, hnew, hkind⟩ := hlog
  funext x
  rw [owed, owed, hnew, balance_append, balance_of_kind hkind, add_zero, himage]

theorem OnlyCameras.owed {g g' : Globals P} (h : OnlyCameras g g') : g'.owed = g.owed :=
  owed_of_kind h.lastImage (h.log.mono fun o ho => by simp [ho])

theorem OnlyRequests.owed {g g' : Globals P} (h : OnlyRequests g g') : g'.owed = g.owed :=
  owed_of_kind h.lastImage (h.log.mono fun o ho => by simp [ho])

/-! ## One call -/

/-- The call either does not create the file or gets through. -/
def Clean (g : Globals P) (e : WriteEnv) : Prop :=
  e.unlink ≠ .error → e.open.isSome → e.ftruncate = true ∧ e.mmap.isSome ∧ e.close = true ∧
    ∀ i : Slot, i.val = g.cameraIterator → (g.lastImage i).data.isSome → e.munmap = true

/-- A call that fails owes what its history has left open. -/
theorem owed_lt_say {g : Globals P} {files : List Event}
    (hle : ∀ x : Resource, files.count x.returned ≤ files.count x.taken) {x : Resource}
    (hlt : files.count x.returned < files.count x.taken) : g.owed < (g.say files).owed := by
  have hsay : ∀ y, (g.say files).owed y = g.owed y + y.balance files := by
    intro y
    show y.balance (g.log ++ files) - (∑ i, (g.lastImage i).holds y : Nat) = _
    rw [balance_append, owed]
    omega
  refine Pi.lt_def.2 ⟨fun y => ?_, x, ?_⟩
  · show g.owed y ≤ (g.say files).owed y
    have := hle y
    rw [hsay, Resource.balance]
    omega
  · rw [hsay, Resource.balance]
    omega

/-- A publication takes the mapping of the new image and returns that of the old one. -/
theorem balance_publication {fd addr : Nat} (old : LastImage) (buffer : List UInt8) (x : Resource) :
    x.balance (publication buffer fd addr old) =
      LastImage.holds ⟨some ⟨addr, buffer⟩, buffer.length⟩ x - old.holds x := by
  generalize hevents : publication buffer fd addr old = events
  unfold publication replaced at hevents
  cases x with
  | file fd' =>
    have hcount : events.count (.fileOpened fd') = events.count (.fileClosed fd') := by
      rw [← hevents]
      cases old.data <;> simp [List.count_cons]
    simp only [Resource.balance, Resource.taken, Resource.returned, hcount, LastImage.holds]
    omega
  | mapping addr' size' =>
    have hmapped : events.count (.mapped addr' size') =
        LastImage.holds ⟨some ⟨addr, buffer⟩, buffer.length⟩ (.mapping addr' size') := by
      rw [← hevents]
      unfold LastImage.holds LastImage.mapping
      cases old.data <;> simp [List.count_cons]
    have hunmapped : events.count (.unmapped addr' size') = old.holds (.mapping addr' size') := by
      rw [← hevents]
      unfold LastImage.holds LastImage.mapping
      cases old.data <;> simp [List.count_cons]
    rw [Resource.balance, Resource.taken, Resource.returned, hmapped, hunmapped]

theorem storeImage_owed {g g' : Globals P} {fd addr : Nat} {i : Slot} {buffer : List UInt8}
    {e : WriteEnv} {b : Bool}
    (h : (g.say (publication buffer fd addr (g.lastImage i))).storeImage i buffer addr e =
      .ok (b, g')) : g'.owed = g.owed := by
  obtain ⟨sent, queues, hsent, rfl⟩ := storeImage_cases h
  have hkind : ∀ o ∈ .stored i buffer :: sent, o.kind ≠ .file := by
    intro o ho
    rcases List.mem_cons.1 ho with rfl | ho
    · simp [Event.kind]
    · obtain ⟨id, r, rfl⟩ := hsent o ho
      simp [Event.kind]
  funext x
  -- the new image takes the place of the old one
  have hheld := Board.sum_update (fun image => image.holds x) g.lastImage i
    ⟨some ⟨addr, buffer⟩, buffer.length⟩
  have hbalance := @balance_publication fd addr (g.lastImage i) buffer x
  show x.balance (g.log ++ publication buffer fd addr (g.lastImage i) ++
    .stored i buffer :: sent) -
      (∑ j, (Function.update g.lastImage i ⟨some ⟨addr, buffer⟩, buffer.length⟩ j).holds x :
        Nat) = _
  rw [balance_append, balance_append, hbalance, balance_of_kind hkind, owed]
  omega

theorem published_owed {g g' : Globals P} {buffer : List UInt8} {e : WriteEnv} {b : Bool}
    (h : Published g buffer e b g') :
    Clean g e ∧ g'.owed = g.owed ∨ ¬ Clean g e ∧ g.owed < g'.owed := by
  cases h with
  | uncreated h =>
    refine .inl ⟨fun hunlink hopen => ?_, ?_⟩
    · rcases h with h | h
      · exact absurd h hunlink
      · rw [h] at hopen
        cases hopen
    · -- the call itself takes nothing
      funext x
      have hcall : x.balance [.writeImage buffer] = 0 := by
        cases x <;> simp [Resource.balance, Resource.taken, Resource.returned]
      show x.balance (g.log ++ [.writeImage buffer]) - (∑ i, (g.lastImage i).holds x : Nat) = _
      rw [balance_append, hcall, add_zero, owed]
  | @unsized fd hcreated hopen h =>
    refine .inr ⟨fun hclean => ?_, owed_lt_say (x := .file fd) (fun y => ?_) ?_⟩
    · obtain ⟨hftruncate, hmmap, -⟩ := hclean hcreated (by rw [hopen]; rfl)
      rcases h with h | h
      · rw [h] at hftruncate
        cases hftruncate
      · rw [h] at hmmap
        cases hmmap
    · cases y <;> simp [Resource.taken, Resource.returned]
    · simp [Resource.taken, Resource.returned]
  | @unclosed fd addr hcreated hopen h =>
    refine .inr ⟨fun hclean => ?_, owed_lt_say (x := .file fd) (fun y => ?_) ?_⟩
    · obtain ⟨-, -, hclose, -⟩ := hclean hcreated (by rw [hopen]; rfl)
      rw [h] at hclose
      cases hclose
    · cases y <;> simp [Resource.taken, Resource.returned]
    · simp [Resource.taken, Resource.returned]
  | @unreplaced fd addr i hcreated hopen hi hold h =>
    refine .inr ⟨fun hclean => ?_, owed_lt_say (x := .mapping addr buffer.length) (fun y => ?_) ?_⟩
    · obtain ⟨-, -, -, hmunmap⟩ := hclean hcreated (by rw [hopen]; rfl)
      rw [hmunmap i hi hold] at h
      cases h
    · cases y <;> simp [Resource.taken, Resource.returned, List.count_cons]
    · simp [Resource.taken, Resource.returned]
  | @stored fd addr i _ _ _ hopen hcalls hi hold h =>
    refine .inl ⟨fun _ _ => ⟨hcalls.1, by rw [hcalls.2.1]; rfl, hcalls.2.2, fun j hj => ?_⟩,
      storeImage_owed h⟩
    obtain rfl : i = j := Fin.ext (hi.trans hj.symm)
    exact hold

/-- A call in which a system call fails reports it, and changes no image and no queue. -/
def Atomic (g : Globals P) : Prop :=
  ∀ (buffer : List UInt8) (e : WriteEnv) (b : Bool) (g' : Globals P),
    g.writeImageFile buffer e = .ok (b, g') → g.StepFails e →
      b = false ∧ g'.lastImage = g.lastImage ∧ g'.pendingRequests = g.pendingRequests

theorem atomic (g : Globals P) : g.Atomic := by
  intro buffer e b g' h hfails
  cases writeImageFile_cases h with
  | failed => exact ⟨rfl, rfl, rfl⟩
  | stored _ _ _ _ hcalls => exact absurd hfails hcalls

/-- An image that is retrieved is published by a clean call. -/
def PublishesCleanly (g : Globals P) (e : CameraEnv) : Prop :=
  ∀ buffer g', g.retrieveImage e = .ok (.write buffer, g') → g'.Clean e.write

theorem processActiveCamera_owed {g g' : Globals P} {e : CameraEnv} {code : Int}
    (h : g.processActiveCamera e = .ok (code, g')) :
    PublishesCleanly g e ∧ g'.owed = g.owed ∨ ¬ PublishesCleanly g e ∧ g.owed < g'.owed := by
  obtain ⟨t, g₁, hretrieve, ⟨rfl, rfl⟩ | ⟨buffer, b, g₂, rfl, hwrite, hend⟩⟩ :=
    processActiveCamera_cases h
  · refine .inl ⟨fun buffer g₁ hwrites => ?_, (retrieveImage_onlyCameras hretrieve).owed⟩
    rw [hretrieve] at hwrites
    cases hwrites
  · have hlast : g'.owed = g₂.owed := by
      rcases hend with ⟨-, -, rfl⟩ | ⟨-, -, rfl⟩
      · rfl
      · exact (onlyCameras_clearActive g₂).owed
    rw [hlast, ← (retrieveImage_onlyCameras hretrieve).owed]
    rcases published_owed (published_cases hwrite) with ⟨hclean, hsame⟩ | ⟨hunclean, hmore⟩
    · refine .inl ⟨fun buffer' g' hwrites => ?_, hsame⟩
      rw [hretrieve] at hwrites
      cases hwrites
      exact hclean
    · exact .inr ⟨fun hall => hunclean (hall buffer g₁ hretrieve), hmore⟩

end Globals

/-! ## Runs -/

namespace Reactor

variable {P : HttpParser}

open Globals

/-- An image that is published in the step is published by a clean call. -/
def CleanStep (r : Reactor P) (e : Env) : Prop :=
  ∀ full ev rest, r.control = .dispatch full (ev :: rest) → ev.id = CAMERA_ID → ¬ Hangup ev →
    r.globals.PublishesCleanly e.camera

theorem cleanStep_of_ne {r : Reactor P} (e : Env)
    (h : ∀ full ev rest, r.control = .dispatch full (ev :: rest) → ev.id ≠ CAMERA_ID) :
    CleanStep r e :=
  fun full ev rest hc hid => absurd hid (h full ev rest hc)

theorem cameraEvent_owed {r r' : Reactor P} {ev : EpollEvent} {e : CameraEnv}
    (h : r.cameraEvent ev e = .ok r') :
    (¬ Hangup ev → r.globals.PublishesCleanly e) ∧ r'.globals.owed = r.globals.owed ∨
      (¬ Hangup ev ∧ ¬ r.globals.PublishesCleanly e) ∧ r.globals.owed < r'.globals.owed := by
  rcases cameraEvent_cases h with ⟨hup, hdrop⟩ | ⟨hup, code, g, hprocess, hend⟩
  · exact .inl ⟨fun hno => absurd hup hno, (dropCamera_onlyCameras hdrop).owed⟩
  · have hlast : r'.globals.owed = g.owed := by
      rcases hend with ⟨-, rfl⟩ | ⟨-, hdrop⟩ | ⟨-, -, rfl⟩
      · rfl
      · exact (dropCamera_onlyCameras hdrop).owed
      · rfl
    rw [hlast]
    rcases processActiveCamera_owed hprocess with ⟨hclean, hsame⟩ | ⟨hunclean, hmore⟩
    · exact .inl ⟨fun _ => hclean, hsame⟩
    · exact .inr ⟨⟨hup, hunclean⟩, hmore⟩

/-- **One step of the accounts.** A call that is not clean adds to what is owed; nothing else
changes it. -/
theorem step_owed {sg : Sandgrouse} {r r' : Reactor P} {e : Env} (h : step sg r e = .ok r') :
    CleanStep r e ∧ r'.globals.owed = r.globals.owed ∨
      ¬ CleanStep r e ∧ r.globals.owed < r'.globals.owed := by
  cases step_cases h with
  | moved _ _ _ hidle =>
    refine .inl ⟨cleanStep_of_ne e fun full ev rest hc => ?_, rfl⟩
    simp [hc, Control.rest] at hidle
  | batch hc => exact .inl ⟨cleanStep_of_ne e (by simp [hc]), rfl⟩
  | opened hc _ _ hopen =>
    exact .inl ⟨cleanStep_of_ne e (by simp [hc]), (openNext_onlyCameras hopen).owed⟩
  | @camera ev full rest r₁ hc hid hcamera =>
    have hiff : CleanStep r e ↔ (¬ Hangup ev → r.globals.PublishesCleanly e.camera) := by
      refine ⟨fun hclean hup => hclean full ev rest hc hid hup, ?_⟩
      rintro hclean full' ev' rest' hc' - hup
      cases hc.symm.trans hc'
      exact hclean hup
    rcases cameraEvent_owed hcamera with ⟨hclean, hsame⟩ | ⟨⟨hup, hunclean⟩, hmore⟩
    · exact .inl ⟨hiff.2 hclean, hsame⟩
    · exact .inr ⟨fun hclean => hunclean (hiff.1 hclean hup), hmore⟩
  | flagged hc hid =>
    refine .inl ⟨cleanStep_of_ne e ?_, rfl⟩
    rintro full ev rest hc'
    cases hc.symm.trans hc'
    exact hid
  | server hc hid =>
    refine .inl ⟨cleanStep_of_ne e ?_, rfl⟩
    rintro full ev rest hc'
    cases hc.symm.trans hc'
    rw [hid]
    decide
  | finish hc =>
    refine .inl ⟨cleanStep_of_ne e ?_, rfl⟩
    rcases hc with hc | hc <;> simp [hc]
  | request hc _ hreq =>
    exact .inl ⟨cleanStep_of_ne e (by simp [hc]), (handleNewRequest_onlyRequests hreq).owed⟩

theorem initial_balanced {n : Nat} {r : Reactor P} (h : Initial n r) : Balanced r.globals := by
  obtain ⟨host, username, password, malloc, g, hn, hsetup, rfl⟩ := h
  obtain ⟨-, conns, rfl, -⟩ := setup_cameras hn hsetup
  refine ⟨fun fd => rfl, fun addr size => ?_⟩
  simp [start, configured, LastImage.mapping]

/-- **The balance over a run.** A call that creates the file and gets no further leaves a
descriptor or a mapping open for good; no other step does. -/
theorem publication_iff {n : Nat} {sg : Sandgrouse} {r₀ r : Reactor P} {es : List Env}
    (h₀ : Initial n r₀) (h : run (step sg) r₀ es = .ok r) :
    Balanced r.globals ∧ (∀ g : Globals P, g.Atomic) ↔ Meets (step sg) CleanStep r₀ es := by
  have hstart := balanced_iff.1 (initial_balanced h₀)
  rw [and_iff_left atomic, balanced_iff]
  apply run_iff_meets (I := fun r : Reactor P => r.globals.owed = 0)
    (B := fun r : Reactor P => 0 < r.globals.owed) _ _ _ _ hstart h
  · intro r e r' hbalanced hclean hstep
    rcases step_owed hstep with ⟨-, hsame⟩ | ⟨hunclean, -⟩
    · exact hsame.trans hbalanced
    · exact absurd hclean hunclean
  · intro r e r' hbalanced hunclean hstep
    rcases step_owed hstep with ⟨hclean, -⟩ | ⟨-, hmore⟩
    · exact absurd hclean hunclean
    · rw [hbalanced] at hmore
      exact hmore
  · intro r e r' howed hstep
    rcases step_owed hstep with ⟨-, hsame⟩ | ⟨-, hmore⟩
    · rw [hsame]
      exact howed
    · exact howed.trans hmore
  · exact fun r howed => howed.ne'

theorem clean_writeAll (g : Globals P) : g.Clean writeAll :=
  fun _ _ => ⟨rfl, rfl, rfl, fun _ _ _ => rfl⟩

theorem publication_iff_sample : ∃ (r₀ r : Reactor .untilEof) (es : List Env),
    Initial 1 r₀ ∧ run (step plainSandgrouse) r₀ es = .ok r ∧
      .stored first sampleMessage.payload ∈ r.globals.log ∧ Balanced r.globals := by
  obtain ⟨conns, c, pr, h₀, -, -, -, -, hrun, hmeets⟩ :=
    @sample_delivery 1 (by decide) (by decide) plainSandgrouse sampleMessage sampleMessage_fits
      (by decide) (by decide) first rfl
  have hclean := hmeets CleanStep (fun r e hother full ev rest hc => absurd hc (hother _ _))
    fun full ev rest _ _ _ buffer g _ => clean_writeAll g
  refine ⟨_, _, _, h₀, hrun, ?_, ((publication_iff h₀ hrun).2 hclean).1⟩
  apply List.mem_append_left
  exact List.mem_append_right _ List.mem_cons_self

/-- When the disk is full, the descriptor of the file is lost. -/
theorem not_publication : ∃ (r₀ r : Reactor .untilEof) (es : List Env),
    Initial 1 r₀ ∧ run (step plainSandgrouse) r₀ es = .ok r ∧ ¬ Balanced r.globals := by
  obtain ⟨conns, c, h₀, hfresh, hrun⟩ :=
    @sample_reports .untilEof 1 (by decide) (by decide) plainSandgrouse
  obtain ⟨e, he⟩ : ∃ e : CameraEnv, e =
      { (sends sampleMessage sampleMessage_fits .wouldBlock).camera with
      write := { writeAll with ftruncate := false } } := ⟨_, rfl⟩
  have hcontrol := hrun ⟨[cameraReady], by decide⟩
  generalize hg : afterOpen (sampleGlobals .untilEof 1 conns) first c = g at hcontrol
  have hactive : g.activeCamera = some first := by
    rw [← hg]
    rfl
  have hc : g.conns first = some c := by
    rw [← hg]
    exact conns_afterOpen _ _ _
  obtain ⟨pr, -, -, haccepted, hretrieve⟩ := @retrieves g first c
    (halves sampleMessage sampleMessage_fits) [sampleMessage] sampleMessage [] e hactive hc hfresh
    (reads_halves sampleMessage sampleMessage_fits) rfl (by decide) (by decide) (by rw [he]; rfl)
    (by rw [he]; rfl)
  generalize hg₁ : (g.afterProcess first pr).setConn first pr.conn.disconnected = g₁ at hretrieve
  have hcamera : g.processActiveCamera e =
      .ok (-1, g₁.say [.writeImage sampleMessage.payload, .fileOpened 7]) := by
    have hsaid : g₁.say [.writeImage sampleMessage.payload, .fileOpened 7] =
        (g₁.say [.writeImage sampleMessage.payload]).say [.fileOpened 7] := by
      rw [say_say]
      rfl
    unfold processActiveCamera
    rw [hretrieve, he, hsaid]
    rfl
  have hc₁ : (g₁.say [.writeImage sampleMessage.payload, .fileOpened 7]).conns first =
      some pr.conn.disconnected := by
    rw [← hg₁]
    show ((g.afterProcess first pr).setConn first pr.conn.disconnected).conns first = _
    exact setConn_self
  obtain ⟨r, hstep, hlog⟩ := @fails .untilEof plainSandgrouse
    ⟨g, .dispatch false [cameraReady], false⟩ false cameraReady [] first pr.conn.disconnected _
    { calm with camera := e } rfl rfl (by decide) hcamera (by rw [← hg₁]; exact hactive) hc₁
    (by rw [he]; rfl)
  refine ⟨_, r, [calm, reports ⟨[cameraReady], by decide⟩] ++ [_], h₀,
    run_append_ok.2 ⟨_, hcontrol, run_cons_ok.2 ⟨r, hstep, run_nil r⟩⟩, fun hbalanced => ?_⟩
  have hall : r.globals.log = [.opened first, .accepted first sampleMessage.payload,
      .writeImage sampleMessage.payload, .fileOpened 7, .cleared first] := by
    rw [hlog, ← hg₁, ← hg]
    show _ ++ pr.accepted.map _ ++ _ ++ _ = _
    rw [haccepted]
    rfl
  have hfiles := hbalanced.files 7
  rw [hall] at hfiles
  revert hfiles
  decide

end Reactor

end Rsva11001
