import Rsva11001.Verify.Progress

/-!
# Access exclusion and round robin

The recorder must not see two clients. When `epoll_wait` reports at most one event for each
descriptor, no camera event is handled without an active camera (`Dispatching`), so that every run
keeps at most one connection open, the active one, and opens the cameras in turn.
-/

namespace Rsva11001

open Lib

namespace Reactor

variable {P : HttpParser}

/-- `epoll_wait` reports at most one event for each descriptor. -/
def OneEventEach (e : Env) : Prop :=
  ∀ batch, e.wait = .events batch → (batch.events.map EpollEvent.id).Nodup

/-- Whenever an event of the camera is still to come, there is an active camera. -/
structure Dispatching (r : Reactor P) : Prop where
  wait : r.control = .wait → r.globals.activeCamera.isSome
  nodup : (r.control.rest.map EpollEvent.id).Nodup
  camera : CAMERA_ID ∈ r.control.rest.map EpollEvent.id → r.globals.activeCamera.isSome

/-- A step that keeps the active camera and takes events off the batch. -/
theorem Dispatching.of_sublist {r r' : Reactor P} (h : Dispatching r)
    (hrest : r'.control.rest.Sublist r.control.rest)
    (hactive : r'.globals.activeCamera = r.globals.activeCamera) (hwait : r'.control ≠ .wait) :
    Dispatching r' := by
  have hsub := hrest.map EpollEvent.id
  refine ⟨fun hw => absurd hw hwait, h.nodup.sublist hsub, fun hmem => ?_⟩
  rw [hactive]
  exact h.camera (hsub.subset hmem)

theorem dispatching_initial {n : Nat} {r : Reactor P} (h : Initial n r) : Dispatching r := by
  obtain ⟨host, username, password, malloc, g, -, -, rfl⟩ := h
  refine ⟨?_, List.nodup_nil, ?_⟩
  · rintro ⟨⟩
  · rintro ⟨⟩

theorem dispatching_step {sg : Sandgrouse} {r r' : Reactor P} {e : Env} (h : Dispatching r)
    (he : OneEventEach e) (hs : step sg r e = .ok r') : Dispatching r' := by
  cases step_cases hs with
  | moved hwait _ hmove =>
    refine ⟨fun hw => (hwait hw).2, ?_, ?_⟩
    · rcases hmove with rfl | rfl | rfl <;> exact List.nodup_nil
    · rcases hmove with rfl | rfl | rfl <;> rintro ⟨⟩
  | batch hc hw => exact ⟨by rintro ⟨⟩, he _ hw, fun _ => h.wait hc⟩
  | @opened b g _ _ _ hopen =>
    obtain ⟨i, c, o, -, -, -, -, rfl⟩ := Globals.openNext_cases hopen
    refine ⟨fun _ => rfl, ?_, ?_⟩
    · cases b <;> exact List.nodup_nil
    · cases b <;> rintro ⟨⟩
  | @camera ev full rest r₁ hc hid hcamera =>
    -- the other events of the batch are not the camera's, whatever became of it
    have hnodup := h.nodup
    rw [hc, Control.rest, List.map_cons, List.nodup_cons, hid] at hnodup
    exact ⟨by rintro ⟨⟩, hnodup.2, fun hmem => absurd hmem hnodup.1⟩
  | flagged hc =>
    apply h.of_sublist
    · rw [hc]
      exact List.sublist_cons_self _ _
    · rfl
    · simp
  | server hc =>
    apply h.of_sublist
    · rw [hc]
      cases e.server.ok <;> exact List.sublist_cons_self _ _
    · rfl
    · cases e.server.ok <;> simp
  | finish hc =>
    apply h.of_sublist
    · rcases hc with hc | hc <;> rw [hc] <;> exact List.Sublist.refl _
    · rfl
    · simp
  | @request _ _ _ b _ _ hc _ hreq =>
    apply h.of_sublist
    · rw [hc]
      cases b <;> exact List.Sublist.refl _
    · exact (Globals.handleNewRequest_onlyRequests hreq).activeCamera
    · cases b <;> simp

/-- **Exclusion and round robin.** In every state reached only the active camera is open, all are
closed when there is none, and a camera event finds one; the `k`-th opening is of camera `k % n`,
so that between two openings of a camera every other camera is opened exactly once. -/
theorem exclusion {n : Nat} {sg : Sandgrouse} {r₀ r : Reactor P} {es : List Env}
    (h₀ : Initial n r₀) (hes : ∀ e ∈ es, OneEventEach e) (h : run (step sg) r₀ es = .ok r) :
    (∀ i c, r.globals.conns i = some c → c.sockfd.isSome → r.globals.activeCamera = some i) ∧
      (r.globals.activeCamera = none → ∀ i c, r.globals.conns i = some c → c.sockfd = none) ∧
      (∀ full ev rest, r.control = .dispatch full (ev :: rest) → ev.id = CAMERA_ID →
        r.globals.activeCamera.isSome) ∧
      (∀ k i, (openings r.globals.log)[k]? = some i → i = k % n) ∧
      ∀ pre mid post i j, openings r.globals.log = pre ++ i :: (mid ++ i :: post) → i ∉ mid →
        j < n → j ≠ i → mid.count j = 1 := by
  have hinv := (run_cameras h₀ h).cameras
  have hmeets : Meets (step sg) (fun _ e => OneEventEach e) r₀ es := meets_of_forall hes
  have hdispatch : Dispatching r :=
    run_invariant_of_meets (fun _ _ _ => dispatching_step) (dispatching_initial h₀) hmeets h
  refine ⟨hinv.exclusive, fun hnone i c hc => hinv.all_closed hnone hc, ?_, hinv.turns, ?_⟩
  · intro full ev rest hc hid
    apply hdispatch.camera
    rw [hc, Control.rest, List.map_cons, hid]
    exact List.mem_cons_self
  · intro pre mid post i j hl hi hj hne
    exact hinv.turns.count_between hl hi hj hne

/-- The first of two cameras delivers its image, the server has an event in the same batch, and the
second camera is opened. -/
def roundEnvs : List Env :=
  [calm, reports bothBatch,
    sends sampleMessage sampleMessage_fits .wouldBlock, calm, calm, calm, calm]

theorem sample_round : ∃ (r₀ : Reactor .untilEof) (r : Reactor .untilEof) (second : Slot),
    Initial 2 r₀ ∧ run (step plainSandgrouse) r₀ roundEnvs = .ok r ∧ second.val = 1 ∧
      r.globals.activeCamera = some second ∧ openings r.globals.log = [0, 1] := by
  obtain ⟨second, hsecond⟩ : ∃ second : Slot, second.val = 1 := ⟨⟨1, by decide⟩, rfl⟩
  have hne : second ≠ first := by
    rintro rfl
    cases hsecond
  obtain ⟨conns, c, pr, h₀, -, hopen, -, -, haccepted, hstep⟩ :=
    @sample_delivers 2 (by decide) (by decide) plainSandgrouse false [serverReady] sampleMessage
      sampleMessage_fits (by decide) (by decide) second hsecond
  obtain ⟨g, hg⟩ : ∃ g, g = ((afterOpen (sampleGlobals .untilEof 2 conns) first c).delivered first
      second pr sampleMessage.payload).serverProcess ⟨true, []⟩ := ⟨_, rfl⟩
  have hserver : step plainSandgrouse
      ⟨(afterOpen (sampleGlobals .untilEof 2 conns) first c).delivered first second pr
        sampleMessage.payload, .dispatch false [serverReady], false⟩ calm =
      .ok ⟨g, .serve false [], false⟩ := by
    rw [hg]
    rfl
  have hfront : run (step plainSandgrouse) (start (sampleGlobals .untilEof 2 conns))
      (roundEnvs.take 6) = .ok ⟨g, .outer, false⟩ := by
    refine run_cons_ok.2 ⟨_, hopen, run_cons_ok.2 ⟨_, rfl, run_cons_ok.2 ⟨_, hstep, ?_⟩⟩⟩
    refine run_cons_ok.2 ⟨_, hserver, run_cons_ok.2 ⟨⟨g, .dispatch false [], false⟩, ?_, ?_⟩⟩
    · rw [hg]
      rfl
    · exact run_cons_ok.2 ⟨_, rfl, run_nil _⟩
  have hcams := (run_cameras h₀ hfront).cameras
  have hactive : g.activeCamera = none := by
    rw [hg]
    rfl
  have hiterator : g.cameraIterator = 1 := by
    rw [hg]
    rfl
  have hconns : ∀ i c, i.val = g.cameraIterator → g.conns i = some c →
      (c.request sampleFile).length < OUTPUT_BUFFER_SIZE := by
    intro i c hi hc
    obtain rfl : i = second := Fin.ext ((hi.trans hiterator).trans hsecond.symm)
    have hset : g.conns i = conns i := by
      rw [hg]
      exact (Globals.conns_delivered_of_ne _ _ _ _ _ hne).trans (Function.update_of_ne hne _ _)
    rw [sample_conns h₀ (hset.symm.trans hc)]
    exact length_request_setUp _ i
  obtain ⟨i, c', hi, -, hnext⟩ := @opens _ plainSandgrouse 2 ⟨g, .outer, false⟩ calm hcams rfl rfl
    hactive rfl hconns
  obtain rfl : i = second := Fin.ext ((hi.trans hiterator).trans hsecond.symm)
  have hlog : openings g.log = [0] := by
    rw [hg]
    refine (congrArg openings (Globals.log_delivered _ _ _ _ _ rfl)).trans ?_
    rw [haccepted]
    rfl
  have hall : roundEnvs = roundEnvs.take 6 ++ [calm] := rfl
  refine ⟨_, ⟨afterOpen g i c', .wait, false⟩, i, h₀, ?_, hsecond, rfl, ?_⟩
  · rw [hall]
    exact run_append_ok.2 ⟨_, hfront, run_cons_ok.2 ⟨_, hnext, run_nil _⟩⟩
  · show openings (g.log ++ [.opened i]) = _
    rw [openings_append, hlog]
    simp [openings, hsecond]

theorem exclusion_sample : ∃ (r₀ r : Reactor .untilEof) (second : Slot), Initial 2 r₀ ∧
    run (step plainSandgrouse) r₀ roundEnvs = .ok r ∧ openings r.globals.log = [0, 1] ∧
      r.globals.activeCamera = some second ∧
      ∀ i c, r.globals.conns i = some c → c.sockfd.isSome → r.globals.activeCamera = some i := by
  obtain ⟨r₀, r, second, h₀, hrun, -, hactive, hopenings⟩ := sample_round
  have hone : ∀ e ∈ roundEnvs, OneEventEach e := by
    have hnodup : ([cameraReady, serverReady].map EpollEvent.id).Nodup := by decide
    intro e he batch hw
    simp only [roundEnvs, List.mem_cons, List.not_mem_nil, or_false] at he
    rcases he with rfl | rfl | rfl | rfl | rfl | rfl | rfl
    · cases hw
    · cases hw
      exact hnodup
    all_goals cases hw
  exact ⟨r₀, r, second, h₀, hrun, hopenings, hactive, (exclusion h₀ hone hrun).1⟩

end Reactor

end Rsva11001
