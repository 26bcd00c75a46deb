import Rsva11001.Verify.Pending

/-!
# Requests that are ready

`sg_server_process` is called in three places, and only behind the first of them are the requests
that have become ready handed over. None is left behind when the reactor waits again, as long as
the other two calls make none ready that no further event of the server is to come for
(`none_left_behind`).
-/

namespace Rsva11001

open Lib

namespace Globals

variable {P : HttpParser}

/-- Nothing but `added` has become ready, and no request has been handed over. -/
structure MakesReady (added : List SgConnection) (g g' : Globals P) : Prop where
  ready : g'.ready = g.ready ++ added
  log : Extends (fun o => ∀ id, o ≠ .handed id) g.log g'.log

theorem MakesReady.refl (g : Globals P) : MakesReady [] g g :=
  ⟨(List.append_nil _).symm, .refl _⟩

theorem MakesReady.trans {added added' : List SgConnection} {g g₁ g₂ : Globals P}
    (h : MakesReady added g g₁) (h' : MakesReady added' g₁ g₂) :
    MakesReady (added ++ added') g g₂ :=
  ⟨by rw [h'.ready, h.ready, List.append_assoc], h.log.trans h'.log⟩

theorem makesReady_say {g : Globals P} {events : List Event}
    (h : ∀ o ∈ events, ∀ id, o ≠ .handed id) : MakesReady [] g (g.say events) :=
  ⟨(List.append_nil _).symm, .append h⟩

theorem makesReady_serverProcess (g : Globals P) (e : ServerEnv) :
    MakesReady e.ready g (g.serverProcess e) :=
  ⟨rfl, .refl _⟩

theorem ne_handed_of_kind {o : Event} (h : o.kind ≠ .client) (id : Nat) : o ≠ .handed id := by
  rintro rfl
  exact h rfl

theorem handed_extends {t t' : List Event} (h : Extends (fun o => ∀ id, o ≠ .handed id) t t') :
    handed t' = handed t := by
  obtain ⟨new, rfl, hnew⟩ := h
  have hnone : handed new = [] := by
    refine List.filterMap_eq_nil_iff.2 fun o ho => ?_
    cases o with
    | handed id => exact absurd rfl (hnew _ ho id)
    | _ => rfl
  rw [handed_append, hnone, List.append_nil]

/-- The requests handed over, and behind them those that are ready. -/
def arrived (g : Globals P) : List Nat :=
  handed g.log ++ g.ready.map SgConnection.id

theorem MakesReady.arrived {added : List SgConnection} {g g' : Globals P}
    (h : MakesReady added g g') : g.arrived <+: g'.arrived := by
  refine ⟨added.map SgConnection.id, ?_⟩
  unfold Globals.arrived
  rw [handed_extends h.log, h.ready, List.map_append, List.append_assoc]

theorem retrieveImage_makesReady {g g' : Globals P} {e : CameraEnv} {t : Retrieval}
    (h : g.retrieveImage e = .ok (t, g')) : MakesReady [] g g' := by
  have hlog := (retrieveImage_onlyCameras h).sameClients.log.mono fun o ho => ne_handed_of_kind ho
  obtain ⟨i, c, r, -, -, -, hcases⟩ := retrieveImage_cases h
  refine ⟨?_, hlog⟩
  rw [List.append_nil]
  cases hcases <;> rfl

/-- The server is called when all system calls have succeeded. -/
theorem writeImageFile_makesReady {g g' : Globals P} {buffer : List UInt8} {e : WriteEnv} {b : Bool}
    (h : g.writeImageFile buffer e = .ok (b, g')) :
    MakesReady [] g g' ∨ ¬ g.StepFails e ∧ MakesReady e.server.ready g g' := by
  have hfile : ∀ {o : Event}, o.kind = .file → ∀ id, o ≠ .handed id := by
    intro o ho id
    exact ne_handed_of_kind (by simp [ho]) id
  cases writeImageFile_cases h with
  | failed _ hfiles => exact .inl (makesReady_say fun o ho => hfile (hfiles o ho))
  | @stored files i addr _ _ _ hfiles _ hstore hcalls =>
    obtain ⟨sent, queues, hsent, rfl⟩ := storeImage_cases hstore
    have hsaid : MakesReady [] g (g.say files) := makesReady_say fun o ho => hfile (hfiles o ho)
    refine .inr ⟨hcalls, hsaid.trans ⟨rfl, .append fun o ho => ?_⟩⟩
    rcases List.mem_cons.1 ho with rfl | ho
    · simp
    · obtain ⟨id, r, rfl⟩ := hsent o ho
      simp

/-- A request that is handled is the next one handed over. -/
theorem handleNewRequest_handed {g g' : Globals P} {sg : Sandgrouse} {conn : SgConnection}
    {e : RequestEnv} {b : Bool} (h : g.handleNewRequest sg conn e = .ok (b, g')) :
    g'.ready = g.ready ∧ handed g'.log = handed g.log ++ [conn.id] := by
  cases handleNewRequest_cases h with
  | notFound | noImage =>
    refine ⟨rfl, ?_⟩
    show handed (g.log ++ _) = _
    rw [handed_append]
    rfl
  | @waits src g₁ _ hqueue =>
    obtain ⟨connections, -, rfl⟩ := enqueue_cases hqueue
    refine ⟨rfl, ?_⟩
    show handed (g.log ++ _ ++ _) = _
    rw [List.append_assoc, handed_append]
    rfl
  | sent _ _ hsend =>
    obtain ⟨r, hr⟩ := sendJpeg_cases _ _ _ _ _
    rw [hsend] at hr
    cases hr
    refine ⟨rfl, ?_⟩
    show handed (g.log ++ _ ++ _) = _
    rw [List.append_assoc, handed_append]
    rfl

end Globals

namespace Reactor

open Globals

variable {P : HttpParser}

theorem dropCamera_makesReady {r r' : Reactor P} {closeOk : Bool}
    (h : r.dropCamera closeOk = .ok r') : MakesReady [] r.globals r'.globals := by
  have hlog := (dropCamera_onlyCameras h).sameClients.log.mono fun o ho => ne_handed_of_kind ho
  obtain ⟨i, c, -, -, ⟨-, -, rfl⟩ | rfl⟩ := dropCamera_cases h
  · exact ⟨(List.append_nil _).symm, hlog⟩
  · exact ⟨(List.append_nil _).symm, hlog⟩

theorem makesReady_clearActive (g : Globals P) : MakesReady [] g g.clearActive :=
  have hlog := (onlyCameras_clearActive g).sameClients.log
  ⟨(List.append_nil _).symm, hlog.mono fun _ ho => ne_handed_of_kind ho⟩

theorem dropCamera_shutdown_mono {r r' : Reactor P} {closeOk : Bool}
    (h : r.dropCamera closeOk = .ok r') (hs : r'.shutdown = false) : r.shutdown = false := by
  obtain ⟨i, c, -, -, ⟨-, -, rfl⟩ | rfl⟩ := dropCamera_cases h
  · cases hs
  · exact hs

/-- `writeImageFile` is called, and all of its system calls succeed. -/
def WritesImage (g : Globals P) (e : CameraEnv) : Prop :=
  ∃ image g', g.retrieveImage e = .ok (.write image, g') ∧ ¬ g'.StepFails e.write

/-- While a camera event is handled, no request becomes ready, or the image has been written and
those have that this call of the server makes ready. -/
theorem cameraEvent_makesReady {r r' : Reactor P} {ev : EpollEvent} {e : CameraEnv}
    (h : r.cameraEvent ev e = .ok r') :
    (r'.shutdown = false → r.shutdown = false) ∧
      (MakesReady [] r.globals r'.globals ∨ (¬ Hangup ev ∧ WritesImage r.globals e) ∧
        MakesReady e.write.server.ready r.globals r'.globals) := by
  rcases cameraEvent_cases h with ⟨-, hdrop⟩ | ⟨hup, code, g, hprocess, hcode⟩
  · exact ⟨dropCamera_shutdown_mono hdrop, .inl (dropCamera_makesReady hdrop)⟩
  have hlast : (r'.shutdown = false → r.shutdown = false) ∧ MakesReady [] g r'.globals := by
    rcases hcode with ⟨-, rfl⟩ | ⟨-, hdrop⟩ | ⟨-, -, rfl⟩
    · exact ⟨id, .refl g⟩
    · have hmono := dropCamera_shutdown_mono hdrop
      exact ⟨hmono, dropCamera_makesReady hdrop⟩
    · exact ⟨by rintro ⟨⟩, .refl g⟩
  refine ⟨hlast.1, ?_⟩
  obtain ⟨t, g₁, hretrieve, hdone⟩ := processActiveCamera_cases hprocess
  have hfirst := retrieveImage_makesReady hretrieve
  rcases hdone with ⟨-, rfl⟩ | ⟨image, b, g₂, rfl, hwrite, hg⟩
  · exact .inl (hfirst.trans hlast.2)
  have hclear : MakesReady [] g₂ r'.globals := by
    rcases hg with ⟨-, -, rfl⟩ | ⟨-, -, rfl⟩
    · exact hlast.2
    · exact (makesReady_clearActive g₂).trans hlast.2
  rcases writeImageFile_makesReady hwrite with hnone | ⟨hcalls, hsome⟩
  · exact .inl ((hfirst.trans hnone).trans hclear)
  · have := (hfirst.trans hsome).trans hclear
    rw [List.nil_append, List.append_nil] at this
    exact .inr ⟨⟨hup, image, g₁, hretrieve, hcalls⟩, this⟩

/-- The requests that have arrived are handed over in order. -/
theorem step_arrived {sg : Sandgrouse} {r r' : Reactor P} {e : Env} (h : step sg r e = .ok r') :
    r.globals.arrived <+: r'.globals.arrived := by
  cases step_cases h with
  | moved | batch | flagged => exact List.prefix_rfl
  | server | finish => exact (makesReady_serverProcess r.globals e.server).arrived
  | opened _ _ _ hopen =>
    obtain ⟨i, c, o, -, -, -, -, rfl⟩ := openNext_cases hopen
    exact (makesReady_say (by simp)).arrived
  | camera _ _ hcamera =>
    rcases (cameraEvent_makesReady hcamera).2 with hnone | ⟨-, hsome⟩
    · exact hnone.arrived
    · exact hsome.arrived
  | @request conn ready _ _ _ g _ hready hreq =>
    obtain ⟨hkept, hhanded⟩ := handleNewRequest_handed hreq
    unfold arrived
    simp only [hkept, hhanded, hready, List.map_cons, List.append_assoc, List.singleton_append]
    exact List.prefix_rfl

theorem run_arrived {sg : Sandgrouse} {r₀ r : Reactor P} {es : List Env}
    (h : Lib.run (step sg) r₀ es = .ok r) : r₀.globals.arrived <+: r.globals.arrived := by
  have hstep : ∀ (s : Reactor P) (e : Env) (s' : Reactor P),
      r₀.globals.arrived <+: s.globals.arrived → step sg s e = .ok s' →
        r₀.globals.arrived <+: s'.globals.arrived :=
    fun s e s' hs hnext => hs.trans (step_arrived hnext)
  exact run_invariant hstep List.prefix_rfl h

/-- A server event of the batch is still to come. -/
def ExpectsServer (rest : List EpollEvent) : Prop :=
  SCGI_ID ∈ rest.map EpollEvent.id

/-- Unless the reactor shuts down, requests are ready only within the loop over them and while an
event of the server is still to come. -/
structure Drained (r : Reactor P) : Prop where
  served : ∀ full rest, r.control = .served full rest → r.shutdown = true
  ready : r.shutdown = false → r.globals.ready ≠ [] →
    (∃ full rest, r.control = .serve full rest) ∨ ExpectsServer r.control.rest

/-- When the server is called because an image has been written, or behind the loop over the
requests, it makes no request ready, unless an event of the server is still to come. -/
structure NoneLate (r : Reactor P) (e : Env) : Prop where
  image : ∀ full ev rest, r.control = .dispatch full (ev :: rest) → ev.id = CAMERA_ID →
    ¬ Hangup ev → WritesImage r.globals e.camera →
    e.camera.write.server.ready = [] ∨ ExpectsServer rest
  behind : ∀ full rest, r.control = .serve full rest → r.globals.ready = [] →
    e.server.ready = [] ∨ ExpectsServer rest

theorem Drained.idle {r : Reactor P} (h : Drained r) (hs : r.shutdown = false)
    (hrest : r.control.rest = []) (hserve : ∀ full rest, r.control ≠ .serve full rest) :
    r.globals.ready = [] := by
  by_contra hne
  rcases h.ready hs hne with ⟨full, rest, hc⟩ | hserver
  · exact hserve full rest hc
  · rw [hrest] at hserver
    cases hserver

theorem drained_initial {n : Nat} {r : Reactor P} (h : Initial n r) : Drained r := by
  obtain ⟨host, username, password, malloc, g, hn, hsetup, rfl⟩ := h
  obtain ⟨-, conns, rfl, -⟩ := setup_cameras hn hsetup
  exact ⟨(by rintro _ _ ⟨⟩), fun _ hne => absurd rfl hne⟩

theorem drained_step {sg : Sandgrouse} {r r' : Reactor P} {e : Env} (h : Drained r)
    (he : NoneLate r e) (hnext : step sg r e = .ok r') : Drained r' := by
  cases step_cases hnext with
  | moved _ _ hmove hidle =>
    refine ⟨?_, fun hs hne => absurd (h.idle hs hidle.1 hidle.2) hne⟩
    rcases hmove with rfl | rfl | rfl <;> rintro _ _ ⟨⟩
  | batch hc =>
    refine ⟨(by rintro _ _ ⟨⟩), fun hs hne => absurd (h.idle hs ?_ ?_) hne⟩
    · rw [hc]
      rfl
    · simp [hc]
  | @opened b g hc hs _ hopen =>
    obtain ⟨i, c, o, -, -, -, -, rfl⟩ := openNext_cases hopen
    refine ⟨by cases b <;> simp, fun _ hne => absurd (h.idle hs ?_ ?_) hne⟩
    · rw [hc]
      rfl
    · simp [hc]
  | @camera ev full rest r₁ hc hid hcamera =>
    obtain ⟨hmono, hmakes⟩ := cameraEvent_makesReady hcamera
    refine ⟨(by rintro _ _ ⟨⟩), fun hs hne => .inr ?_⟩
    have hold : r.globals.ready ≠ [] → ExpectsServer rest := by
      intro hready
      rcases h.ready (hmono hs) hready with ⟨f, s, hserve⟩ | hserver
      · rw [hc] at hserve
        cases hserve
      · rw [hc, Control.rest, ExpectsServer, List.map_cons, List.mem_cons, hid] at hserver
        exact hserver.resolve_left (by decide)
    by_contra hnone
    have hready : r.globals.ready = [] := by
      by_contra hready
      exact hnone (hold hready)
    have hadded : r₁.globals.ready = [] := by
      rcases hmakes with hm | ⟨⟨hup, hwrites⟩, hm⟩
      · rw [hm.ready, hready, List.append_nil]
      · have hwrite := (he.image full ev rest hc hid hup hwrites).resolve_right hnone
        rw [hm.ready, hready, hwrite, List.append_nil]
    exact hne hadded
  | flagged => exact ⟨(by rintro _ _ ⟨⟩), by rintro ⟨⟩⟩
  | @server ev full rest hc hid =>
    refine ⟨by cases e.server.ok <;> simp, fun hs _ => .inl ⟨full, rest, ?_⟩⟩
    obtain ⟨-, hok⟩ : r.shutdown = false ∧ e.server.ok = true := by simpa [serverEvent] using hs
    rw [if_pos hok]
  | @finish full rest hc hready =>
    refine ⟨(by rintro _ _ ⟨⟩), fun hs hne => .inr ?_⟩
    have hs : r.shutdown = false := by
      have : (r.shutdown || !e.server.ok) = false := hs
      simp only [Bool.or_eq_false_iff] at this
      exact this.1
    rcases hc with hc | hc
    · refine (he.behind full rest hc (hready hc)).resolve_left fun hnone => hne ?_
      show r.globals.ready ++ e.server.ready = []
      rw [hready hc, hnone]
      rfl
    · rw [h.served full rest hc] at hs
      cases hs
  | @request conn ready full b rest g hc hready hreq =>
    refine ⟨?_, fun hs _ => .inl ⟨full, rest, ?_⟩⟩
    · cases b <;> simp
    · obtain ⟨-, hb⟩ : r.shutdown = false ∧ b = true := by simpa using hs
      rw [if_pos hb]

/-- **No request is left behind.** In a run whose steps make no request ready too late, none is
ready when the reactor waits again, unless it shuts down: all that have been ready before have been
handed over, in order. -/
theorem none_left_behind {n : Nat} {sg : Sandgrouse} {r₀ r₁ r : Reactor P} {es es' : List Env}
    (h₀ : Initial n r₀) (hes : Meets (step sg) NoneLate r₀ (es ++ es'))
    (h₁ : Lib.run (step sg) r₀ es = .ok r₁) (h : Lib.run (step sg) r₁ es' = .ok r)
    (hwait : r.control = .wait) (hs : r.shutdown = false) :
    r.globals.ready = [] ∧
      handed r₁.globals.log ++ r₁.globals.ready.map SgConnection.id <+: handed r.globals.log := by
  have hdrained : Drained r := run_invariant_of_meets (fun _ _ _ => drained_step)
    (drained_initial h₀) hes (run_append_ok.2 ⟨r₁, h₁, h⟩)
  have hready : r.globals.ready = [] := by
    apply hdrained.idle hs
    · rw [hwait]
      rfl
    · simp [hwait]
  have harrived := run_arrived h
  unfold arrived at harrived
  rw [hready, List.map_nil, List.append_nil] at harrived
  exact ⟨hready, harrived⟩

/-- A request that is answered with 404. -/
def emptyRequest (id : Nat) : SgConnection :=
  ⟨id, none, none, none, none⟩

theorem route_emptyRequest (sg : Sandgrouse) (n id : Nat) (stack : QueryBuffer) :
    route sg n (emptyRequest id) stack = .ok .notFound := by
  have hmethod : (emptyRequest id).method ≠ some (ascii "GET") := by
    rintro ⟨⟩
  exact if_pos hmethod

/-- An event of the server comes, with which a request becomes ready. -/
def serverEnvs : List Env :=
  [calm, reports serverBatch, { calm with server := ⟨true, [emptyRequest 7]⟩ }]

/-- The request is handled, others become ready, and the reactor comes to wait again. -/
def lateEnvs (late : List SgConnection) : List Env :=
  [calm, { calm with server := ⟨true, late⟩ }, calm, calm]

theorem sample_serves (P : HttpParser) (late : List SgConnection) :
    ∃ (r₀ r₁ r : Reactor P), Initial 1 r₀ ∧ Lib.run (step plainSandgrouse) r₀ serverEnvs = .ok r₁ ∧
      Lib.run (step plainSandgrouse) r₁ (lateEnvs late) = .ok r ∧ r.control = .wait ∧
      r.shutdown = false ∧ r₁.globals.ready = [emptyRequest 7] ∧ r.globals.ready = late ∧
      (late = [] → Meets (step plainSandgrouse) NoneLate r₀ (serverEnvs ++ lateEnvs late)) := by
  obtain ⟨conns, c, h₀, -, hopen⟩ := @sample_opens P 1 (by decide) (by decide) plainSandgrouse
  obtain ⟨g, hg⟩ : ∃ g, g = afterOpen (sampleGlobals P 1 conns) first c := ⟨_, rfl⟩
  have hready : g.ready = [] := by
    rw [hg]
    rfl
  have hactive : g.activeCamera = some first := by
    rw [hg]
    rfl
  rw [← hg] at hopen
  obtain ⟨g₁, hg₁⟩ : ∃ g₁, g₁ = ({ g.serverProcess ⟨true, [emptyRequest 7]⟩ with ready := [] } :
    Globals P).say [.handed 7, .response 7 .notFound] := ⟨_, rfl⟩
  have hready₁ : g₁.ready = [] := by
    rw [hg₁]
    rfl
  have hactive₁ : g₁.activeCamera.isSome := by
    rw [hg₁]
    show g.activeCamera.isSome
    rw [hactive]
    rfl
  have hserve : step plainSandgrouse
      ⟨g.serverProcess ⟨true, [emptyRequest 7]⟩, .serve false [], false⟩ calm =
        .ok ⟨g₁, .serve false [], false⟩ := by
    unfold step
    simp only [serverProcess, hready, List.nil_append]
    unfold serveRequest handleNewRequest
    simp only [route_emptyRequest, ok_bind]
    rw [hg₁, send404, say_say]
    rfl
  have hlate := serves_idle plainSandgrouse hready₁ late
  have hwait : step plainSandgrouse ⟨g₁.serverProcess ⟨true, late⟩, .outer, false⟩ calm =
      .ok ⟨g₁.serverProcess ⟨true, late⟩, .wait, false⟩ :=
    waits_again plainSandgrouse hactive₁
  refine ⟨_, _, _, h₀,
    run_cons_ok.2 ⟨_, hopen, run_cons_ok.2 ⟨_, rfl, run_cons_ok.2 ⟨_, rfl, run_nil _⟩⟩⟩,
    run_cons_ok.2 ⟨_, hserve, run_cons_ok.2 ⟨_, hlate, run_cons_ok.2 ⟨_, rfl,
      run_cons_ok.2 ⟨_, hwait, run_nil _⟩⟩⟩⟩, rfl, rfl, ?_, ?_, ?_⟩
  · show g.ready ++ [emptyRequest 7] = _
    rw [hready]
    rfl
  · show g₁.ready ++ late = late
    rw [hready₁, List.nil_append]
  · rintro rfl
    have hcalm : ∀ r : Reactor P, NoneLate r calm :=
      fun _ => ⟨fun _ _ _ _ _ _ _ => .inl rfl, fun _ _ _ _ => .inl rfl⟩
    refine (meets_cons_ok hopen).2 ⟨hcalm _, (meets_cons_ok rfl).2 ⟨?_, (meets_cons_ok rfl).2 ⟨?_,
      (meets_cons_ok hserve).2 ⟨hcalm _, (meets_cons_ok hlate).2 ⟨?_, (meets_cons_ok rfl).2
        ⟨hcalm _, (meets_cons_ok hwait).2 ⟨hcalm _, trivial⟩⟩⟩⟩⟩⟩⟩
    · exact ⟨fun _ _ _ _ _ _ _ => .inl rfl, fun _ _ _ _ => .inl rfl⟩
    · exact ⟨fun _ _ _ _ _ _ _ => .inl rfl, by rintro _ _ ⟨⟩⟩
    · exact ⟨fun _ _ _ _ _ _ _ => .inl rfl, fun _ _ _ _ => .inl rfl⟩

theorem none_left_behind_sample : ∃ (r₁ r : Reactor .untilEof),
    r₁.globals.ready = [emptyRequest 7] ∧ r.control = .wait ∧ r.globals.ready = [] ∧
      handed r₁.globals.log ++ [7] <+: handed r.globals.log := by
  obtain ⟨r₀, r₁, r, h₀, h₁, h, hwait, hs, hready, -, hmeets⟩ := sample_serves .untilEof []
  obtain ⟨hnone, harrived⟩ := none_left_behind h₀ (hmeets rfl) h₁ h hwait hs
  rw [hready] at harrived
  exact ⟨r₁, r, hready, hwait, hnone, harrived⟩

/-- A request becomes ready behind the loop, and the reactor waits again. -/
theorem not_none_left_behind : ∃ (r₀ r : Reactor .untilEof) (es : List Env), Initial 1 r₀ ∧
    Lib.run (step plainSandgrouse) r₀ es = .ok r ∧ r.control = .wait ∧ r.shutdown = false ∧
      r.globals.ready = [emptyRequest 8] := by
  obtain ⟨r₀, r₁, r, h₀, h₁, h, hwait, hs, -, hready, -⟩ :=
    sample_serves .untilEof [emptyRequest 8]
  exact ⟨r₀, r, _, h₀, run_append_ok.2 ⟨r₁, h₁, h⟩, hwait, hs, hready⟩

end Reactor

end Rsva11001
