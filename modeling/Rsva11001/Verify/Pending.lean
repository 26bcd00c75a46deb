import Rsva11001.Verify.Overflow
import Rsva11001.Verify.Serving

/-!
# Waiting requests

The queues in the state of the reactor are those of the board. Hence they stay within their arrays
for as long as no more requests have to wait for a camera between two of its images than a queue
has cells (`queue_bound`), and every request is answered exactly once, or waits in exactly one cell
(`exactly_once`).
-/

namespace Rsva11001

open Lib

namespace Globals

variable {P : HttpParser}

theorem Represents.pending_eq {g g' : Globals P} {b b' : Board} {i : Slot} (h : Represents g b)
    (h' : Represents g' b') (hi : b'.waiting i = b.waiting i) :
    g'.pendingRequests i = g.pendingRequests i := by
  have hcells := (h'.queue i).cells
  have hnum := h'.numPending i
  rw [hi, ← (h.queue i).cells] at hcells
  rw [hi, ← h.numPending i] at hnum
  cases hq : g.pendingRequests i with
  | mk connections numPending =>
    cases hq' : g'.pendingRequests i with
    | mk connections' numPending' =>
      rw [hq, hq'] at hcells hnum
      rw [PendingRequests.mk.injEq]
      exact ⟨Region.ext hcells, hnum⟩

end Globals

namespace Reactor

open Globals

variable {P : HttpParser}

/-- A step that queues a request puts it behind the others of one camera, and leaves the queues of
the others as they are. -/
theorem queued_alone {n : Nat} {sg : Sandgrouse} {r r' : Reactor P} {b : Board} {e : Env}
    (h : OnBoard n r b) (hs : step sg r e = .ok r') {new : List Event} {i : Slot} {id k : Nat}
    (hlog : r'.globals.log = r.globals.log ++ new) (hk : .queued i id k ∈ new) :
    k = (r.globals.pendingRequests i).numPending ∧
      (r'.globals.pendingRequests i).numPending = k + 1 ∧
      ∀ j, j ≠ i → r'.globals.pendingRequests j = r.globals.pendingRequests j := by
  obtain ⟨new', b', hlog', hboard, hrep⟩ := step_board h.inv h.represents h.run hs
  obtain rfl : new = new' := List.append_cancel_left (hlog.symm.trans hlog')
  cases hboard with
  | quiet hquiet => exact absurd rfl (hquiet _ hk)
  | notFound | noImage | sends => simp [answerWith] at hk
  | @waits src conn hsrc hroom =>
    obtain ⟨rfl, rfl, rfl⟩ : i = src ∧ id = conn.id ∧ k = (b.waiting src).length := by
      simpa using hk
    refine ⟨(h.represents.numPending i).symm, ?_, fun j hj => ?_⟩
    · rw [hrep.numPending, Board.waiting_enqueue_self, List.length_append]
      rfl
    · exact h.represents.pending_eq hrep (b.waiting_enqueue_of_ne conn hj)
  | publishes hbefore hafter =>
    obtain ho | ⟨conn, -, ho⟩ := Board.mem_publishes hbefore hafter rfl hk
    · cases ho
    · cases ho

/-- The queues of the run stay within their arrays: no store leaves one, in every state that the
run comes to the counts are within their bounds, and a step that queues a request does so at the
count of one queue, and leaves the others as they are. -/
structure QueuesBounded (sg : Sandgrouse) (r₀ : Reactor P) (es : List Env) : Prop where
  stores : Lib.run (step sg) r₀ es ≠ .error (.outOfRange .pendingConnections)
  count : ∀ front rest r, es = front ++ rest → Lib.run (step sg) r₀ front = .ok r →
    ∀ i, (r.globals.pendingRequests i).numPending ≤ MAX_PENDING_REQUESTS
  alone : ∀ front e rest r r' new i id k, es = front ++ e :: rest →
    Lib.run (step sg) r₀ front = .ok r → step sg r e = .ok r' →
    r'.globals.log = r.globals.log ++ new → .queued i id k ∈ new →
      k = (r.globals.pendingRequests i).numPending ∧ k < MAX_PENDING_REQUESTS ∧
        (r'.globals.pendingRequests i).numPending = k + 1 ∧
        ∀ j, j ≠ i → r'.globals.pendingRequests j = r.globals.pendingRequests j

/-- A store leaves its array exactly when too many requests wait for an image. -/
theorem stores_iff {n : Nat} {sg : Sandgrouse} {r₀ : Reactor P} {es : List Env}
    (h₀ : Initial n r₀) : Lib.run (step sg) r₀ es ≠ .error (.outOfRange .pendingConnections) ↔
      Meets (step sg) (Spaced sg) r₀ es := by
  apply run_ne_error_iff (I := fun r => ∃ b, OnBoard n r b)
  · exact fun r e r' h hstep => onBoard_step h hstep
  · rintro r e ⟨b, hb⟩
    exact step_overflows_iff hb
  · exact ⟨.empty, onBoard_initial h₀⟩

/-- **The queues are bounded** in exactly the runs in which, whenever a request has to wait for a
camera, fewer than 64 have been queued for this camera since its last image. -/
theorem queue_bound {n : Nat} {sg : Sandgrouse} {r₀ : Reactor P} {es : List Env}
    (h₀ : Initial n r₀) : QueuesBounded sg r₀ es ↔ Meets (step sg) (Spaced sg) r₀ es := by
  rw [← stores_iff h₀]
  refine ⟨QueuesBounded.stores, fun h => ⟨h, ?_, ?_⟩⟩
  · intro front rest r _ hrun i
    obtain ⟨b, hb⟩ := run_board h₀ hrun
    rw [hb.represents.numPending]
    exact hb.run.length_le i
  · intro front e rest r r' new i id k _ hrun hstep hlog hk
    obtain ⟨b, hb⟩ := run_board h₀ hrun
    obtain ⟨b', hb'⟩ := onBoard_step ⟨b, hb⟩ hstep
    obtain ⟨hcount, hnext, hother⟩ := queued_alone hb hstep hlog hk
    have hqueued : .queued i id k ∈ r'.globals.log := by
      rw [hlog]
      exact List.mem_append_right _ hk
    exact ⟨hcount, hb'.run.index_lt hqueued, hnext, hother⟩

/-- Requests are taken, one after the other, that have to wait for the first camera. -/
theorem serve_all {full : Bool} {rest : List EpollEvent} {ready : List SgConnection}
    {ids : List Nat} : ∀ {r : Reactor P} {b : Board}, Represents r.globals b →
      r.control = .serve full rest → r.globals.numCameras = 1 →
      r.globals.ready = ids.map (sampleRequest · "1") ++ ready →
      (b.waiting first).length + ids.length ≤ MAX_PENDING_REQUESTS →
      ∃ r', Lib.run (step plainSandgrouse) r (List.replicate ids.length calm) = .ok r' ∧
        r'.control = .serve full rest ∧ r'.globals.numCameras = 1 ∧ r'.globals.ready = ready ∧
        (r'.globals.pendingRequests first).numPending = (b.waiting first).length + ids.length := by
  induction ids with
  | nil =>
    intro r b h hc hn hready _
    exact ⟨r, rfl, hc, hn, hready, h.numPending first⟩
  | cons id ids ih =>
    intro r b h hc hn hready hroom
    rw [List.length_cons] at hroom
    have hroute := (route_sampleRequest (n := 1) (by decide) id calm.request.stack).1
    rw [← hn] at hroute
    obtain ⟨g, hstep, hready₁, hsame, -, h₁⟩ :=
      @serve_waits P plainSandgrouse r b calm full rest _ _ first h hc hready hroute (by omega)
    have hlen : ((b.enqueue first (sampleRequest id "1")).waiting first).length =
        (b.waiting first).length + 1 := by
      rw [Board.waiting_enqueue_self, List.length_append]
      rfl
    obtain ⟨r', hrun, hc', hn', hready', hnum⟩ :=
      ih (r := ⟨g, .serve full rest, r.shutdown⟩) (b := b.enqueue first (sampleRequest id "1"))
        h₁ rfl (hsame.numCameras.trans hn) hready₁ (by omega)
    refine ⟨r', ?_, hc', hn', hready', ?_⟩
    · rw [List.length_cons, List.replicate_succ]
      exact run_cons_ok.2 ⟨_, hstep, hrun⟩
    · rw [hnum, hlen, List.length_cons]
      omega

/-- The queue of the first camera is filled. -/
theorem sample_fills (P : HttpParser) (ready : List SgConnection) :
    ∃ (r₀ r : Reactor P) (es : List Env), Initial 1 r₀ ∧
      Lib.run (step plainSandgrouse) r₀ es = .ok r ∧
      (r.globals.pendingRequests first).numPending = MAX_PENDING_REQUESTS ∧
      r.control = .serve false [] ∧ r.globals.numCameras = 1 ∧ r.globals.ready = ready := by
  obtain ⟨r₀, g, c, h₀, hrun, hg, hready, -⟩ :=
    sample_ready P ((List.range 64).map (sampleRequest · "1") ++ ready)
  obtain ⟨r', hrun', hc', hn', hready', hnum⟩ :=
    serve_all (r := ⟨g, .serve false [], false⟩) hg.represents rfl hg.numCameras hready
      (by rw [List.length_range]; exact Nat.le_refl 64)
  rw [List.length_range] at hnum
  exact ⟨r₀, r', _, h₀, run_append_ok.2 ⟨_, hrun, hrun'⟩, hnum, hc', hn', hready'⟩

theorem queue_bound_sample : ∃ (r₀ r : Reactor .untilEof) (es : List Env), Initial 1 r₀ ∧
    Lib.run (step plainSandgrouse) r₀ es = .ok r ∧
      (r.globals.pendingRequests first).numPending = MAX_PENDING_REQUESTS ∧
      QueuesBounded plainSandgrouse r₀ es := by
  obtain ⟨r₀, r, es, h₀, hrun, hnum, -⟩ := sample_fills .untilEof []
  refine ⟨r₀, r, es, h₀, hrun, hnum, (queue_bound h₀).2 ((stores_iff h₀).1 ?_)⟩
  rw [hrun]
  rintro ⟨⟩

/-- Between two images of a camera 65 requests may have to wait for it. -/
theorem not_queue_bound : ∃ (r₀ r : Reactor .untilEof) (es : List Env), Initial 1 r₀ ∧
    Lib.run (step plainSandgrouse) r₀ es = .ok r ∧
      (r.globals.pendingRequests first).numPending = MAX_PENDING_REQUESTS ∧
      step plainSandgrouse r calm = .error (.outOfRange .pendingConnections) ∧
      ¬ QueuesBounded plainSandgrouse r₀ (es ++ [calm]) := by
  obtain ⟨r₀, r, es, h₀, hrun, hnum, hc, hn, hready⟩ :=
    sample_fills .untilEof [sampleRequest 64 "1"]
  obtain ⟨b, hb⟩ := run_board h₀ hrun
  have hhalt : step plainSandgrouse r calm = .error (.outOfRange .pendingConnections) := by
    rw [step_overflows_iff hb]
    intro hspaced
    have hroute := (route_sampleRequest (n := 1) (by decide) 64 calm.request.stack).1
    rw [← hn] at hroute
    have := hspaced false [] _ [] hc hready first hroute
    rw [← hb.numPending_since, hnum] at this
    exact Nat.lt_irrefl _ this
  refine ⟨r₀, r, es, h₀, hrun, hnum, hhalt, fun hbounded => hbounded.stores ?_⟩
  rw [run_append hrun, run, hhalt]

/-! ## Exactly one answer -/

/-- The request is in a cell of a queue. -/
def Sits (g : Globals P) (i : Slot) (k id : Nat) : Prop :=
  ∃ conn, (g.pendingRequests i).connections.cells[k]? = some (some conn) ∧ conn.id = id

theorem sits_iff {g : Globals P} {b : Board} (h : Represents g b) {i : Slot} {k id : Nat} :
    Sits g i k id ↔ ((b.waiting i).map SgConnection.id)[k]? = some id := by
  unfold Sits
  rw [List.getElem?_map, Option.map_eq_some_iff]
  constructor
  · rintro ⟨conn, hcell, hid⟩
    exact ⟨conn, (h.queue i).getElem?_cells.1 hcell, hid⟩
  · rintro ⟨conn, hwait, hid⟩
    exact ⟨conn, (h.queue i).getElem?_cells.2 hwait, hid⟩

/-- **Exactly once.** When each request is handed over once, each has been answered exactly once
and is in no cell, or has not been answered and is in exactly one, within the count of its queue.
Those that waited are answered with an image that was stored after they were queued. -/
theorem exactly_once {n : Nat} {sg : Sandgrouse} {r₀ r : Reactor P} {es : List Env}
    (h₀ : Initial n r₀) (h : Lib.run (step sg) r₀ es = .ok r)
    (hnodup : (handed r.globals.log).Nodup) :
    (∀ id ∈ handed r.globals.log,
      (answered r.globals.log).count id = 1 ∧ (∀ i k, ¬ Sits r.globals i k id) ∨
        (answered r.globals.log).count id = 0 ∧
          ∃ i k, k < (r.globals.pendingRequests i).numPending ∧
            ∀ j l, Sits r.globals j l id ↔ j = i ∧ l = k) ∧
      Always AnswersNext r.globals.log := by
  obtain ⟨b, hb⟩ := run_board h₀ h
  refine ⟨fun id hid => ?_, hb.run.answersNext hnodup⟩
  have hone := List.count_eq_one_of_mem hnodup hid
  rcases hb.run.counted_once hone with ⟨hans, hnone⟩ | ⟨hans, i, hi, hnone⟩
  · refine .inl ⟨hans, fun i k hsits => hnone i ?_⟩
    exact List.mem_of_getElem? ((sits_iff hb.represents).1 hsits)
  · obtain ⟨k, hk⟩ := getElem?_iff_of_count hi
    refine .inr ⟨hans, i, k, ?_, fun j l => ?_⟩
    · rw [hb.represents.numPending, ← List.length_map (f := SgConnection.id)]
      exact (List.getElem?_eq_some_iff.1 ((hk k).2 rfl)).1
    · rw [sits_iff hb.represents]
      constructor
      · intro hl
        by_cases hj : j = i
        · subst hj
          exact ⟨rfl, (hk l).1 hl⟩
        · exact absurd (List.mem_of_getElem? hl) (hnone j hj)
      · rintro ⟨rfl, rfl⟩
        exact (hk l).2 rfl

theorem exactly_once_sample : ∃ (r₀ r : Reactor .untilEof) (es : List Env), Initial 1 r₀ ∧
    Lib.run (step plainSandgrouse) r₀ es = .ok r ∧
      r.globals.log = servedLog sampleMessage.payload ∧
      (∀ id ∈ handed r.globals.log, (answered r.globals.log).count id = 1 ∧
        ∀ i k, ¬ Sits r.globals i k id) ∧ Always AnswersNext r.globals.log := by
  obtain ⟨r₀, r, h₀, hrun, -, hlog, -⟩ := sample_served fun _ => true
  have hhanded : handed r.globals.log = [7, 8] := by
    rw [hlog]
    rfl
  have hanswered : answered r.globals.log = [7, 8] := by
    rw [hlog]
    rfl
  have hnodup : (handed r.globals.log).Nodup := by
    rw [hhanded]
    decide
  obtain ⟨honce, hnext⟩ := exactly_once h₀ hrun hnodup
  refine ⟨r₀, r, _, h₀, hrun, hlog, fun id hid => ?_, hnext⟩
  rcases honce id hid with h | ⟨hnone, -⟩
  · exact h
  · rw [hanswered, ← hhanded] at hnone
    exact absurd hid (List.count_eq_zero.1 hnone)

end Reactor

end Rsva11001
