import Rsva11001.Verify.Pending

/-!
# Camera provenance

An image is stored at the slot that the iterator has come to, which is the one behind the camera
that the image was accepted from. With one camera that is the slot of the camera itself; with more
it never is (`provenance_iff`).
-/

namespace Rsva11001

open Lib

/-- An answer with an image to a request for a camera: the image is one of that camera. -/
def AnswersOwn (past : List Event) (o : Event) : Prop :=
  ∀ i id headers image size, o = .response id (.jpeg headers image size) → .routed i id ∈ past →
    .accepted i image ∈ past

/-- The images in the slots, and those that requests are answered with, have been accepted from
the camera of the slot, the one configured for its channel. -/
structure Provenance {P : HttpParser} (g : Globals P) : Prop where
  image : ∀ i m, (g.lastImage i).data = some m →
    .accepted i m.bytes ∈ g.log ∧ ∃ c, g.conns i = some c ∧ c.channel = i.val + 1
  answers : Always AnswersOwn g.log

theorem Before.eq_of_one {i j : Slot} (h : Before 1 j i) : i = j := by
  obtain ⟨hj, hi⟩ := h
  exact Fin.ext (by omega)

namespace Reactor

open Globals

/-- One camera has its turn before itself. -/
theorem provenance_one {P : HttpParser} {sg : Sandgrouse} {r₀ r : Reactor P} {es : List Env}
    (h₀ : Initial 1 r₀) (h : Lib.run (step sg) r₀ es = .ok r) : Provenance r.globals := by
  obtain ⟨b, hb⟩ := run_board h₀ h
  refine ⟨fun i m hm => ?_, ?_⟩
  · have himage : b.image i = some m.bytes := by
      rw [← hb.represents.image i, hm]
      rfl
    obtain ⟨-, j, hturn, hj⟩ := hb.run.images himage
    obtain rfl := hturn.eq_of_one
    have hcams := hb.inv.cameras
    obtain ⟨c, hc⟩ := Option.isSome_iff_exists.1 ((hcams.configured i).2 hturn.1)
    exact ⟨hj, c, hc, hcams.channel i c hc⟩
  · intro past o later hl i id headers image size ho hrouted
    obtain ⟨k, j, -, hturn, hj⟩ :=
      hb.run.answersPrevious past o later hl id headers image size ho
    have hi : i.val < 1 := hb.run.routed_lt (by rw [hl]; exact List.mem_append_left _ hrouted)
    obtain rfl : i = j := Fin.ext (by have := hturn.1; omega)
    exact hj

/-- Of several cameras the first delivers an image, and it comes to be in the slot of the
second. -/
theorem sample_misplaced {n : Nat} (hn : 2 ≤ n) (hle : n ≤ MAX_NUM_CAMERAS) :
    ∃ (r₀ r : Reactor .untilEof) (es : List Env) (second : Slot), Initial n r₀ ∧
      Lib.run (step plainSandgrouse) r₀ es = .ok r ∧ second.val = 1 ∧
      (r.globals.lastImage second).data = some ⟨4096, sampleMessage.payload⟩ ∧
      .accepted first sampleMessage.payload ∈ r.globals.log ∧
      ∀ p, .accepted second p ∉ r.globals.log := by
  obtain ⟨second, hsecond⟩ : ∃ second : Slot, second.val = 1 := ⟨⟨1, by decide⟩, rfl⟩
  have hne : second ≠ first := by
    rintro rfl
    cases hsecond
  have hturn : second.val = 1 % n := by rw [hsecond, Nat.mod_eq_of_lt (by omega)]
  obtain ⟨conns, c, pr, h₀, -, -, -, haccepted, hrun, -⟩ :=
    @sample_delivery n (by omega) hle plainSandgrouse sampleMessage sampleMessage_fits
      (by decide) (by decide) second hturn
  have hlog := log_delivered (afterOpen (sampleGlobals .untilEof n conns) first c) first second pr
    sampleMessage.payload rfl
  rw [haccepted] at hlog
  refine ⟨_, _, _, second, h₀, hrun, hsecond, ?_, ?_, fun p => ?_⟩
  · rw [lastImage_delivered]
  · rw [hlog]
    simp
  · rw [hlog]
    simp [afterOpen, sampleGlobals, configured, Globals.say, setConn, hne]

/-- **Provenance.** Every run keeps the images of the cameras apart exactly when there is only
one camera. -/
theorem provenance_iff {n : Nat} (hn : 1 ≤ n) (hle : n ≤ MAX_NUM_CAMERAS) :
    (∀ (P : HttpParser) (sg : Sandgrouse) (r₀ r : Reactor P) (es : List Env), Initial n r₀ →
      Lib.run (step sg) r₀ es = .ok r → Provenance r.globals) ↔ n = 1 := by
  constructor
  · intro hall
    by_contra hone
    obtain ⟨r₀, r, es, second, h₀, hrun, -, himage, -, hnone⟩ :=
      sample_misplaced (n := n) (by omega) hle
    exact hnone _ ((hall .untilEof plainSandgrouse r₀ r es h₀ hrun).image second _ himage).1
  · rintro rfl P sg r₀ r es h₀ h
    exact provenance_one h₀ h

theorem provenance_iff_sample : ∃ (r₀ r : Reactor .untilEof) (es : List Env), Initial 1 r₀ ∧
    Lib.run (step plainSandgrouse) r₀ es = .ok r ∧
      (r.globals.lastImage first).data.map Mapping.bytes = some sampleMessage.payload ∧
      answered r.globals.log = [7, 8] ∧ Provenance r.globals := by
  obtain ⟨r₀, r, h₀, hrun, -, hlog, himage⟩ := sample_served fun _ => true
  refine ⟨r₀, r, _, h₀, hrun, himage, by rw [hlog]; rfl, ?_⟩
  exact (provenance_iff (n := 1) (by decide) (by decide)).2 rfl _ _ r₀ r _ h₀ hrun

/-- With two cameras, the image of the first is taken for one of the second. -/
theorem not_provenance : ∃ (r₀ r : Reactor .untilEof) (es : List Env), Initial 2 r₀ ∧
    Lib.run (step plainSandgrouse) r₀ es = .ok r ∧ ¬ Provenance r.globals := by
  obtain ⟨r₀, r, es, second, h₀, hrun, -, himage, -, hnone⟩ :=
    sample_misplaced (n := 2) (by decide) (by decide)
  exact ⟨r₀, r, es, h₀, hrun, fun h => hnone _ (h.image second _ himage).1⟩

end Reactor

end Rsva11001
