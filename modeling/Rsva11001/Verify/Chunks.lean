import Rsva11001.Verify.Integrity

/-!
# The receiver as a frame parser, and the cuts on which it is one

The ping-pong receiver does the steps of the reader that looks for one message after each chunk
(`feed_reads`). With the cuts on which that reader keeps up it takes the messages in order, and on
any other it copies from outside its data (`feed_cut`). When no chunk holds the ends of two
messages it parses the stream (`feed_oneEnd`); what two cuts of one stream have to do with each
other in general is `sameImage_iff`.
-/

namespace Rsva11001

open Lib

namespace Connection

variable {P : HttpParser}

/-- The longest payload whose message fits the receive buffers. -/
def MAX_PAYLOAD : Nat := BASE_BUFFER_SIZE - 12

/-- A stream of messages that fit the receive buffers, followed by `r`, is cut into chunks of at
most one network read. -/
structure Cut (ms : List Message) (r : List UInt8) (cs : List (List UInt8)) : Prop where
  fits : ∀ m ∈ ms, m.payload.length ≤ MAX_PAYLOAD
  cut : cs.flatten = jpgs.encodeAll ms ++ r
  chunk : ∀ d ∈ cs, d ≠ [] ∧ d.length ≤ BUFFER_SIZE

/-- `r` is a proper beginning of a message that fits. -/
def Beginning (r : List UInt8) : Prop :=
  ∃ m : Message, m.payload.length ≤ MAX_PAYLOAD ∧ r <+: m.encode ∧ r ≠ m.encode

theorem beginning_nil : Beginning [] :=
  ⟨⟨[], by decide⟩, by decide, List.nil_prefix, by decide⟩

theorem Beginning.isPartial {r : List UInt8} (h : Beginning r) :
    jpgs.Partial BASE_BUFFER_SIZE r := by
  obtain ⟨m, hm, hpre, hne⟩ := h
  refine ⟨m, hpre, ?_, ?_⟩
  · have := hpre.length_le
    have : r.length ≠ m.encode.length := fun hl => hne (hpre.eq_of_length hl)
    simp only [jpgs_encode]
    omega
  · simp only [jpgs_encode, m.length_encode]
    unfold MAX_PAYLOAD BASE_BUFFER_SIZE at *
    omega

/-- The sum of the sizes does not wrap at the beginning of a message that fits. -/
theorem not_wraps_of_isPartial {s : List UInt8} (h : jpgs.Partial BASE_BUFFER_SIZE s) :
    ¬ Wraps s := by
  rintro ⟨h8, -, hbig, -⟩
  obtain ⟨m, hpre, -, hle⟩ := h
  rw [lengthField_front hpre h8] at hbig
  simp only [jpgs_encode, m.length_encode] at hle
  unfold BASE_BUFFER_SIZE at hle
  omega

theorem recv_keep {c : Connection P} {carry d : List UInt8} {latest : Option Message}
    (hr : Receiving c carry latest) (hpart : jpgs.Partial BASE_BUFFER_SIZE (carry ++ d)) :
    ∃ c', c.recv d = .ok (0, c') ∧ Receiving c' (carry ++ d) latest ∧ c'.ping = c.ping ∧
      SameControl c c' := by
  have hlt : (carry ++ d).length < BASE_BUFFER_SIZE := by
    obtain ⟨m, -, hlt, hle⟩ := hpart
    omega
  have hrecd : received carry d = carry ++ d := received_eq (Nat.le_of_lt hlt)
  rw [List.length_append] at hlt
  have hscan : scanMessage (received carry d) = .more := by
    rw [hrecd]
    exact hpart.scan
  obtain ⟨c', heq, hr', hping, hsame⟩ := recv_more hr (by omega) hscan
    (by rw [hrecd]; exact not_wraps_of_isPartial hpart)
  rw [hrecd] at hr'
  exact ⟨c', heq, hr', hping, hsame⟩

/-- The receiver does the steps of the reader that looks for one message per chunk. -/
theorem feed_reads {cs : List (List UInt8)} {carry r : List UInt8} {ms : List Message}
    (h : jpgs.Reads BASE_BUFFER_SIZE carry cs ms r) :
    ∀ {c : Connection P} {latest : Option Message}, Receiving c carry latest →
      (∀ d ∈ cs, d.length ≤ BUFFER_SIZE) →
      ∃ c', c.feed cs = .ok (List.replicate cs.length 0, c') ∧
        Receiving c' r (ms.getLast?.or latest) := by
  induction h with
  | done => exact fun hr _ => ⟨_, rfl, hr⟩
  | @keep carry d cs as r hpart _ ih =>
    intro c latest hr hcs
    obtain ⟨c₁, heq, hr₁, -, -⟩ := recv_keep hr hpart
    obtain ⟨c', hfeed, hr'⟩ := ih hr₁ fun d hd => hcs d (List.mem_cons_of_mem _ hd)
    refine ⟨c', ?_, hr'⟩
    rw [feed, heq]
    simp only [ok_bind, hfeed]
    rfl
  | @emit carry d rest cs a as r hframe hle hroom hcap _ ih =>
    intro c latest hr hcs
    have hd : d.length ≤ BUFFER_SIZE := hcs d List.mem_cons_self
    have hlen := congrArg List.length hframe
    simp only [List.length_append] at hlen
    unfold BUFFER_SIZE at hd
    obtain ⟨c₁, heq, hr₁, -, -⟩ := recv_frame hr hroom (by unfold PTRDIFF_MAX; omega) hframe
      hcap hle (by unfold BASE_BUFFER_SIZE; omega)
    obtain ⟨c', hfeed, hr'⟩ := ih hr₁ fun d hd => hcs d (List.mem_cons_of_mem _ hd)
    refine ⟨c', ?_, ?_⟩
    · rw [feed, heq]
      simp only [ok_bind, hfeed]
      rfl
    · rw [List.getLast?_cons]
      cases hlast : as.getLast? with
      | none => simpa [hlast] using hr'
      | some m => simpa [hlast] using hr'

theorem feed_append_error {front back : List (List UInt8)} {d : List UInt8} {rets : List Nat}
    {c' : Connection P} {e : Halt} : ∀ {c : Connection P}, c.feed front = .ok (rets, c') →
      c'.recv d = .error e → c.feed (front ++ d :: back) = .error e := by
  induction front generalizing rets with
  | nil =>
    intro c h he
    cases h
    rw [List.nil_append, feed, he, error_bind]
  | cons x front ih =>
    intro c h he
    rw [feed] at h
    obtain ⟨⟨ret, c₁⟩, h₁, h⟩ := bind_eq_ok.1 h
    obtain ⟨⟨rets', c₂⟩, h₂, h⟩ := bind_eq_ok.1 h
    cases h
    rw [List.cons_append, feed, h₁, ok_bind]
    simp only [ih h₂ he, error_bind]

theorem Cut.taken_or_late {ms : List Message} {r : List UInt8} {cs : List (List UInt8)}
    (hcut : Cut ms r cs) (hr : Beginning r) : jpgs.Taken BASE_BUFFER_SIZE [] ms cs r ∨
      ¬ jpgs.KeepsUp 0 ms cs ∧ jpgs.Late BASE_BUFFER_SIZE [] cs := by
  have hcap : ∀ m ∈ ms, (jpgs.encode m).length ≤ BASE_BUFFER_SIZE := by
    intro m hm
    have := hcut.fits m hm
    rw [jpgs_encode, m.length_encode]
    unfold MAX_PAYLOAD BASE_BUFFER_SIZE at *
    omega
  have hlen : ∀ d ∈ cs, d.length ≤ BUFFER_SIZE := fun d hd => (hcut.chunk d hd).2
  have hcarry : jpgs.Carried BUFFER_SIZE [] ms := fun _ _ _ => .inr (Nat.zero_le _)
  exact Framing.taken_or_late hr.isPartial (by decide) hcap hlen hcarry
    (by rw [List.nil_append]; exact hcut.cut)

/-- **The receiver on a cut.** -/
theorem feed_cut {c : Connection P} (hc : Receiving c [] none) {ms : List Message}
    {r : List UInt8} {cs : List (List UInt8)} (hcut : Cut ms r cs) (hr : Beginning r) :
    (jpgs.KeepsUp 0 ms cs ∧ ∃ c', c.feed cs = .ok (List.replicate cs.length 0, c') ∧
        Receiving c' (jpgs.encodeAll (jpgs.untaken 0 ms cs) ++ r) (jpgs.taken 0 ms cs).getLast?) ∨
      (¬ jpgs.KeepsUp 0 ms cs ∧ ∃ e, c.feed cs = .error e) := by
  have hlen : ∀ d ∈ cs, d.length ≤ BUFFER_SIZE := fun d hd => (hcut.chunk d hd).2
  rcases hcut.taken_or_late hr with
    ⟨hkeep, taken, htaken, hreads⟩ | ⟨hno, front, d, back, taken, a, rest, rfl, hreads, hne, hroom⟩
  · obtain ⟨c', hfeed, hr'⟩ := feed_reads hreads hc hlen
    rw [Option.or_none, ← Framing.taken_eq htaken] at hr'
    exact .inl ⟨hkeep, c', hfeed, hr'⟩
  · obtain ⟨c', hfeed, hr'⟩ := feed_reads hreads hc
      fun x hx => hlen x (List.mem_append_left _ hx)
    have hd : d.length ≤ PTRDIFF_MAX :=
      Nat.le_trans (hlen d (List.mem_append_right _ List.mem_cons_self)) (by decide)
    exact .inr ⟨hno, _, feed_append_error hfeed (recv_late hr' hroom hd rfl hne)⟩

/-! ## One message end per chunk -/

theorem keepsUp_of_cut {ms : List Message} {r : List UInt8} {cs : List (List UInt8)}
    (hcut : Cut ms r cs) (hone : OneEndPerChunk (jpgs.endsFrom 0 ms) 0 cs) :
    jpgs.KeepsUp 0 ms cs ∧ jpgs.untaken 0 ms cs = [] := by
  refine Framing.keepsUp_of_oneEnd ?_ ?_ hone
  · rintro m _ -
    rw [jpgs_encode, m.length_encode]
    omega
  · rw [hcut.cut, List.length_append]
    omega

/-- **The receiver refines the frame parser.** On a cut in which no chunk holds the last bytes of
two messages every callback returns 0, the active buffer holds what follows the last message, and
the image retrieved is the payload of the last message. -/
theorem feed_oneEnd {c : Connection P} (hc : FreshlyOpened c) {ms : List Message}
    {r : List UInt8} {cs : List (List UInt8)} (hcut : Cut ms r cs) (hr : Beginning r)
    (hone : OneEndPerChunk (jpgs.endsFrom 0 ms) 0 cs) :
    ∃ c', c.feed cs = .ok (List.replicate cs.length 0, c') ∧
      (∃ side b, c'.activeReceiveBuffer = some side ∧ c'.receiveBuffer side = some b ∧
        b.cells.take c'.activeReceiveBufferBytesReceived = r ∧
        c'.activeReceiveBufferBytesReceived = r.length) ∧
      ∀ size, (∀ m, ms.getLast? = some m → m.payload.length ≤ size) →
        c'.getLatestImage size =
          .ok ⟨true, (imageBytes ms.getLast?).length, imageBytes ms.getLast?⟩ := by
  obtain ⟨hkeep, hall⟩ := keepsUp_of_cut hcut hone
  rcases feed_cut hc.receiving.1 hcut hr with ⟨-, c', hfeed, hr'⟩ | ⟨hno, -⟩
  · rw [hall, Framing.taken_eq (by rw [hall, List.append_nil])] at hr'
    obtain ⟨b, hb, hfront⟩ := hr'.front
    refine ⟨c', hfeed, ⟨c'.active, b, hr'.pointer, hb, ?_, hr'.received⟩, fun size hsize => ?_⟩
    · rw [hr'.received]
      exact hfront
    · rw [getLatestImage_eq hr', latestImage_eq hsize]
  · exact absurd hkeep hno

/-- One message and the first byte of another, cut inside the length field. -/
theorem feed_oneEnd_sample :
    ∃ c', (sampleOpen .untilEof).feed
        [sampleMessage.encode.take 6, sampleMessage.encode.drop 6 ++ [74]] = .ok ([0, 0], c') ∧
      (∃ side b, c'.activeReceiveBuffer = some side ∧ c'.receiveBuffer side = some b ∧
        b.cells.take c'.activeReceiveBufferBytesReceived = [74] ∧
        c'.activeReceiveBufferBytesReceived = 1) ∧
      ∀ size, (∀ m, [sampleMessage].getLast? = some m → m.payload.length ≤ size) →
        c'.getLatestImage size = .ok ⟨true, 3, [255, 216, 217]⟩ :=
  feed_oneEnd (freshlyOpened_sampleOpen _) ⟨by decide, by decide, by decide⟩
    ⟨sampleMessage, by decide, ⟨sampleMessage.encode.drop 1, by decide⟩, by decide⟩ (by decide)

/-! ## Two cuts of one stream -/

/-- Both cuts of the stream of `ms` are received without a callback that fails, and the same image
is retrieved after them. -/
def SameImage (c : Connection P) (ms : List Message) (cs₁ cs₂ : List (List UInt8)) : Prop :=
  ∃ c₁ c₂, c.feed cs₁ = .ok (List.replicate cs₁.length 0, c₁) ∧
    c.feed cs₂ = .ok (List.replicate cs₂.length 0, c₂) ∧
    ∀ size, (∀ m ∈ ms, m.payload.length ≤ size) →
      ∃ img, img.ret = true ∧ c₁.getLatestImage size = .ok img ∧ c₂.getLatestImage size = .ok img

theorem mem_of_taken {ms : List Message} {cs : List (List UInt8)} {m : Message}
    (h : (jpgs.taken 0 ms cs).getLast? = some m) : m ∈ ms :=
  List.mem_of_mem_take (List.mem_of_getLast? h)

theorem SameImage.of_receiving {c c₁ c₂ : Connection P} {ms : List Message}
    {cs₁ cs₂ : List (List UInt8)} {r₁ r₂ : List UInt8}
    (hf₁ : c.feed cs₁ = .ok (List.replicate cs₁.length 0, c₁))
    (hf₂ : c.feed cs₂ = .ok (List.replicate cs₂.length 0, c₂))
    (hr₁ : Receiving c₁ r₁ (jpgs.taken 0 ms cs₁).getLast?)
    (hr₂ : Receiving c₂ r₂ (jpgs.taken 0 ms cs₂).getLast?)
    (hsame : imageBytes (jpgs.taken 0 ms cs₁).getLast? =
      imageBytes (jpgs.taken 0 ms cs₂).getLast?) : SameImage c ms cs₁ cs₂ := by
  refine ⟨c₁, c₂, hf₁, hf₂, fun size hsize => ?_⟩
  refine ⟨_, ?_, getLatestImage_eq hr₁ size, ?_⟩
  · rw [latestImage_eq fun m hm => hsize m (mem_of_taken hm)]
  · rw [getLatestImage_eq hr₂, latestImage_eq fun m hm => hsize m (mem_of_taken hm),
      latestImage_eq fun m hm => hsize m (mem_of_taken hm), hsame]

/-- Cuts in which no chunk holds the last bytes of two messages give the same image. -/
theorem sameImage_of_oneEnd {c : Connection P} (hc : FreshlyOpened c) {ms : List Message}
    {cs₁ cs₂ : List (List UInt8)} (h₁ : Cut ms [] cs₁) (h₂ : Cut ms [] cs₂)
    (hone₁ : OneEndPerChunk (jpgs.endsFrom 0 ms) 0 cs₁)
    (hone₂ : OneEndPerChunk (jpgs.endsFrom 0 ms) 0 cs₂) : SameImage c ms cs₁ cs₂ := by
  obtain ⟨hk₁, hall₁⟩ := keepsUp_of_cut h₁ hone₁
  obtain ⟨hk₂, hall₂⟩ := keepsUp_of_cut h₂ hone₂
  rcases feed_cut hc.receiving.1 h₁ beginning_nil with ⟨-, c₁, hf₁, hr₁⟩ | ⟨hno, -⟩
  · rcases feed_cut hc.receiving.1 h₂ beginning_nil with ⟨-, c₂, hf₂, hr₂⟩ | ⟨hno, -⟩
    · refine .of_receiving hf₁ hf₂ hr₁ hr₂ ?_
      rw [Framing.taken_eq (by rw [hall₁, List.append_nil]),
        Framing.taken_eq (by rw [hall₂, List.append_nil])]
    · exact absurd hk₂ hno
  · exact absurd hk₁ hno

/-- **Chunking.** Two cuts of a stream of messages give the same image exactly when the reader that
takes at most one message per chunk keeps up on both of them and the last messages it takes have
the same payload. -/
theorem sameImage_iff {c : Connection P} (hc : FreshlyOpened c) {ms : List Message}
    {cs₁ cs₂ : List (List UInt8)} (h₁ : Cut ms [] cs₁) (h₂ : Cut ms [] cs₂) :
    SameImage c ms cs₁ cs₂ ↔ jpgs.KeepsUp 0 ms cs₁ ∧ jpgs.KeepsUp 0 ms cs₂ ∧
      imageBytes (jpgs.taken 0 ms cs₁).getLast? = imageBytes (jpgs.taken 0 ms cs₂).getLast? := by
  rcases feed_cut hc.receiving.1 h₁ beginning_nil with ⟨hk₁, c₁, hf₁, hr₁⟩ | ⟨hno, e, hf₁⟩
  · rcases feed_cut hc.receiving.1 h₂ beginning_nil with ⟨hk₂, c₂, hf₂, hr₂⟩ | ⟨hno, e, hf₂⟩
    · refine ⟨?_, fun h => .of_receiving hf₁ hf₂ hr₁ hr₂ h.2.2⟩
      rintro ⟨d₁, d₂, hd₁, hd₂, himg⟩
      obtain rfl : c₁ = d₁ := by simpa [hf₁] using hd₁
      obtain rfl : c₂ = d₂ := by simpa [hf₂] using hd₂
      have hfits : ∀ m ∈ ms, m.payload.length ≤ MAX_PAYLOAD := h₁.fits
      obtain ⟨img, -, hi₁, hi₂⟩ := himg MAX_PAYLOAD hfits
      rw [getLatestImage_eq hr₁, latestImage_eq fun m hm => hfits m (mem_of_taken hm)] at hi₁
      rw [getLatestImage_eq hr₂, latestImage_eq fun m hm => hfits m (mem_of_taken hm), ← hi₁] at hi₂
      simp only [Except.ok.injEq, LatestImage.mk.injEq] at hi₂
      exact ⟨hk₁, hk₂, hi₂.2.2.symm⟩
    · refine ⟨?_, fun h => absurd h.2.1 hno⟩
      rintro ⟨d₁, d₂, -, hd₂, -⟩
      rw [hf₂] at hd₂
      cases hd₂
  · refine ⟨?_, fun h => absurd h.1 hno⟩
    rintro ⟨d₁, d₂, hd₁, -⟩
    rw [hf₁] at hd₁
    cases hd₁

def otherMessage : Message :=
  ⟨[255, 216, 0, 255, 217], by decide⟩

theorem cut_apart : Cut [sampleMessage, otherMessage] []
    [sampleMessage.encode, otherMessage.encode] :=
  ⟨by decide, by decide, by decide⟩

theorem cut_together : Cut [sampleMessage, otherMessage] []
    [sampleMessage.encode ++ otherMessage.encode] :=
  ⟨by decide, by decide, by decide⟩

theorem sameImage_iff_sample :
    SameImage (sampleOpen .untilEof) [sampleMessage, otherMessage]
      [sampleMessage.encode, otherMessage.encode]
      [sampleMessage.encode ++ otherMessage.encode.take 3, otherMessage.encode.drop 3] :=
  (sameImage_iff (freshlyOpened_sampleOpen _) cut_apart ⟨by decide, by decide, by decide⟩).2
    (by decide)

/-- Two messages in one chunk: the image retrieved is the first of them, and it is the second when
they arrive apart. -/
theorem not_sameImage_together :
    FreshlyOpened (sampleOpen .untilEof) ∧
      Cut [sampleMessage, otherMessage] [] [sampleMessage.encode ++ otherMessage.encode] ∧
      Cut [sampleMessage, otherMessage] [] [sampleMessage.encode, otherMessage.encode] ∧
      ¬ SameImage (sampleOpen .untilEof) [sampleMessage, otherMessage]
        [sampleMessage.encode ++ otherMessage.encode]
        [sampleMessage.encode, otherMessage.encode] := by
  have hc := freshlyOpened_sampleOpen .untilEof
  refine ⟨hc, cut_together, cut_apart, ?_⟩
  rintro ⟨d₁, d₂, hd₁, hd₂, himg⟩
  obtain ⟨img, -, hi₁, hi₂⟩ := himg 5 (by decide)
  rcases feed_cut hc.receiving.1 cut_together beginning_nil with ⟨-, c₁, hf₁, hr₁⟩ | ⟨-, e, hf₁⟩
  · rcases feed_cut hc.receiving.1 cut_apart beginning_nil with ⟨-, c₂, hf₂, hr₂⟩ | ⟨-, e, hf₂⟩
    · obtain rfl : c₁ = d₁ := by simpa [hf₁] using hd₁
      obtain rfl : c₂ = d₂ := by simpa [hf₂] using hd₂
      rw [getLatestImage_eq hr₁] at hi₁
      rw [getLatestImage_eq hr₂, ← hi₁] at hi₂
      revert hi₂
      decide
    · rw [hf₂] at hd₂
      cases hd₂
  · rw [hf₁] at hd₁
    cases hd₁

end Connection

end Rsva11001
