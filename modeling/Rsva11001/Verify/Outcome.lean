import Rsva11001.Verify.Driving
import Rsva11001.Verify.Overflow

/-!
# What an `open` leaves behind

An `open` of a closed connection formats the request into a buffer of 512 bytes and then sets up
the receive side. `StoresRequest` says that the whole request is in the buffer and that process
sends it and nothing else; a length of 512 alone is refused, so longer requests are taken for
stored (`storesRequest_iff`). `AllOrNothing` says that `open` ends either with a connection that is
ready to be driven or with the socket closed again; the exit for a request of 512 bytes keeps the
socket, and a receive buffer that cannot be allocated is zeroed all the same (`allOrNothing_iff`).
-/

namespace Rsva11001

open Lib

namespace Connection

variable {P : HttpParser}

/-! ## What is sent lies in the buffer -/

section Transmits

variable {b : Region UInt8 OUTPUT_BUFFER_SIZE} {n : Nat}

theorem Transmits.writeLoop_inRange {sends : List SendResult} : ∀ {c : Connection P}
    {sent : List UInt8}, Transmits b n c sent →
    Avoids (.outOfRange .processSend) (c.writeLoop sends) := by
  induction sends with
  | nil =>
    intro c sent h
    unfold Connection.writeLoop
    split
    · exact avoids_ok _
    · exact avoids_error (by decide)
  | cons result rest ih =>
    intro c sent h
    by_cases hdone : c.bytesWritten = n
    · rw [Connection.writeLoop, if_pos (by rw [h.length]; exact hdone)]
      exact avoids_ok _
    rw [h.writeLoop_cons hdone]
    cases result with
    | error | wouldBlock => exact avoids_ok _
    | sent k =>
      simp only
      split
      · exact avoids_ok _
      · exact (ih (h.take k)).bind fun _ _ => avoids_ok _

theorem Transmits.process_inRange {c : Connection P} {sent : List UInt8}
    (h : Transmits b n c sent) (e : ProcessEnv) :
    Avoids (.outOfRange .processSend) (c.process e) := by
  have hcheck := h.checkConnected e
  unfold Connection.process
  split
  · exact avoids_error (by decide)
  split
  · exact avoids_ok _
  · rename_i c₁ heq
    rw [heq] at hcheck
    refine hcheck.writeLoop_inRange.bind fun written _ => ?_
    simp only
    split
    · exact avoids_ok _
    · exact (readLoop_avoids (by decide) _).bind fun _ _ => avoids_ok _

/-- No run of process reads outside the output buffer. -/
theorem run_inRange {s : Driven P} (h : Transmits b n s.conn s.sent) (es : List ProcessEnv) :
    run Driven.step s es ≠ .error (.outOfRange .processSend) := by
  refine run_ne_error_of_meets (I := fun s => Transmits b n s.conn s.sent) (fun s e s' hs _ h => ?_)
    (fun s e hs _ => ?_) h (meets_true s es)
  · unfold Driven.step at h
    obtain ⟨r, hr, h⟩ := bind_eq_ok.1 h
    cases h
    exact hs.process hr
  · exact (hs.process_inRange e).bind fun _ _ => avoids_ok _

end Transmits

/-! ## The stored request -/

/-- The whole request is in the output buffer of `d`, and what process sends of it is a beginning
of the request, taken from inside the buffer. -/
structure StoresRequest (c : Connection P) (file : CString) (d : Connection P) : Prop where
  stored : ∃ b, d.outputBuffer = some b ∧ b.cells.take d.outputLength = c.request file
  length : d.outputLength = (c.request file).length
  lt : d.outputLength < OUTPUT_BUFFER_SIZE
  sends : ∀ es s, run Driven.step ⟨d, []⟩ es = .ok s →
    s.sent = (c.request file).take s.conn.bytesWritten
  inRange : ∀ es, run Driven.step ⟨d, []⟩ es ≠ .error (.outOfRange .processSend)

theorem Transmits.storesRequest {c d : Connection P} {file : CString}
    {b : Region UInt8 OUTPUT_BUFFER_SIZE} {n : Nat} (h : Transmits b n d [])
    (hlen : n = (c.request file).length) (hlt : n < OUTPUT_BUFFER_SIZE)
    (htake : b.cells.take n = c.request file) : StoresRequest c file d := by
  refine ⟨⟨b, h.buffer, by rw [h.length, htake]⟩, by rw [h.length, hlen],
    by rw [h.length]; exact hlt, fun es s hrun => ?_, run_inRange h⟩
  have hs := run_transmits h hrun
  rw [hs.sent_eq, ← htake, List.take_take, Nat.min_eq_left hs.written_le]

/-- A request that is not as long as the buffer is stored when every call `open` makes succeeds. -/
theorem open_returns {c : Connection P} {file : CString} {e : OpenEnv} {fd : Nat}
    {buffer : Region UInt8 OUTPUT_BUFFER_SIZE} (hclosed : c.sockfd = none)
    (hcomes : ComesToRequest c e fd buffer)
    (hlen : snprintfResult (c.request file).length ≠ OUTPUT_BUFFER_SIZE)
    (hpong : e.mallocPong.isSome) (hping : e.mallocPing.isSome) :
    ∃ r, c.open file e = .ok r ∧ r.ret = true := by
  obtain ⟨d, hd⟩ := resetReceiver_succeeds hpong hping (c.requested fd buffer (c.request file))
  refine ⟨⟨true, d, []⟩, ?_, rfl⟩
  rw [open_stored hclosed hcomes hlen, hd]
  rfl

theorem snprintfResult_eq_size {len : Nat} :
    snprintfResult len = OUTPUT_BUFFER_SIZE ↔ len = OUTPUT_BUFFER_SIZE := by
  unfold snprintfResult OUTPUT_BUFFER_SIZE INT_MAX
  split <;> omega

theorem openAll_comes (c : Connection P) :
    ∃ fd buffer, ComesToRequest c openAll fd buffer := by
  have hsome : (c.outputBuffer.or openAll.mallocOutput).isSome := by
    cases c.outputBuffer <;> rfl
  obtain ⟨buffer, hbuffer⟩ := Option.isSome_iff_exists.1 hsome
  exact ⟨5, buffer, rfl, rfl, by decide, hbuffer⟩

/-- A request that is not longer than the output buffer is stored whole by an `open` that
succeeds. -/
theorem open_stores {c : Connection P} {file : CString} {e : OpenEnv} {r : OpenResult P}
    (hclosed : c.sockfd = none) (hle : (c.request file).length ≤ OUTPUT_BUFFER_SIZE)
    (hr : c.open file e = .ok r) (hret : r.ret = true) : StoresRequest c file r.conn := by
  obtain ⟨fd, buffer, -, hne, hreset⟩ := open_true hclosed hr hret
  rw [Ne, snprintfResult_eq_size] at hne
  have hlt : (c.request file).length < OUTPUT_BUFFER_SIZE := by omega
  have houtput : r.conn.outputLength = (c.request file).length := by
    rw [(resetReceiver_sameSocket hreset).outputLength, requested_outputLength,
      snprintfResult_of_lt hlt]
    unfold OUTPUT_BUFFER_SIZE at hlt
    omega
  obtain ⟨-, -, hstored⟩ := open_request hclosed hr hret
  obtain ⟨b, hb, hsame, htake⟩ := hstored (by rw [houtput]; exact hle)
  exact hb.storesRequest hsame (by rw [houtput]; exact hlt) htake

/-- **The stored request.** What an `open` of a configured connection stores when it succeeds is the
whole request exactly when the request is not longer than the output buffer. -/
theorem storesRequest_iff {c₀ c : Connection P} {hostname username password : CString}
    {channel : Nat} (hconf : c₀.configure hostname username password channel = (true, c))
    (file : CString) :
    (∀ e r, c.open file e = .ok r → r.ret = true → StoresRequest c file r.conn) ↔
      93 + username.length + password.length + file.length + hostname.length ≤
        OUTPUT_BUFFER_SIZE := by
  obtain ⟨hclosed₀, rfl, -, -, hchan⟩ := configure_accepted hconf
  obtain ⟨c, hc⟩ : ∃ c, c = { c₀ with hostname, username, password, channel } := ⟨_, rfl⟩
  have hclosed : c.sockfd = none := by rw [hc]; exact hclosed₀
  have hlen : (c.request file).length =
      93 + username.length + password.length + file.length + hostname.length := by
    have husername : c.username = username := by rw [hc]
    have hpassword : c.password = password := by rw [hc]
    have hchannel : c.channel = channel := by rw [hc]
    have hhostname : c.hostname = hostname := by rw [hc]
    rw [length_request, husername, hpassword, hchannel, hhostname, decimal_digit hchan,
      List.length_singleton]
    omega
  rw [← hc, ← hlen]
  constructor
  · intro h
    by_contra hlong
    obtain ⟨fd, buffer, hcomes⟩ := openAll_comes c
    have hne : snprintfResult (c.request file).length ≠ OUTPUT_BUFFER_SIZE := by
      rw [Ne, snprintfResult_eq_size]
      omega
    obtain ⟨r, hr, hret⟩ := open_returns hclosed hcomes hne rfl rfl
    obtain ⟨-, hlength, hlt, -, -⟩ := h openAll r hr hret
    omega
  · exact fun hle e r hr hret => open_stores hclosed hle hr hret

theorem length_request_sampleClosed (file : CString) :
    ((sampleClosed P).request file).length = 107 + file.length := by
  have husername : (ascii "admin").length = 5 := by decide
  have hpassword : (ascii "secret").length = 6 := by decide
  have hhostname : (ascii "dvr").length = 3 := by decide
  rw [length_request]
  show 92 + (ascii "admin").length + (ascii "secret").length + (decimal 1).length + file.length +
    (ascii "dvr").length = 107 + file.length
  rw [husername, hpassword, hhostname, decimal_digit (by decide), List.length_singleton]
  omega

theorem sampleFile_fits : snprintfResult ((sampleClosed .untilEof).request sampleFile).length ≠
    OUTPUT_BUFFER_SIZE := by
  rw [Ne, snprintfResult_eq_size, length_request_sampleClosed]
  decide

theorem storesRequest_iff_sample : ∃ r, (sampleClosed .untilEof).open sampleFile openAll = .ok r ∧
    r.ret = true ∧ StoresRequest (sampleClosed .untilEof) sampleFile r.conn := by
  obtain ⟨fd, buffer, hcomes⟩ := openAll_comes (sampleClosed .untilEof)
  obtain ⟨r, hr, hret⟩ := open_returns rfl hcomes sampleFile_fits rfl rfl
  have hconfigured := sampleClosed_configured .untilEof
  exact ⟨r, hr, hret, (storesRequest_iff hconfigured sampleFile).2 (by decide) openAll r hr hret⟩

/-- A longer request is taken for stored: its length goes into `outputLength`. -/
theorem open_overlong {c : Connection P} {file : CString} {e : OpenEnv} {r : OpenResult P}
    (hclosed : c.sockfd = none) (h : c.open file e = .ok r) (hret : r.ret = true)
    (hlong : OUTPUT_BUFFER_SIZE < (c.request file).length) :
    OUTPUT_BUFFER_SIZE < r.conn.outputLength ∧ r.conn.outputLength < 2 ^ 64 ∧
      r.conn.bytesWritten = 0 ∧ r.conn.connected = false ∧ r.conn.sockfd.isSome := by
  obtain ⟨fd, buffer, -, -, hreset⟩ := open_true hclosed h hret
  have hsame := resetReceiver_sameSocket hreset
  have hlength := hsame.outputLength.trans (requested_outputLength c fd buffer _)
  have hbytes := hsame.bytesWritten.trans (requested_bytesWritten c fd buffer _)
  have hconnected := hsame.connected.trans (requested_connected c fd buffer _)
  have hsockfd := hsame.sockfd.trans (requested_sockfd c fd buffer _)
  refine ⟨?_, ?_, hbytes, hconnected, by rw [hsockfd]; rfl⟩
  · rw [hlength]
    unfold snprintfResult INT_MAX OUTPUT_BUFFER_SIZE at *
    split <;> omega
  · rw [hlength]
    omega

/-- Such a length makes the first write read past the end of the buffer. -/
theorem writeLoop_overlong {c : Connection P} (hlong : OUTPUT_BUFFER_SIZE < c.outputLength)
    (hlt : c.outputLength < 2 ^ 64) (hbytes : c.bytesWritten = 0) (result : SendResult)
    (rest : List SendResult) :
    c.writeLoop (result :: rest) = .error (.outOfRange .processSend) := by
  have hamount : subFast c.outputLength c.bytesWritten = c.outputLength := by
    rw [hbytes, subFast_of_le (Nat.zero_le _) hlt, Nat.sub_zero]
  have hpos : c.outputLength ≠ 0 := by omega
  have hmore : c.bytesWritten ≠ c.outputLength := by omega
  rw [writeLoop, if_neg hmore]
  simp only [hamount, hpos, if_false]
  cases c.outputBuffer with
  | none => rfl
  | some b =>
    rw [access_some, ok_bind, Region.read_eq_none (by omega)]
    rfl

/-- The socket is connected and takes one byte. -/
def takesOne : ProcessEnv :=
  ⟨.ready true, .pending 0, [.sent 1], []⟩

theorem process_overlong {c : Connection P} (hfd : c.sockfd.isSome)
    (hconnected : c.connected = false) (hlong : OUTPUT_BUFFER_SIZE < c.outputLength)
    (hlt : c.outputLength < 2 ^ 64) (hbytes : c.bytesWritten = 0) :
    c.process takesOne = .error (.outOfRange .processSend) := by
  have hcheck : c.checkConnected takesOne = (none, { c with connected := true }) := by
    unfold checkConnected
    rw [hconnected]
    rfl
  have hwrite := @writeLoop_overlong P { c with connected := true } hlong hlt hbytes (.sent 1) []
  have hprocess := process_connected (by simpa [Option.isSome_iff_ne_none] using hfd) hcheck
    [.sent 1] []
  rw [hwrite, error_bind] at hprocess
  exact hprocess

def longFile : CString :=
  List.replicate 500 97

theorem not_storesRequest :
    (malloc .untilEof).configure (ascii "dvr") (ascii "admin") (ascii "secret") 1 =
        (true, sampleClosed .untilEof) ∧
      ∃ r, (sampleClosed .untilEof).open longFile openAll = .ok r ∧ r.ret = true ∧
        ¬ StoresRequest (sampleClosed .untilEof) longFile r.conn ∧
        OUTPUT_BUFFER_SIZE < r.conn.outputLength ∧
        run Driven.step ⟨r.conn, []⟩ [takesOne] = .error (.outOfRange .processSend) := by
  obtain ⟨fd, buffer, hcomes⟩ := openAll_comes (sampleClosed .untilEof)
  have hlen : ((sampleClosed .untilEof).request longFile).length = 607 := by
    rw [length_request_sampleClosed, longFile, List.length_replicate]
  have hne : snprintfResult ((sampleClosed .untilEof).request longFile).length ≠
      OUTPUT_BUFFER_SIZE := by
    rw [Ne, snprintfResult_eq_size, hlen]
    decide
  obtain ⟨r, hr, hret⟩ := open_returns rfl hcomes hne rfl rfl
  obtain ⟨hlong, hlt, hbytes, hconnected, hfd⟩ := open_overlong rfl hr hret (by rw [hlen]; decide)
  refine ⟨sampleClosed_configured .untilEof, r, hr, hret, fun h => ?_, hlong, ?_⟩
  · have := h.lt
    omega
  · simp only [run, Driven.step, process_overlong hfd hconnected hlong hlt hbytes, error_bind]

/-! ## All or nothing -/

/-- The connection is open on `fd` and ready to be driven. -/
structure Prepared (d : Connection P) (fd : Nat) : Prop where
  sockfd : d.sockfd = some fd
  outputBuffer : d.outputBuffer.isSome
  pingReceiveBuffer : d.pingReceiveBuffer = some (Region.fill 0 BASE_BUFFER_SIZE)
  pongReceiveBuffer : d.pongReceiveBuffer = some (Region.fill 0 BASE_BUFFER_SIZE)
  ping : d.ping = true
  activeReceiveBuffer : d.activeReceiveBuffer = some .ping
  activeReceiveBufferSize : d.activeReceiveBufferSize = some .ping
  received : d.activeReceiveBufferBytesReceived = 0
  bytesWritten : d.bytesWritten = 0

/-- How an `open` has to end: on the socket it has created, with everything in place; or without a
socket, the one it has created closed, so that the next `open` starts afresh. -/
inductive AllOrNothing (e : OpenEnv) : Except Halt (OpenResult P) → Prop
  | all {fd : Nat} {d : Connection P} (hsocket : e.socket = some fd) (hprepared : Prepared d fd) :
    AllOrNothing e (.ok ⟨true, d, []⟩)
  | nothing {d : Connection P} (hfd : d.sockfd = none)
      (hafresh : ∀ file e' r, d.open file e' = .ok r → r.ret = true →
        ∃ fd, e'.socket = some fd ∧ Prepared r.conn fd) :
    AllOrNothing e (.ok ⟨false, d, e.socket.toList⟩)

theorem AllOrNothing.returns {e : OpenEnv} {x : Except Halt (OpenResult P)}
    (h : AllOrNothing e x) : ∃ r, x = .ok r ∧ (r.ret = false → r.conn.sockfd = none) := by
  cases h with
  | all => exact ⟨_, rfl, by rintro ⟨⟩⟩
  | nothing hfd => exact ⟨_, rfl, fun _ => hfd⟩

theorem snprintf_isSome (buffer : Region UInt8 OUTPUT_BUFFER_SIZE) (text : CString) :
    (snprintf buffer text).isSome := by
  have hfits : 0 + (text.take (OUTPUT_BUFFER_SIZE - 1) ++ [0]).length ≤ OUTPUT_BUFFER_SIZE := by
    rw [List.length_append, List.length_take, List.length_singleton]
    unfold OUTPUT_BUFFER_SIZE
    omega
  obtain ⟨b, hb, -⟩ := Region.write_eq_some hfits
  rw [snprintf, hb]
  rfl

/-- Setting up the receive side completes an `open`. -/
theorem resetReceiver_prepared {c d : Connection P} {e : OpenEnv} {fd : Nat}
    {buffer : Region UInt8 OUTPUT_BUFFER_SIZE} {text : CString}
    (h : (c.requested fd buffer text).resetReceiver e = .ok d) : Prepared d fd := by
  have hsame := resetReceiver_sameSocket h
  have houtput := hsame.outputBuffer.trans (requested_outputBuffer c fd buffer text)
  unfold resetReceiver at h
  obtain ⟨c₁, h₁, h⟩ := bind_eq_ok.1 h
  obtain ⟨c₂, h₂, h⟩ := bind_eq_ok.1 h
  obtain ⟨hpong, -, -, -, -⟩ := zeroReceiveBuffer_eq_ok h₁
  obtain ⟨hping, -, hkept, -, -⟩ := zeroReceiveBuffer_eq_ok h₂
  cases h
  refine ⟨hsame.sockfd.trans (requested_sockfd c fd buffer text), ?_, hping, hkept.trans hpong, rfl,
    rfl, rfl, rfl, hsame.bytesWritten.trans (requested_bytesWritten c fd buffer text)⟩
  rw [houtput]
  exact snprintf_isSome buffer text

theorem open_prepared {c : Connection P} {file : CString} {e : OpenEnv} {r : OpenResult P}
    (hclosed : c.sockfd = none) (h : c.open file e = .ok r) (hret : r.ret = true) :
    ∃ fd, e.socket = some fd ∧ Prepared r.conn fd := by
  obtain ⟨fd, buffer, hcomes, -, hreset⟩ := open_true hclosed h hret
  exact ⟨fd, hcomes.socket, resetReceiver_prepared hreset⟩

/-- **All or nothing.** An `open` of a closed connection ends with everything or with nothing
exactly when, if it comes to the request, the request is not as long as the output buffer and each
receive buffer is there or can be allocated. -/
theorem allOrNothing_iff {c : Connection P} (hclosed : c.sockfd = none) (file : CString)
    (e : OpenEnv) : AllOrNothing e (c.open file e) ↔
      ((∃ fd buffer, ComesToRequest c e fd buffer) →
        92 + c.username.length + c.password.length + (decimal c.channel).length + file.length +
            c.hostname.length ≠ OUTPUT_BUFFER_SIZE ∧
          (c.pongReceiveBuffer.or e.mallocPong).isSome ∧
          (c.pingReceiveBuffer.or e.mallocPing).isSome) := by
  rw [← length_request]
  by_cases hcomes : ∃ fd buffer, ComesToRequest c e fd buffer
  · rw [imp_iff_right hcomes]
    obtain ⟨fd, buffer, hcomes⟩ := hcomes
    by_cases hlen : snprintfResult (c.request file).length = OUTPUT_BUFFER_SIZE
    · -- the socket is still there
      obtain ⟨d, hfd, -, -, hd⟩ := open_exact hclosed hcomes hlen
      rw [hd]
      refine iff_of_false (fun h => ?_) fun h => h.1 (snprintfResult_eq_size.1 hlen)
      obtain ⟨r, hr, hnone⟩ := h.returns
      cases hr
      rw [hnone rfl] at hfd
      cases hfd
    · have hreset_iff := resetReceiver_isOk (c := c.requested fd buffer (c.request file)) (e := e)
      rw [open_stored hclosed hcomes hlen, Ne, ← snprintfResult_eq_size, and_iff_right hlen]
      constructor
      · intro h
        obtain ⟨r, hr, -⟩ := h.returns
        obtain ⟨d, hreset, -⟩ := bind_eq_ok.1 hr
        exact hreset_iff.1 ⟨d, hreset⟩
      · intro h
        obtain ⟨d, hreset⟩ := hreset_iff.2 h
        rw [hreset]
        exact .all hcomes.socket (resetReceiver_prepared hreset)
  · rw [iff_true_right fun h => absurd h hcomes]
    push Not at hcomes
    obtain ⟨connected, hd⟩ := open_stops hclosed hcomes file
    rw [hd]
    exact .nothing hclosed fun _ _ _ => open_prepared hclosed

theorem allOrNothing_iff_sample : AllOrNothing openAll
    ((sampleClosed .untilEof).open sampleFile openAll) := by
  refine (allOrNothing_iff rfl sampleFile openAll).2 fun _ => ⟨?_, rfl, rfl⟩
  rw [← length_request, length_request_sampleClosed]
  decide

/-- A file name that makes the sample request as long as the output buffer. -/
def exactFile : CString :=
  List.replicate 405 97

/-- With such a request `open` fails and keeps the socket, and the next `open` succeeds at once on a
connection without receive buffers. Without memory for the pong buffer `open` does not return. -/
theorem not_allOrNothing :
    (∃ d r, (sampleClosed .untilEof).open exactFile openAll = .ok ⟨false, d, []⟩ ∧
      d.sockfd = some 5 ∧ ¬ AllOrNothing openAll ((sampleClosed .untilEof).open exactFile openAll) ∧
      d.open exactFile openAll = .ok r ∧ r.ret = true ∧ r.conn.activeReceiveBuffer = none) ∧
    (sampleClosed .untilEof).open sampleFile { openAll with mallocPong := none } =
      .error (.outOfRange .openZeroing) := by
  obtain ⟨fd, buffer, hcomes⟩ := openAll_comes (sampleClosed .untilEof)
  have hfd : fd = 5 := (Option.some.inj hcomes.socket).symm
  subst hfd
  constructor
  · have hlen : snprintfResult ((sampleClosed .untilEof).request exactFile).length =
        OUTPUT_BUFFER_SIZE := by
      rw [snprintfResult_eq_size, length_request_sampleClosed, exactFile, List.length_replicate]
      rfl
    obtain ⟨d, hd, -, hrecv, hopen⟩ := open_exact rfl hcomes hlen
    refine ⟨d, ⟨true, d, []⟩, hopen, hd, fun h => ?_, open_isOpen (by rw [hd]; rfl) _ _, rfl,
      hrecv.activeReceiveBuffer⟩
    obtain ⟨r, hr, hnone⟩ := h.returns
    cases hopen.symm.trans hr
    rw [hnone rfl] at hd
    cases hd
  · have hcomes' : ComesToRequest (sampleClosed .untilEof) { openAll with mallocPong := none } 5
        buffer := ⟨rfl, rfl, hcomes.connect, hcomes.outputBuffer⟩
    rw [open_stored rfl hcomes' sampleFile_fits]
    rfl

end Connection

end Rsva11001
