import Rsva11001.Verify.Receiver

/-!
# Opening and closing a connection

`open_cases`: what an `open` that returns has done. It found the connection open and did nothing;
or it failed and left the receive side as it was; or it created a socket and left the receive side
empty. `close_cases` says the same of `close`.
-/

namespace Rsva11001

open Lib

namespace Connection

variable {P : HttpParser}

/-- An allocated receive buffer has the recorded size. -/
def Sized (c : Connection P) : Prop :=
  ∀ s, (c.receiveBuffer s).isSome → c.receiveBufferSize s = BASE_BUFFER_SIZE

theorem sized_malloc : Sized (malloc P) := by
  intro s h
  cases s <;> cases h

theorem Receiving.sized {c : Connection P} {carry : List UInt8} {latest : Option Message}
    (h : Receiving c carry latest) : Sized c :=
  fun s _ => h.size s

/-- What `configure` has checked and stored when it succeeds. -/
theorem configure_accepted {c c' : Connection P} {hostname username password : CString}
    {channel : Nat} (h : c.configure hostname username password channel = (true, c')) :
    c.sockfd = none ∧ c' = { c with hostname, username, password, channel } ∧
      (hostname.length < FIELD_SIZE ∧ username.length < FIELD_SIZE ∧
        password.length < FIELD_SIZE) ∧ MIN_CHAN ≤ channel ∧ channel ≤ MAX_CHAN := by
  unfold configure at h
  split at h
  · cases h
  rename_i hclosed
  split at h
  · cases h
  rename_i hlen
  split at h
  · cases h
  rename_i hchan
  cases h
  exact ⟨by simpa using hclosed, rfl, by omega, by omega⟩

/-- A channel is written as one digit. -/
theorem decimal_digit {n : Nat} (h : n ≤ MAX_CHAN) : decimal n = [(48 + n).toUInt8] := by
  have hdigits : ∀ n : Fin 10, decimal n = [(48 + n.val).toUInt8] := by decide
  unfold MAX_CHAN at h
  exact hdigits ⟨n, by omega⟩

/-- The receive buffers, the pointers into them and the byte count are the same. -/
structure SameReceive (c c' : Connection P) : Prop where
  activeReceiveBuffer : c'.activeReceiveBuffer = c.activeReceiveBuffer
  activeReceiveBufferSize : c'.activeReceiveBufferSize = c.activeReceiveBufferSize
  ping : c'.ping = c.ping
  receiveBuffer : c'.receiveBuffer = c.receiveBuffer
  receiveBufferSize : c'.receiveBufferSize = c.receiveBufferSize
  received : c'.activeReceiveBufferBytesReceived = c.activeReceiveBufferBytesReceived

theorem SameReceive.refl (c : Connection P) : SameReceive c c :=
  ⟨rfl, rfl, rfl, rfl, rfl, rfl⟩

theorem SameReceive.active {c c' : Connection P} (h : SameReceive c c') : c'.active = c.active := by
  unfold Connection.active
  rw [h.ping]

theorem SameReceive.sized {c c' : Connection P} (h : SameReceive c c') (hs : Sized c) :
    Sized c' := by
  intro s
  rw [h.receiveBuffer, h.receiveBufferSize]
  exact hs s

theorem SameReceive.receiving {c c' : Connection P} (h : SameReceive c c') {carry : List UInt8}
    {latest : Option Message} (hr : Receiving c carry latest) : Receiving c' carry latest := by
  refine ⟨?_, ?_, fun s => ?_, ?_, ?_, ?_, hr.carry_le⟩
  · rw [h.activeReceiveBuffer, h.active, hr.pointer]
  · rw [h.activeReceiveBufferSize, h.active, hr.sizePointer]
  · rw [h.receiveBufferSize, hr.size]
  · rw [h.receiveBuffer, h.active]
    exact hr.front
  · rw [h.receiveBuffer, h.active]
    exact hr.back
  · rw [h.received, hr.received]

theorem sameReceive_setParser (c : Connection P) (parser : Option P.State) :
    SameReceive c { c with parser } :=
  ⟨rfl, rfl, rfl, rfl, rfl, rfl⟩

/-- The configured fields are the same. -/
structure SameConfig (c c' : Connection P) : Prop where
  username : c'.username = c.username
  password : c'.password = c.password
  hostname : c'.hostname = c.hostname
  channel : c'.channel = c.channel

theorem SameControl.sameConfig {c c' : Connection P} (h : SameControl c c') : SameConfig c c' :=
  ⟨h.username, h.password, h.hostname, h.channel⟩

/-- Zeroing one receive buffer leaves it in place with its size recorded, and the other as it
was. -/
theorem zeroReceiveBuffer_eq_ok {c c' : Connection P} {s : Side} {m : Option ReceiveBuffer}
    (h : c.zeroReceiveBuffer s m = .ok c') :
    c'.receiveBuffer s = some (Region.fill 0 BASE_BUFFER_SIZE) ∧
      (Sized c → c'.receiveBufferSize s = BASE_BUFFER_SIZE) ∧
      c'.receiveBuffer s.other = c.receiveBuffer s.other ∧
      c'.receiveBufferSize s.other = c.receiveBufferSize s.other ∧ SameControl c c' := by
  unfold zeroReceiveBuffer at h
  split at h
  · next hb =>
    cases h
    refine ⟨receiveBuffer_set _ _ _, fun hs => ?_, receiveBuffer_set_other _ _ _, ?_,
      sameControl_set _ _ _⟩ <;> rw [receiveBufferSize_set]
    exact hs s (by rw [hb]; rfl)
  · cases h
    refine ⟨receiveBuffer_set _ _ _, fun _ => ?_, ?_, ?_, ?_⟩ <;> cases s <;>
      first | rfl | exact ⟨rfl, rfl, rfl, rfl, rfl, rfl, rfl, rfl, rfl, rfl⟩
  · cases h

theorem zeroReceiveBuffer_isOk {c : Connection P} {s : Side} {m : Option ReceiveBuffer} :
    (∃ c', c.zeroReceiveBuffer s m = .ok c') ↔ ((c.receiveBuffer s).or m).isSome := by
  unfold zeroReceiveBuffer
  cases c.receiveBuffer s <;> cases m <;> simp

/-- The receive side is set up when each receive buffer is there or can be allocated. -/
theorem resetReceiver_isOk {c : Connection P} {e : OpenEnv} :
    (∃ c', c.resetReceiver e = .ok c') ↔
      (c.pongReceiveBuffer.or e.mallocPong).isSome ∧
        (c.pingReceiveBuffer.or e.mallocPing).isSome := by
  unfold resetReceiver
  constructor
  · rintro ⟨c', h⟩
    obtain ⟨c₁, h₁, h⟩ := bind_eq_ok.1 h
    obtain ⟨c₂, h₂, -⟩ := bind_eq_ok.1 h
    obtain ⟨-, -, hping, -, -⟩ := zeroReceiveBuffer_eq_ok h₁
    have hsome := zeroReceiveBuffer_isOk.1 ⟨c₂, h₂⟩
    rw [show Side.ping = Side.pong.other from rfl, hping] at hsome
    exact ⟨zeroReceiveBuffer_isOk.1 ⟨c₁, h₁⟩, hsome⟩
  · rintro ⟨hpong, hping⟩
    obtain ⟨c₁, h₁⟩ := zeroReceiveBuffer_isOk (s := .pong).2 hpong
    obtain ⟨-, -, hsame, -, -⟩ := zeroReceiveBuffer_eq_ok h₁
    have hsome : ((c₁.receiveBuffer .ping).or e.mallocPing).isSome := by
      rw [show Side.ping = Side.pong.other from rfl, hsame]
      exact hping
    obtain ⟨c₂, h₂⟩ := zeroReceiveBuffer_isOk.2 hsome
    rw [h₁, ok_bind, h₂, ok_bind]
    exact ⟨_, rfl⟩

theorem resetReceiver_succeeds {e : OpenEnv} (hpong : e.mallocPong.isSome)
    (hping : e.mallocPing.isSome) (c : Connection P) : ∃ c', c.resetReceiver e = .ok c' :=
  resetReceiver_isOk.2 (by simp [Option.isSome_or, hpong, hping])

/-- With both receive buffers in place and zeroed, nothing has been received. -/
theorem resetReceiver_eq_ok {c c' : Connection P} {e : OpenEnv} (hs : Sized c)
    (h : c.resetReceiver e = .ok c') :
    Receiving c' [] none ∧ SameControl c { c' with parser := c.parser } ∧
      c'.parser = some P.init := by
  unfold resetReceiver at h
  obtain ⟨c₁, h₁, h⟩ := bind_eq_ok.1 h
  obtain ⟨c₂, h₂, h⟩ := bind_eq_ok.1 h
  obtain ⟨hpong, hpongSize, hping, hpingSize, hsame₁⟩ := zeroReceiveBuffer_eq_ok h₁
  have hs₁ : Sized c₁ := by
    intro s
    cases s with
    | ping => rw [show Side.ping = Side.pong.other from rfl, hping, hpingSize]; exact hs .ping
    | pong => exact fun _ => hpongSize hs
  obtain ⟨hping₂, hpingSize₂, hpong₂, hpongSize₂, hsame₂⟩ := zeroReceiveBuffer_eq_ok h₂
  cases h
  refine ⟨⟨rfl, rfl, fun s => ?_, ⟨_, hping₂, rfl⟩, ⟨_, hpong₂.trans hpong, rfl⟩, rfl,
    Nat.zero_le _⟩, ?_, rfl⟩
  · cases s with
    | ping => exact hpingSize₂ hs₁
    | pong => exact hpongSize₂.trans (hpongSize hs)
  · have hsame := hsame₁.trans hsame₂
    exact ⟨hsame.sockfd, hsame.username, hsame.password, hsame.hostname, hsame.channel,
      hsame.outputBuffer, hsame.outputLength, hsame.bytesWritten, rfl, hsame.connected⟩

/-- How an `open` of a closed connection ends: in failure, with the receive side as it was, or on
a new socket with nothing received. -/
inductive Opened (c : Connection P) (e : OpenEnv) (r : OpenResult P) : Prop
  | failed (hret : r.ret = false) (hrecv : SameReceive c r.conn)
  | opened (hret : r.ret = true) {fd : Nat} (hsocket : e.socket = some fd)
      (hfd : r.conn.sockfd = some fd) (hrecv : Receiving r.conn [] none)
      (hparser : r.conn.parser = some P.init)

/-- **Opening.** An open connection is left alone. -/
theorem open_isOpen {c : Connection P} (h : c.sockfd.isSome) (file : CString) (e : OpenEnv) :
    c.open file e = .ok ⟨true, c, []⟩ := by
  unfold Connection.open
  rw [if_pos h]

/-- The calls that `open` makes before it formats the request succeed. -/
structure ComesToRequest (c : Connection P) (e : OpenEnv) (fd : Nat)
    (buffer : Region UInt8 OUTPUT_BUFFER_SIZE) : Prop where
  socket : e.socket = some fd
  getaddrinfo : e.getaddrinfo = true
  connect : e.connect ≠ .error
  outputBuffer : c.outputBuffer.or e.mallocOutput = some buffer

/-- The connection with the request stored, before its receive side is set up. -/
def requested (c : Connection P) (fd : Nat) (buffer : Region UInt8 OUTPUT_BUFFER_SIZE)
    (text : CString) : Connection P :=
  { c with
    sockfd := some fd
    connected := false
    outputBuffer := snprintf buffer text
    outputLength := (snprintfResult text.length % 2 ^ 64).toNat
    bytesWritten := 0 }

section Requested

variable (c : Connection P) (fd : Nat) (buffer : Region UInt8 OUTPUT_BUFFER_SIZE) (text : CString)

theorem requested_sockfd : (c.requested fd buffer text).sockfd = some fd := rfl

theorem requested_connected : (c.requested fd buffer text).connected = false := rfl

theorem requested_bytesWritten : (c.requested fd buffer text).bytesWritten = 0 := rfl

theorem requested_outputBuffer :
    (c.requested fd buffer text).outputBuffer = snprintf buffer text := rfl

theorem requested_outputLength : (c.requested fd buffer text).outputLength =
    (snprintfResult text.length % 2 ^ 64).toNat := rfl

theorem requested_sized (hs : Sized c) : Sized (c.requested fd buffer text) :=
  fun s => hs s

end Requested

/-- An `open` that does not come to the request closes the socket it has created. -/
theorem open_stops {c : Connection P} {e : OpenEnv} (hclosed : c.sockfd = none)
    (h : ∀ fd buffer, ¬ ComesToRequest c e fd buffer) (file : CString) :
    ∃ connected, c.open file e = .ok ⟨false, { c with connected }, e.socket.toList⟩ := by
  have hsame : ∀ connected, ({ c with sockfd := none, connected } : Connection P) =
      { c with connected } := by
    rw [← hclosed]
    exact fun _ => rfl
  unfold Connection.open
  rw [if_neg (by simp [hclosed])]
  split
  · next hsocket =>
    rw [hsocket]
    exact ⟨c.connected, rfl⟩
  · next fd hsocket =>
    rw [hsocket]
    simp only
    split
    · exact ⟨c.connected, by rw [← hsame]; rfl⟩
    · next haddr =>
      split
      · exact ⟨c.connected, by rw [← hsame]; rfl⟩
      · next hconnect =>
        split
        · exact ⟨false, by rw [← hsame]; rfl⟩
        · next buffer hbuffer =>
          exact absurd ⟨hsocket, by simpa using haddr, hconnect, hbuffer⟩ (h fd buffer)

section Request

variable {c : Connection P} {e : OpenEnv} {fd : Nat} {buffer : Region UInt8 OUTPUT_BUFFER_SIZE}
  (hclosed : c.sockfd = none) (hcomes : ComesToRequest c e fd buffer)

include hclosed hcomes

theorem open_comes (file : CString) : c.open file e =
    if snprintfResult (c.request file).length = OUTPUT_BUFFER_SIZE then
      .ok ⟨false, { c with
        sockfd := some fd
        connected := false
        outputBuffer := snprintf buffer (c.request file) }, []⟩
    else do
      let this ← (c.requested fd buffer (c.request file)).resetReceiver e
      return ⟨true, this, []⟩ := by
  obtain ⟨hsocket, haddr, hconnect, hbuffer⟩ := hcomes
  have hrequest : ∀ fd, ({ c with sockfd := some fd, connected := false } : Connection P).request
    file = c.request file := fun _ => rfl
  unfold Connection.open requested
  rw [if_neg (by simp [hclosed])]
  simp only [hsocket, haddr, Bool.not_true, Bool.false_eq_true, ↓reduceIte, hconnect, hbuffer,
    hrequest]

/-- The exit for a request as long as the output buffer leaves the socket open. -/
theorem open_exact {file : CString}
    (hlen : snprintfResult (c.request file).length = OUTPUT_BUFFER_SIZE) :
    ∃ d : Connection P, d.sockfd = some fd ∧ SameConfig c d ∧ SameReceive c d ∧
      c.open file e = .ok ⟨false, d, []⟩ := by
  rw [open_comes hclosed hcomes, if_pos hlen]
  generalize snprintf buffer (c.request file) = outputBuffer
  exact ⟨{ c with sockfd := some fd, connected := false, outputBuffer }, rfl,
    ⟨rfl, rfl, rfl, rfl⟩, ⟨rfl, rfl, rfl, rfl, rfl, rfl⟩, rfl⟩

/-- Otherwise it is down to the receive buffers. -/
theorem open_stored {file : CString}
    (hlen : snprintfResult (c.request file).length ≠ OUTPUT_BUFFER_SIZE) : c.open file e = do
      let this ← (c.requested fd buffer (c.request file)).resetReceiver e
      return ⟨true, this, []⟩ := by
  rw [open_comes hclosed hcomes, if_neg hlen]

end Request

/-- An `open` that creates a socket and succeeds has stored the request and set up the receive
side. -/
theorem open_true {c : Connection P} {file : CString} {e : OpenEnv} {r : OpenResult P}
    (hclosed : c.sockfd = none) (h : c.open file e = .ok r) (hret : r.ret = true) :
    ∃ fd buffer, ComesToRequest c e fd buffer ∧
      snprintfResult (c.request file).length ≠ OUTPUT_BUFFER_SIZE ∧
      (c.requested fd buffer (c.request file)).resetReceiver e = .ok r.conn := by
  by_cases hcomes : ∃ fd buffer, ComesToRequest c e fd buffer
  · obtain ⟨fd, buffer, hcomes⟩ := hcomes
    by_cases hlen : snprintfResult (c.request file).length = OUTPUT_BUFFER_SIZE
    · obtain ⟨d, -, -, -, hd⟩ := open_exact hclosed hcomes hlen
      cases hd.symm.trans h
      cases hret
    · rw [open_stored hclosed hcomes hlen] at h
      obtain ⟨d, hreset, h⟩ := bind_eq_ok.1 h
      cases h
      exact ⟨fd, buffer, hcomes, hlen, hreset⟩
  · push Not at hcomes
    obtain ⟨connected, hd⟩ := open_stops hclosed hcomes file
    cases hd.symm.trans h
    cases hret

theorem open_isClosed {c : Connection P} {file : CString} {e : OpenEnv} {r : OpenResult P}
    (hs : Sized c) (hclosed : c.sockfd = none) (h : c.open file e = .ok r) :
    SameConfig c r.conn ∧ Opened c e r := by
  by_cases hcomes : ∃ fd buffer, ComesToRequest c e fd buffer
  · obtain ⟨fd, buffer, hcomes⟩ := hcomes
    by_cases hlen : snprintfResult (c.request file).length = OUTPUT_BUFFER_SIZE
    · obtain ⟨d, -, hconfig, hrecv, hd⟩ := open_exact hclosed hcomes hlen
      cases hd.symm.trans h
      exact ⟨hconfig, .failed rfl hrecv⟩
    · rw [open_stored hclosed hcomes hlen] at h
      obtain ⟨c', hreset, h⟩ := bind_eq_ok.1 h
      cases h
      obtain ⟨hrecv, hsame, hparser⟩ := resetReceiver_eq_ok (requested_sized _ _ _ _ hs) hreset
      exact ⟨⟨hsame.username, hsame.password, hsame.hostname, hsame.channel⟩,
        .opened rfl hcomes.socket hsame.sockfd hrecv hparser⟩
  · push Not at hcomes
    obtain ⟨connected, hd⟩ := open_stops hclosed hcomes file
    cases hd.symm.trans h
    exact ⟨⟨rfl, rfl, rfl, rfl⟩, .failed rfl ⟨rfl, rfl, rfl, rfl, rfl, rfl⟩⟩

theorem length_request (c : Connection P) (file : CString) : (c.request file).length =
    92 + c.username.length + c.password.length + (decimal c.channel).length + file.length +
      c.hostname.length := by
  have hlen : ∀ s : String, (ascii s).length = s.toList.length := fun _ => List.length_map _
  unfold request HTTP_PATH
  simp only [List.length_append, hlen]
  simp only [String.reduceToList, List.length_cons, List.length_nil]
  omega

theorem snprintf_eq (buffer : Region UInt8 OUTPUT_BUFFER_SIZE) {text : CString}
    (h : text.length < OUTPUT_BUFFER_SIZE) :
    ∃ b, snprintf buffer text = some b ∧ b.cells.take text.length = text := by
  have htext : text.take (OUTPUT_BUFFER_SIZE - 1) = text := List.take_of_length_le (by omega)
  obtain ⟨b, hb, htake⟩ := @Region.write_eq_some _ _ buffer 0 (text ++ [0])
    (by rw [List.length_append, List.length_singleton]; omega)
  refine ⟨b, by rw [snprintf, htext, hb], ?_⟩
  rw [Nat.zero_add, List.take_zero, List.nil_append] at htake
  have := congrArg (List.take text.length) htake
  rw [List.take_take, List.take_left, List.length_append, List.length_singleton,
    Nat.min_eq_left (Nat.le_succ _)] at this
  exact this

theorem snprintfResult_of_lt {len : Nat} (h : len < OUTPUT_BUFFER_SIZE) :
    snprintfResult len = len := by
  unfold OUTPUT_BUFFER_SIZE at h
  unfold snprintfResult INT_MAX
  rw [if_pos (by omega)]

/-- A connection that has just been opened, with a request that fits its buffer. -/
structure Fresh (c : Connection P) : Prop where
  receiving : Receiving c [] none
  parser : c.parser = some P.init
  sockfd : c.sockfd.isSome
  connected : c.connected = false
  bytesWritten : c.bytesWritten = 0
  outputBuffer : c.outputBuffer.isSome
  outputLength : c.outputLength ≤ OUTPUT_BUFFER_SIZE

/-- An `open` of a closed connection succeeds when every call it makes does and the request is
shorter than the output buffer. -/
theorem open_succeeds {c : Connection P} {file : CString} {e : OpenEnv} {fd : Nat}
    (hs : Sized c) (hclosed : c.sockfd = none) (hsocket : e.socket = some fd)
    (haddr : e.getaddrinfo = true) (hconnect : e.connect ≠ .error)
    (houtput : e.mallocOutput.isSome) (hsize : (c.request file).length < OUTPUT_BUFFER_SIZE)
    (hpong : e.mallocPong.isSome) (hping : e.mallocPing.isSome) :
    ∃ r, c.open file e = .ok r ∧ r.ret = true ∧ Fresh r.conn := by
  obtain ⟨buffer, hbuffer⟩ : ∃ buffer, c.outputBuffer.or e.mallocOutput = some buffer := by
    obtain ⟨b, hb⟩ := Option.isSome_iff_exists.1 houtput
    rw [hb]
    cases c.outputBuffer <;> exact ⟨_, rfl⟩
  have hresult := snprintfResult_of_lt hsize
  have hne : snprintfResult (c.request file).length ≠ OUTPUT_BUFFER_SIZE := by
    rw [hresult]
    unfold OUTPUT_BUFFER_SIZE at *
    omega
  have hlength : (snprintfResult (c.request file).length % 2 ^ 64).toNat =
      (c.request file).length := by
    rw [hresult]
    unfold OUTPUT_BUFFER_SIZE at hsize
    omega
  obtain ⟨stored, hstored, -⟩ := snprintf_eq buffer hsize
  obtain ⟨d, hd⟩ := resetReceiver_succeeds hpong hping (c.requested fd buffer (c.request file))
  obtain ⟨hrecv, hsame, hparser⟩ := resetReceiver_eq_ok (requested_sized _ _ _ _ hs) hd
  have hopen := open_stored hclosed ⟨hsocket, haddr, hconnect, hbuffer⟩ hne
  rw [hd, ok_bind] at hopen
  have hsockfd := hsame.sockfd.trans (requested_sockfd c fd buffer _)
  have houtputBuffer := hsame.outputBuffer.trans (requested_outputBuffer c fd buffer _)
  have houtputLength := hsame.outputLength.trans (requested_outputLength c fd buffer _)
  rw [hstored] at houtputBuffer
  rw [hlength] at houtputLength
  refine ⟨_, hopen, rfl, hrecv, hparser, ?_, hsame.connected, hsame.bytesWritten, ?_, ?_⟩
  · rw [hsockfd]
    rfl
  · rw [houtputBuffer]
    rfl
  · rw [houtputLength]
    exact Nat.le_of_lt hsize

/-- The connection without its socket. -/
def disconnected (c : Connection P) : Connection P :=
  { c with sockfd := none }

@[simp] theorem channel_disconnected (c : Connection P) :
    c.disconnected.channel = c.channel := rfl

theorem sameReceive_disconnected (c : Connection P) : SameReceive c c.disconnected :=
  ⟨rfl, rfl, rfl, rfl, rfl, rfl⟩

/-- Closing an open connection succeeds when `close` does. -/
theorem close_isOpen {c : Connection P} (h : c.sockfd.isSome) (closeOk : Bool) :
    c.close closeOk = (closeOk, if closeOk then c.disconnected else c) := by
  unfold close
  rw [if_neg (by simpa [Option.isSome_iff_ne_none] using h)]
  cases closeOk <;> rfl

/-- **Closing.** The descriptor is dropped, or `close` failed and nothing has changed. -/
theorem close_cases (c : Connection P) (closeOk : Bool) :
    ((c.close closeOk).1 = true ∧ (c.close closeOk).2 = c.disconnected) ∨
      ((c.close closeOk).1 = false ∧ (c.close closeOk).2 = c ∧ c.sockfd.isSome) := by
  unfold close
  split
  next h =>
    have h : c.sockfd = none := by simpa using h
    refine .inl ⟨rfl, ?_⟩
    unfold disconnected
    rw [← h]
  next h =>
    split
    · exact .inr ⟨rfl, rfl, by simpa [Option.isSome_iff_ne_none] using h⟩
    · exact .inl ⟨rfl, rfl⟩

end Connection

end Rsva11001
