import Rsva11001.Verify.Progress

/-!
# Driving a connection

What calls of process do with the calls they make. A call that returns true has used up the
readiness of the socket (`drained`). Over any number of calls the socket takes the request once, in
order and from its first byte on (`exact_transmission`).
-/

namespace Rsva11001

open Lib

/-- With results supplied one by one, `f` comes to `b` at `x`: before it `f` has not returned, and
what is supplied behind it is not used. -/
def EndsAt {α β : Type} (f : List α → Except Halt β) (l : List α) (x : α) (b : β) : Prop :=
  ∃ front back, l = front ++ x :: back ∧ f front = .error .unfinished ∧
    ∀ back', f (front ++ x :: back') = .ok b

section EndsAt

variable {α β γ : Type} {f : List α → Except Halt β} {l : List α} {x : α} {b : β}

theorem EndsAt.cons {y : α} (h : EndsAt (fun l => f (y :: l)) l x b) : EndsAt f (y :: l) x b := by
  obtain ⟨front, back, rfl, hfront, hback⟩ := h
  exact ⟨y :: front, back, rfl, hfront, hback⟩

/-- What is done with the result uses no more. -/
theorem EndsAt.bind {g : List α → Except Halt γ} {k : β → Except Halt γ} {c : γ}
    (h : EndsAt f l x b) (hg : ∀ l, g l = f l >>= k) (hk : k b = .ok c) : EndsAt g l x c := by
  obtain ⟨front, back, rfl, hfront, hback⟩ := h
  refine ⟨front, back, rfl, ?_, fun back' => ?_⟩
  · rw [hg, hfront, error_bind]
  · rw [hg, hback, ok_bind, hk]

end EndsAt

namespace Connection

variable {P : HttpParser}

/-! ## What the reads leave alone -/

/-- The fields that belong to the socket and to the request are the same. -/
structure SameSocket (c c' : Connection P) : Prop where
  sockfd : c'.sockfd = c.sockfd
  connected : c'.connected = c.connected
  outputBuffer : c'.outputBuffer = c.outputBuffer
  outputLength : c'.outputLength = c.outputLength
  bytesWritten : c'.bytesWritten = c.bytesWritten

theorem SameSocket.refl (c : Connection P) : SameSocket c c :=
  ⟨rfl, rfl, rfl, rfl, rfl⟩

theorem SameSocket.trans {c c' c'' : Connection P} (h : SameSocket c c')
    (h' : SameSocket c' c'') : SameSocket c c'' :=
  ⟨h'.sockfd.trans h.sockfd, h'.connected.trans h.connected, h'.outputBuffer.trans h.outputBuffer,
    h'.outputLength.trans h.outputLength, h'.bytesWritten.trans h.bytesWritten⟩

theorem SameControl.sameSocket {c c' : Connection P} (h : SameControl c c') : SameSocket c c' :=
  ⟨h.sockfd, h.connected, h.outputBuffer, h.outputLength, h.bytesWritten⟩

section Frame

variable {c c' : Connection P}

theorem recvStore_sameSocket {side : Side} {b b' : ReceiveBuffer} {data : List UInt8} {space : Nat}
    (h : c.recvStore side b data space = .ok (b', c')) : SameSocket c c' := by
  unfold recvStore at h
  obtain ⟨b₁, -, h⟩ := bind_eq_ok.1 h
  cases h
  have := (sameControl_set c side b').sameSocket
  exact ⟨this.sockfd, this.connected, this.outputBuffer, this.outputLength, this.bytesWritten⟩

theorem recvSwap_sameSocket {oldSize total : Nat} {data : List UInt8}
    (h : c.recvSwap oldSize total data = .ok c') : SameSocket c c' := by
  unfold recvSwap at h
  obtain ⟨side, -, h⟩ := bind_eq_ok.1 h
  obtain ⟨buffer, -, h⟩ := bind_eq_ok.1 h
  obtain ⟨src, -, h⟩ := bind_eq_ok.1 h
  obtain ⟨b', -, h⟩ := bind_eq_ok.1 h
  cases h
  have := ((sameControl_swap c).trans (sameControl_set c.swapBuffers side b')).sameSocket
  exact ⟨this.sockfd, this.connected, this.outputBuffer, this.outputLength, this.bytesWritten⟩

theorem recv_sameSocket {data : List UInt8} {ret : Nat} (h : c.recv data = .ok (ret, c')) :
    SameSocket c c' := by
  unfold recv at h
  obtain ⟨side, -, h⟩ := bind_eq_ok.1 h
  obtain ⟨buffer, -, h⟩ := bind_eq_ok.1 h
  obtain ⟨sizeSide, -, h⟩ := bind_eq_ok.1 h
  simp only at h
  split at h
  · cases h
  obtain ⟨⟨b, d⟩, hstore, h⟩ := bind_eq_ok.1 h
  have hd := recvStore_sameSocket hstore
  simp only at h
  unfold recvInspect at h
  split at h
  · cases h
    exact hd
  obtain ⟨magic, -, h⟩ := bind_eq_ok.1 h
  split at h
  · cases h
    exact hd
  obtain ⟨field, -, h⟩ := bind_eq_ok.1 h
  simp only at h
  split at h
  · obtain ⟨footer, -, h⟩ := bind_eq_ok.1 h
    split at h
    · cases h
      exact hd
    · obtain ⟨d', hswap, h⟩ := bind_eq_ok.1 h
      cases h
      exact hd.trans (recvSwap_sameSocket hswap)
  · cases h
    exact hd

theorem callbacks_sameSocket {ds : List (List UInt8)} : ∀ {c c' : Connection P} {all : Bool}
    {ps : List (List UInt8)}, c.callbacks ds = .ok (all, c', ps) → SameSocket c c' := by
  induction ds with
  | nil =>
    intro c c' all ps h
    cases h
    exact .refl c
  | cons d ds ih =>
    intro c c' all ps h
    simp only [callbacks] at h
    obtain ⟨⟨ret, next⟩, hrecv, h⟩ := bind_eq_ok.1 h
    split at h
    · cases h
      exact recv_sameSocket hrecv
    · obtain ⟨⟨all', last, ps'⟩, hrest, h⟩ := bind_eq_ok.1 h
      cases h
      exact (recv_sameSocket hrecv).trans (ih hrest)

theorem execute_sameSocket {block : List UInt8} {ps : List (List UInt8)}
    (h : c.execute block = .ok (c', ps)) : SameSocket c c' := by
  unfold execute at h
  split at h
  · cases h
    exact .refl c
  · obtain ⟨⟨all, next, payloads⟩, hcalls, h⟩ := bind_eq_ok.1 h
    cases h
    have := callbacks_sameSocket hcalls
    exact ⟨this.sockfd, this.connected, this.outputBuffer, this.outputLength, this.bytesWritten⟩

theorem readLoop_sameSocket {recvs : List RecvResult} : ∀ {c c' : Connection P} {ret : Bool}
    {ps : List (List UInt8)}, c.readLoop recvs = .ok (ret, c', ps) → SameSocket c c' := by
  induction recvs with
  | nil => rintro _ _ _ _ ⟨⟩
  | cons result rest ih =>
    intro c c' ret ps h
    cases result with
    | wouldBlock | shutdown | error =>
      cases h
      exact .refl c
    | data block =>
      rw [readLoop] at h
      obtain ⟨⟨next, payloads⟩, hexec, h⟩ := bind_eq_ok.1 h
      obtain ⟨⟨ret', last, more⟩, hrest, h⟩ := bind_eq_ok.1 h
      cases h
      exact (execute_sameSocket hexec).trans (ih hrest)

end Frame

/-! ## The readiness is used up -/

/-- One round of the read loop, when there are bytes to read. -/
theorem readLoop_data {c next : Connection P} {block : Block} {payloads : List (List UInt8)}
    (hexec : c.execute block.bytes = .ok (next, payloads)) (rest : List RecvResult) :
    c.readLoop (.data block :: rest) = do
      let (ret, last, more) ← next.readLoop rest
      return (ret, last, payloads ++ more) := by
  rw [readLoop, hexec, ok_bind]

/-- A read loop that returns true has come to a read that would block. -/
theorem readLoop_endsAt {recvs : List RecvResult} : ∀ {c c' : Connection P}
    {ps : List (List UInt8)}, c.readLoop recvs = .ok (true, c', ps) →
    EndsAt c.readLoop recvs .wouldBlock (true, c', ps) := by
  induction recvs with
  | nil => rintro _ _ _ ⟨⟩
  | cons result rest ih =>
    intro c c' ps h
    cases result with
    | shutdown | error => cases h
    | wouldBlock =>
      cases h
      exact ⟨[], rest, rfl, rfl, fun _ => rfl⟩
    | data block =>
      rw [readLoop] at h
      obtain ⟨⟨next, payloads⟩, hexec, h⟩ := bind_eq_ok.1 h
      obtain ⟨⟨ret', last, more⟩, hrest, h⟩ := bind_eq_ok.1 h
      cases h
      exact .cons ((ih hrest).bind (readLoop_data hexec) rfl)

/-- One round of the write loop, when the socket takes bytes. -/
theorem writeLoop_sent {c : Connection P} {n amount : Nat} {b : Region UInt8 OUTPUT_BUFFER_SIZE}
    {src : List UInt8} (hmore : c.bytesWritten ≠ c.outputLength)
    (hamount : amount = subFast c.outputLength c.bytesWritten) (hpos : amount ≠ 0)
    (hb : c.outputBuffer = some b) (hsrc : b.read c.bytesWritten amount = some src) (hn : n ≠ 0)
    (rest : List SendResult) : c.writeLoop (.sent n :: rest) = do
      let (ret, this, sent) ←
        { c with bytesWritten := c.bytesWritten + (src.take n).length }.writeLoop rest
      return (ret, this, src.take n ++ sent) := by
  subst hamount
  rw [writeLoop, if_neg hmore]
  simp only [hpos, if_false, hb, access_some, ok_bind, hsrc, hn]

/-- A write loop that goes on to the reads has written everything, or has come to a write that
would block. -/
theorem writeLoop_endsAt {sends : List SendResult} : ∀ {c c' : Connection P} {sent : List UInt8},
    c.writeLoop sends = .ok (none, c', sent) → c'.bytesWritten = c'.outputLength ∨
      EndsAt c.writeLoop sends .wouldBlock (none, c', sent) := by
  induction sends with
  | nil =>
    intro c c' sent h
    unfold writeLoop at h
    split at h
    · rename_i hdone
      cases h
      exact .inl hdone
    · cases h
  | cons result rest ih =>
    intro c c' sent h
    by_cases hdone : c.bytesWritten = c.outputLength
    · rw [writeLoop, if_pos hdone] at h
      cases h
      exact .inl hdone
    have hloop := h
    rw [writeLoop, if_neg hdone] at h
    simp only at h
    split at h
    · cases h
    rename_i hpos
    obtain ⟨b, hb, h⟩ := bind_eq_ok.1 h
    obtain ⟨src, hsrc, h⟩ := bind_eq_ok.1 h
    rw [access_eq_ok] at hb hsrc
    cases result with
    | error => cases h
    | wouldBlock =>
      cases h
      refine .inr ⟨[], rest, rfl, ?_, fun back' => ?_⟩
      · rw [writeLoop, if_neg hdone]
      · rw [List.nil_append, writeLoop, if_neg hdone]
        simp only [hpos, if_false, hb, access_some, ok_bind, hsrc]
        rfl
    | sent n =>
      by_cases hn : n = 0
      · rw [hn] at h
        cases h
      have hstep := writeLoop_sent hdone rfl hpos hb hsrc hn
      rw [hstep] at hloop
      obtain ⟨⟨ret', c₁, sent'⟩, hrest, hloop⟩ := bind_eq_ok.1 hloop
      cases hloop
      rcases ih hrest with hall | hend
      · exact .inl hall
      · exact .inr (.cons (hend.bind hstep rfl))

/-- A call on a connected socket comes to the write loop. -/
theorem process_connected {c c₁ : Connection P} {e : ProcessEnv} (hfd : ¬ c.sockfd.isNone)
    (hcheck : c.checkConnected e = (none, c₁)) (sends : List SendResult)
    (recvs : List RecvResult) : c.process { e with sends, recvs } = (do
      let (ret, this, sent) ← c₁.writeLoop sends
      match ret with
      | some ret => return ⟨ret, this, sent, []⟩
      | none => do
        let (ret, this, accepted) ← this.readLoop recvs
        return ⟨ret, this, sent, accepted⟩) := by
  have hsame : c.checkConnected { e with sends, recvs } = (none, c₁) := hcheck
  unfold process
  rw [if_neg hfd]
  generalize c.checkConnected { e with sends, recvs } = checked at hsame
  subst hsame
  rfl

/-- A call that has written comes to the read loop. -/
theorem process_written {c c₁ c₂ : Connection P} {e : ProcessEnv} {sent : List UInt8}
    (hfd : ¬ c.sockfd.isNone) (hcheck : c.checkConnected e = (none, c₁))
    (hwrite : c₁.writeLoop e.sends = .ok (none, c₂, sent)) (recvs : List RecvResult) :
    c.process { e with recvs } = (do
      let (ret, this, accepted) ← c₂.readLoop recvs
      return ⟨ret, this, sent, accepted⟩) := by
  rw [process_connected hfd hcheck e.sends recvs, hwrite]
  rfl

theorem checkConnected_true {c c₁ : Connection P} {e : ProcessEnv}
    (h : c.checkConnected e = (some true, c₁)) :
    c.connected = false ∧ e.poll = .notReady ∧ c₁ = c := by
  unfold checkConnected at h
  split at h
  · cases h
  rename_i hconnected
  split at h
  · cases h
  · rename_i hpoll
    cases h
    exact ⟨by simpa using hconnected, hpoll, rfl⟩
  · split at h
    · cases h
    · split at h
      · cases h
      · cases h
      · split at h <;> cases h

/-- **Draining.** A call that returns true has done nothing, because the socket is not connected
yet, or it has read until the socket had no more, and has written the whole request or until the
socket took no more. -/
theorem drained {c : Connection P} {e : ProcessEnv} {r : ProcessResult P}
    (h : c.process e = .ok r) (hret : r.ret = true) :
    (c.connected = false ∧ e.poll = .notReady ∧ r.conn = c ∧ r.sent = [] ∧ r.accepted = [] ∧
        c.process { e with sends := [], recvs := [] } = .ok r) ∨
      EndsAt (fun recvs => c.process { e with recvs }) e.recvs .wouldBlock r ∧
        (r.conn.bytesWritten = r.conn.outputLength ∨
          EndsAt (fun sends => c.process { e with sends }) e.sends .wouldBlock r) := by
  have hall := h
  unfold process at h
  split at h
  · cases h
  rename_i hfd
  split at h
  · rename_i ret c₁ hcheck
    cases h
    obtain rfl : ret = true := hret
    obtain ⟨hconnected, hpoll, rfl⟩ := checkConnected_true hcheck
    refine .inl ⟨hconnected, hpoll, rfl, rfl, rfl, ?_⟩
    have hsame : c₁.checkConnected { e with sends := [], recvs := [] } = (some true, c₁) := hcheck
    unfold process
    rw [if_neg hfd, hsame]
  · rename_i c₁ hcheck
    obtain ⟨⟨ret, c₂, sent⟩, hwrite, h⟩ := bind_eq_ok.1 h
    cases ret with
    | some ret =>
      cases h
      have := (writeLoop_cases hwrite).choose_spec.2
      exact absurd (congrArg some hret) this
    | none =>
      obtain ⟨⟨ret, c₃, accepted⟩, hread, h⟩ := bind_eq_ok.1 h
      cases h
      obtain rfl : ret = true := hret
      have hsame := readLoop_sameSocket hread
      refine .inr ⟨(readLoop_endsAt hread).bind (process_written hfd hcheck hwrite) rfl, ?_⟩
      rcases writeLoop_endsAt hwrite with hdone | hend
      · left
        rw [hsame.bytesWritten, hsame.outputLength, hdone]
      · right
        refine hend.bind (fun sends => process_connected hfd hcheck sends e.recvs) ?_
        simp only [hread, ok_bind]
        rfl

/-- The calls of a response that brings one message. -/
def sampleResponse : ProcessEnv :=
  respond (halves sampleMessage sampleMessage_fits) .wouldBlock

theorem process_sampleResponse : ∃ r, (sampleOpen .untilEof).process sampleResponse = .ok r ∧
    r.ret = true ∧ r.accepted = [sampleMessage.payload] := by
  obtain ⟨r, hr, hret, haccepted, -⟩ := @process_reads _ (fresh_sampleOpen .untilEof)
    (halves sampleMessage sampleMessage_fits) [sampleMessage] [] .wouldBlock (by rintro _ ⟨⟩)
    (reads_halves sampleMessage sampleMessage_fits)
  exact ⟨r, hr, hret, haccepted⟩

theorem drained_sample : ∃ e r, (sampleOpen .untilEof).process e = .ok r ∧ r.accepted ≠ [] ∧
    EndsAt (fun recvs => (sampleOpen .untilEof).process { e with recvs }) e.recvs .wouldBlock r ∧
      (r.conn.bytesWritten = r.conn.outputLength ∨
        EndsAt (fun sends => (sampleOpen .untilEof).process { e with sends }) e.sends
          .wouldBlock r) := by
  obtain ⟨r, hr, hret, haccepted⟩ := process_sampleResponse
  refine ⟨_, r, hr, by rw [haccepted]; simp, ?_⟩
  rcases drained hr hret with ⟨-, hpoll, -⟩ | hdrained
  · cases hpoll
  · exact hdrained

/-! ## The request is sent once -/

/-- Of the request, `n` bytes in `b`, the socket has taken the bytes `sent`. -/
structure Transmits (b : Region UInt8 OUTPUT_BUFFER_SIZE) (n : Nat) (c : Connection P)
    (sent : List UInt8) : Prop where
  buffer : c.outputBuffer = some b
  length : c.outputLength = n
  length_le : n ≤ OUTPUT_BUFFER_SIZE
  written_le : c.bytesWritten ≤ n
  sent_eq : sent = b.cells.take c.bytesWritten

section Transmits

variable {b : Region UInt8 OUTPUT_BUFFER_SIZE} {n : Nat} {c c' : Connection P}
  {sent : List UInt8}

theorem Transmits.same (h : Transmits b n c sent) (hsame : SameSocket c c') :
    Transmits b n c' sent := by
  obtain ⟨hb, hn, hle, hwritten, hsent⟩ := h
  refine ⟨hsame.outputBuffer.trans hb, hsame.outputLength.trans hn, hle, ?_, ?_⟩
  · rw [hsame.bytesWritten]
    exact hwritten
  · rw [hsame.bytesWritten, hsent]

/-- What one send is given. -/
theorem Transmits.read (h : Transmits b n c sent) :
    b.read c.bytesWritten (n - c.bytesWritten) =
      some ((b.cells.drop c.bytesWritten).take (n - c.bytesWritten)) := by
  have := h.length_le
  have := h.written_le
  exact Region.read_eq_some (by omega)

/-- What the socket takes of it. -/
theorem Transmits.take (h : Transmits b n c sent) (k : Nat) :
    Transmits b n { c with bytesWritten := c.bytesWritten +
        (((b.cells.drop c.bytesWritten).take (n - c.bytesWritten)).take k).length }
      (sent ++ ((b.cells.drop c.bytesWritten).take (n - c.bytesWritten)).take k) := by
  have hle := h.length_le
  have hwritten := h.written_le
  have htake : ((b.cells.drop c.bytesWritten).take (n - c.bytesWritten)).take k =
      (b.cells.drop c.bytesWritten).take (min k (n - c.bytesWritten)) := List.take_take
  have hlen : ((b.cells.drop c.bytesWritten).take (min k (n - c.bytesWritten))).length =
      min k (n - c.bytesWritten) := by
    rw [List.length_take, List.length_drop, b.length_cells]
    omega
  rw [htake, hlen]
  refine ⟨h.buffer, h.length, hle, ?_, ?_⟩
  · show c.bytesWritten + min k (n - c.bytesWritten) ≤ n
    omega
  · show _ = b.cells.take (c.bytesWritten + min k (n - c.bytesWritten))
    rw [List.take_add, h.sent_eq]

theorem Transmits.amount (h : Transmits b n c sent) :
    n - c.bytesWritten = subFast c.outputLength c.bytesWritten := by
  have hle := h.length_le
  unfold OUTPUT_BUFFER_SIZE at hle
  rw [h.length, subFast_of_le h.written_le (by omega)]

/-- One round of the write loop, when a send has been given what is left of the request. -/
theorem Transmits.writeLoop_cons (h : Transmits b n c sent) (hmore : c.bytesWritten ≠ n)
    (result : SendResult) (rest : List SendResult) : c.writeLoop (result :: rest) =
      match result with
      | .error => .ok (some false, c, [])
      | .wouldBlock => .ok (none, c, [])
      | .sent k =>
        if k = 0 then .ok (some false, c, [])
        else do
          let (ret, this, more) ← { c with bytesWritten := c.bytesWritten +
            (((b.cells.drop c.bytesWritten).take (n - c.bytesWritten)).take k).length }.writeLoop
              rest
          return (ret, this,
            ((b.cells.drop c.bytesWritten).take (n - c.bytesWritten)).take k ++ more) := by
  have hpos : n - c.bytesWritten ≠ 0 := by
    have := h.written_le
    omega
  have hne : c.bytesWritten ≠ c.outputLength := by
    rw [h.length]
    exact hmore
  cases result with
  | sent k =>
    by_cases hk : k = 0
    · rw [Connection.writeLoop, if_neg hne]
      simp only [← h.amount, hpos, if_false, h.buffer, access_some, ok_bind, h.read, hk, if_true]
      rfl
    · simp only [hk, if_false]
      exact writeLoop_sent hne h.amount hpos h.buffer h.read hk rest
  | wouldBlock | error =>
    rw [Connection.writeLoop, if_neg hne]
    simp only [← h.amount, hpos, if_false, h.buffer, access_some, ok_bind, h.read]
    rfl

/-- **The write loop.** What the socket has taken stays a beginning of the request. -/
theorem Transmits.writeLoop {sends : List SendResult} : ∀ {c c' : Connection P}
    {sent more : List UInt8} {ret : Option Bool}, Transmits b n c sent →
    c.writeLoop sends = .ok (ret, c', more) → Transmits b n c' (sent ++ more) := by
  induction sends with
  | nil =>
    intro c c' sent more ret h hloop
    unfold Connection.writeLoop at hloop
    split at hloop
    · cases hloop
      rw [List.append_nil]
      exact h
    · cases hloop
  | cons result rest ih =>
    intro c c' sent more ret h hloop
    by_cases hdone : c.bytesWritten = n
    · rw [Connection.writeLoop, if_pos (by rw [h.length]; exact hdone)] at hloop
      cases hloop
      rw [List.append_nil]
      exact h
    rw [h.writeLoop_cons hdone] at hloop
    cases result with
    | error | wouldBlock =>
      cases hloop
      rw [List.append_nil]
      exact h
    | sent k =>
      simp only at hloop
      split at hloop
      · cases hloop
        rw [List.append_nil]
        exact h
      · obtain ⟨⟨ret', c₁, more'⟩, hrest, hloop⟩ := bind_eq_ok.1 hloop
        cases hloop
        rw [← List.append_assoc]
        exact ih (h.take k) hrest

/-- The write loop ends: each send but the last takes a byte at least. -/
theorem Transmits.writeLoop_ends {sends : List SendResult} : ∀ {c : Connection P}
    {sent : List UInt8}, Transmits b n c sent → n - c.bytesWritten ≤ sends.length →
    ∃ ret c' more, c.writeLoop sends = .ok (ret, c', more) := by
  induction sends with
  | nil =>
    intro c sent h hlen
    have hdone : c.bytesWritten = c.outputLength := by
      have := h.written_le
      rw [h.length]
      rw [List.length_nil] at hlen
      omega
    exact ⟨none, c, [], by rw [Connection.writeLoop, if_pos hdone]⟩
  | cons result rest ih =>
    intro c sent h hlen
    by_cases hdone : c.bytesWritten = n
    · exact ⟨none, c, [], by rw [Connection.writeLoop, if_pos (by rw [h.length]; exact hdone)]⟩
    rw [h.writeLoop_cons hdone]
    cases result with
    | error => exact ⟨_, _, _, rfl⟩
    | wouldBlock => exact ⟨_, _, _, rfl⟩
    | sent k =>
      simp only
      split
      · exact ⟨_, _, _, rfl⟩
      · rename_i hk
        have hshort : n - (c.bytesWritten +
            (((b.cells.drop c.bytesWritten).take (n - c.bytesWritten)).take k).length) ≤
              rest.length := by
          have := h.written_le
          have := h.length_le
          rw [List.length_cons] at hlen
          rw [List.length_take, List.length_take, List.length_drop, b.length_cells]
          omega
        obtain ⟨ret, c', more, hrest⟩ := ih (h.take k) hshort
        exact ⟨_, _, _, by rw [hrest]; rfl⟩

theorem Transmits.checkConnected (h : Transmits b n c sent) (e : ProcessEnv) :
    Transmits b n (c.checkConnected e).2 sent := by
  obtain ⟨connected, hcheck⟩ := checkConnected_cases c e
  rw [hcheck]
  exact ⟨h.buffer, h.length, h.length_le, h.written_le, h.sent_eq⟩

/-- One call of process. -/
theorem Transmits.process (h : Transmits b n c sent) {e : ProcessEnv} {r : ProcessResult P}
    (hr : c.process e = .ok r) : Transmits b n r.conn (sent ++ r.sent) := by
  have hcheck := h.checkConnected e
  unfold Connection.process at hr
  split at hr
  · cases hr
  split at hr
  · rename_i ret c₁ heq
    rw [heq] at hcheck
    cases hr
    rw [List.append_nil]
    exact hcheck
  · rename_i c₁ heq
    rw [heq] at hcheck
    obtain ⟨⟨ret, c₂, more⟩, hwrite, hr⟩ := bind_eq_ok.1 hr
    have h₂ := hcheck.writeLoop hwrite
    cases ret with
    | some ret =>
      cases hr
      exact h₂
    | none =>
      obtain ⟨⟨ret, c₃, accepted⟩, hread, hr⟩ := bind_eq_ok.1 hr
      cases hr
      exact h₂.same (readLoop_sameSocket hread)

/-- Once the request has been sent no call sends anything. -/
theorem Transmits.process_sent (h : Transmits b n c sent) (hall : c.bytesWritten = n)
    {e : ProcessEnv} {r : ProcessResult P} (hr : c.process e = .ok r) :
    r.sent = [] ∧ c.process { e with sends := [] } = .ok r := by
  have hloop : ∀ (connected : Bool) (sends : List SendResult),
      { c with connected }.writeLoop sends = .ok (none, { c with connected }, []) := by
    intro connected sends
    unfold Connection.writeLoop
    rw [if_pos (by rw [hall, ← h.length])]
  obtain ⟨connected, hcheck⟩ := checkConnected_cases c e
  have hsame : c.checkConnected { e with sends := [] } = c.checkConnected e := rfl
  unfold Connection.process at hr ⊢
  rw [hsame]
  split at hr
  · cases hr
  rename_i hfd
  rw [if_neg hfd]
  split at hr
  · cases hr
    exact ⟨rfl, rfl⟩
  · rename_i c₁ heq
    rw [heq] at hcheck
    obtain rfl : c₁ = { c with connected } := hcheck
    rw [hloop] at hr
    simp only [hloop]
    refine ⟨?_, hr⟩
    rw [ok_bind] at hr
    simp only at hr
    obtain ⟨⟨ret, c₃, accepted⟩, -, hr⟩ := bind_eq_ok.1 hr
    cases hr
    rfl

end Transmits

/-! ## Opening and driving -/

theorem zeroReceiveBuffer_sameSocket {c c' : Connection P} {s : Side} {m : Option ReceiveBuffer}
    (h : c.zeroReceiveBuffer s m = .ok c') : SameSocket c c' := by
  unfold zeroReceiveBuffer at h
  split at h
  · cases h
    exact (sameControl_set c s _).sameSocket
  · cases h
    cases s <;> exact ⟨rfl, rfl, rfl, rfl, rfl⟩
  · cases h

theorem resetReceiver_sameSocket {c c' : Connection P} {e : OpenEnv}
    (h : c.resetReceiver e = .ok c') : SameSocket c c' := by
  unfold resetReceiver at h
  obtain ⟨c₁, h₁, h⟩ := bind_eq_ok.1 h
  obtain ⟨c₂, h₂, h⟩ := bind_eq_ok.1 h
  cases h
  have := (zeroReceiveBuffer_sameSocket h₁).trans (zeroReceiveBuffer_sameSocket h₂)
  exact ⟨this.sockfd, this.connected, this.outputBuffer, this.outputLength, this.bytesWritten⟩

/-- A length that fits the output buffer is the length of the request. -/
theorem length_of_snprintfResult {len : Nat} (hne : snprintfResult len ≠ OUTPUT_BUFFER_SIZE)
    (hle : (snprintfResult len % 2 ^ 64).toNat ≤ OUTPUT_BUFFER_SIZE) :
    len < OUTPUT_BUFFER_SIZE ∧ (snprintfResult len % 2 ^ 64).toNat = len := by
  unfold snprintfResult OUTPUT_BUFFER_SIZE INT_MAX at *
  split at hle <;> rename_i hlen
  · rw [if_pos hlen] at hne ⊢
    omega
  · omega

/-- An `open` that creates a socket stores the request and starts to count its bytes. -/
theorem open_request {c : Connection P} {file : CString} {e : OpenEnv} {r : OpenResult P}
    (hclosed : c.sockfd = none) (h : c.open file e = .ok r) (hret : r.ret = true) :
    r.conn.bytesWritten = 0 ∧ r.conn.outputLength < 2 ^ 64 ∧
      (r.conn.outputLength ≤ OUTPUT_BUFFER_SIZE →
        ∃ b, Transmits b r.conn.outputLength r.conn [] ∧
          r.conn.outputLength = (c.request file).length ∧
          b.cells.take r.conn.outputLength = c.request file) := by
  obtain ⟨fd, buffer, -, hne, hreset⟩ := open_true hclosed h hret
  generalize c.request file = text at hne hreset ⊢
  have hsame := resetReceiver_sameSocket hreset
  have hlength : r.conn.outputLength = (snprintfResult text.length % 2 ^ 64).toNat :=
    hsame.outputLength
  refine ⟨hsame.bytesWritten, by rw [hlength]; omega, fun hsize => ?_⟩
  obtain ⟨hlt, hlen⟩ := length_of_snprintfResult hne (by rw [← hlength]; exact hsize)
  rw [hlen] at hlength
  obtain ⟨b, hb, htake⟩ := snprintf_eq buffer hlt
  refine ⟨b, ⟨hsame.outputBuffer.trans hb, rfl, hsize, ?_, ?_⟩, hlength, ?_⟩
  · rw [hsame.bytesWritten]
    exact Nat.zero_le _
  · rw [hsame.bytesWritten]
    rfl
  · rw [hlength, htake]

end Connection

/-- A connection that is driven, and what its socket has taken since it was opened. -/
structure Driven (P : HttpParser) where
  conn : Connection P
  sent : List UInt8

/-- One call of process. -/
def Driven.step {P : HttpParser} (s : Driven P) (e : ProcessEnv) : Except Halt (Driven P) := do
  let r ← s.conn.process e
  return ⟨r.conn, s.sent ++ r.sent⟩

namespace Connection

variable {P : HttpParser}

theorem run_transmits {b : Region UInt8 OUTPUT_BUFFER_SIZE} {n : Nat} {s s' : Driven P}
    {es : List ProcessEnv} (hs : Transmits b n s.conn s.sent)
    (h : run Driven.step s es = .ok s') : Transmits b n s'.conn s'.sent := by
  refine run_invariant (I := fun s => Transmits b n s.conn s.sent) (fun s e s' hs h => ?_) hs h
  unfold Driven.step at h
  obtain ⟨r, hr, h⟩ := bind_eq_ok.1 h
  cases h
  exact hs.process hr

/-- **Exact transmission.** After any calls of process on a connection that has been opened, with a
request that fits the output buffer, the socket has taken the first `bytesWritten` bytes of the
request. Nothing is sent when these are all of it, every write loop ends, and another opening starts
with the first byte of its own request. -/
theorem exact_transmission {c : Connection P} {file : CString} {e₀ : OpenEnv} {r₀ : OpenResult P}
    (hclosed : c.sockfd = none) (hopen : c.open file e₀ = .ok r₀) (hret : r₀.ret = true)
    (hsize : r₀.conn.outputLength ≤ OUTPUT_BUFFER_SIZE) {es : List ProcessEnv} {s : Driven P}
    (hrun : run Driven.step ⟨r₀.conn, []⟩ es = .ok s) :
    (∃ b, r₀.conn.outputBuffer = some b ∧ s.conn.outputBuffer = some b ∧
        s.sent = b.cells.take s.conn.bytesWritten ∧
        s.sent = (c.request file).take s.conn.bytesWritten) ∧
      s.conn.outputLength = r₀.conn.outputLength ∧
      s.conn.bytesWritten ≤ s.conn.outputLength ∧
      (s.conn.bytesWritten = s.conn.outputLength → ∀ e r, s.conn.process e = .ok r →
        r.sent = [] ∧ s.conn.process { e with sends := [] } = .ok r) ∧
      (∀ e, s.conn.outputLength - s.conn.bytesWritten ≤ e.sends.length →
        ∃ ret c' more, (s.conn.checkConnected e).2.writeLoop e.sends = .ok (ret, c', more)) ∧
      ∀ closeOk c₁ file' e₁ r₁, s.conn.close closeOk = (true, c₁) →
        c₁.open file' e₁ = .ok r₁ → r₁.ret = true → r₁.conn.bytesWritten = 0 ∧
          (r₁.conn.outputLength ≤ OUTPUT_BUFFER_SIZE → ∃ b, r₁.conn.outputBuffer = some b ∧
            b.cells.take r₁.conn.outputLength = c₁.request file') := by
  obtain ⟨-, -, hstored⟩ := open_request hclosed hopen hret
  obtain ⟨b, hstart, hlength, hrequest⟩ := hstored hsize
  have h := run_transmits hstart hrun
  have hle := h.written_le
  refine ⟨⟨b, hstart.buffer, h.buffer, h.sent_eq, ?_⟩, h.length, ?_, fun hall e r hr => ?_,
    fun e hlen => ?_, fun closeOk c₁ file' e₁ r₁ hclose hopen₁ hret₁ => ?_⟩
  · rw [h.sent_eq, ← hrequest, List.take_take, Nat.min_eq_left hle]
  · rw [h.length]
    exact hle
  · exact h.process_sent (hall.trans h.length) hr
  · refine (h.checkConnected e).writeLoop_ends ?_
    obtain ⟨connected, hcheck⟩ := checkConnected_cases s.conn e
    rw [hcheck, ← h.length]
    exact hlen
  · have hclosed₁ : c₁.sockfd = none := by
      rcases close_cases s.conn closeOk with ⟨-, hc⟩ | ⟨hno, -⟩
      · rw [hclose] at hc
        rw [show c₁ = s.conn.disconnected from hc]
        rfl
      · rw [hclose] at hno
        cases hno
    obtain ⟨hzero, -, hstored₁⟩ := open_request hclosed₁ hopen₁ hret₁
    refine ⟨hzero, fun hsize₁ => ?_⟩
    obtain ⟨b₁, hb₁, -, hrequest₁⟩ := hstored₁ hsize₁
    exact ⟨b₁, hb₁.buffer, hrequest₁⟩

theorem exact_transmission_sample : ∃ (r₀ : OpenResult .untilEof) (s : Driven .untilEof),
    run Driven.step ⟨r₀.conn, []⟩ [sampleResponse] = .ok s ∧
      s.sent = ((sampleClosed .untilEof).request sampleFile).take s.conn.bytesWritten ∧
      s.conn.bytesWritten ≤ s.conn.outputLength := by
  obtain ⟨r₀, hopen, hret, hconn⟩ := sampleOpen_eq .untilEof
  obtain ⟨r, hr, -⟩ := process_sampleResponse
  have hrun : run Driven.step ⟨r₀.conn, []⟩ [sampleResponse] = .ok ⟨r.conn, [] ++ r.sent⟩ := by
    refine run_cons_ok.2 ⟨_, ?_, rfl⟩
    simp only [Driven.step, hconn, hr, ok_bind]
    rfl
  have hsize : r₀.conn.outputLength ≤ OUTPUT_BUFFER_SIZE := by
    rw [hconn]
    exact (fresh_sampleOpen .untilEof).outputLength
  obtain ⟨⟨b, -, -, -, hsent⟩, -, hle, -⟩ := exact_transmission rfl hopen hret hsize hrun
  exact ⟨r₀, _, hrun, hsent, hle⟩

end Connection

end Rsva11001
