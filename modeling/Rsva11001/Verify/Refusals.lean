import Rsva11001.Verify.Driving

/-!
# Bytes that are taken and bytes that are refused

The receive side without its buffers is a parser and the bytes it carries: `takeBlock` says what a
block makes of them, or that it is refused, by the parser itself or by the callback on one of its
slices; `blocksComplete` says which messages a row of blocks completes. `process` does these steps
(`readLoop_takes`), and what it returns does not depend on whether a block has been refused
(`reports_iff`).
-/

namespace Rsva11001

open Lib

namespace Connection

variable {P : HttpParser}

/-- The bytes carried after a slice of the body, or `none` when the callback refuses it. -/
def takeSlice (carry data : List UInt8) : Option (List UInt8) :=
  match scanMessage (received carry data) with
  | .more => some (received carry data)
  | .bad => none
  | .frame m _ => some ((carry ++ data).drop m.encode.length)

/-- The parser and the bytes carried after a block, or `none` when the block is refused. -/
def takeBlock (x : P.State × List UInt8) (block : List UInt8) :
    Option (P.State × List UInt8) := do
  let carry ← (P.body x.1 block).foldlM takeSlice x.2
  let s ← P.next x.1 block
  return (s, carry)

/-- The payload of the message that a slice of the body completes. -/
def sliceCompletes (carry data : List UInt8) : Option (List UInt8) :=
  match scanMessage (received carry data) with
  | .frame m _ => some m.payload
  | _ => none

/-- The payloads of the messages that slices complete, until one is refused. -/
def slicesComplete (carry : List UInt8) : List (List UInt8) → List (List UInt8)
  | [] => []
  | data :: rest => (sliceCompletes carry data).toList ++
      (takeSlice carry data).elim [] fun carry' => slicesComplete carry' rest

/-- The payloads of the messages that blocks complete, until one is refused. -/
def blocksComplete (x : Option (P.State × List UInt8)) : List (List UInt8) → List (List UInt8)
  | [] => []
  | block :: rest => (x.elim [] fun y => slicesComplete y.2 (P.body y.1 block)) ++
      blocksComplete (x.bind fun y => takeBlock y block) rest

/-- The bytes that are read: the reads go on until one yields none. -/
def blocksRead : List RecvResult → List (List UInt8)
  | .data block :: rest => block.bytes :: blocksRead rest
  | _ => []

/-- The sends for `left` bytes go on until these are taken or one would block; a send that fails or
takes nothing ends the call. -/
def sendsPass : Nat → List SendResult → Bool
  | 0, _ => true
  | _ + 1, [] => false
  | _ + 1, .error :: _ => false
  | _ + 1, .wouldBlock :: _ => true
  | left + 1, .sent n :: rest => n ≠ 0 && sendsPass (left + 1 - n) rest

/-- The bytes in the active buffer. -/
def carried (c : Connection P) : List UInt8 :=
  match c.activeReceiveBuffer.bind c.receiveBuffer with
  | none => []
  | some b => b.cells.take c.activeReceiveBufferBytesReceived

/-- The parser, unless it has an error set, and what is carried. -/
def reader (c : Connection P) (carry : List UInt8) : Option (P.State × List UInt8) :=
  c.parser.map fun s => (s, carry)

/-- The parser has an error set, or sets one on these blocks. -/
def Refuses (c : Connection P) (blocks : List (List UInt8)) : Prop :=
  ∀ s, c.parser = some s → blocks.foldlM takeBlock (s, c.carried) = none

/-- The call comes to its reads. -/
def ReachesReads (c : Connection P) (e : ProcessEnv) : Prop :=
  (c.connected = true ∨ e.poll = .ready true ∧ e.getsockopt = .pending 0) ∧
    sendsPass (c.outputLength - c.bytesWritten) e.sends = true

instance (c : Connection P) (e : ProcessEnv) : Decidable (c.ReachesReads e) :=
  inferInstanceAs (Decidable (_ ∧ _))

/-- The call does not fail: the socket is not connected yet, or the reads end with would-block. -/
def Passes (c : Connection P) (e : ProcessEnv) : Prop :=
  c.connected = false ∧ e.poll = .notReady ∨ c.ReachesReads e ∧ endsBlocked e.recvs = true

/-- The payloads of the messages that the call completes. -/
def completions (c : Connection P) (e : ProcessEnv) : List (List UInt8) :=
  if c.ReachesReads e then blocksComplete (c.reader c.carried) (blocksRead e.recvs) else []

/-! ## The reads -/

section Reads

variable {c c' : Connection P} {carry : List UInt8} {latest : Option Message}

theorem carried_of_receiving (h : Receiving c carry latest) : c.carried = carry := by
  obtain ⟨b, hb, hfront⟩ := h.front
  unfold carried
  rw [h.pointer, Option.bind_some, hb, h.received]
  exact hfront

theorem recv_takes {data : List UInt8} {ret : Nat} (h : Receiving c carry latest)
    (hdata : data.length ≤ PTRDIFF_MAX) (hr : c.recv data = .ok (ret, c')) :
    ∃ carry' latest', Receiving c' carry' latest' ∧
      (takeSlice carry data = if ret = 0 then some carry' else none) ∧
      sliceCompletes carry data = c.completed c' := by
  unfold takeSlice sliceCompletes
  obtain ⟨-, -, ⟨⟨rfl, hscan⟩ | ⟨rfl, hscan⟩, hping, h'⟩ |
    ⟨rfl, m, rest, hrest, hm, -, hping, h'⟩⟩ := recv_cases h hdata hr
  · refine ⟨_, _, h', ?_, ?_⟩
    · rw [hscan, if_pos rfl]
    · rw [hscan]
      exact (if_pos hping).symm
  · refine ⟨_, _, h', ?_, ?_⟩
    · rw [hscan, if_neg (by decide)]
    · rw [hscan]
      exact (if_pos hping).symm
  · refine ⟨_, _, h', ?_, ?_⟩
    · rw [received_front hrest hm, scanMessage_encode, if_pos rfl, hrest]
      exact congrArg some List.drop_left
    · rw [received_front hrest hm, scanMessage_encode]
      exact (completed_eq hping h').symm

theorem callbacks_takes {ds : List (List UInt8)} : ∀ {c c' : Connection P} {carry : List UInt8}
    {latest : Option Message} {all : Bool} {ps : List (List UInt8)}, Receiving c carry latest →
    (∀ d ∈ ds, d.length ≤ PTRDIFF_MAX) → c.callbacks ds = .ok (all, c', ps) →
    ∃ carry' latest', Receiving c' carry' latest' ∧
      (ds.foldlM takeSlice carry = if all then some carry' else none) ∧
      ps = slicesComplete carry ds := by
  induction ds with
  | nil =>
    intro c c' carry latest all ps h _ hcalls
    cases hcalls
    exact ⟨carry, latest, h, rfl, rfl⟩
  | cons d ds ih =>
    intro c c' carry latest all ps h hlen hcalls
    simp only [callbacks] at hcalls
    obtain ⟨⟨ret, next⟩, hrecv, hcalls⟩ := bind_eq_ok.1 hcalls
    obtain ⟨carry₁, latest₁, h₁, htake, hcomplete⟩ :=
      recv_takes h (hlen d List.mem_cons_self) hrecv
    rw [List.foldlM_cons, slicesComplete, htake, hcomplete]
    split at hcalls
    · rename_i hret
      cases hcalls
      rw [if_neg hret]
      exact ⟨carry₁, latest₁, h₁, rfl, (List.append_nil _).symm⟩
    · rename_i hret
      obtain ⟨⟨all', last, ps'⟩, hrest, hcalls⟩ := bind_eq_ok.1 hcalls
      cases hcalls
      rw [if_pos (not_not.1 hret)]
      obtain ⟨carry', latest', h', htakes, rfl⟩ :=
        ih h₁ (fun x hx => hlen x (List.mem_cons_of_mem d hx)) hrest
      exact ⟨carry', latest', h', htakes, rfl⟩

theorem reader_eq_none : c.reader carry = none ↔ c.parser = none := by
  unfold reader
  rw [Option.map_eq_none_iff]

theorem refuses_iff (h : Receiving c carry latest) (blocks : List (List UInt8)) :
    c.Refuses blocks ↔ ((c.reader carry).bind fun x => blocks.foldlM takeBlock x) = none := by
  unfold Refuses reader
  rw [carried_of_receiving h]
  cases c.parser with
  | none => simp
  | some s => simp

theorem execute_takes {block : Block} {ps : List (List UInt8)} (h : Receiving c carry latest)
    (hexec : c.execute block.bytes = .ok (c', ps)) : ∃ carry' latest',
      Receiving c' carry' latest' ∧
        (c.reader carry).bind (fun x => takeBlock x block.bytes) = c'.reader carry' ∧
        ps = (c.reader carry).elim [] fun x => slicesComplete x.2 (P.body x.1 block.bytes) := by
  unfold execute at hexec
  split at hexec
  · rename_i hnone
    cases hexec
    rw [reader_eq_none.2 hnone]
    exact ⟨carry, latest, h, (reader_eq_none.2 hnone).symm, rfl⟩
  · rename_i s hparser
    obtain ⟨⟨all, next, payloads⟩, hcalls, hexec⟩ := bind_eq_ok.1 hexec
    cases hexec
    obtain ⟨carry', latest', h', htake, hcomplete⟩ :=
      callbacks_takes h (fun d hd => length_le_of_mem_body hd) hcalls
    refine ⟨carry', latest', (sameReceive_setParser next _).receiving h', ?_, ?_⟩
    · unfold reader takeBlock
      rw [hparser, Option.map_some, Option.bind_some, htake]
      cases all with
      | true => cases P.next s block.bytes <;> rfl
      | false => rfl
    · unfold reader
      rw [hparser, hcomplete]
      rfl

/-- **The reads.** They take the blocks read, one after the other, until one is refused. -/
theorem readLoop_takes {recvs : List RecvResult} : ∀ {c c' : Connection P} {carry : List UInt8}
    {latest : Option Message} {ret : Bool} {ps : List (List UInt8)}, Receiving c carry latest →
    c.readLoop recvs = .ok (ret, c', ps) → ∃ carry' latest', Receiving c' carry' latest' ∧
      ((c.reader carry).bind fun x => (blocksRead recvs).foldlM takeBlock x) = c'.reader carry' ∧
      ps = blocksComplete (c.reader carry) (blocksRead recvs) := by
  induction recvs with
  | nil => rintro _ _ _ _ _ _ _ ⟨⟩
  | cons result rest ih =>
    intro c c' carry latest ret ps h hloop
    cases result with
    | wouldBlock | shutdown | error =>
      cases hloop
      exact ⟨carry, latest, h, by cases c.reader carry <;> rfl, rfl⟩
    | data block =>
      rw [readLoop] at hloop
      obtain ⟨⟨next, payloads⟩, hexec, hloop⟩ := bind_eq_ok.1 hloop
      obtain ⟨⟨ret', last, more⟩, hrest, hloop⟩ := bind_eq_ok.1 hloop
      cases hloop
      obtain ⟨carry₁, latest₁, h₁, htake, rfl⟩ := execute_takes h hexec
      obtain ⟨carry', latest', h', htakes, rfl⟩ := ih h₁ hrest
      refine ⟨carry', latest', h', ?_, ?_⟩
      · rw [← htakes, ← htake, Option.bind_assoc]
        rfl
      · rw [blocksRead, blocksComplete, htake]

end Reads

/-! ## The way to the reads -/

/-- The fields that decide whether the write loop goes on. -/
structure Sound (c : Connection P) : Prop where
  receiving : ∃ carry latest, Receiving c carry latest
  written_le : c.bytesWritten ≤ c.outputLength
  length_lt : c.outputLength < 2 ^ 64
  connected : c.parser = none → c.connected = true

/-- The write loop goes on to the reads exactly when the sends pass. -/
theorem writeLoop_pass {sends : List SendResult} : ∀ {c c' : Connection P} {ret : Option Bool}
    {sent : List UInt8}, c.bytesWritten ≤ c.outputLength → c.outputLength < 2 ^ 64 →
    c.writeLoop sends = .ok (ret, c', sent) →
    (ret = none ↔ sendsPass (c.outputLength - c.bytesWritten) sends = true) ∧
      ∃ n, n ≤ c.outputLength ∧ c' = { c with bytesWritten := n } := by
  induction sends with
  | nil =>
    intro c c' ret sent hle hlt h
    unfold writeLoop at h
    split at h
    · rename_i hdone
      cases h
      rw [hdone, Nat.sub_self]
      exact ⟨iff_of_true rfl rfl, c.bytesWritten, hle, rfl⟩
    · cases h
  | cons result rest ih =>
    intro c c' ret sent hle hlt h
    by_cases hdone : c.bytesWritten = c.outputLength
    · rw [writeLoop, if_pos hdone] at h
      cases h
      rw [hdone, Nat.sub_self]
      exact ⟨iff_of_true rfl rfl, c.bytesWritten, hle, rfl⟩
    obtain ⟨left, hleft⟩ : ∃ left, c.outputLength - c.bytesWritten = left + 1 :=
      ⟨c.outputLength - c.bytesWritten - 1, by omega⟩
    have hamount : subFast c.outputLength c.bytesWritten = left + 1 := by
      rw [subFast_of_le hle hlt, hleft]
    have hloop := h
    rw [writeLoop, if_neg hdone] at h
    simp only [hamount, Nat.add_one_ne_zero, if_false] at h
    obtain ⟨b, hb, h⟩ := bind_eq_ok.1 h
    obtain ⟨src, hsrc, h⟩ := bind_eq_ok.1 h
    rw [access_eq_ok] at hb hsrc
    rw [hleft]
    cases result with
    | error =>
      cases h
      exact ⟨iff_of_false (by simp) (by simp [sendsPass]), c.bytesWritten, hle, rfl⟩
    | wouldBlock =>
      cases h
      exact ⟨iff_of_true rfl rfl, c.bytesWritten, hle, rfl⟩
    | sent n =>
      by_cases hn : n = 0
      · subst hn
        cases h
        exact ⟨iff_of_false (by simp) (by simp [sendsPass]), c.bytesWritten, hle, rfl⟩
      rw [writeLoop_sent hdone hamount.symm (Nat.add_one_ne_zero left) hb hsrc hn] at hloop
      obtain ⟨⟨ret', c₁, sent'⟩, hrest, hloop⟩ := bind_eq_ok.1 hloop
      cases hloop
      have htaken : (src.take n).length = min n (left + 1) := by
        rw [List.length_take, Region.length_of_read hsrc]
      rw [htaken] at hrest
      obtain ⟨hpass, k, hk, rfl⟩ := ih (c := { c with
        bytesWritten := c.bytesWritten + min n (left + 1) })
        (by show c.bytesWritten + min n (left + 1) ≤ c.outputLength; omega) hlt hrest
      refine ⟨?_, k, hk, rfl⟩
      rw [hpass]
      have hrest : c.outputLength - (c.bytesWritten + min n (left + 1)) = left + 1 - n := by omega
      simp only [hrest, sendsPass, ne_eq, hn, not_false_eq_true, decide_true, Bool.true_and]

/-- The check of the connection is passed on a connected socket. -/
theorem checkConnected_pass {c c₁ : Connection P} {e : ProcessEnv} {ret : Option Bool}
    (h : c.checkConnected e = (ret, c₁)) :
    (ret = none ↔ c.connected = true ∨ e.poll = .ready true ∧ e.getsockopt = .pending 0) ∧
      (ret = some true ↔ c.connected = false ∧ e.poll = .notReady) ∧
      c₁ = if ret = none then { c with connected := true } else c := by
  unfold checkConnected at h
  split at h
  · rename_i hconnected
    cases h
    refine ⟨iff_of_true rfl (.inl hconnected), iff_of_false (by simp) (by simp [hconnected]), ?_⟩
    rw [if_pos rfl]
    exact Connection.ext rfl rfl rfl rfl rfl rfl rfl rfl rfl rfl rfl rfl rfl rfl rfl rfl rfl
      hconnected
  rename_i hconnected
  split at h
  · rename_i hpoll
    cases h
    simp [hconnected, hpoll]
  · rename_i hpoll
    cases h
    simp [hconnected, hpoll]
  · rename_i pollout hpoll
    split at h
    · rename_i hout
      cases h
      have hout : pollout = false := by simpa using hout
      simp [hconnected, hpoll, hout]
    · rename_i hout
      have hout : pollout = true := by simpa using hout
      split at h
      · rename_i hopt
        cases h
        simp [hconnected, hpoll, hopt]
      · rename_i hopt
        cases h
        simp [hconnected, hpoll, hopt]
      · rename_i opt hopt
        split at h
        · rename_i hne
          cases h
          simp [hconnected, hpoll, hopt, hne]
        · rename_i heq
          cases h
          simp [hpoll, hout, hopt, not_not.1 heq]

/-- How a call that returns has ended: before its reads, with the parser as it was, or with them. -/
inductive Returned (c : Connection P) (e : ProcessEnv) (r : ProcessResult P) : Prop
  | early (hno : ¬ c.ReachesReads e) (hparser : r.conn.parser = c.parser)
      (hret : r.ret = true ↔ c.connected = false ∧ e.poll = .notReady) (hnone : r.accepted = [])
  | read (hyes : c.ReachesReads e) (hret : r.ret = endsBlocked e.recvs)
      (hparser : r.conn.parser = none ↔ c.Refuses (blocksRead e.recvs))
      (haccepted : r.accepted = blocksComplete (c.reader c.carried) (blocksRead e.recvs))

/-- What a call returns, and which messages it completes, as its inputs say. -/
theorem Returned.inputs {c : Connection P} {e : ProcessEnv} {r : ProcessResult P}
    (h : Returned c e r) : (r.ret = true ↔ c.Passes e) ∧ r.accepted = c.completions e := by
  unfold completions Passes
  cases h with
  | early hno _ hret hnone =>
    rw [if_neg hno]
    exact ⟨hret.trans (or_iff_left fun hread => hno hread.1).symm, hnone⟩
  | read hyes hret _ haccepted =>
    rw [if_pos hyes, hret]
    refine ⟨⟨fun hblocked => .inr ⟨hyes, hblocked⟩, ?_⟩, haccepted⟩
    rintro (⟨hclosed, hpoll⟩ | ⟨-, hblocked⟩)
    · -- a socket that is not ready keeps the call from its reads
      rcases hyes.1 with hopen | ⟨hready, -⟩
      · rw [hopen] at hclosed
        cases hclosed
      · rw [hpoll] at hready
        cases hready
    · exact hblocked

/-- The fields that the reads do not look at do not matter to them. -/
theorem refuses_congr {c c' : Connection P} {carry : List UInt8} {latest : Option Message}
    (h : Receiving c carry latest) (h' : Receiving c' carry latest) (hparser : c'.parser = c.parser)
    (blocks : List (List UInt8)) : c'.Refuses blocks ↔ c.Refuses blocks := by
  unfold Refuses
  rw [hparser, carried_of_receiving h, carried_of_receiving h']

theorem process_returned {c : Connection P} (h : Sound c) {e : ProcessEnv} {r : ProcessResult P}
    (hr : c.process e = .ok r) : Sound r.conn ∧ Returned c e r := by
  obtain ⟨⟨carry, latest, hrec⟩, hle, hlt, hconnected⟩ := h
  unfold process at hr
  split at hr
  · cases hr
  split at hr
  · rename_i ret c₁ hcheck
    obtain ⟨hpass, hwaits, hc₁⟩ := checkConnected_pass hcheck
    rw [if_neg (by simp)] at hc₁
    subst hc₁
    cases hr
    refine ⟨⟨⟨carry, latest, hrec⟩, hle, hlt, hconnected⟩, .early ?_ rfl ?_ rfl⟩
    · exact fun hyes => absurd (hpass.2 hyes.1) (by simp)
    · rw [← hwaits, Option.some.injEq]
  · rename_i c₁ hcheck
    obtain ⟨hpass, hwaits, hc₁⟩ := checkConnected_pass hcheck
    rw [if_pos rfl] at hc₁
    obtain ⟨⟨ret, c₂, sent⟩, hwrite, hr⟩ := bind_eq_ok.1 hr
    obtain ⟨hsends, k, hk, hc₂⟩ := writeLoop_pass (by rw [hc₁]; exact hle) (by rw [hc₁]; exact hlt)
      hwrite
    have hready := hpass.1 rfl
    rw [hc₁] at hsends hk hc₂
    have hsame : SameReceive c c₂ := by
      rw [hc₂]
      exact ⟨rfl, rfl, rfl, rfl, rfl, rfl⟩
    have hparser : c₂.parser = c.parser := by rw [hc₂]
    have hlength : c₂.outputLength = c.outputLength := by rw [hc₂]
    have hwritten : c₂.bytesWritten = k := by rw [hc₂]
    have hrec₂ := hsame.receiving hrec
    have hopen : c₂.connected = true := by rw [hc₂]
    cases ret with
    | some ret =>
      have hfalse := (writeLoop_cases hwrite).choose_spec.2
      cases hr
      refine ⟨⟨⟨carry, latest, hrec₂⟩, ?_, ?_, fun _ => hopen⟩, .early ?_ hparser ?_ rfl⟩
      · rw [hwritten, hlength]
        exact hk
      · rw [hlength]
        exact hlt
      · exact fun hyes => absurd (hsends.2 hyes.2) (by simp)
      · exact ⟨fun hret => absurd (congrArg some hret) hfalse,
          fun hnot => absurd (hwaits.2 hnot) (by simp)⟩
    | none =>
      obtain ⟨⟨ret, c₃, accepted⟩, hread, hr⟩ := bind_eq_ok.1 hr
      cases hr
      obtain ⟨carry', latest', hrec₃, htakes, hcomplete⟩ := readLoop_takes hrec₂ hread
      have hframe := readLoop_sameSocket hread
      refine ⟨⟨⟨carry', latest', hrec₃⟩, ?_, ?_, fun _ => ?_⟩,
        .read ⟨hready, hsends.1 rfl⟩ (readLoop_cases hrec₂ hread).2 ?_ ?_⟩
      · rw [hframe.bytesWritten, hframe.outputLength, hwritten, hlength]
        exact hk
      · rw [hframe.outputLength, hlength]
        exact hlt
      · rw [hframe.connected]
        exact hopen
      · rw [← refuses_congr hrec hrec₂ hparser, refuses_iff hrec₂, htakes, reader_eq_none]
      · rw [carried_of_receiving hrec, reader, ← hparser]
        exact hcomplete

/-- The connection after calls of process on one that has been opened. -/
def Processed (c : Connection P) : Prop :=
  ∃ c₀ es sent, FreshlyOpened c₀ ∧ run Driven.step ⟨c₀, []⟩ es = .ok ⟨c, sent⟩

theorem open_sound {c : Connection P} {file : CString} {e : OpenEnv} {r : OpenResult P}
    (hs : Sized c) (hclosed : c.sockfd = none) (hopen : c.open file e = .ok r)
    (hret : r.ret = true) : Sound r.conn := by
  obtain ⟨hzero, hlt, -⟩ := open_request hclosed hopen hret
  obtain ⟨-, hopened⟩ := open_isClosed hs hclosed hopen
  cases hopened with
  | failed hfail =>
    rw [hret] at hfail
    cases hfail
  | opened _ _ _ hrec hparser =>
    refine ⟨⟨_, _, hrec⟩, ?_, hlt, fun hnone => ?_⟩
    · rw [hzero]
      exact Nat.zero_le _
    · rw [hparser] at hnone
      cases hnone

theorem Fresh.sound {c : Connection P} (h : c.Fresh) : Sound c := by
  have hlength := h.outputLength
  unfold OUTPUT_BUFFER_SIZE at hlength
  refine ⟨⟨_, _, h.receiving⟩, ?_, by omega, fun hnone => ?_⟩
  · rw [h.bytesWritten]
    exact Nat.zero_le _
  · rw [h.parser] at hnone
    cases hnone

theorem FreshlyOpened.sound {c : Connection P} (h : FreshlyOpened c) : Sound c := by
  obtain ⟨file, s, e, r, hlived, hclosed, hopen, hret, rfl⟩ := h
  exact open_sound hlived.inv.sized hclosed hopen hret

theorem Processed.sound {c : Connection P} (h : Processed c) : Sound c := by
  obtain ⟨c₀, es, sent, h₀, hrun⟩ := h
  refine run_invariant (I := fun s : Driven P => Sound s.conn) (fun s e s' hs h => ?_) h₀.sound hrun
  unfold Driven.step at h
  obtain ⟨r, hr, h⟩ := bind_eq_ok.1 h
  cases h
  exact (process_returned hs hr).1

/-- **Refusals.** A call after which the parser has an error set returns false, except when it
comes to its reads, a block is refused, and then the reads would block. -/
theorem reports_iff {c : Connection P} (hc : Processed c) {e : ProcessEnv} {r : ProcessResult P}
    (hr : c.process e = .ok r) : (r.conn.parser = none → r.ret = false) ↔
      ¬ (c.ReachesReads e ∧ c.Refuses (blocksRead e.recvs) ∧ endsBlocked e.recvs = true) := by
  have hsound := hc.sound
  obtain ⟨-, hreturned⟩ := process_returned hsound hr
  cases hreturned with
  | early hno hparser hret =>
    refine iff_of_true (fun hnone => ?_) fun h => hno h.1
    -- an error is set only on a connected socket
    rw [← Bool.not_eq_true]
    intro htrue
    rw [hparser] at hnone
    have hclosed := (hret.1 htrue).1
    rw [hsound.connected hnone] at hclosed
    cases hclosed
  | read hyes hret hparser =>
    rw [hparser, hret, ← Bool.not_eq_true]
    exact ⟨fun h hall => h hall.2.1 hall.2.2,
      fun h hrefuses hblocked => h ⟨hyes, hrefuses, hblocked⟩⟩

/-- Body bytes that do not begin with the magic. -/
def junk : Block where
  bytes := List.replicate 8 0
  ne_nil := by decide
  length_le := by decide

theorem processed_sampleOpen : Processed (sampleOpen .untilEof) :=
  ⟨_, [], [], freshlyOpened_sampleOpen .untilEof, rfl⟩

/-- A response with a body that the callback refuses. -/
theorem process_junk (fin : RecvResult) (hfin : ∀ b, fin ≠ .data b) :
    ∃ r, (sampleOpen .untilEof).process (respond [junk] fin) = .ok r ∧ r.conn.parser = none ∧
      r.ret = endsBlocked [fin] := by
  obtain ⟨w, sent, hbody, hparser, -, hprocess⟩ :=
    process_respond (fresh_sampleOpen .untilEof) [junk] fin
  obtain ⟨c', hrecv, -, -, -⟩ := @recv_bad _ _ _ junk.bytes _ hbody (by decide) rfl
  have hexec : ∃ ps, w.execute junk.bytes = .ok ({ c' with parser := none }, ps) := by
    unfold execute
    simp only [hparser, untilEof_rest junk.ne_nil, callbacks, hrecv, ok_bind]
    exact ⟨_, rfl⟩
  obtain ⟨ps, hexec⟩ := hexec
  rw [List.map_singleton, List.singleton_append, readLoop_data hexec] at hprocess
  cases fin with
  | data b => exact absurd rfl (hfin b)
  | wouldBlock | shutdown | error => exact ⟨_, hprocess, rfl, rfl⟩

/-- When the refused bytes are the last of the response. -/
theorem reports_iff_sample : ∃ e r, (sampleOpen .untilEof).process e = .ok r ∧
    r.conn.parser = none ∧ r.ret = false := by
  obtain ⟨r, hr, hnone, -⟩ := process_junk .shutdown (by rintro _ ⟨⟩)
  exact ⟨_, r, hr, hnone,
    (reports_iff processed_sampleOpen hr).2 (fun h => absurd h.2.2 (by decide)) hnone⟩

/-- When nothing follows the refused bytes yet. -/
theorem not_reports : ∃ (c : Connection .untilEof) (e : ProcessEnv) (r : ProcessResult .untilEof),
    Processed c ∧ c.process e = .ok r ∧ r.conn.parser = none ∧ ¬ r.ret = false := by
  obtain ⟨r, hr, hnone, hret⟩ := process_junk .wouldBlock (by rintro _ ⟨⟩)
  exact ⟨_, _, r, processed_sampleOpen, hr, hnone, by rw [hret]; decide⟩

end Connection

end Rsva11001
