import Rsva11001.Connection.Process
import Rsva11001.Verify.Opening

/-!
# What one call of process does

`process_cases`: a call that returns has kept the socket and the configuration, and has received
and completed messages as its callbacks say. What it returns is decided by how the reads end, once
it has come to the reads (`process_ret`).
-/

namespace Rsva11001

open Lib

/-- The reads end with would-block, not with a shutdown or an error. -/
def endsBlocked : List RecvResult → Bool
  | .data _ :: rest => endsBlocked rest
  | .wouldBlock :: _ => true
  | _ => false

namespace Connection

variable {P : HttpParser}

/-- The payload last completed, after the payloads `more` have been completed. -/
def lastPayload (latest : Option Message) (more : List (List UInt8)) : Option (List UInt8) :=
  more.getLast?.or (latest.map Message.payload)

theorem lastPayload_nil (latest : Option Message) :
    lastPayload latest [] = latest.map Message.payload := rfl

theorem lastPayload_append {l₁ l₂ : Option Message} {ps qs : List (List UInt8)}
    (h : l₂.map Message.payload = lastPayload l₁ ps) :
    lastPayload l₂ qs = lastPayload l₁ (ps ++ qs) := by
  unfold lastPayload at h ⊢
  rw [h, List.getLast?_append, Option.or_assoc]

/-- From `carry` and `latest` the connection has come to hold other bytes, completing messages
with the payloads `ps`. -/
structure Completes (c c' : Connection P) (latest : Option Message) (ps : List (List UInt8)) :
    Prop where
  sockfd : c'.sockfd = c.sockfd
  config : SameConfig c c'
  receiving : ∃ carry' latest', Receiving c' carry' latest' ∧
    latest'.map Message.payload = lastPayload latest ps

theorem Completes.refl {c : Connection P} {carry : List UInt8} {latest : Option Message}
    (h : Receiving c carry latest) : Completes c c latest [] :=
  ⟨rfl, ⟨rfl, rfl, rfl, rfl⟩, ⟨carry, latest, h, (lastPayload_nil latest).symm⟩⟩

/-- Fields that the receive path does not read may change on the way. -/
theorem Completes.of_same {c c₁ c' : Connection P} {latest : Option Message}
    {ps : List (List UInt8)} (h : Completes c₁ c' latest ps) (hfd : c₁.sockfd = c.sockfd)
    (hconfig : SameConfig c c₁) : Completes c c' latest ps := by
  obtain ⟨hfd', hconfig', h⟩ := h
  refine ⟨hfd'.trans hfd, ⟨?_, ?_, ?_, ?_⟩, h⟩
  · exact hconfig'.username.trans hconfig.username
  · exact hconfig'.password.trans hconfig.password
  · exact hconfig'.hostname.trans hconfig.hostname
  · exact hconfig'.channel.trans hconfig.channel

theorem Completes.trans {c c₁ c' : Connection P} {l₀ : Option Message}
    {ps qs : List (List UInt8)} (h : Completes c c₁ l₀ ps)
    (h' : ∀ {carry latest}, Receiving c₁ carry latest → Completes c₁ c' latest qs) :
    Completes c c' l₀ (ps ++ qs) := by
  obtain ⟨hfd, hconfig, carry₁, l₁, hr₁, hlast⟩ := h
  obtain ⟨hfd', hconfig', carry', l', hr', hlast'⟩ := (h' hr₁).of_same hfd hconfig
  exact ⟨hfd', hconfig', ⟨carry', l', hr', hlast'.trans (lastPayload_append hlast)⟩⟩

/-- A callback that keeps `ping` completes nothing; one that does not completes the message that
is then in the inactive buffer. -/
theorem completed_eq {c c' : Connection P} {carry : List UInt8} {m : Message}
    (hping : c'.ping = !c.ping) (h : Receiving c' carry (some m)) :
    c.completed c' = some m.payload := by
  have hside : c.active = c'.active.other := by
    unfold active
    rw [hping]
    cases c.ping <;> rfl
  obtain ⟨b, hb, hlast⟩ := h.back
  obtain ⟨-, ⟨field, hfield, hlength⟩, -, hpayload⟩ := read_message hlast
  unfold completed
  rw [if_neg (by rw [hping]; simp), hside, hb]
  simp only [Option.bind_eq_bind, Option.bind_some, hfield, hlength, hpayload]

theorem callbacks_cases {ds : List (List UInt8)} : ∀ {c c' : Connection P} {carry : List UInt8}
    {latest : Option Message} {all : Bool} {ps : List (List UInt8)}, Receiving c carry latest →
    (∀ d ∈ ds, d.length ≤ PTRDIFF_MAX) → c.callbacks ds = .ok (all, c', ps) →
    Completes c c' latest ps := by
  induction ds with
  | nil =>
    intro c c' carry latest all ps hr _ h
    cases h
    exact .refl hr
  | cons d ds ih =>
    intro c c' carry latest all ps hr hlen h
    simp only [callbacks] at h
    obtain ⟨⟨ret, next⟩, hrecv, h⟩ := bind_eq_ok.1 h
    obtain ⟨-, hsame, hcases⟩ := recv_cases hr (hlen d List.mem_cons_self) hrecv
    have hfirst : Completes c next latest (c.completed next).toList := by
      refine ⟨hsame.sockfd, hsame.sameConfig, ?_⟩
      rcases hcases with ⟨-, hping, hr'⟩ | ⟨-, m, rest, -, -, -, hping, hr'⟩
      · refine ⟨_, _, hr', ?_⟩
        unfold completed
        rw [if_pos hping]
        exact (lastPayload_nil latest).symm
      · refine ⟨_, _, hr', ?_⟩
        rw [completed_eq hping hr']
        rfl
    split at h
    · cases h
      exact hfirst
    · obtain ⟨⟨all', last, ps'⟩, hrest, h⟩ := bind_eq_ok.1 h
      cases h
      apply hfirst.trans
      intro carry₁ latest₁ hr₁
      exact ih hr₁ (fun x hx => hlen x (List.mem_cons_of_mem d hx)) hrest

theorem length_le_of_mem_body {s : P.State} {block : Block} {d : List UInt8}
    (h : d ∈ P.body s block.bytes) : d.length ≤ PTRDIFF_MAX := by
  have h₁ : d.length ≤ (P.body s block.bytes).flatten.length :=
    (List.sublist_flatten_of_mem h).length_le
  have h₂ := (P.body_sublist s block.bytes).length_le
  have h₃ := block.length_le
  unfold BUFFER_SIZE at h₃
  unfold PTRDIFF_MAX
  omega

theorem execute_cases {c c' : Connection P} {carry : List UInt8} {latest : Option Message}
    {block : Block} {ps : List (List UInt8)} (hr : Receiving c carry latest)
    (h : c.execute block.bytes = .ok (c', ps)) : Completes c c' latest ps := by
  unfold execute at h
  split at h
  · cases h
    exact .refl hr
  · obtain ⟨⟨all, next, payloads⟩, hcalls, h⟩ := bind_eq_ok.1 h
    cases h
    obtain ⟨hfd, hconfig, carry', latest', hr', hlast⟩ :=
      callbacks_cases hr (fun d hd => length_le_of_mem_body hd) hcalls
    exact ⟨hfd, ⟨hconfig.username, hconfig.password, hconfig.hostname, hconfig.channel⟩,
      ⟨carry', latest', (sameReceive_setParser next _).receiving hr', hlast⟩⟩

/-- The read loop returns true exactly when the reads end with would-block. -/
theorem readLoop_cases {recvs : List RecvResult} : ∀ {c c' : Connection P} {carry : List UInt8}
    {latest : Option Message} {ret : Bool} {ps : List (List UInt8)}, Receiving c carry latest →
    c.readLoop recvs = .ok (ret, c', ps) → Completes c c' latest ps ∧ ret = endsBlocked recvs := by
  induction recvs with
  | nil =>
    intro c c' carry latest ret ps _ h
    cases h
  | cons result rest ih =>
    intro c c' carry latest ret ps hr h
    cases result with
    | wouldBlock | shutdown | error =>
      cases h
      exact ⟨.refl hr, rfl⟩
    | data block =>
      rw [readLoop] at h
      obtain ⟨⟨next, payloads⟩, hexec, h⟩ := bind_eq_ok.1 h
      obtain ⟨⟨ret', last, more⟩, hrest, h⟩ := bind_eq_ok.1 h
      cases h
      have hfirst := execute_cases hr hexec
      obtain ⟨carry₁, latest₁, hr₁, -⟩ := hfirst.receiving
      refine ⟨hfirst.trans fun hr' => (ih hr' hrest).1, ?_⟩
      exact (ih hr₁ hrest).2

theorem writeLoop_cases {sends : List SendResult} : ∀ {c c' : Connection P} {ret : Option Bool}
    {sent : List UInt8}, c.writeLoop sends = .ok (ret, c', sent) →
    ∃ n, c' = { c with bytesWritten := n } ∧ ret ≠ some true := by
  induction sends with
  | nil =>
    intro c c' ret sent h
    unfold writeLoop at h
    split at h
    · cases h
      exact ⟨c.bytesWritten, rfl, by simp⟩
    · cases h
  | cons result rest ih =>
    intro c c' ret sent h
    unfold writeLoop at h
    split at h
    · cases h
      exact ⟨c.bytesWritten, rfl, by simp⟩
    simp only at h
    split at h
    · cases h
    obtain ⟨buffer, -, h⟩ := bind_eq_ok.1 h
    obtain ⟨src, -, h⟩ := bind_eq_ok.1 h
    cases result with
    | error | wouldBlock =>
      cases h
      exact ⟨c.bytesWritten, rfl, by simp⟩
    | sent n =>
      simp only at h
      split at h
      · cases h
        exact ⟨c.bytesWritten, rfl, by simp⟩
      · obtain ⟨⟨ret', c₁, sent'⟩, hrest, h⟩ := bind_eq_ok.1 h
        cases h
        obtain ⟨k, rfl, hret⟩ := ih hrest
        exact ⟨k, rfl, hret⟩

theorem checkConnected_cases (c : Connection P) (e : ProcessEnv) :
    ∃ connected, (c.checkConnected e).2 = { c with connected } := by
  unfold checkConnected
  split
  · exact ⟨c.connected, rfl⟩
  · split
    · exact ⟨c.connected, rfl⟩
    · exact ⟨c.connected, rfl⟩
    · split
      · exact ⟨c.connected, rfl⟩
      · split
        · exact ⟨c.connected, rfl⟩
        · exact ⟨c.connected, rfl⟩
        · split
          · exact ⟨c.connected, rfl⟩
          · exact ⟨true, rfl⟩

/-- **One call of process.** The socket was there and stays, messages are completed by the
callbacks; and when one was, the call returns true exactly when its reads end with would-block. -/
theorem process_cases {c : Connection P} {carry : List UInt8} {latest : Option Message}
    {e : ProcessEnv} {r : ProcessResult P} (hr : Receiving c carry latest)
    (h : c.process e = .ok r) : c.sockfd.isSome ∧ Completes c r.conn latest r.accepted ∧
      (r.accepted ≠ [] → r.ret = endsBlocked e.recvs) := by
  unfold process at h
  split at h
  · cases h
  rename_i hfd
  refine ⟨by simpa [Option.isSome_iff_ne_none] using hfd, ?_⟩
  have hsame : ∀ (n : Nat) (connected : Bool),
      Receiving { c with connected, bytesWritten := n } carry latest := by
    intro n connected
    have : SameReceive c { c with connected, bytesWritten := n } := ⟨rfl, rfl, rfl, rfl, rfl, rfl⟩
    exact this.receiving hr
  obtain ⟨connected, hcheck⟩ := checkConnected_cases c e
  split at h
  · rename_i ret c₁ heq
    rw [heq] at hcheck
    cases h
    cases hcheck
    exact ⟨(Completes.refl (hsame c.bytesWritten connected)).of_same rfl ⟨rfl, rfl, rfl, rfl⟩,
      fun hne => absurd rfl hne⟩
  · rename_i c₁ heq
    rw [heq] at hcheck
    cases hcheck
    obtain ⟨⟨ret, c₂, sent⟩, hwrite, h⟩ := bind_eq_ok.1 h
    obtain ⟨n, rfl, -⟩ := writeLoop_cases hwrite
    simp only at h
    split at h
    · cases h
      exact ⟨(Completes.refl (hsame n connected)).of_same rfl ⟨rfl, rfl, rfl, rfl⟩,
        fun hne => absurd rfl hne⟩
    · obtain ⟨⟨ret', c₃, accepted⟩, hread, h⟩ := bind_eq_ok.1 h
      cases h
      obtain ⟨hcomp, hret⟩ := readLoop_cases (hsame n connected) hread
      exact ⟨hcomp.of_same rfl ⟨rfl, rfl, rfl, rfl⟩, fun _ => hret⟩

end Connection

end Rsva11001
