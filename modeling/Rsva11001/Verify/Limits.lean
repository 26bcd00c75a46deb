import Rsva11001.Verify.Chunks

/-!
# The limits of the receiver

Three places in which the receive callback relies on sizes that it does not check: the 32-bit sum
that guards the footer comparison (`complete_iff`), the space that is left in the active buffer
(`accommodates_iff`), and the number of bytes behind a message (`overflowInRange_iff`).
-/

namespace Rsva11001

open Lib

namespace Connection

variable {P : HttpParser}

/-! ## The length field -/

/-- The callback on `data` finds `n` bytes in the active buffer `b` that start with a header whose
length field is `L`. -/
structure HeaderReceived (c : Connection P) (data : List UInt8) (b : ReceiveBuffer)
    (c' : Connection P) (L n : Nat) : Prop where
  stores : Stores c data b c'
  count : c'.activeReceiveBufferBytesReceived = n
  header : HEADER_SIZE ≤ n
  magic : b.read 0 4 = some HEADER
  length : ∃ field, b.read 4 4 = some field ∧ ntohl field = L

/-- The callback on `data` comes to swap the buffers: it has done so when it returns, or it halts
where it copies what is behind the message. -/
def Swaps (c : Connection P) (data : List UInt8) : Prop :=
  c.recv data = .error (.outOfRange .recvOverflow) ∨
    ∃ c', c.recv data = .ok (0, c') ∧ c'.ping ≠ c.ping

/-- The callback on `data` treats the message as complete. It does not leave it at the bytes it has
stored but compares the footer: outside the buffer, or without finding one, or it swaps. -/
def TakenComplete (c : Connection P) (data : List UInt8) (L n : Nat) : Prop :=
  ∃ b c', HeaderReceived c data b c' L n ∧ (c.recv data = .error (.outOfRange .recvFooter) ∨
    c.recv data = .ok (1, c') ∨ c.Swaps data)

/-- The callback on `data` treats a message as complete only when it is there, footer included; it
never looks for a footer outside the buffer, and swaps for no other reason. -/
structure LengthChecked (c : Connection P) (data : List UInt8) : Prop where
  complete : ∀ L n, TakenComplete c data L n → HEADER_SIZE + L + FOOTER_SIZE ≤ n
  inside : c.recv data ≠ .error (.outOfRange .recvFooter)
  swaps : c.Swaps data → ∃ L n, TakenComplete c data L n ∧ HEADER_SIZE + L + FOOTER_SIZE ≤ n

section Header

variable {c c' : Connection P} {data : List UInt8} {b : ReceiveBuffer} {L n : Nat}

/-- What follows a header. -/
theorem HeaderReceived.recv_eq (h : HeaderReceived c data b c' L n) :
    c.recv data = if totalLength L ≤ n then do
        let footer ← access .recvFooter (b.read (HEADER_SIZE + L) FOOTER_SIZE)
        if footer ≠ FOOTER then return (1, c')
        else do
          let this ← c'.recvSwap c.activeReceiveBufferBytesReceived (totalLength L) data
          return (0, this)
      else .ok (0, c') := by
  obtain ⟨field, hfield, rfl⟩ := h.length
  rw [h.stores.recv_eq]
  unfold recvInspect
  rw [if_neg (by rw [h.count]; exact Nat.not_lt.2 h.header)]
  simp only [h.magic, hfield, access_some, ok_bind, h.count]
  rw [if_neg (by simp)]
  rfl

theorem HeaderReceived.length_lt (h : HeaderReceived c data b c' L n) : L < 2 ^ 32 := by
  obtain ⟨field, hfield, rfl⟩ := h.length
  exact ntohl_lt (Region.length_of_read hfield)

/-- The store is checked, so that no more is received than the buffer has room for. -/
theorem Stores.received_le (h : Stores c data b c') :
    c'.activeReceiveBufferBytesReceived ≤ BASE_BUFFER_SIZE := by
  obtain ⟨side, sizeSide, buffer, space, -, -, -, -, -, hstore⟩ := h
  unfold recvStore at hstore
  obtain ⟨b', hwrite, hstore⟩ := bind_eq_ok.1 hstore
  cases hstore
  rw [access_eq_ok] at hwrite
  by_contra hlarge
  have hlarge : BASE_BUFFER_SIZE < c.activeReceiveBufferBytesReceived + min data.length space :=
    Nat.not_le.1 hlarge
  rw [Region.write_eq_none] at hwrite
  · cases hwrite
  · rw [List.length_take]
    omega

theorem Stores.ping (h : Stores c data b c') : c'.ping = c.ping := by
  obtain ⟨side, sizeSide, buffer, space, -, -, -, -, -, hstore⟩ := h
  unfold recvStore at hstore
  obtain ⟨b', -, hstore⟩ := bind_eq_ok.1 hstore
  cases hstore
  exact ping_set c side b

theorem recvStore_error {side : Side} {buffer : ReceiveBuffer} {space : Nat} {x : Halt}
    (h : c.recvStore side buffer data space = .error x) : x = .outOfRange .recvCopy := by
  by_contra hx
  exact (access_avoids hx _).bind (fun _ _ => avoids_ok _) h

theorem recvSwap_error {oldSize total : Nat} {x : Halt}
    (h : c.recvSwap oldSize total data = .error x) : x = .outOfRange .recvOverflow := by
  by_contra hx
  have havoids : Avoids x (c.recvSwap oldSize total data) := by
    unfold recvSwap
    refine (access_avoids hx _).bind fun _ _ => (access_avoids hx _).bind fun _ _ => ?_
    exact (access_avoids hx _).bind fun _ _ => (access_avoids hx _).bind fun _ _ => avoids_ok _
  exact havoids h

/-- A swap leaves the other buffer active. -/
theorem recvSwap_ping {oldSize total : Nat} (h : c.recvSwap oldSize total data = .ok c') :
    c'.ping ≠ c.ping := by
  unfold recvSwap at h
  obtain ⟨side, -, h⟩ := bind_eq_ok.1 h
  obtain ⟨b, -, h⟩ := bind_eq_ok.1 h
  obtain ⟨src, -, h⟩ := bind_eq_ok.1 h
  obtain ⟨b', -, h⟩ := bind_eq_ok.1 h
  cases h
  show (c.swapBuffers.setReceiveBuffer side b').ping ≠ c.ping
  rw [ping_set, ping_swap]
  simp

/-- What the callback does when it has received a header: it leaves it at the bytes stored, or it
looks for a footer outside the buffer, finds none, or swaps. -/
theorem HeaderReceived.recv_cases (h : HeaderReceived c data b c' L n) :
    n < totalLength L ∧ c.recv data = .ok (0, c') ∨
      totalLength L ≤ n ∧ (b.read (HEADER_SIZE + L) FOOTER_SIZE = none ∧
          c.recv data = .error (.outOfRange .recvFooter) ∨
        b.read (HEADER_SIZE + L) FOOTER_SIZE ≠ some FOOTER ∧ c.recv data = .ok (1, c') ∨
        b.read (HEADER_SIZE + L) FOOTER_SIZE = some FOOTER ∧ c.Swaps data) := by
  have hrecv := h.recv_eq
  by_cases hguard : totalLength L ≤ n
  · refine .inr ⟨hguard, ?_⟩
    rw [if_pos hguard] at hrecv
    cases hfooter : b.read (HEADER_SIZE + L) FOOTER_SIZE with
    | none =>
      rw [hfooter, access_none, error_bind] at hrecv
      exact .inl ⟨rfl, hrecv⟩
    | some footer =>
      rw [hfooter, access_some, ok_bind] at hrecv
      by_cases hmatch : footer = FOOTER
      · rw [if_neg (not_not.2 hmatch)] at hrecv
        refine .inr (.inr ⟨by rw [hmatch], ?_⟩)
        rw [Swaps, hrecv]
        cases hswap : c'.recvSwap c.activeReceiveBufferBytesReceived (totalLength L) data with
        | error x =>
          rw [recvSwap_error hswap]
          exact .inl rfl
        | ok d =>
          refine .inr ⟨d, rfl, ?_⟩
          rw [← h.stores.ping]
          exact recvSwap_ping hswap
      · rw [if_pos hmatch] at hrecv
        exact .inr (.inl ⟨by simpa using hmatch, hrecv⟩)
  · rw [if_neg hguard] at hrecv
    exact .inl ⟨Nat.not_le.1 hguard, hrecv⟩

/-- A callback that returns with the same buffer active has not swapped. -/
theorem not_swaps_of_ok {ret : Nat} (h : c.recv data = .ok (ret, c')) (hping : c'.ping = c.ping) :
    ¬ c.Swaps data := by
  rw [Swaps, h]
  rintro (⟨⟨⟩⟩ | ⟨d, hd, hne⟩)
  cases hd
  exact hne hping

theorem HeaderReceived.swaps_iff (h : HeaderReceived c data b c' L n) :
    c.Swaps data ↔ totalLength L ≤ n ∧ b.read (HEADER_SIZE + L) FOOTER_SIZE = some FOOTER := by
  have hping := h.stores.ping
  rcases h.recv_cases with ⟨hlt, hrecv⟩ | ⟨hle, ⟨hnone, hrecv⟩ | ⟨hne, hrecv⟩ | ⟨hfooter, hswaps⟩⟩
  · exact iff_of_false (not_swaps_of_ok hrecv hping) fun hguard =>
      absurd hguard.1 (Nat.not_le.2 hlt)
  · refine iff_of_false ?_ (by simp [hnone])
    rw [Swaps, hrecv]
    rintro (⟨⟨⟩⟩ | ⟨d, ⟨⟩, -⟩)
  · exact iff_of_false (not_swaps_of_ok hrecv hping) fun hguard => hne hguard.2
  · exact iff_of_true hswaps ⟨hle, hfooter⟩

/-- The message is taken as complete when the guard lets it through. -/
theorem HeaderReceived.taken_iff (h : HeaderReceived c data b c' L n) :
    TakenComplete c data L n ↔ totalLength L ≤ n := by
  constructor
  · rintro ⟨b₁, d, h₁, htaken⟩
    by_contra hguard
    obtain ⟨rfl, rfl⟩ := h.stores.unique h₁.stores
    rcases h.recv_cases with ⟨-, hrecv⟩ | ⟨hle, -⟩
    · rcases htaken with hfooter | hnone | hswaps
      · rw [hrecv] at hfooter
        cases hfooter
      · rw [hrecv] at hnone
        cases hnone
      · exact not_swaps_of_ok hrecv h.stores.ping hswaps
    · exact hguard hle
  · intro hguard
    refine ⟨b, c', h, ?_⟩
    rcases h.recv_cases with ⟨hlt, -⟩ | ⟨-, ⟨-, hrecv⟩ | ⟨-, hrecv⟩ | ⟨-, hswaps⟩⟩
    · exact absurd hguard (Nat.not_le.2 hlt)
    · exact .inl hrecv
    · exact .inr (.inl hrecv)
    · exact .inr (.inr hswaps)

/-- A callback that cannot store the data halts before it looks at them. -/
theorem stores_or_halts (c : Connection P) (data : List UInt8) : (∃ b c', Stores c data b c') ∨
    ∃ x, c.recv data = .error x ∧ x ≠ .outOfRange .recvFooter ∧ x ≠ .outOfRange .recvOverflow := by
  unfold recv
  cases hside : c.activeReceiveBuffer with
  | none => exact .inr ⟨_, rfl, by simp, by simp⟩
  | some side =>
    cases hbuffer : c.receiveBuffer side with
    | none => exact .inr ⟨_, by simp only [hbuffer, asserted_some, ok_bind]; rfl, by simp, by simp⟩
    | some buffer =>
      cases hsize : c.activeReceiveBufferSize with
      | none =>
        exact .inr ⟨_, by simp only [hbuffer, asserted_some, ok_bind]; rfl, by simp, by simp⟩
      | some sizeSide =>
        simp only [hbuffer, asserted_some, ok_bind]
        split
        · exact .inr ⟨_, rfl, by simp, by simp⟩
        rename_i hspace
        cases hstore : c.recvStore side buffer data (subFast (c.receiveBufferSize sizeSide)
            c.activeReceiveBufferBytesReceived) with
        | ok stored =>
          exact .inl ⟨_, _, side, sizeSide, buffer, _, hside, hbuffer, hsize, rfl, hspace, hstore⟩
        | error x =>
          obtain rfl := recvStore_error hstore
          exact .inr ⟨_, rfl, by simp, by simp⟩

/-- A callback looks for a footer, and swaps, only when it has received a header. -/
theorem header_of_recv (h : c.recv data = .error (.outOfRange .recvFooter) ∨ c.Swaps data) :
    ∃ b c' L n, HeaderReceived c data b c' L n := by
  rcases stores_or_halts c data with ⟨b, c', hstores⟩ | ⟨x, hrecv, hfooter, hoverflow⟩
  · have hrecv := hstores.recv_eq
    have hnot : ∀ ret, c.recv data ≠ .ok (ret, c') := by
      intro ret hret
      rcases h with h | h
      · rw [hret] at h
        cases h
      · exact not_swaps_of_ok hret hstores.ping h
    have hhalt : c.recv data ≠ .error (.outOfRange .recvHeader) := by
      intro hret
      rw [Swaps, hret] at h
      rcases h with ⟨⟨⟩⟩ | ⟨⟨⟩⟩ | ⟨d, ⟨⟩, -⟩
    unfold recvInspect at hrecv
    split at hrecv
    · exact absurd hrecv (hnot 0)
    rename_i hheader
    cases hmagic : b.read 0 4 with
    | none =>
      rw [hmagic] at hrecv
      exact absurd hrecv hhalt
    | some magic =>
      by_cases hgood : magic = HEADER
      · subst hgood
        cases hfield : b.read 4 4 with
        | none =>
          simp only [hmagic, hfield, access_some, access_none, ok_bind, error_bind, ne_eq,
            not_true_eq_false, if_false] at hrecv
          exact absurd hrecv hhalt
        | some field =>
          exact ⟨b, c', _, _, hstores, rfl, Nat.not_lt.1 hheader, hmagic, field, hfield, rfl⟩
      · rw [hmagic, access_some, ok_bind, if_pos hgood] at hrecv
        exact absurd hrecv (hnot 1)
  · rw [Swaps, hrecv] at h
    rcases h with h | h | ⟨d, ⟨⟩, -⟩
    · exact absurd (Except.error.inj h) hfooter
    · exact absurd (Except.error.inj h) hoverflow

end Header

/-- **The length field.** A message is treated as complete only when it is there, footer included,
exactly when the sum of the sizes does not wrap below what has been received. -/
theorem complete_iff (c : Connection P) (data : List UInt8) : LengthChecked c data ↔
    ∀ b c' L n, HeaderReceived c data b c' L n → L + 12 < 2 ^ 32 ∨ n + 2 ^ 32 < L + 12 := by
  constructor
  · intro hall b c' L n h
    by_contra hwrap
    push Not at hwrap
    have hL := h.length_lt
    have hle := h.stores.received_le
    rw [h.count] at hle
    have htotal : totalLength L ≤ n := by
      simp only [totalLength, HEADER_SIZE, FOOTER_SIZE]
      omega
    have := hall.complete L n (h.taken_iff.2 htotal)
    simp only [HEADER_SIZE, FOOTER_SIZE] at this
    unfold BASE_BUFFER_SIZE at hle
    omega
  · intro hall
    have hcomplete : ∀ L n, TakenComplete c data L n → HEADER_SIZE + L + FOOTER_SIZE ≤ n := by
      intro L n htaken
      obtain ⟨b, c', h, -⟩ := id htaken
      have htotal := h.taken_iff.1 htaken
      have hL := h.length_lt
      simp only [totalLength, HEADER_SIZE, FOOTER_SIZE] at htotal ⊢
      rcases hall b c' L n h with hsmall | hlarge
      · omega
      · omega
    refine ⟨hcomplete, fun hfooter => ?_, fun hswaps => ?_⟩
    · obtain ⟨b, c', L, n, h⟩ := header_of_recv (.inl hfooter)
      have hle := hcomplete L n ⟨b, c', h, .inl hfooter⟩
      have hcap := h.stores.received_le
      rw [h.count] at hcap
      have hread := @Region.read_eq_some _ _ b (HEADER_SIZE + L) FOOTER_SIZE (by omega)
      rcases h.recv_cases with ⟨-, hrecv⟩ | ⟨-, ⟨hnone, -⟩ | ⟨-, hrecv⟩ | ⟨-, hswaps⟩⟩
      · rw [hrecv] at hfooter
        cases hfooter
      · rw [hread] at hnone
        cases hnone
      · rw [hrecv] at hfooter
        cases hfooter
      · rw [Swaps, hfooter] at hswaps
        rcases hswaps with ⟨⟨⟩⟩ | ⟨d, ⟨⟩, -⟩
    · obtain ⟨b, c', L, n, h⟩ := header_of_recv (.inr hswaps)
      have htaken : TakenComplete c data L n := ⟨b, c', h, .inr (.inr hswaps)⟩
      exact ⟨L, n, htaken, hcomplete L n htaken⟩

section Receiving

variable {c : Connection P} {carry data : List UInt8} {latest : Option Message}

theorem headerReceived_of_receiving (h : Receiving c carry latest)
    (hroom : carry.length < BASE_BUFFER_SIZE) (h8 : 8 ≤ (received carry data).length)
    (hmagic : (received carry data).take 4 = HEADER) : ∃ b c',
      HeaderReceived c data b c' (lengthField (received carry data))
        (received carry data).length ∧
      Receiving c' (received carry data) latest ∧ c'.receiveBuffer c'.active = some b := by
  obtain ⟨b, c', hstores, hrec, -, -, hb⟩ := stores_of_receiving h hroom data
  refine ⟨b, c', ⟨hstores, hrec.received, h8, ?_, ?_⟩, hrec, hb⟩
  · rw [read_active hrec hb (by omega), List.drop_zero, hmagic]
  · exact ⟨_, read_active hrec hb (by omega), rfl⟩

theorem HeaderReceived.of_receiving {c' : Connection P} {b : ReceiveBuffer} {L n : Nat}
    (hh : HeaderReceived c data b c' L n) (h : Receiving c carry latest) :
    carry.length < BASE_BUFFER_SIZE ∧ 8 ≤ (received carry data).length ∧
      L = lengthField (received carry data) ∧ n = (received carry data).length := by
  have hroom : carry.length < BASE_BUFFER_SIZE := by
    by_contra hfull
    have hfull : carry.length = BASE_BUFFER_SIZE := Nat.le_antisymm h.carry_le (Nat.not_lt.1 hfull)
    obtain ⟨side, sizeSide, buffer, space, -, -, -, rfl, hspace, -⟩ := hh.stores
    rw [h.size, h.received, hfull] at hspace
    exact hspace (by decide)
  obtain ⟨b', d, hstores, hrec, -, -, hb⟩ := stores_of_receiving h hroom data
  obtain ⟨rfl, rfl⟩ := hh.stores.unique hstores
  have hn : n = (received carry data).length := hh.count.symm.trans hrec.received
  have h8 : 8 ≤ (received carry data).length := hn ▸ hh.header
  obtain ⟨field, hfield, rfl⟩ := hh.length
  rw [read_active hrec hb (by omega)] at hfield
  cases hfield
  exact ⟨hroom, h8, rfl, hn⟩

end Receiving

/-- A header whose length field is the least for which the sum wraps. -/
def wrappingHeader : List UInt8 :=
  HEADER ++ [255, 255, 255, 244]

/-- Of eight bytes received a message is found to be complete that has 2 ^ 32 bytes, and its footer
is looked for behind the buffer. -/
theorem not_complete : FreshlyOpened (sampleOpen .untilEof) ∧
    TakenComplete (sampleOpen .untilEof) wrappingHeader 4294967284 8 ∧
      ¬ HEADER_SIZE + 4294967284 + FOOTER_SIZE ≤ 8 ∧
      (sampleOpen .untilEof).recv wrappingHeader = .error (.outOfRange .recvFooter) ∧
      ¬ LengthChecked (sampleOpen .untilEof) wrappingHeader := by
  have hc := freshlyOpened_sampleOpen .untilEof
  obtain ⟨b, c', hh, -⟩ := @headerReceived_of_receiving _ _ [] wrappingHeader none hc.receiving.1
    (by decide) (by decide) (by decide)
  have hrecv : (sampleOpen .untilEof).recv wrappingHeader = .error (.outOfRange .recvFooter) := by
    rw [hh.recv_eq, if_pos (by decide), Region.read_eq_none]
    · rfl
    · decide
  exact ⟨hc, ⟨b, c', hh, .inl hrecv⟩, by decide, hrecv, fun hall => hall.inside hrecv⟩

/-! ## The space in the active buffer -/

/-- The bytes `s` are in the active buffer, or they are the message just completed. -/
def Kept (c : Connection P) (s : List UInt8) : Prop :=
  ∃ side, c.activeReceiveBuffer = some side ∧
    ((∃ b, c.receiveBuffer side = some b ∧ c.activeReceiveBufferBytesReceived = s.length ∧
        b.cells.take s.length = s) ∨
      ∃ b, c.receiveBuffer side.other = some b ∧ c.activeReceiveBufferBytesReceived = 0 ∧
        s <+: b.cells)

/-- From `c` on, until a callback returns something else than 0, no callback fails the assertion
that there is space left, and when one returns 0, all the bytes handed over are kept. -/
def Accommodates (c : Connection P) (cs : List (List UInt8)) : Prop :=
  ∀ front d back rets c₁, cs = front ++ d :: back → c.feed front = .ok (rets, c₁) →
    (∀ ret ∈ rets, ret = 0) →
    c₁.recv d ≠ .error (.assertFailed .recvSpaceRemaining) ∧
      ∀ c₂, c₁.recv d = .ok (0, c₂) → Kept c₂ (front ++ [d]).flatten

section Front

variable {m : Message} (hL : m.payload.length < 2 ^ 32 - 12)

include hL in
/-- A callback that is still within a message keeps what there is room for. -/
theorem recv_front {c : Connection P} {carry d : List UInt8} {latest : Option Message}
    (h : Receiving c carry latest) (hroom : carry.length < BASE_BUFFER_SIZE)
    (hpre : received carry d <+: m.encode) (hlt : (received carry d).length < m.encode.length) :
    ∃ c', c.recv d = .ok (0, c') ∧ Receiving c' (received carry d) latest := by
  have hwrap : ¬ Wraps (received carry d) := by
    rintro ⟨h8, -, hbig, -⟩
    rw [lengthField_front hpre h8] at hbig
    omega
  obtain ⟨c', hrecv, hrec, -, -⟩ := recv_more h hroom (scanMessage_front hpre hlt) hwrap
  exact ⟨c', hrecv, hrec⟩

include hL in
theorem feed_front {cs : List (List UInt8)} : ∀ {c : Connection P} {carry : List UInt8}
    {latest : Option Message}, Receiving c carry latest → carry ++ cs.flatten <+: m.encode →
    (carry ++ cs.flatten).length < m.encode.length →
    (carry ++ cs.flatten).length ≤ BASE_BUFFER_SIZE → (∀ d ∈ cs, d ≠ []) →
    ∃ c', c.feed cs = .ok (List.replicate cs.length 0, c') ∧
      Receiving c' (carry ++ cs.flatten) latest := by
  induction cs with
  | nil =>
    intro c carry latest h _ _ _ _
    rw [List.flatten_nil, List.append_nil]
    exact ⟨c, rfl, h⟩
  | cons d cs ih =>
    intro c carry latest h hpre hlt hle hne
    rw [List.flatten_cons, ← List.append_assoc] at hpre hlt hle ⊢
    have hd := List.length_pos_of_ne_nil (hne d List.mem_cons_self)
    have hall : (carry ++ d).length ≤ (carry ++ d ++ cs.flatten).length := by
      rw [@List.length_append _ (carry ++ d)]
      omega
    have hrecd : received carry d = carry ++ d := received_eq (by omega)
    have hroom : carry.length < BASE_BUFFER_SIZE := by
      rw [List.length_append] at hall
      omega
    obtain ⟨c₁, hrecv, hrec⟩ := recv_front hL h hroom
      (by rw [hrecd]; exact (List.prefix_append _ _).trans hpre) (by rw [hrecd]; omega)
    rw [hrecd] at hrec
    obtain ⟨c', hfeed, hrec'⟩ := ih hrec hpre hlt hle fun x hx => hne x (List.mem_cons_of_mem d hx)
    refine ⟨c', ?_, hrec'⟩
    rw [feed, hrecv]
    simp only [ok_bind, hfeed]
    rfl

end Front

theorem flatten_concat (front : List (List UInt8)) (d : List UInt8) :
    (front ++ [d]).flatten = front.flatten ++ d := by
  rw [List.flatten_append, List.flatten_singleton]

theorem kept_of_receiving {c : Connection P} {s : List UInt8} {latest : Option Message}
    (h : Receiving c s latest) : Kept c s := by
  obtain ⟨b, hb, hfront⟩ := h.front
  exact ⟨c.active, h.pointer, .inl ⟨b, hb, h.received, hfront⟩⟩

theorem kept_of_completed {c : Connection P} {m : Message} (h : Receiving c [] (some m)) :
    Kept c m.encode := by
  obtain ⟨b, hb, hlast⟩ := h.back
  exact ⟨c.active, h.pointer, .inr ⟨b, hb, h.received, hlast⟩⟩

/-- Bytes of a message that does not fit are lost, or the buffer is full when more arrive. -/
theorem Accommodates.fits {c : Connection P} (hr : Receiving c [] none) {m : Message}
    (hL : m.payload.length < 2 ^ 32 - 12) {cs : List (List UInt8)} (hcut : cs.flatten = m.encode)
    (hcs : ∀ d ∈ cs, d ≠ []) (hall : Accommodates c cs) : m.payload.length ≤ MAX_PAYLOAD := by
  have hlen := congrArg List.length hcut
  rw [m.length_encode] at hlen
  by_contra hlarge
  have hcap : BASE_BUFFER_SIZE < cs.flatten.length := by
    unfold MAX_PAYLOAD at hlarge
    omega
  obtain ⟨front, d, back, rfl, hle, hcross⟩ := exists_crossing hcap
  have hstream : front.flatten ++ (d ++ back.flatten) = m.encode := by
    rw [← hcut, List.flatten_append, List.flatten_cons]
  obtain ⟨c₁, hfeed, hrec⟩ := @feed_front _ _ hL front _ _ _ hr
    ⟨d ++ back.flatten, hstream⟩ (by rw [m.length_encode, List.nil_append]; omega) hle
    fun x hx => hcs x (List.mem_append_left _ hx)
  rw [List.nil_append] at hrec
  obtain ⟨hassert, hkept⟩ := hall front d back _ c₁ rfl hfeed
    fun ret hret => List.eq_of_mem_replicate hret
  by_cases hfull : front.flatten.length = BASE_BUFFER_SIZE
  · exact hassert (recv_full hrec hfull d)
  have hrecd := length_received front.flatten d
  have hpre : received front.flatten d <+: m.encode := by
    refine (List.take_prefix _ _).trans ⟨back.flatten, ?_⟩
    rw [List.append_assoc, hstream]
  obtain ⟨c₂, hrecv, hrec₂⟩ := recv_front hL hrec (by omega) hpre
    (by rw [m.length_encode]; omega)
  obtain ⟨side, -, ⟨b, -, hcount, -⟩ | ⟨b, -, hcount, -⟩⟩ := hkept c₂ hrecv
  · rw [hrec₂.received, flatten_concat, List.length_append] at hcount
    omega
  · rw [hrec₂.received] at hcount
    unfold BASE_BUFFER_SIZE at *
    omega

/-- **The size of a message.** Of a message that is sent whole, in any cut, no byte is lost and no
assertion fails exactly when the message fits the receive buffer. -/
theorem accommodates_iff {c : Connection P} (hc : FreshlyOpened c) {m : Message}
    (hL : m.payload.length < 2 ^ 32 - 12) {cs : List (List UInt8)} (hcut : cs.flatten = m.encode)
    (hcs : ∀ d ∈ cs, d ≠ [] ∧ d.length ≤ BUFFER_SIZE) :
    Accommodates c cs ↔ m.payload.length ≤ MAX_PAYLOAD := by
  have hr := hc.receiving.1
  constructor
  · exact fun hall => hall.fits hr hL hcut fun d hd => (hcs d hd).1
  · rintro hfits front d back rets c₁ rfl hfeed -
    have hstream : front.flatten ++ d ++ back.flatten = m.encode := by
      rw [← hcut, List.flatten_append, List.flatten_cons, List.append_assoc]
    obtain ⟨hd, hmost⟩ := hcs d (List.mem_append_right _ List.mem_cons_self)
    have hpos := List.length_pos_of_ne_nil hd
    have htotal : m.encode.length ≤ BASE_BUFFER_SIZE := by
      rw [m.length_encode]
      unfold MAX_PAYLOAD BASE_BUFFER_SIZE at *
      omega
    have hsum := congrArg List.length hstream
    rw [List.length_append, List.length_append] at hsum
    obtain ⟨c₁', hfeed', hrec⟩ := @feed_front _ _ hL front _ _ _ hr
      ⟨d ++ back.flatten, by rw [List.nil_append, ← List.append_assoc, hstream]⟩
      (by rw [List.nil_append]; omega) (by rw [List.nil_append]; omega)
      fun x hx => (hcs x (List.mem_append_left _ hx)).1
    rw [List.nil_append] at hrec
    obtain ⟨-, rfl⟩ : _ ∧ c₁' = c₁ := by simpa using hfeed'.symm.trans hfeed
    rw [flatten_concat]
    by_cases hback : back.flatten = []
    · -- the last chunk
      rw [hback, List.append_nil] at hstream
      obtain ⟨c₂, hrecv, hrec₂, -⟩ := recv_frame hrec (by omega)
        (Nat.le_trans hmost (by decide)) (by rw [hstream, List.append_nil]) htotal (by omega)
        (Nat.zero_le _)
      refine ⟨by rw [hrecv]; rintro ⟨⟩, fun c₃ h₃ => ?_⟩
      obtain rfl : c₂ = c₃ := by simpa [hrecv] using h₃
      rw [hstream]
      exact kept_of_completed hrec₂
    · have hmore := List.length_pos_of_ne_nil hback
      have hrecd : received front.flatten d = front.flatten ++ d :=
        received_eq (by rw [List.length_append]; omega)
      obtain ⟨c₂, hrecv, hrec₂⟩ := recv_front hL hrec (by omega)
        (by rw [hrecd, ← hstream]; exact List.prefix_append _ _)
        (by rw [hrecd, List.length_append]; omega)
      refine ⟨by rw [hrecv]; rintro ⟨⟩, fun c₃ h₃ => ?_⟩
      obtain rfl : c₂ = c₃ := by simpa [hrecv] using h₃
      rw [← hrecd]
      exact kept_of_receiving hrec₂

theorem accommodates_iff_sample : Accommodates (sampleOpen .untilEof)
    [sampleMessage.encode.take 6, sampleMessage.encode.drop 6] :=
  (@accommodates_iff _ _ (freshlyOpened_sampleOpen .untilEof) sampleMessage (by decide)
    [sampleMessage.encode.take 6, sampleMessage.encode.drop 6] (by decide) (by decide)).2
      (by decide)

/-- A message that is one byte too large. -/
def tooLarge : Message :=
  ⟨List.replicate 32755 0, by rw [List.length_replicate]; decide⟩

/-- The message in two reads and one byte. -/
def tooLargeCut : List (List UInt8) :=
  [tooLarge.encode.take BUFFER_SIZE, (tooLarge.encode.drop BUFFER_SIZE).take BUFFER_SIZE,
    (tooLarge.encode.drop BUFFER_SIZE).drop BUFFER_SIZE]

theorem not_accommodates : FreshlyOpened (sampleOpen .untilEof) ∧
    tooLarge.payload.length < 2 ^ 32 - 12 ∧ tooLargeCut.flatten = tooLarge.encode ∧
      (∀ d ∈ tooLargeCut, d ≠ [] ∧ d.length ≤ BUFFER_SIZE) ∧
      ¬ Accommodates (sampleOpen .untilEof) tooLargeCut := by
  have hc := freshlyOpened_sampleOpen .untilEof
  have hpayload : tooLarge.payload.length = 32755 := List.length_replicate
  have hlen : tooLarge.encode.length = 32767 := by rw [Message.length_encode, hpayload]
  have hcut : tooLargeCut.flatten = tooLarge.encode := by
    simp only [tooLargeCut, List.flatten_cons, List.flatten_nil, List.append_nil,
      List.take_append_drop]
  have hcs : ∀ d ∈ tooLargeCut, d ≠ [] ∧ d.length ≤ BUFFER_SIZE := by
    intro d hd
    rw [← List.length_pos_iff]
    simp only [tooLargeCut, List.mem_cons, List.not_mem_nil, or_false] at hd
    rcases hd with hd | hd | hd
    all_goals
      rw [hd]
      simp only [List.length_take, List.length_drop, hlen, BUFFER_SIZE]
      omega
  refine ⟨hc, by rw [hpayload]; decide, hcut, hcs, fun hall => ?_⟩
  have := hall.fits hc.receiving.1 (by rw [hpayload]; decide) hcut fun d hd => (hcs d hd).1
  unfold MAX_PAYLOAD BASE_BUFFER_SIZE at this
  omega

/-! ## The bytes behind a message -/

/-- The callback on `data` completes a message of `total` bytes, so that it swaps the buffers and
copies what is behind the message. -/
def CompletesMessage (c : Connection P) (data : List UInt8) (total : Nat) : Prop :=
  ∃ b c' L n, HeaderReceived c data b c' L n ∧ total = totalLength L ∧ c.Swaps data

/-- Whenever a callback completes a message, the message has as many bytes as were there before,
the rest of it is within the data, and what is behind it fits the other buffer; and no callback
leaves more bytes in the active buffer than it has room for. -/
def OverflowInRange (c : Connection P) (cs : List (List UInt8)) : Prop :=
  ∀ front d back rets c₁, cs = front ++ d :: back → c.feed front = .ok (rets, c₁) →
    (∀ total, CompletesMessage c₁ d total → c₁.activeReceiveBufferBytesReceived ≤ total ∧
      total - c₁.activeReceiveBufferBytesReceived ≤ d.length ∧
      d.length - (total - c₁.activeReceiveBufferBytesReceived) ≤ BASE_BUFFER_SIZE) ∧
    ∀ ret c₂, c₁.recv d = .ok (ret, c₂) →
      c₂.activeReceiveBufferBytesReceived ≤ BASE_BUFFER_SIZE

section Completes

variable {c : Connection P} {carry data : List UInt8} {latest : Option Message} {m : Message}

theorem completesMessage_of_receiving (h : Receiving c carry latest)
    (hroom : carry.length < BASE_BUFFER_SIZE) {r : List UInt8}
    (hs : received carry data = m.encode ++ r) : CompletesMessage c data m.encode.length := by
  have hlen : (received carry data).length = 12 + m.payload.length + r.length := by
    rw [hs, List.length_append, m.length_encode]
  have hfield : lengthField (received carry data) = m.payload.length := by
    rw [hs]
    exact m.lengthField_encode r
  obtain ⟨b, c', hh, hrec, hb⟩ := @headerReceived_of_receiving _ _ _ data _ h hroom (by omega)
    (by rw [hs, m.take_encode])
  have hcap := hrec.carry_le
  rw [hfield] at hh
  have htotal : m.encode.length = totalLength m.payload.length := by
    simp only [totalLength, HEADER_SIZE, FOOTER_SIZE, m.length_encode]
    unfold BASE_BUFFER_SIZE at hcap
    omega
  refine ⟨b, c', _, _, hh, htotal, hh.swaps_iff.2 ⟨?_, ?_⟩⟩
  · rw [← htotal, m.length_encode]
    omega
  · rw [read_active hrec hb (by simp only [HEADER_SIZE, FOOTER_SIZE]; omega), hs]
    exact congrArg some (m.footer_encode r)

/-- Within a message that fits none is completed. -/
theorem not_completesMessage (h : Receiving c carry latest)
    (hpart : jpgs.Partial BASE_BUFFER_SIZE (carry ++ data)) (total : Nat) :
    ¬ CompletesMessage c data total := by
  rintro ⟨b, c', L, n, hh, rfl, hswaps⟩
  have hle := (hh.swaps_iff.1 hswaps).1
  obtain ⟨m, hpre, hlt, hcap⟩ := hpart
  rw [jpgs_encode] at hpre hlt hcap
  have hrecd : received carry data = carry ++ data := received_eq (by omega)
  obtain ⟨-, h8, rfl, rfl⟩ := hh.of_receiving h
  rw [hrecd] at h8 hle
  rw [lengthField_front hpre h8] at hle
  rw [m.length_encode] at hlt hcap
  simp only [totalLength, HEADER_SIZE, FOOTER_SIZE] at hle
  unfold BASE_BUFFER_SIZE at hcap
  omega

/-- The message completed is the one that what has been received starts with. -/
theorem CompletesMessage.total_eq (h : Receiving c carry latest) {r : List UInt8} {total : Nat}
    (hs : received carry data = m.encode ++ r) (hcomp : CompletesMessage c data total) :
    total = m.encode.length := by
  obtain ⟨b, c', L, n, hh, rfl, -⟩ := hcomp
  obtain ⟨-, -, rfl, -⟩ := hh.of_receiving h
  have hcap := length_received carry data
  have hlen := congrArg List.length hs
  have hfield : lengthField (received carry data) = m.payload.length := by
    rw [hs]
    exact m.lengthField_encode r
  rw [List.length_append, m.length_encode] at hlen
  rw [hfield, m.length_encode]
  simp only [totalLength, HEADER_SIZE, FOOTER_SIZE]
  unfold BASE_BUFFER_SIZE at hcap
  omega

end Completes

/-- A callback of the reader that keeps up. -/
theorem overflow_of_reads {c : Connection P} {carry d r : List UInt8} {latest : Option Message}
    {back : List (List UInt8)} {ms : List Message} (h : Receiving c carry latest)
    (hreads : jpgs.Reads BASE_BUFFER_SIZE carry (d :: back) ms r) (hd : d.length ≤ BUFFER_SIZE)
    {total : Nat} (hcomp : CompletesMessage c d total) :
    c.activeReceiveBufferBytesReceived ≤ total ∧
      total - c.activeReceiveBufferBytesReceived ≤ d.length ∧
      d.length - (total - c.activeReceiveBufferBytesReceived) ≤ BASE_BUFFER_SIZE := by
  cases hreads with
  | keep hpart _ => exact absurd hcomp (not_completesMessage h hpart total)
  | @emit _ _ rest _ m _ _ hframe hle hroom hcap _ =>
    rw [jpgs_encode] at hframe hle hcap
    have hs := received_front hframe hcap
    have hlen := congrArg List.length hframe
    rw [List.length_append, List.length_append] at hlen
    rw [hcomp.total_eq h hs, h.received]
    unfold BUFFER_SIZE at hd
    unfold BASE_BUFFER_SIZE
    omega

/-- A chunk that arrives when a whole message and more is carried completes that message. -/
theorem overflow_of_late {c : Connection P} {m : Message} {rest d : List UInt8}
    {latest : Option Message} (h : Receiving c (m.encode ++ rest) latest) (hrest : rest ≠ [])
    (hroom : (m.encode ++ rest).length < BASE_BUFFER_SIZE) :
    CompletesMessage c d m.encode.length ∧
      m.encode.length < c.activeReceiveBufferBytesReceived := by
  have hpos := List.length_pos_of_ne_nil hrest
  have hm : m.encode.length ≤ BASE_BUFFER_SIZE := by
    rw [List.length_append] at hroom
    omega
  refine ⟨completesMessage_of_receiving h hroom (received_front (List.append_assoc _ _ _) hm), ?_⟩
  rw [h.received, List.length_append]
  omega

theorem OverflowInRange.keepsUp {c : Connection P} (hrec : Receiving c [] none) {ms : List Message}
    {r : List UInt8} {cs : List (List UInt8)} (hcut : Cut ms r cs) (hr : Beginning r)
    (hall : OverflowInRange c cs) : jpgs.KeepsUp 0 ms cs := by
  rcases hcut.taken_or_late hr with
    ⟨hkeep, -⟩ | ⟨-, front, d, back, taken, m, rest, rfl, hreads, hne, hroom⟩
  · exact hkeep
  · obtain ⟨c₁, hfeed, h₁⟩ := feed_reads hreads hrec
      fun x hx => (hcut.chunk x (List.mem_append_left _ hx)).2
    obtain ⟨hcomp, hlt⟩ := @overflow_of_late _ c₁ m rest d _ h₁ hne hroom
    exact absurd ((hall front d back _ c₁ rfl hfeed).1 _ hcomp).1 (Nat.not_le.2 hlt)

/-- **The copy behind a message.** On a cut of a stream of messages that fit it stays in range
exactly when the reader that takes at most one message per chunk keeps up. -/
theorem overflowInRange_iff {c : Connection P} (hc : FreshlyOpened c) {ms : List Message}
    {r : List UInt8} {cs : List (List UInt8)} (hcut : Cut ms r cs) (hr : Beginning r) :
    OverflowInRange c cs ↔ jpgs.KeepsUp 0 ms cs := by
  have hrec := hc.receiving.1
  have hlen : ∀ d ∈ cs, d.length ≤ BUFFER_SIZE := fun d hd => (hcut.chunk d hd).2
  refine ⟨fun hall => hall.keepsUp hrec hcut hr, fun hkeep => ?_⟩
  rcases hcut.taken_or_late hr with ⟨-, taken, -, hreads⟩ | ⟨hno, -⟩
  · rintro front d back rets c₁ rfl hfeed
    have hd : d.length ≤ BUFFER_SIZE := hlen d (List.mem_append_right _ List.mem_cons_self)
    obtain ⟨ms₁, ms₂, mid, hfront, hback⟩ := hreads.split
    obtain ⟨c₁', hfeed', h₁⟩ := feed_reads hfront hrec
      fun x hx => hlen x (List.mem_append_left _ hx)
    obtain ⟨-, rfl⟩ : _ ∧ c₁' = c₁ := by simpa using hfeed'.symm.trans hfeed
    refine ⟨fun total hcomp => overflow_of_reads h₁ hback hd hcomp, fun ret c₂ hrecv => ?_⟩
    obtain ⟨-, -, ⟨-, -, h₂⟩ | ⟨-, m, rest, -, -, -, -, h₂⟩⟩ :=
      recv_cases h₁ (Nat.le_trans hd (by decide)) hrecv
    · exact h₂.received ▸ h₂.carry_le
    · exact h₂.received ▸ h₂.carry_le
  · exact absurd hkeep hno

theorem overflowInRange_iff_sample : OverflowInRange (sampleOpen .untilEof)
    [sampleMessage.encode ++ otherMessage.encode.take 3, otherMessage.encode.drop 3] :=
  (@overflowInRange_iff _ _ (freshlyOpened_sampleOpen .untilEof) [sampleMessage, otherMessage] []
    _ ⟨by decide, by decide, by decide⟩ beginning_nil).2 (by decide)

/-- Two messages and one byte more in one chunk: the next chunk completes the second message, of
which more than the whole is there. -/
theorem not_overflowInRange : FreshlyOpened (sampleOpen .untilEof) ∧
    Cut [sampleMessage, otherMessage, sampleMessage] []
      [sampleMessage.encode ++ otherMessage.encode ++ [74], sampleMessage.encode.drop 1] ∧
    ¬ OverflowInRange (sampleOpen .untilEof)
      [sampleMessage.encode ++ otherMessage.encode ++ [74], sampleMessage.encode.drop 1] := by
  have hc := freshlyOpened_sampleOpen .untilEof
  have hcut : Cut [sampleMessage, otherMessage, sampleMessage] []
      [sampleMessage.encode ++ otherMessage.encode ++ [74], sampleMessage.encode.drop 1] :=
    ⟨by decide, by decide, by decide⟩
  refine ⟨hc, hcut, fun hall => ?_⟩
  have hkeep := hall.keepsUp hc.receiving.1 hcut beginning_nil
  revert hkeep
  decide

end Connection

end Rsva11001
