import Rsva11001.Verify.Message

/-!
# What one receive callback does

`Receiving c carry latest`: the connection `c` has the bytes `carry` of an incomplete message in
its active buffer, and its inactive buffer starts with the last message it completed, if any. The
relation fixes both pointers, both sizes and the byte count, and says nothing of the bytes of
older messages that are still in the buffers.

From such a state the callback on `data` behaves as the scan of `carry ++ data`, cut to the size
of the buffer, says (`recv_full` to `recv_late`); `recv_cases` collects what a callback
that returns can have done. `getLatestImage_eq`: the image retrieved is the last message's.
-/

namespace Rsva11001

open Lib

namespace Connection

variable {P : HttpParser}

/-- The fields the receive path does not write. -/
structure SameControl (c c' : Connection P) : Prop where
  sockfd : c'.sockfd = c.sockfd
  username : c'.username = c.username
  password : c'.password = c.password
  hostname : c'.hostname = c.hostname
  channel : c'.channel = c.channel
  outputBuffer : c'.outputBuffer = c.outputBuffer
  outputLength : c'.outputLength = c.outputLength
  bytesWritten : c'.bytesWritten = c.bytesWritten
  parser : c'.parser = c.parser
  connected : c'.connected = c.connected

theorem SameControl.refl (c : Connection P) : SameControl c c :=
  ⟨rfl, rfl, rfl, rfl, rfl, rfl, rfl, rfl, rfl, rfl⟩

theorem SameControl.trans {c c' c'' : Connection P} (h : SameControl c c')
    (h' : SameControl c' c'') : SameControl c c'' :=
  ⟨h'.sockfd.trans h.sockfd, h'.username.trans h.username, h'.password.trans h.password,
    h'.hostname.trans h.hostname, h'.channel.trans h.channel,
    h'.outputBuffer.trans h.outputBuffer, h'.outputLength.trans h.outputLength,
    h'.bytesWritten.trans h.bytesWritten, h'.parser.trans h.parser,
    h'.connected.trans h.connected⟩

/-! ## The buffers -/

section Buffers

variable (c : Connection P) (s : Side) (b : ReceiveBuffer)

@[simp] theorem receiveBuffer_set : (c.setReceiveBuffer s b).receiveBuffer s = some b := by
  cases s <;> rfl

@[simp] theorem receiveBuffer_set_other :
    (c.setReceiveBuffer s b).receiveBuffer s.other = c.receiveBuffer s.other := by
  cases s <;> rfl

@[simp] theorem receiveBufferSize_set :
    (c.setReceiveBuffer s b).receiveBufferSize = c.receiveBufferSize := by
  cases s <;> rfl

@[simp] theorem ping_set : (c.setReceiveBuffer s b).ping = c.ping := by
  cases s <;> rfl

@[simp] theorem activeReceiveBuffer_set :
    (c.setReceiveBuffer s b).activeReceiveBuffer = c.activeReceiveBuffer := by
  cases s <;> rfl

@[simp] theorem activeReceiveBufferSize_set :
    (c.setReceiveBuffer s b).activeReceiveBufferSize = c.activeReceiveBufferSize := by
  cases s <;> rfl

theorem sameControl_set : SameControl c (c.setReceiveBuffer s b) := by
  cases s <;> constructor <;> rfl

theorem sameControl_swap : SameControl c c.swapBuffers := by
  unfold swapBuffers
  split <;> constructor <;> rfl

@[simp] theorem active_swap : c.swapBuffers.active = c.active.other := by
  unfold swapBuffers active
  cases c.ping <;> rfl

theorem ping_swap : c.swapBuffers.ping = !c.ping := by
  unfold swapBuffers
  split <;> rfl

@[simp] theorem receiveBuffer_swap : c.swapBuffers.receiveBuffer = c.receiveBuffer := by
  funext s
  unfold swapBuffers
  split <;> cases s <;> rfl

@[simp] theorem receiveBufferSize_swap :
    c.swapBuffers.receiveBufferSize = c.receiveBufferSize := by
  funext s
  unfold swapBuffers
  split <;> cases s <;> rfl

@[simp] theorem activeReceiveBuffer_swap :
    c.swapBuffers.activeReceiveBuffer = some c.active.other := by
  unfold swapBuffers active
  cases c.ping <;> rfl

@[simp] theorem activeReceiveBufferSize_swap :
    c.swapBuffers.activeReceiveBufferSize = some c.active.other := by
  unfold swapBuffers active
  cases c.ping <;> rfl

end Buffers

/-- What the inactive buffer holds when `latest` was the last message completed. -/
def Holds (latest : Option Message) (b : ReceiveBuffer) : Prop :=
  match latest with
  | none => b = Region.fill 0 BASE_BUFFER_SIZE
  | some m => m.encode <+: b.cells

/-- The state of the receive buffers: `carry` is in the active one, `latest` in the other. -/
structure Receiving (c : Connection P) (carry : List UInt8) (latest : Option Message) : Prop where
  pointer : c.activeReceiveBuffer = some c.active
  sizePointer : c.activeReceiveBufferSize = some c.active
  size : ∀ s, c.receiveBufferSize s = BASE_BUFFER_SIZE
  front : ∃ b, c.receiveBuffer c.active = some b ∧ b.cells.take carry.length = carry
  back : ∃ b, c.receiveBuffer c.active.other = some b ∧ Holds latest b
  received : c.activeReceiveBufferBytesReceived = carry.length
  carry_le : carry.length ≤ BASE_BUFFER_SIZE

/-- What is in the active buffer once `data` have been stored behind `carry`. -/
def received (carry data : List UInt8) : List UInt8 :=
  (carry ++ data).take BASE_BUFFER_SIZE

theorem length_received (carry data : List UInt8) :
    (received carry data).length = min BASE_BUFFER_SIZE (carry.length + data.length) := by
  simp only [received, List.length_take, List.length_append]

/-- A front that fits the buffer is in it whole. -/
theorem received_front {carry data front rest : List UInt8} (h : carry ++ data = front ++ rest)
    (hfront : front.length ≤ BASE_BUFFER_SIZE) :
    received carry data = front ++ rest.take (BASE_BUFFER_SIZE - front.length) := by
  rw [received, h, List.take_append, List.take_of_length_le hfront]

theorem received_eq {carry data : List UInt8} (h : (carry ++ data).length ≤ BASE_BUFFER_SIZE) :
    received carry data = carry ++ data :=
  List.take_of_length_le h

/-! ## The store -/

/-- After the store the active buffer holds `received carry data`, and nothing else but the byte
count has changed. -/
theorem recvStore_eq {c : Connection P} {carry data : List UInt8} {latest : Option Message}
    {b : ReceiveBuffer} (h : Receiving c carry latest) (hb : c.receiveBuffer c.active = some b)
    {space : Nat} (hspace : carry.length + space = BASE_BUFFER_SIZE) :
    ∃ b' c', c.recvStore c.active b data space = .ok (b', c') ∧
      Receiving c' (received carry data) latest ∧ c'.ping = c.ping ∧ SameControl c c' ∧
      c'.receiveBuffer c.active = some b' := by
  have hlen : (data.take (min data.length space)).length = min data.length space := by
    rw [List.length_take]
    omega
  obtain ⟨b', hwrite, htake⟩ : ∃ b', b.write carry.length (data.take (min data.length space)) =
      some b' ∧ b'.cells.take (carry.length + (data.take (min data.length space)).length) =
        b.cells.take carry.length ++ data.take (min data.length space) :=
    b.write_eq_some (by omega)
  have hrecv : received carry data = carry ++ data.take (min data.length space) := by
    rw [received_front rfl h.carry_le, show BASE_BUFFER_SIZE - carry.length = space by omega]
    congr 1
    rw [List.take_eq_take_iff]
    omega
  have hrlen : (received carry data).length = carry.length + min data.length space := by
    rw [hrecv, List.length_append, hlen]
  let c' : Connection P := { c.setReceiveBuffer c.active b' with
    activeReceiveBufferBytesReceived :=
      c.activeReceiveBufferBytesReceived + min data.length space }
  have hactive : c'.active = c.active := by
    show (c.setReceiveBuffer c.active b').active = c.active
    unfold active
    rw [ping_set]
  have hstored : c'.receiveBuffer c.active = some b' := receiveBuffer_set c c.active b'
  refine ⟨b', c', ?_, ?_, ping_set c _ b', ?_, hstored⟩
  · rw [← h.received] at hwrite
    simp only [recvStore, hwrite, access_some, ok_bind]
    rfl
  · obtain ⟨b₀, hb₀, hfront⟩ := h.front
    obtain rfl : b = b₀ := by simpa [hb] using hb₀
    obtain ⟨b₁, hb₁, hlast⟩ := h.back
    refine ⟨?_, ?_, fun s => ?_, ⟨b', ?_, ?_⟩, ⟨b₁, ?_, hlast⟩, ?_, ?_⟩
    · rw [hactive, ← h.pointer]
      exact activeReceiveBuffer_set c c.active b'
    · rw [hactive, ← h.sizePointer]
      exact activeReceiveBufferSize_set c c.active b'
    · rw [← h.size s]
      exact congrFun (receiveBufferSize_set c c.active b') s
    · rw [hactive, hstored]
    · rw [hrlen, ← hlen, htake, hfront, hrecv]
    · rw [hactive, ← hb₁]
      exact receiveBuffer_set_other c c.active b'
    · rw [hrlen, ← h.received]
    · rw [hrlen]
      omega
  · exact (sameControl_set c c.active b').trans ⟨rfl, rfl, rfl, rfl, rfl, rfl, rfl, rfl, rfl, rfl⟩

/-- The callback on `data` passes its assertions and stores the data; the active buffer is then `b`,
in the connection `c'`. -/
def Stores (c : Connection P) (data : List UInt8) (b : ReceiveBuffer) (c' : Connection P) : Prop :=
  ∃ side sizeSide buffer space, c.activeReceiveBuffer = some side ∧
    c.receiveBuffer side = some buffer ∧ c.activeReceiveBufferSize = some sizeSide ∧
    space = subFast (c.receiveBufferSize sizeSide) c.activeReceiveBufferBytesReceived ∧
    space ≠ 0 ∧ c.recvStore side buffer data space = .ok (b, c')

theorem Stores.recv_eq {c c' : Connection P} {data : List UInt8} {b : ReceiveBuffer}
    (h : Stores c data b c') :
    c.recv data = c'.recvInspect b c.activeReceiveBufferBytesReceived data := by
  obtain ⟨side, sizeSide, buffer, space, hside, hbuffer, hsize, rfl, hspace, hstore⟩ := h
  unfold recv
  simp only [hside, hbuffer, hsize, asserted_some, ok_bind]
  rw [if_neg hspace, hstore]
  rfl

/-- The store is a function of the connection and the data. -/
theorem Stores.unique {c c₁ c₂ : Connection P} {data : List UInt8} {b₁ b₂ : ReceiveBuffer}
    (h₁ : Stores c data b₁ c₁) (h₂ : Stores c data b₂ c₂) : b₁ = b₂ ∧ c₁ = c₂ := by
  obtain ⟨side, sizeSide, buffer, space, hside, hbuffer, hsize, rfl, -, hstore⟩ := h₁
  obtain ⟨side', sizeSide', buffer', space', hside', hbuffer', hsize', rfl, -, hstore'⟩ := h₂
  obtain rfl : side = side' := by simpa [hside] using hside'
  obtain rfl : sizeSide = sizeSide' := by simpa [hsize] using hsize'
  obtain rfl : buffer = buffer' := by simpa [hbuffer] using hbuffer'
  simpa [hstore] using hstore'

theorem stores_of_receiving {c : Connection P} {carry : List UInt8} {latest : Option Message}
    (h : Receiving c carry latest) (hroom : carry.length < BASE_BUFFER_SIZE) (data : List UInt8) :
    ∃ b c', Stores c data b c' ∧ Receiving c' (received carry data) latest ∧ c'.ping = c.ping ∧
      SameControl c c' ∧ c'.receiveBuffer c'.active = some b := by
  obtain ⟨b₀, hb₀, -⟩ := h.front
  have hspace : subFast BASE_BUFFER_SIZE carry.length = BASE_BUFFER_SIZE - carry.length :=
    subFast_of_le h.carry_le (by decide)
  obtain ⟨b, c', hstore, hrec, hping, hsame, hb⟩ := @recvStore_eq _ _ _ data _ _ h hb₀
    (BASE_BUFFER_SIZE - carry.length) (by omega)
  refine ⟨b, c', ⟨c.active, c.active, b₀, BASE_BUFFER_SIZE - carry.length, h.pointer, hb₀,
    h.sizePointer, ?_, by omega, hstore⟩, hrec, hping, hsame, ?_⟩
  · rw [h.size, h.received, hspace]
  · rw [← hb]
    unfold active
    rw [hping]

/-- Unless the active buffer is full, the callback stores the data and then looks for a whole
message in what has been received. -/
theorem recv_eq_inspect {c : Connection P} {carry : List UInt8} {latest : Option Message}
    (h : Receiving c carry latest) (hroom : carry.length < BASE_BUFFER_SIZE) (data : List UInt8) :
    ∃ b c', c.recv data = c'.recvInspect b carry.length data ∧
      Receiving c' (received carry data) latest ∧ c'.ping = c.ping ∧ SameControl c c' ∧
      c'.receiveBuffer c'.active = some b := by
  obtain ⟨b, c', hstores, hrec, hping, hsame, hb⟩ := stores_of_receiving h hroom data
  refine ⟨b, c', ?_, hrec, hping, hsame, hb⟩
  rw [hstores.recv_eq, h.received]

/-- A callback on a full active buffer fails its assertion. -/
theorem recv_full {c : Connection P} {carry : List UInt8} {latest : Option Message}
    (h : Receiving c carry latest) (hfull : carry.length = BASE_BUFFER_SIZE) (data : List UInt8) :
    c.recv data = .error (.assertFailed .recvSpaceRemaining) := by
  obtain ⟨b₀, hb₀, -⟩ := h.front
  have hspace : subFast BASE_BUFFER_SIZE carry.length = 0 := by
    rw [hfull]
    decide
  unfold recv
  simp only [h.pointer, h.sizePointer, asserted_some, ok_bind, hb₀, h.size, h.received, hspace,
    ↓reduceIte]

/-! ## The search for a whole message -/

/-- The guard of the footer comparison passes for a message that is not there: the 32-bit sum of
the sizes has wrapped. -/
def Wraps (s : List UInt8) : Prop :=
  8 ≤ s.length ∧ s.take 4 = HEADER ∧ 2 ^ 32 ≤ lengthField s + 12 ∧
    lengthField s + 12 - 2 ^ 32 ≤ s.length

section Inspect

variable {c : Connection P} {s data : List UInt8} {latest : Option Message} {b : ReceiveBuffer}
  (h : Receiving c s latest) (hb : c.receiveBuffer c.active = some b)

include h hb in
theorem read_active {off len : Nat} (hle : off + len ≤ s.length) :
    b.read off len = some ((s.drop off).take len) := by
  obtain ⟨b', hb', htake⟩ := h.front
  obtain rfl : b = b' := by simpa [hb] using hb'
  exact Region.read_of_take htake h.carry_le hle

include h in
theorem inspect_short (hs : s.length < 8) (oldSize : Nat) :
    c.recvInspect b oldSize data = .ok (0, c) := by
  unfold recvInspect
  rw [if_pos (by rw [h.received]; exact hs)]

include h hb in
theorem inspect_magic (hs : 8 ≤ s.length) (hmagic : s.take 4 ≠ HEADER) (oldSize : Nat) :
    c.recvInspect b oldSize data = .ok (1, c) := by
  unfold recvInspect
  rw [if_neg (by rw [h.received]; exact Nat.not_lt.2 hs), read_active h hb (by omega)]
  simp only [access_some, ok_bind, List.drop_zero]
  rw [if_pos hmagic]
  rfl

include h hb in
/-- With the magic in place, what follows depends on the length field. -/
theorem inspect_length (hs : 8 ≤ s.length) (hmagic : s.take 4 = HEADER) (oldSize : Nat) :
    c.recvInspect b oldSize data =
      if totalLength (lengthField s) ≤ s.length then do
        let footer ← access .recvFooter (b.read (HEADER_SIZE + lengthField s) FOOTER_SIZE)
        if footer ≠ FOOTER then return (1, c)
        else do
          let this ← c.recvSwap oldSize (totalLength (lengthField s)) data
          return (0, this)
      else .ok (0, c) := by
  unfold recvInspect
  rw [if_neg (by rw [h.received]; exact Nat.not_lt.2 hs), read_active h hb (by omega)]
  simp only [access_some, ok_bind, List.drop_zero]
  rw [if_neg (by simpa using hmagic), read_active h hb (by omega)]
  simp only [access_some, ok_bind, h.received]
  rfl

include h hb in
/-- Where the scan waits for more, the callback waits, unless the sum of the sizes wraps. -/
theorem inspect_more (hscan : scanMessage s = .more) (hwrap : ¬ Wraps s) (oldSize : Nat) :
    c.recvInspect b oldSize data = .ok (0, c) := by
  by_cases h8 : s.length < 8
  · exact inspect_short h h8 oldSize
  unfold scanMessage at hscan
  rw [dif_neg h8] at hscan
  by_cases hmagic : s.take 4 = HEADER
  · rw [if_neg (by simpa using hmagic)] at hscan
    have hlen : s.length < 8 + lengthField s + 4 := by
      by_contra hge
      rw [if_neg hge] at hscan
      split at hscan <;> cases hscan
    rw [inspect_length h hb (by omega) hmagic, if_neg]
    intro hle
    refine hwrap ⟨by omega, hmagic, ?_⟩
    have hL := lengthField_lt (Nat.not_lt.1 h8)
    simp only [totalLength, HEADER_SIZE, FOOTER_SIZE] at hle
    omega
  · rw [if_pos hmagic] at hscan
    cases hscan

include h hb in
/-- When the sum of the sizes wraps, the footer is looked for outside the buffer. -/
theorem inspect_wraps (hwrap : Wraps s) (oldSize : Nat) :
    c.recvInspect b oldSize data = .error (.outOfRange .recvFooter) := by
  obtain ⟨h8, hmagic, hbig, hle⟩ := hwrap
  have hL := lengthField_lt h8
  rw [inspect_length h hb h8 hmagic, if_pos, Region.read_eq_none]
  · rfl
  · simp only [HEADER_SIZE, FOOTER_SIZE, BASE_BUFFER_SIZE]
    omega
  · simp only [totalLength, HEADER_SIZE, FOOTER_SIZE]
    omega

include h hb in
theorem inspect_bad (hscan : scanMessage s = .bad) (oldSize : Nat) :
    c.recvInspect b oldSize data = .ok (1, c) := by
  unfold scanMessage at hscan
  split at hscan
  · cases hscan
  next h8 =>
  have h8 := Nat.not_lt.1 h8
  split at hscan
  next hmagic => exact inspect_magic h hb h8 hmagic oldSize
  next hmagic =>
  split at hscan
  · cases hscan
  next hlen =>
  split at hscan
  next hfooter =>
    have hcarry := h.carry_le
    have htotal : totalLength (lengthField s) = 8 + lengthField s + 4 := by
      simp only [totalLength, HEADER_SIZE, FOOTER_SIZE]
      unfold BASE_BUFFER_SIZE at hcarry
      omega
    rw [inspect_length h hb h8 (Decidable.not_not.1 hmagic), if_pos (by omega),
      read_active h hb (by simp only [HEADER_SIZE, FOOTER_SIZE]; omega)]
    simp only [access_some, ok_bind]
    exact if_pos hfooter
  · cases hscan

include h hb in
/-- A whole message at the front makes the callback swap the buffers. -/
theorem inspect_frame {m : Message} {r : List UInt8} (hs : s = m.encode ++ r) (oldSize : Nat) :
    c.recvInspect b oldSize data = do
      let this ← c.recvSwap oldSize m.encode.length data
      return (0, this) := by
  have hlen : s.length = 12 + m.payload.length + r.length := by
    rw [hs, List.length_append, m.length_encode]
  have hfield : lengthField s = m.payload.length := by
    rw [hs]
    exact m.lengthField_encode r
  have hcarry := h.carry_le
  have htotal : totalLength m.payload.length = m.encode.length := by
    simp only [totalLength, HEADER_SIZE, FOOTER_SIZE, m.length_encode]
    unfold BASE_BUFFER_SIZE at hcarry
    omega
  have hfooter : (s.drop (HEADER_SIZE + m.payload.length)).take FOOTER_SIZE = FOOTER := by
    rw [hs]
    exact m.footer_encode r
  rw [inspect_length h hb (by omega) (by rw [hs, m.take_encode]), hfield, htotal,
    if_pos (by rw [m.length_encode]; omega),
    read_active h hb (by simp only [HEADER_SIZE, FOOTER_SIZE]; omega)]
  simp only [access_some, ok_bind]
  rw [hfooter, if_neg (by simp)]

end Inspect

/-! ## The swap -/

section Swap

variable {c : Connection P} {carry data : List UInt8} {latest : Option Message} {m : Message}
  {r : List UInt8} (h : Receiving c (received carry data) latest)
  (hs : received carry data = m.encode ++ r) (hdata : data.length ≤ PTRDIFF_MAX)

include hs in
/-- A message found in what was received is a message of the stream. -/
theorem stream_of_received :
    ∃ rest, carry ++ data = m.encode ++ rest ∧ m.encode.length ≤ BASE_BUFFER_SIZE := by
  have hle : m.encode.length ≤ (received carry data).length := by
    rw [hs, List.length_append]
    omega
  refine ⟨r ++ (carry ++ data).drop BASE_BUFFER_SIZE, ?_, ?_⟩
  · rw [← List.append_assoc, ← hs, received, List.take_append_drop]
  · rw [length_received] at hle
    omega

include h hs hdata in
/-- The swap when the carried bytes are no more than the message: the new active buffer holds
what follows the message, if that fits. -/
theorem recvSwap_eq {rest : List UInt8} (hrest : carry ++ data = m.encode ++ rest)
    (hlate : carry.length ≤ m.encode.length) (hfit : rest.length ≤ BASE_BUFFER_SIZE) :
    ∃ c', c.recvSwap carry.length m.encode.length data = .ok c' ∧ Receiving c' rest (some m) ∧
      c'.ping = !c.ping ∧ SameControl c c' := by
  have hlen := congrArg List.length hrest
  simp only [List.length_append] at hlen
  unfold PTRDIFF_MAX at hdata
  have hm : m.encode.length ≤ BASE_BUFFER_SIZE := (stream_of_received hs).choose_spec.2
  unfold BASE_BUFFER_SIZE at hm
  have h₁ : subFast m.encode.length carry.length = m.encode.length - carry.length :=
    subFast_of_le hlate (by omega)
  have h₂ : subFast data.length (m.encode.length - carry.length) = rest.length := by
    rw [subFast_of_le (by omega) (by omega)]
    omega
  have hsrc : (data.drop (m.encode.length - carry.length)).take rest.length = rest := by
    have : (carry ++ data).drop m.encode.length = rest := by
      rw [hrest, List.drop_left]
    rw [List.drop_append, List.drop_eq_nil_of_le hlate, List.nil_append] at this
    rw [this, List.take_length]
  obtain ⟨b₁, hb₁, -⟩ := h.back
  obtain ⟨b₀, hb₀, hfront⟩ := h.front
  obtain ⟨b', hwrite, htake⟩ : ∃ b', b₁.write 0 rest = some b' ∧
      b'.cells.take (0 + rest.length) = b₁.cells.take 0 ++ rest := b₁.write_eq_some (by omega)
  let c' : Connection P := { c.swapBuffers.setReceiveBuffer c.active.other b' with
    activeReceiveBufferBytesReceived := rest.length }
  have hactive : c'.active = c.active.other := by
    show (c.swapBuffers.setReceiveBuffer c.active.other b').active = _
    rw [← active_swap]
    unfold active
    rw [ping_set]
  have hbuf : c'.receiveBuffer = (c.swapBuffers.setReceiveBuffer c.active.other b').receiveBuffer :=
    rfl
  refine ⟨c', ?_, ⟨?_, ?_, fun s => ?_, ⟨b', ?_, ?_⟩, ⟨b₀, ?_, ?_⟩, rfl, hfit⟩, ?_, ?_⟩
  · unfold recvSwap
    simp only [h₁, h₂, activeReceiveBuffer_swap, access_some, ok_bind, receiveBuffer_swap, hb₁]
    rw [if_pos (by omega), hsrc]
    simp only [access_some, ok_bind, hwrite]
    rfl
  · rw [hactive]
    exact (activeReceiveBuffer_set _ _ b').trans (activeReceiveBuffer_swap c)
  · rw [hactive]
    exact (activeReceiveBufferSize_set _ _ b').trans (activeReceiveBufferSize_swap c)
  · rw [← h.size s]
    exact congrFun ((receiveBufferSize_set _ _ b').trans (receiveBufferSize_swap c)) s
  · rw [hactive, hbuf, receiveBuffer_set]
  · simpa only [Nat.zero_add, List.take_zero, List.nil_append] using htake
  · rw [hactive, hbuf, receiveBuffer_set_other, receiveBuffer_swap, Side.other_other, hb₀]
  · -- the message was assembled at the start of the buffer that is now inactive
    refine List.IsPrefix.trans ?_ (List.take_prefix (received carry data).length b₀.cells)
    exact ⟨r, by rw [hfront, hs]⟩
  · rw [← ping_swap]
    exact ping_set _ _ b'
  · exact (sameControl_swap c).trans ((sameControl_set _ _ b').trans
      ⟨rfl, rfl, rfl, rfl, rfl, rfl, rfl, rfl, rfl, rfl⟩)

include h hdata in
/-- The swap when more than the message was carried: the subtraction wraps, and the source of the
copy lies outside the data. -/
theorem recvSwap_late (hlate : m.encode.length < carry.length) (hcarry : carry.length ≤
    BASE_BUFFER_SIZE) : c.recvSwap carry.length m.encode.length data =
      .error (.outOfRange .recvOverflow) := by
  unfold PTRDIFF_MAX at hdata
  unfold BASE_BUFFER_SIZE at hcarry
  obtain ⟨b₁, hb₁, -⟩ := h.back
  have h₁ : subFast m.encode.length carry.length =
      2 ^ 64 - (carry.length - m.encode.length) := subFast_of_lt hlate (by omega)
  unfold recvSwap
  simp only [h₁, activeReceiveBuffer_swap, access_some, ok_bind, receiveBuffer_swap, hb₁]
  rw [if_neg (by omega)]
  rfl

include h hs hdata in
/-- The swap when what follows the message is larger than the other buffer. -/
theorem recvSwap_large {rest : List UInt8} (hrest : carry ++ data = m.encode ++ rest)
    (hlate : carry.length ≤ m.encode.length) (hfit : BASE_BUFFER_SIZE < rest.length) :
    c.recvSwap carry.length m.encode.length data = .error (.outOfRange .recvOverflow) := by
  have hlen := congrArg List.length hrest
  simp only [List.length_append] at hlen
  unfold PTRDIFF_MAX at hdata
  have hm : m.encode.length ≤ BASE_BUFFER_SIZE := (stream_of_received hs).choose_spec.2
  unfold BASE_BUFFER_SIZE at hm hfit
  have h₁ : subFast m.encode.length carry.length = m.encode.length - carry.length :=
    subFast_of_le hlate (by omega)
  have h₂ : subFast data.length (m.encode.length - carry.length) = rest.length := by
    rw [subFast_of_le (by omega) (by omega)]
    omega
  obtain ⟨b₁, hb₁, -⟩ := h.back
  unfold recvSwap
  simp only [h₁, h₂, activeReceiveBuffer_swap, access_some, ok_bind, receiveBuffer_swap, hb₁]
  rw [if_pos (by omega)]
  simp only [access_some, ok_bind]
  rw [Region.write_eq_none]
  · rfl
  · rw [List.length_take, List.length_drop]
    unfold BASE_BUFFER_SIZE
    omega

end Swap

/-! ## The callback -/

section Recv

variable {c : Connection P} {carry data : List UInt8} {latest : Option Message}
  (h : Receiving c carry latest) (hroom : carry.length < BASE_BUFFER_SIZE)
  (hdata : data.length ≤ PTRDIFF_MAX)

include h hroom in
theorem recv_more (hscan : scanMessage (received carry data) = .more)
    (hwrap : ¬ Wraps (received carry data)) :
    ∃ c', c.recv data = .ok (0, c') ∧ Receiving c' (received carry data) latest ∧
      c'.ping = c.ping ∧ SameControl c c' := by
  obtain ⟨b, c', heq, hrec, hping, hsame, hb⟩ := recv_eq_inspect h hroom data
  exact ⟨c', heq.trans (inspect_more hrec hb hscan hwrap _), hrec, hping, hsame⟩

include h hroom in
theorem recv_wraps (hwrap : Wraps (received carry data)) :
    c.recv data = .error (.outOfRange .recvFooter) := by
  obtain ⟨b, c', heq, hrec, hping, hsame, hb⟩ := recv_eq_inspect h hroom data
  exact heq.trans (inspect_wraps hrec hb hwrap _)

include h hroom in
theorem recv_bad (hscan : scanMessage (received carry data) = .bad) :
    ∃ c', c.recv data = .ok (1, c') ∧ Receiving c' (received carry data) latest ∧
      c'.ping = c.ping ∧ SameControl c c' := by
  obtain ⟨b, c', heq, hrec, hping, hsame, hb⟩ := recv_eq_inspect h hroom data
  exact ⟨c', heq.trans (inspect_bad hrec hb hscan _), hrec, hping, hsame⟩

include h hroom hdata in
/-- A callback that completes the message its carried bytes began. -/
theorem recv_frame {m : Message} {rest : List UInt8} (hrest : carry ++ data = m.encode ++ rest)
    (hm : m.encode.length ≤ BASE_BUFFER_SIZE) (hlate : carry.length ≤ m.encode.length)
    (hfit : rest.length ≤ BASE_BUFFER_SIZE) :
    ∃ c', c.recv data = .ok (0, c') ∧ Receiving c' rest (some m) ∧ c'.ping = !c.ping ∧
      SameControl c c' := by
  obtain ⟨b, c₁, heq, hrec, hping, hsame, hb⟩ := recv_eq_inspect h hroom data
  have hs := received_front hrest hm
  obtain ⟨c', hswap, hrec', hping', hsame'⟩ := recvSwap_eq hrec hs hdata hrest hlate hfit
  refine ⟨c', ?_, hrec', hping' ▸ hping ▸ rfl, hsame.trans hsame'⟩
  rw [heq, inspect_frame hrec hb hs, hswap]
  rfl

include h hroom hdata in
/-- A callback on a buffer that already holds more than one whole message. -/
theorem recv_late {m : Message} {rest : List UInt8} (hrest : carry = m.encode ++ rest)
    (hlate : rest ≠ []) : c.recv data = .error (.outOfRange .recvOverflow) := by
  obtain ⟨b, c₁, heq, hrec, hping, hsame, hb⟩ := recv_eq_inspect h hroom data
  have hlt : m.encode.length < carry.length := by
    have := List.length_pos_of_ne_nil hlate
    rw [hrest, List.length_append]
    omega
  have hfront : carry ++ data = m.encode ++ (rest ++ data) := by rw [hrest, List.append_assoc]
  have hs := received_front hfront (Nat.le_of_lt (Nat.lt_trans hlt hroom))
  rw [heq, inspect_frame hrec hb hs, recvSwap_late hrec hdata hlt (Nat.le_of_lt hroom)]
  rfl

include h hdata in
/-- **One callback.** What a callback that returns has done: it was entered with room in the
active buffer and either only stored the data, or completed the message that the carried bytes
began, kept what follows it and swapped the buffers. -/
theorem recv_cases {ret : Nat} {c' : Connection P} (hr : c.recv data = .ok (ret, c')) :
    carry.length < BASE_BUFFER_SIZE ∧ SameControl c c' ∧
      ((((ret = 0 ∧ scanMessage (received carry data) = .more) ∨
          (ret = 1 ∧ scanMessage (received carry data) = .bad)) ∧
          c'.ping = c.ping ∧ Receiving c' (received carry data) latest) ∨
        (ret = 0 ∧ ∃ m rest, carry ++ data = m.encode ++ rest ∧
          m.encode.length ≤ BASE_BUFFER_SIZE ∧ carry.length ≤ m.encode.length ∧
          c'.ping = !c.ping ∧ Receiving c' rest (some m))) := by
  by_cases hfull : carry.length = BASE_BUFFER_SIZE
  · rw [recv_full h hfull] at hr
    cases hr
  have hroom : carry.length < BASE_BUFFER_SIZE := by
    have := h.carry_le
    omega
  refine ⟨hroom, ?_⟩
  cases hscan : scanMessage (received carry data) with
  | more =>
    by_cases hwrap : Wraps (received carry data)
    · rw [recv_wraps h hroom hwrap] at hr
      cases hr
    · obtain ⟨c₁, heq, hrec, hping, hsame⟩ := recv_more h hroom hscan hwrap
      rw [heq] at hr
      cases hr
      exact ⟨hsame, .inl ⟨.inl ⟨rfl, rfl⟩, hping, hrec⟩⟩
  | bad =>
    obtain ⟨c₁, heq, hrec, hping, hsame⟩ := recv_bad h hroom hscan
    rw [heq] at hr
    cases hr
    exact ⟨hsame, .inl ⟨.inr ⟨rfl, rfl⟩, hping, hrec⟩⟩
  | frame m r =>
    have hs := encode_of_scanMessage hscan
    obtain ⟨rest, hrest, hm⟩ := stream_of_received hs
    obtain ⟨b, c₁, heq, hrec, hping, hsame, hb⟩ := recv_eq_inspect h hroom data
    by_cases hlate : carry.length ≤ m.encode.length
    · by_cases hfit : rest.length ≤ BASE_BUFFER_SIZE
      · obtain ⟨c₂, hrecv, hrec', hping', hsame'⟩ := recv_frame h hroom hdata hrest hm hlate hfit
        rw [hrecv] at hr
        cases hr
        exact ⟨hsame', .inr ⟨rfl, m, rest, hrest, hm, hlate, hping', hrec'⟩⟩
      · rw [heq, inspect_frame hrec hb hs,
          recvSwap_large hrec hs hdata hrest hlate (Nat.not_le.1 hfit)] at hr
        cases hr
    · rw [heq, inspect_frame hrec hb hs,
        recvSwap_late hrec hdata (Nat.not_le.1 hlate) h.carry_le] at hr
      cases hr

end Recv

/-! ## The retrieval -/

/-- What `getLatestImage` answers when `latest` was the last message completed. -/
def latestImage (latest : Option Message) (size : Nat) : LatestImage :=
  match latest with
  | none => ⟨true, 0, []⟩
  | some m =>
    if size < m.payload.length then ⟨false, 0, []⟩ else ⟨true, m.payload.length, m.payload⟩

/-- The bytes of the image retrieved when `latest` was the last message completed. -/
def imageBytes (latest : Option Message) : List UInt8 :=
  match latest with
  | none => []
  | some m => m.payload

theorem latestImage_eq {latest : Option Message} {size : Nat}
    (h : ∀ m, latest = some m → m.payload.length ≤ size) :
    latestImage latest size = ⟨true, (imageBytes latest).length, imageBytes latest⟩ := by
  cases latest with
  | none => rfl
  | some m =>
    have := h m rfl
    exact if_neg (by omega)

theorem latestImage_refused {latest : Option Message} {size : Nat}
    (h : size < (imageBytes latest).length) : latestImage latest size = ⟨false, 0, []⟩ := by
  cases latest with
  | none => exact absurd h (Nat.not_lt_zero size)
  | some m => exact if_pos h

/-- The reads of a message at the front of a buffer. -/
theorem read_message {m : Message} {b : ReceiveBuffer} (h : m.encode <+: b.cells) :
    b.read 0 4 = some HEADER ∧
      (∃ field, b.read 4 4 = some field ∧ ntohl field = m.payload.length) ∧
      b.read (HEADER_SIZE + m.payload.length) FOOTER_SIZE = some FOOTER ∧
      b.read HEADER_SIZE m.payload.length = some m.payload := by
  obtain ⟨r, hr⟩ := h
  have hlen : 12 + m.payload.length + r.length = BASE_BUFFER_SIZE := by
    rw [← b.length_cells, ← hr, List.length_append, m.length_encode]
  refine ⟨?_, ⟨(b.cells.drop 4).take 4, Region.read_eq_some (by omega), ?_⟩, ?_, ?_⟩
  · rw [Region.read_eq_some (by omega), List.drop_zero, ← hr, m.take_encode]
  · rw [← hr]
    exact m.lengthField_encode r
  · rw [Region.read_eq_some (by simp only [HEADER_SIZE, FOOTER_SIZE]; omega), ← hr]
    exact congrArg some (m.footer_encode r)
  · rw [Region.read_eq_some (by simp only [HEADER_SIZE]; omega), ← hr]
    exact congrArg some (m.payload_encode r)

/-- **The retrieval.** It reads within the inactive buffer and answers with the last message
completed, if the caller's buffer is large enough. -/
theorem getLatestImage_eq {c : Connection P} {carry : List UInt8} {latest : Option Message}
    (h : Receiving c carry latest) (size : Nat) :
    c.getLatestImage size = .ok (latestImage latest size) := by
  obtain ⟨b, hb, hlast⟩ := h.back
  unfold getLatestImage
  simp only [hb, access_some, ok_bind]
  cases latest with
  | none =>
    obtain rfl : b = Region.fill 0 BASE_BUFFER_SIZE := hlast
    rw [Region.read_eq_some (by decide)]
    simp only [access_some, ok_bind, Region.fill, List.drop_zero]
    rw [if_pos (by rw [List.take_replicate]; decide)]
    rfl
  | some m =>
    obtain ⟨hmagic, ⟨field, hfield, hlength⟩, hfooter, hpayload⟩ := read_message hlast
    simp only [hmagic, hfield, access_some, ok_bind]
    rw [if_neg (by simp), hlength]
    simp only [hfooter, access_some, ok_bind]
    rw [if_neg (by simp), latestImage]
    split
    · rfl
    · rw [hpayload]
      rfl

end Connection

end Rsva11001
