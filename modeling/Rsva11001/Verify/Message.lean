import Rsva11001.Lib.Framing
import Rsva11001.Connection.Recv

/-!
# The message format

Each image is packaged as `JPGS`, a 32-bit big-endian length, the bytes of the image, `JPGE`.
`jpgs` is this code as a framing: its scan decides, on the bytes received so far, whether a whole
message is there. It is the format alone, without buffers and without machine arithmetic;
`Verify/Receiver.lean` compares it with what the receive callback does.
-/

namespace Rsva11001

open Lib

/-- The payload of a message: its length is a 32-bit number. -/
@[ext] structure Message where
  payload : List UInt8
  length_lt : payload.length < 2 ^ 32
  deriving DecidableEq

namespace Message

/-- The bytes of a message. -/
def encode (m : Message) : List UInt8 :=
  HEADER ++ htonl m.payload.length ++ m.payload ++ FOOTER

@[simp] theorem length_HEADER : HEADER.length = 4 := by decide
@[simp] theorem length_FOOTER : FOOTER.length = 4 := by decide

theorem length_encode (m : Message) : m.encode.length = 12 + m.payload.length := by
  simp only [encode, List.length_append, length_HEADER, length_htonl, length_FOOTER]
  omega

theorem take_encode (m : Message) (r : List UInt8) : (m.encode ++ r).take 4 = HEADER := by
  simp only [encode, List.append_assoc]
  exact List.take_left' length_HEADER

theorem drop_encode (m : Message) (r : List UInt8) :
    (m.encode ++ r).drop 4 = htonl m.payload.length ++ (m.payload ++ (FOOTER ++ r)) := by
  simp only [encode, List.append_assoc]
  exact List.drop_left' length_HEADER

theorem lengthField_encode (m : Message) (r : List UInt8) :
    ntohl (((m.encode ++ r).drop 4).take 4) = m.payload.length := by
  rw [drop_encode, List.take_left' (length_htonl _), ntohl_htonl m.length_lt]

theorem drop_header_encode (m : Message) (r : List UInt8) :
    (m.encode ++ r).drop 8 = m.payload ++ (FOOTER ++ r) := by
  have h : (m.encode ++ r).drop 8 = ((m.encode ++ r).drop 4).drop 4 := by
    rw [List.drop_drop]
  rw [h, drop_encode, List.drop_left' (length_htonl _)]

theorem footer_encode (m : Message) (r : List UInt8) :
    ((m.encode ++ r).drop (8 + m.payload.length)).take 4 = FOOTER := by
  rw [← List.drop_drop, drop_header_encode, List.drop_left' rfl, List.take_left' length_FOOTER]

theorem payload_encode (m : Message) (r : List UInt8) :
    ((m.encode ++ r).drop 8).take m.payload.length = m.payload := by
  rw [drop_header_encode, List.take_left' rfl]

end Message

/-- The length field of a header. -/
def lengthField (s : List UInt8) : Nat :=
  ntohl ((s.drop 4).take 4)

theorem lengthField_lt {s : List UInt8} (h : 8 ≤ s.length) : lengthField s < 2 ^ 32 := by
  refine ntohl_lt ?_
  rw [List.length_take, List.length_drop]
  omega

/-- What stands at the front of the received bytes `s`. -/
def scanMessage (s : List UInt8) : Scan Message UInt8 :=
  if h : s.length < 8 then .more
  else if s.take 4 ≠ HEADER then .bad
  else if s.length < 8 + lengthField s + 4 then .more
  else if (s.drop (8 + lengthField s)).take 4 ≠ FOOTER then .bad
  else .frame
    ⟨(s.drop 8).take (lengthField s),
      Nat.lt_of_le_of_lt (List.length_take_le _ _) (lengthField_lt (by omega))⟩
    (s.drop (8 + lengthField s + 4))

theorem scanMessage_encode (m : Message) (r : List UInt8) :
    scanMessage (m.encode ++ r) = .frame m r := by
  have hlen : (m.encode ++ r).length = 12 + m.payload.length + r.length := by
    rw [List.length_append, m.length_encode]
  have hfield : lengthField (m.encode ++ r) = m.payload.length := m.lengthField_encode r
  have hdrop : (m.encode ++ r).drop (8 + m.payload.length + 4) = r :=
    List.drop_left' (by rw [m.length_encode]; omega)
  unfold scanMessage
  rw [dif_neg (by omega), if_neg (by rw [m.take_encode]; simp), if_neg (by omega)]
  simp only [hfield, m.footer_encode, hdrop, m.payload_encode, ne_eq, not_true_eq_false,
    ↓reduceIte]

/-- The length field of a message is there as soon as its header is. -/
theorem lengthField_front {m : Message} {p : List UInt8} (hp : p <+: m.encode)
    (h8 : 8 ≤ p.length) : lengthField p = m.payload.length := by
  obtain ⟨t, ht⟩ := hp
  rw [← m.lengthField_encode [], List.append_nil, ← ht, lengthField,
    List.drop_append_of_le_length (by omega), List.take_append_of_le_length]
  rw [List.length_drop]
  omega

theorem scanMessage_front {m : Message} {p : List UInt8} (hp : p <+: m.encode)
    (hlt : p.length < m.encode.length) : scanMessage p = .more := by
  unfold scanMessage
  by_cases h8 : p.length < 8
  · rw [dif_pos h8]
  · have hfield := lengthField_front hp (by omega)
    obtain ⟨t, ht⟩ := hp
    have htake : p.take 4 = HEADER := by
      rw [← m.take_encode [], List.append_nil, ← ht, List.take_append_of_le_length (by omega)]
    rw [m.length_encode] at hlt
    rw [dif_neg h8, if_neg (by rw [htake]; simp), if_pos (by omega)]

/-- A whole message found at the front is the bytes of that message. -/
theorem encode_of_scanMessage {s r : List UInt8} {m : Message}
    (h : scanMessage s = .frame m r) : s = m.encode ++ r := by
  unfold scanMessage at h
  split at h
  · cases h
  split at h
  · cases h
  split at h
  · cases h
  split at h
  · cases h
  next h8 hmagic hlen hfooter =>
  cases h
  simp only [Message.encode]
  generalize hLdef : lengthField s = L at hlen hfooter ⊢
  have hpay : ((s.drop 8).take L).length = L := by
    rw [List.length_take, List.length_drop]
    omega
  have hcode : htonl L = (s.drop 4).take 4 := by
    rw [← hLdef]
    refine htonl_ntohl ?_
    rw [List.length_take, List.length_drop]
    omega
  rw [hpay, hcode, ← Decidable.not_not.1 hmagic, ← Decidable.not_not.1 hfooter]
  conv_lhs => rw [← List.take_append_drop 4 s, ← List.take_append_drop 4 (s.drop 4),
    List.drop_drop, ← List.take_append_drop L (s.drop (4 + 4)), List.drop_drop,
    ← List.take_append_drop 4 (s.drop (4 + 4 + L)), List.drop_drop]
  simp only [List.append_assoc]

/-- The message format as a framing of byte streams. -/
def jpgs : Framing Message UInt8 where
  encode := Message.encode
  scan := scanMessage
  scan_encode := scanMessage_encode
  scan_front := fun _ _ => scanMessage_front
  encode_of_scan := fun _ _ _ => encode_of_scanMessage

@[simp] theorem jpgs_encode (m : Message) : jpgs.encode m = m.encode := rfl

end Rsva11001
