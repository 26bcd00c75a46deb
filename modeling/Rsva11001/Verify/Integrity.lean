import Rsva11001.Connection.Session
import Rsva11001.Verify.Opening

/-!
# No fabricated, torn or stale image

Over the whole life of a connection, for arbitrary body bytes: the stream received since the last
opening is a sequence of whole messages and a rest, the last of the messages is in the inactive
buffer, and the rest is in the active one (`Session.Inv`). What `getLatestImage` returns is
therefore the payload of a message of that stream.
-/

namespace Rsva11001

open Lib Connection

variable {P : HttpParser}

namespace Session

/-- Before the first opening there are no receive buffers. After it the stream is a sequence of
messages and a tail; the tail is what the active buffer holds, unless a callback has refused it or
has filled the buffer. -/
structure Inv (s : Session P) : Prop where
  sized : Sized s.conn
  unopened : s.stream = none → ∀ side, s.conn.receiveBuffer side = none
  opened : ∀ stream, s.stream = some stream → ∃ ms tail carry,
    stream = jpgs.encodeAll ms ++ tail ∧ Receiving s.conn carry ms.getLast? ∧
      (s.rejected = true ∨ carry = tail ∨ carry.length = BASE_BUFFER_SIZE)

theorem inv_configured {hostname username password : CString} {channel : Nat}
    {c₀ : Connection P}
    (h : (malloc P).configure hostname username password channel = (true, c₀)) :
    Inv (start c₀) := by
  have hsame : c₀.receiveBuffer = (malloc P).receiveBuffer := by
    unfold configure at h
    split at h
    · cases h
    split at h
    · cases h
    split at h <;> cases h
    rfl
  refine ⟨fun s hs => ?_, fun _ s => ?_, fun _ h => by cases h⟩
  · change (c₀.receiveBuffer s).isSome at hs
    rw [hsame] at hs
    cases s <;> cases hs
  · change c₀.receiveBuffer s = none
    rw [hsame]
    cases s <;> rfl

theorem inv_open {file : CString} {s s' : Session P} {e : OpenEnv} (hs : Inv s)
    (h : step file s (.open e) = .ok s') : Inv s' := by
  obtain ⟨r, hopen, h⟩ := bind_eq_ok.1 h
  by_cases hclosed : s.conn.sockfd = none
  · obtain ⟨-, hopened⟩ := open_isClosed hs.sized hclosed hopen
    cases hopened with
    | failed hret hrecv =>
      rw [if_neg (by simp [hret])] at h
      cases h
      refine ⟨hrecv.sized hs.sized, fun hn side => ?_, fun stream hst => ?_⟩
      · rw [hrecv.receiveBuffer]
        exact hs.unopened hn side
      · obtain ⟨ms, tail, carry, h₁, h₂, h₃⟩ := hs.opened stream hst
        exact ⟨ms, tail, carry, h₁, hrecv.receiving h₂, h₃⟩
    | opened hret hsocket hfd hrecv hparser =>
      rw [if_pos ⟨hret, by rw [hclosed]; rfl⟩] at h
      cases h
      refine ⟨hrecv.sized, (by simp), ?_⟩
      rintro stream ⟨⟩
      exact ⟨[], [], [], rfl, hrecv, .inr (.inl rfl)⟩
  · have hsome : s.conn.sockfd.isSome := Option.isSome_iff_ne_none.2 hclosed
    rw [open_isOpen hsome] at hopen
    cases hopen
    rw [if_neg (by simp [hclosed])] at h
    cases h
    exact hs

theorem inv_recv {file : CString} {s s' : Session P} {chunk : Chunk} (hs : Inv s)
    (h : step file s (.recv chunk) = .ok s') : Inv s' := by
  simp only [step] at h
  split at h
  · cases h
    exact hs
  next hrej =>
  obtain ⟨⟨ret, conn⟩, hr, h⟩ := bind_eq_ok.1 h
  cases h
  cases hst : s.stream with
  | none =>
    -- there is no receive buffer yet, which the callback asserts
    unfold recv at hr
    obtain ⟨side, -, hr⟩ := bind_eq_ok.1 hr
    rw [hs.unopened hst side] at hr
    cases hr
  | some stream =>
    obtain ⟨ms, tail, carry, hstream, hrecv, htail⟩ := hs.opened stream hst
    obtain ⟨hroom, -, hcases⟩ := recv_cases hrecv chunk.length_le hr
    obtain rfl : carry = tail := by
      rcases htail with hr | hc | hf
      · exact absurd hr hrej
      · exact hc
      · omega
    rcases hcases with ⟨hret, -, hrecv'⟩ | ⟨rfl, m, rest, hrest, -, -, -, hrecv'⟩
    · refine ⟨hrecv'.sized, (by simp), ?_⟩
      rintro _ ⟨⟩
      refine ⟨ms, carry ++ chunk.bytes, _, ?_, hrecv', ?_⟩
      · show stream ++ chunk.bytes = _
        rw [hstream, List.append_assoc]
      · rcases hret with ⟨rfl, -⟩ | ⟨rfl, -⟩
        · right
          by_cases hfit : (carry ++ chunk.bytes).length ≤ BASE_BUFFER_SIZE
          · exact .inl (received_eq hfit)
          · rw [List.length_append] at hfit
            rw [length_received]
            omega
        · exact .inl rfl
    · refine ⟨hrecv'.sized, (by simp), ?_⟩
      rintro _ ⟨⟩
      refine ⟨ms ++ [m], rest, rest, ?_, ?_, .inr (.inl rfl)⟩
      · show stream ++ chunk.bytes = _
        rw [hstream, List.append_assoc, hrest, jpgs.encodeAll_append]
        simp
      · simpa using hrecv'

theorem inv_step {file : CString} {s s' : Session P} {op : Op} (hs : Inv s)
    (h : step file s op = .ok s') : Inv s' := by
  cases op with
  | «open» e => exact inv_open hs h
  | recv chunk => exact inv_recv hs h
  | close closeOk =>
    cases h
    rcases close_cases s.conn closeOk with ⟨-, hc⟩ | ⟨-, hc, -⟩
    · have hsame : SameReceive s.conn (s.conn.close closeOk).2 := by
        rw [hc]
        exact sameReceive_disconnected s.conn
      refine ⟨hsame.sized hs.sized, fun hn side => ?_, fun stream hst => ?_⟩
      · rw [hsame.receiveBuffer]
        exact hs.unopened hn side
      · obtain ⟨ms, tail, carry, h₁, h₂, h₃⟩ := hs.opened stream hst
        exact ⟨ms, tail, carry, h₁, hsame.receiving h₂, h₃⟩
    · rw [hc]
      exact hs

end Session

theorem Connection.Lived.inv {file : CString} {s : Session P} (h : Lived file s) : s.Inv := by
  obtain ⟨hostname, username, password, channel, c₀, ops, hconf, hrun⟩ := h
  exact run_invariant (fun _ _ _ => Session.inv_step) (Session.inv_configured hconf) hrun

theorem Connection.FreshlyOpened.receiving {c : Connection P} (h : FreshlyOpened c) :
    Receiving c [] none ∧ c.parser = some P.init ∧ c.sockfd.isSome := by
  obtain ⟨file, s, e, r, hlived, hclosed, hopen, hret, rfl⟩ := h
  obtain ⟨-, hopened⟩ := open_isClosed hlived.inv.sized hclosed hopen
  cases hopened with
  | failed hret' => simp [hret] at hret'
  | opened _ _ hfd hrecv hparser => exact ⟨hrecv, hparser, by rw [hfd]; rfl⟩

/-! ## A sample connection -/

section Sample

variable (P)

/-- Every call made by `open` succeeds. -/
def openAll : OpenEnv where
  socket := some 5
  getaddrinfo := true
  connect := .inProgress
  mallocOutput := some (Region.fill 0 OUTPUT_BUFFER_SIZE)
  mallocPong := some (Region.fill 0 BASE_BUFFER_SIZE)
  mallocPing := some (Region.fill 0 BASE_BUFFER_SIZE)

def sampleFile : CString := ascii "rsva11001.c"

/-- A configured connection that has not been opened. -/
def sampleClosed : Connection P :=
  { malloc P with
    hostname := ascii "dvr"
    username := ascii "admin"
    password := ascii "secret"
    channel := 1 }

theorem sampleClosed_configured :
    (malloc P).configure (ascii "dvr") (ascii "admin") (ascii "secret") 1 =
      (true, sampleClosed P) := by
  unfold configure
  rw [if_neg (by simp [malloc]), if_neg (by decide), if_neg (by decide)]
  rfl

/-- The same connection after its first opening. -/
def sampleOpen : Connection P :=
  match (sampleClosed P).open sampleFile openAll with
  | .ok r => r.conn
  | .error _ => sampleClosed P

theorem sampleOpen_succeeds : ∃ r, (sampleClosed P).open sampleFile openAll = .ok r ∧
    r.ret = true ∧ Fresh r.conn := by
  have hsize : ((sampleClosed P).request sampleFile).length < OUTPUT_BUFFER_SIZE := by
    rw [length_request]
    show 92 + (ascii "admin").length + (ascii "secret").length + (decimal 1).length +
      sampleFile.length + (ascii "dvr").length < OUTPUT_BUFFER_SIZE
    decide
  have hsized : Sized (sampleClosed P) := by
    intro s h
    cases s <;> cases h
  exact @open_succeeds P (sampleClosed P) sampleFile openAll 5 hsized rfl rfl rfl (by decide) rfl
    hsize rfl rfl

theorem sampleOpen_eq : ∃ r, (sampleClosed P).open sampleFile openAll = .ok r ∧ r.ret = true ∧
    r.conn = sampleOpen P := by
  obtain ⟨r, hr, hret, -⟩ := sampleOpen_succeeds P
  refine ⟨r, hr, hret, ?_⟩
  unfold sampleOpen
  rw [hr]

theorem fresh_sampleOpen : Fresh (sampleOpen P) := by
  obtain ⟨r, hr, -, hfresh⟩ := sampleOpen_succeeds P
  unfold sampleOpen
  rw [hr]
  exact hfresh

theorem lived_sampleClosed : Lived sampleFile (Session.start (sampleClosed P)) :=
  ⟨_, _, _, _, _, [], sampleClosed_configured P, rfl⟩

def sampleMessage : Message :=
  ⟨[255, 216, 217], by decide⟩

theorem sampleMessage_fits : sampleMessage.encode.length ≤ BASE_BUFFER_SIZE := by
  decide

theorem freshlyOpened_sampleOpen : FreshlyOpened (sampleOpen P) := by
  obtain ⟨r, hr, hret, hconn⟩ := sampleOpen_eq P
  exact ⟨_, _, _, r, lived_sampleClosed P, rfl, hr, hret, hconn⟩

/-- The life of a connection that has been opened and has received one message. -/
theorem lived_sampleMessage : ∃ s : Session P, Lived sampleFile s ∧
    s.stream = some sampleMessage.encode ∧ Receiving s.conn [] (some sampleMessage) := by
  obtain ⟨r, hr, hret, hconn⟩ := sampleOpen_eq P
  have hopen : Session.step sampleFile (Session.start (sampleClosed P)) (.open openAll) =
      .ok ⟨sampleOpen P, some [], false⟩ := by
    simp only [Session.step, Session.start, hr, ok_bind, hret, hconn]
    rfl
  obtain ⟨c, hrecv, hrec, -, -⟩ := recv_frame (freshlyOpened_sampleOpen P).receiving.1
    (by decide) (show sampleMessage.encode.length ≤ PTRDIFF_MAX by decide)
    (show [] ++ sampleMessage.encode = sampleMessage.encode ++ [] by rfl) (by decide) (by decide)
    (by decide)
  refine ⟨⟨c, some sampleMessage.encode, false⟩, ⟨_, _, _, _, _, [.open openAll,
    .recv ⟨sampleMessage.encode, by decide, by decide⟩], sampleClosed_configured P, ?_⟩, rfl, hrec⟩
  rw [run_cons_ok]
  refine ⟨_, hopen, ?_⟩
  rw [run_cons_ok]
  refine ⟨_, ?_, rfl⟩
  simp only [Session.step, hrecv, ok_bind]
  rfl

end Sample

/-! ## The image retrieved -/

/-- **No fabricated image.** Once the connection has been opened, `getLatestImage` reads within
the inactive buffer; and whenever it returns true with a positive size, its bytes are the payload
of a message that stands at a message boundary of the stream received since the last opening. -/
theorem latestImage_in_stream {file : CString} {s : Session P} (h : Lived file s) (size : Nat) :
    (s.stream.isSome → ∃ img, s.conn.getLatestImage size = .ok img) ∧
      ∀ img, s.conn.getLatestImage size = .ok img → img.ret = true → 0 < img.size →
        ∃ (stream : List UInt8) (before : List Message) (m : Message) (after : List UInt8),
          s.stream = some stream ∧ stream = jpgs.encodeAll before ++ m.encode ++ after ∧
          img.out = m.payload ∧ img.size = m.payload.length := by
  have hs := h.inv
  constructor
  · intro hsome
    obtain ⟨stream, hst⟩ := Option.isSome_iff_exists.1 hsome
    obtain ⟨ms, tail, carry, -, hrecv, -⟩ := hs.opened stream hst
    exact ⟨_, getLatestImage_eq hrecv size⟩
  · intro img himg hret hsize
    cases hst : s.stream with
    | none =>
      unfold getLatestImage at himg
      rw [hs.unopened hst] at himg
      cases himg
    | some stream =>
      obtain ⟨ms, tail, carry, hstream, hrecv, -⟩ := hs.opened stream hst
      rw [getLatestImage_eq hrecv] at himg
      cases himg
      cases hlast : ms.getLast? with
      | none => simp [hlast, latestImage] at hsize
      | some m =>
        obtain ⟨before, rfl⟩ := List.getLast?_eq_some_iff.1 hlast
        refine ⟨stream, before, m, tail, rfl, ?_, ?_⟩
        · rw [hstream, jpgs.encodeAll_append]
          simp
        · rw [hlast] at hret
          unfold latestImage at hret ⊢
          simp only at hret ⊢
          split at hret
          · cases hret
          · rw [if_neg ‹_›]
            exact ⟨rfl, rfl⟩

theorem latestImage_in_stream_sample : ∃ s : Session .untilEof,
    s.conn.getLatestImage 30000 = .ok ⟨true, 3, [255, 216, 217]⟩ ∧
      ∃ (stream : List UInt8) (before : List Message) (m : Message) (after : List UInt8),
        s.stream = some stream ∧ stream = jpgs.encodeAll before ++ m.encode ++ after ∧
          [255, 216, 217] = m.payload ∧ 3 = m.payload.length := by
  obtain ⟨s, hlived, -, hrec⟩ := lived_sampleMessage .untilEof
  have himg : s.conn.getLatestImage 30000 = .ok ⟨true, 3, [255, 216, 217]⟩ :=
    getLatestImage_eq hrec 30000
  exact ⟨s, himg, (latestImage_in_stream hlived 30000).2 _ himg rfl (by decide)⟩

end Rsva11001
