import Rsva11001.Verify.Clients
import Rsva11001.Verify.Strtoul

/-!
# Which camera a request is for

With a query string parser that finds values as documented (`Finds`), the camera that a request is
routed to is the number that `strtoul` makes of the value of `source` (`parseSource_cases`), and its
queue or its image is what `handleNewRequest` uses (`handleNewRequest_routed`). That is the number
the value denotes, unless the value has a minus (`routesRight_iff`).
-/

namespace Rsva11001

open Lib

/-- `sg_queryStringParser_findFirst` succeeds with length 0 for a key that is absent, and otherwise
leaves the value in the buffer with a NUL behind it. -/
structure Finds (sg : Sandgrouse) (value : sg.Query → CString → Option CString) : Prop where
  absent : ∀ q key buffer, value q key = none → ∃ q' buffer',
    sg.findFirst q key buffer QUERY_BUFFER_SIZE = some (q', buffer', 0) ∧ value q' = value q
  present : ∀ q key buffer v, value q key = some v → v.length < QUERY_BUFFER_SIZE →
    ∃ q' buffer', sg.findFirst q key buffer QUERY_BUFFER_SIZE = some (q', buffer', v.length) ∧
      value q' = value q ∧ buffer'.read 0 (v.length + 1) = some (v ++ [0])

/-- The values a request has for the keys that are looked up fit the buffer and have no NUL. -/
def Fitting {sg : Sandgrouse} (value : sg.Query → CString → Option CString)
    (conn : SgConnection) : Prop :=
  ∀ q, conn.queryString.bind sg.init = some q → ∀ key v, key = ascii "source" ∨ key = ascii "wait" →
    value q key = some v → 0 ∉ v ∧ v.length < QUERY_BUFFER_SIZE

/-- The value of a key that may be absent. -/
def valueOf {sg : Sandgrouse} (value : sg.Query → CString → Option CString) (q : sg.Query)
    (key : CString) : CString :=
  (value q key).getD []

/-- A request whose query string is looked at. -/
def Queried (sg : Sandgrouse) (conn : SgConnection) (q : sg.Query) : Prop :=
  conn.method = some (ascii "GET") ∧ conn.pathInfo = some (ascii "/camera.jpg") ∧
    conn.queryString.bind sg.init = some q

/-- The value asks for a camera: it is empty, or a numeral, with white space and a plus before
it. -/
def AsksFor (v : CString) (src : Nat) : Prop :=
  v = [] ∧ src = 0 ∨ Signed [] v src ∨ Signed (ascii "+") v src

/-- The value has a minus, and `strtoul` makes a camera of it. -/
def WrapsTo (v : CString) (src : Nat) : Prop :=
  ∃ k, Signed (ascii "-") v k ∧ k ≤ ULONG_MAX ∧ (2 ^ 64 - k) % 2 ^ 64 = src

/-! ## The value of source -/

section Source

variable {v : CString}

theorem not_asksFor_of_minus {k src : Nat} (h : Signed (ascii "-") v k) : ¬ AsksFor v src := by
  have hminus : (45 : UInt8) ∈ v := by
    obtain ⟨spaces, digits, rfl, -⟩ := h
    exact List.mem_append_right _ List.mem_cons_self
  have hno : ∀ sign : CString, 45 ∉ sign → ¬ Signed sign v src := by
    rintro sign hsign ⟨spaces, digits, rfl, hspaces, -, hdigits, -⟩
    rcases List.mem_append.1 hminus with hmem | hmem
    · exact absurd (hspaces _ hmem) (by decide)
    · rcases List.mem_append.1 hmem with hmem | hmem
      · exact hsign hmem
      · exact absurd (hdigits _ hmem) (by decide)
  rintro (⟨rfl, -⟩ | hnone | hplus)
  · cases hminus
  · exact hno [] (by decide) hnone
  · exact hno (ascii "+") (by decide) hplus

/-- A value that is empty asks for the first camera. -/
theorem denotes_nil {src : Nat} : AsksFor [] src ∨ WrapsTo [] src ↔ src = 0 := by
  have hno : ∀ sign k, ¬ Signed sign [] k := by
    rintro sign k ⟨spaces, digits, h, -, hdigits, -⟩
    have := List.append_eq_nil_iff.1 (List.append_eq_nil_iff.1 h.symm).2
    exact hdigits this.2
  constructor
  · rintro ((⟨-, h⟩ | h | h) | ⟨k, h, -⟩)
    · exact h
    · exact absurd h (hno _ _)
    · exact absurd h (hno _ _)
    · exact absurd h (hno _ _)
  · rintro rfl
    exact .inl (.inl ⟨rfl, rfl⟩)

/-- What the value asks for, and what it wraps to, is what `strtoul` returns without an error when
it has read the value to its end. -/
theorem denotes_iff {rest : List UInt8} {r : Strtoul} {src : Nat} (hne : v ≠ []) (hnul : 0 ∉ v)
    (hr : strtoul (v ++ 0 :: rest) = some r) (hsrc : src ≤ ULONG_MAX) :
    AsksFor v src ∨ WrapsTo v src ↔ r = ⟨src, false, 0⟩ := by
  constructor
  · have hsigned : ∀ sign, IsSign sign → sign ≠ ascii "-" → Signed sign v src →
        r = ⟨src, false, 0⟩ := by
      intro sign hsign hminus h
      rw [strtoul_signed hsign h, if_neg (Nat.not_lt.2 hsrc), if_neg hminus] at hr
      exact (Option.some.inj hr).symm
    rintro ((⟨rfl, -⟩ | h | h) | ⟨k, h, hk, rfl⟩)
    · exact absurd rfl hne
    · exact hsigned [] (.inl rfl) (by decide) h
    · exact hsigned (ascii "+") (.inr (.inl rfl)) (by decide) h
    · rw [strtoul_signed (.inr (.inr rfl)) h, if_neg (Nat.not_lt.2 hk), if_pos rfl] at hr
      exact (Option.some.inj hr).symm
  · rintro rfl
    obtain ⟨sign, k, hsign, h⟩ := signed_of_strtoul hne hnul hr rfl
    rw [strtoul_signed hsign h] at hr
    split at hr
    · cases hr
    rename_i hk
    split at hr
    · rename_i hminus
      subst hminus
      exact .inr ⟨k, h, Nat.not_lt.1 hk, congrArg Strtoul.value (Option.some.inj hr)⟩
    · rename_i hminus
      obtain rfl : k = src := congrArg Strtoul.value (Option.some.inj hr)
      rcases hsign with rfl | rfl | rfl
      · exact .inl (.inr (.inl h))
      · exact .inl (.inr (.inr h))
      · exact absurd rfl hminus

/-- The four tests let through a number of a camera that was read to the end without an error. -/
theorem parseSource_strtoul {n : Nat} {buffer : QueryBuffer} {rest : List UInt8} {r : Strtoul}
    (hle : n ≤ MAX_NUM_CAMERAS) (hne : v ≠ []) (hcells : buffer.cells = v ++ 0 :: rest)
    (hr : strtoul (v ++ 0 :: rest) = some r) :
    ∃ o, parseSource n buffer v.length = .ok o ∧
      ∀ src, o = some src ↔ src < n ∧ r = ⟨src, false, 0⟩ := by
  unfold MAX_NUM_CAMERAS at hle
  unfold parseSource
  rw [if_neg fun h => hne (List.eq_nil_of_length_eq_zero h), hcells, hr]
  simp only [access_some, ok_bind]
  split
  · rename_i hmax
    refine ⟨none, rfl, fun src => iff_of_false (by rintro ⟨⟩) ?_⟩
    rintro ⟨-, rfl⟩
    cases hmax.2
  rename_i hmax
  split
  · rename_i hend
    refine ⟨none, rfl, fun src => iff_of_false (by rintro ⟨⟩) ?_⟩
    rintro ⟨-, rfl⟩
    exact hend rfl
  rename_i hend
  split
  · rename_i hlarge
    refine ⟨none, rfl, fun src => iff_of_false (by rintro ⟨⟩) ?_⟩
    rintro ⟨hsrc, rfl⟩
    unfold UINT_MAX at hlarge
    simp only at hlarge
    omega
  split
  · rename_i hcameras
    refine ⟨none, rfl, fun src => iff_of_false (by rintro ⟨⟩) ?_⟩
    rintro ⟨hsrc, rfl⟩
    exact Nat.not_le.2 hsrc hcameras
  rename_i hcameras
  have herange : r.erange = false := by
    by_contra herange
    have herange := eq_true_of_ne_false herange
    exact hmax ⟨strtoul_erange hr herange, herange⟩
  have hr : r = ⟨r.value, false, 0⟩ := by
    rw [← herange, ← not_not.1 hend]
  refine ⟨some r.value, rfl, fun src => ?_⟩
  constructor
  · rintro ⟨⟩
    exact ⟨Nat.not_le.1 hcameras, hr⟩
  · rintro ⟨-, rfl⟩
    rfl

/-- **The value of source.** -/
theorem parseSource_cases {n : Nat} {buffer : QueryBuffer} {rest : List UInt8} (hpos : 1 ≤ n)
    (hle : n ≤ MAX_NUM_CAMERAS) (hnul : 0 ∉ v)
    (hcells : v ≠ [] → buffer.cells = v ++ 0 :: rest) :
    ∃ o, parseSource n buffer v.length = .ok o ∧
      ∀ src, o = some src ↔ src < n ∧ (AsksFor v src ∨ WrapsTo v src) := by
  by_cases hne : v = []
  · subst hne
    refine ⟨some 0, rfl, fun src => ?_⟩
    rw [denotes_nil]
    constructor
    · rintro ⟨⟩
      exact ⟨hpos, rfl⟩
    · rintro ⟨-, rfl⟩
      rfl
  · obtain ⟨r, hr⟩ := strtoul_total v rest
    obtain ⟨o, hparse, ho⟩ := parseSource_strtoul hle hne (hcells hne) hr
    refine ⟨o, hparse, fun src => (ho src).trans (and_congr_right fun hsrc => ?_)⟩
    refine (denotes_iff hne hnul hr ?_).symm
    unfold MAX_NUM_CAMERAS at hle
    unfold ULONG_MAX
    omega

end Source

/-! ## The request -/

section Route

variable {sg : Sandgrouse} {value : sg.Query → CString → Option CString} {conn : SgConnection}
  {n : Nat} {stack : QueryBuffer}

theorem route_not_queried (h : ∀ q, ¬ Queried sg conn q) :
    route sg n conn stack = .ok .notFound := by
  unfold route
  split
  · rfl
  rename_i hmethod
  split
  · rfl
  rename_i hpath
  split
  · rfl
  · rename_i q hq
    exact absurd ⟨not_not.1 hmethod, not_not.1 hpath, hq⟩ (h q)

/-- What is left in the buffer by a lookup. -/
theorem Finds.lookup (hf : Finds sg value) {q q' : sg.Query} {key : CString} (buffer : QueryBuffer)
    (hsame : value q' = value q) (hfit : ∀ v, value q key = some v → v.length < QUERY_BUFFER_SIZE) :
    ∃ q₁ b rest, sg.findFirst q' key buffer QUERY_BUFFER_SIZE =
        some (q₁, b, (valueOf value q key).length) ∧ value q₁ = value q ∧
      (valueOf value q key ≠ [] → b.cells = valueOf value q key ++ 0 :: rest) := by
  unfold valueOf
  cases hkey : value q key with
  | none =>
    obtain ⟨q₁, b, hfind, hsame₁⟩ := hf.absent q' key buffer (by rw [hsame]; exact hkey)
    exact ⟨q₁, b, [], hfind, hsame₁.trans hsame, fun h => absurd rfl h⟩
  | some v =>
    obtain ⟨q₁, b, hfind, hsame₁, hread⟩ :=
      hf.present q' key buffer v (by rw [hsame]; exact hkey) (hfit v hkey)
    refine ⟨q₁, b, b.cells.drop (v.length + 1), hfind, hsame₁.trans hsame, fun _ => ?_⟩
    have hlt : 0 + (v.length + 1) ≤ QUERY_BUFFER_SIZE := by
      have := hfit v hkey
      omega
    rw [Region.read_eq_some hlt, List.drop_zero, Option.some.injEq] at hread
    rw [Option.getD_some, ← List.singleton_append, ← List.append_assoc, ← hread,
      List.take_append_drop]

/-- A request that is looked at is routed to the camera that `strtoul` makes of its source, if there
is one. -/
theorem route_queried (hf : Finds sg value) (hv : Fitting value conn) (hpos : 1 ≤ n)
    (hle : n ≤ MAX_NUM_CAMERAS) {q : sg.Query} (hq : Queried sg conn q) :
    ∃ o, (∀ src, o = some src ↔ src < n ∧ (AsksFor (valueOf value q (ascii "source")) src ∨
        WrapsTo (valueOf value q (ascii "source")) src)) ∧
      (o = none → route sg n conn stack = .ok .notFound) ∧
      ∀ src, o = some src → ∃ t, (t = .wait src ∨ t = .send src) ∧
        route sg n conn stack = .ok t := by
  obtain ⟨hmethod, hpath, hquery⟩ := hq
  have hnul : 0 ∉ valueOf value q (ascii "source") := by
    unfold valueOf
    cases hkey : value q (ascii "source") with
    | none => simp
    | some v => exact (hv q hquery _ v (.inl rfl) hkey).1
  obtain ⟨q₁, b₁, rest, hsource, hsame₁, hcells⟩ := hf.lookup stack rfl
    fun v hkey => (hv q hquery (ascii "source") v (.inl rfl) hkey).2
  obtain ⟨q₂, b₂, -, hwait, -, -⟩ := hf.lookup b₁ hsame₁
    fun v hkey => (hv q hquery (ascii "wait") v (.inr rfl) hkey).2
  obtain ⟨o, hparse, ho⟩ := parseSource_cases hpos hle hnul hcells
  refine ⟨o, ho, ?_, ?_⟩
  · rintro rfl
    unfold route
    rw [if_neg (not_not.2 hmethod), if_neg (not_not.2 hpath)]
    simp only [hquery, hsource, hparse, ok_bind]
    rfl
  · rintro src rfl
    have hsrc := ((ho src).1 rfl).1
    unfold route
    rw [if_neg (not_not.2 hmethod), if_neg (not_not.2 hpath)]
    simp only [hquery, hsource, hparse, ok_bind, hwait]
    rw [if_neg (not_not.2 hsrc)]
    split
    · exact ⟨_, .inl rfl, rfl⟩
    · exact ⟨_, .inr rfl, rfl⟩

end Route

/-- The look at the request ends with the camera. -/
def RoutedTo {P : HttpParser} (sg : Sandgrouse) (g : Globals P) (conn : SgConnection)
    (e : Globals.RequestEnv) (src : Nat) : Prop :=
  route sg g.numCameras conn e.stack = .ok (.wait src) ∨
    route sg g.numCameras conn e.stack = .ok (.send src)

/-- `handleNewRequest` has returned in the state `g'` and has selected the camera: the request has
come to the end of its queue, or it has been answered with its last image, or with 404 when there is
none or the buffer has no room for its size. Nothing else has changed. -/
inductive Selected {P : HttpParser} (g : Globals P) (conn : SgConnection) (src : Slot) :
    Globals P → Prop
  | waits {g' : Globals P}
      (hlog : g'.log = g.log ++ [.handed conn.id, .routed src conn.id,
        .queued src conn.id (g.pendingRequests src).numPending])
      (himages : g'.lastImage = g.lastImage)
      (hcell : (g'.pendingRequests src).connections.cells[(g.pendingRequests src).numPending]? =
        some (some conn))
      (hcount : (g'.pendingRequests src).numPending = (g.pendingRequests src).numPending + 1)
      (hother : ∀ j, j ≠ src → g'.pendingRequests j = g.pendingRequests j) : Selected g conn src g'
  | answered {g' : Globals P} {r : Response}
      (hlog : g'.log = g.log ++ [.handed conn.id, .routed src conn.id, .response conn.id r])
      (himages : g'.lastImage = g.lastImage) (hqueues : g'.pendingRequests = g.pendingRequests)
      (hnone : (g.lastImage src).data = none → r = .notFound)
      (hsome : ∀ image, (g.lastImage src).data = some image →
        r = .jpeg (jpegHeaders (g.lastImage src).size conn.httpHost) image.bytes
            (g.lastImage src).size ∨
          r = .notFound ∧ Connection.snprintfResult (decimal (g.lastImage src).size).length =
            LENGTH_BUFFER_SIZE) : Selected g conn src g'

/-- The request has been answered with 404, and no image and no queue has changed. -/
structure Refused {P : HttpParser} (g : Globals P) (conn : SgConnection) (g' : Globals P) :
    Prop where
  log : g'.log = g.log ++ [.handed conn.id, .response conn.id .notFound]
  lastImage : g'.lastImage = g.lastImage
  pendingRequests : g'.pendingRequests = g.pendingRequests

/-- The request is one for a camera. -/
def RequestFor (sg : Sandgrouse) (value : sg.Query → CString → Option CString) (n : Nat)
    (conn : SgConnection) (src : Nat) : Prop :=
  ∃ q, Queried sg conn q ∧ src < n ∧ AsksFor (valueOf value q (ascii "source")) src

/-- `handleNewRequest` selects a camera only for a request for it, also where it overflows its
queue; otherwise it answers with 404 and changes no image and no queue, and it does so for every
request that is for no camera. -/
structure RoutesRight {P : HttpParser} (sg : Sandgrouse)
    (value : sg.Query → CString → Option CString) (g : Globals P) (conn : SgConnection)
    (e : Globals.RequestEnv) : Prop where
  selects : ∀ ok g' (src : Slot), g.handleNewRequest sg conn e = .ok (ok, g') →
    Selected g conn src g' → RequestFor sg value g.numCameras conn src.val
  overflows : g.handleNewRequest sg conn e = .error (.outOfRange .pendingConnections) →
    ∃ src : Slot, RequestFor sg value g.numCameras conn src.val ∧
      MAX_PENDING_REQUESTS ≤ (g.pendingRequests src).numPending
  ends : g.handleNewRequest sg conn e = .error (.outOfRange .pendingConnections) ∨
    ∃ ok g', g.handleNewRequest sg conn e = .ok (ok, g') ∧
      ((∃ src, Selected g conn src g') ∨ Refused g conn g')
  refuses : (∀ src, ¬ RequestFor sg value g.numCameras conn src) →
    ∃ g', g.handleNewRequest sg conn e = .ok (true, g') ∧ Refused g conn g'

section Request

variable {P : HttpParser} {sg : Sandgrouse} {value : sg.Query → CString → Option CString}
  {g : Globals P} {conn : SgConnection} {e : Globals.RequestEnv}

/-- A request is routed to what its source asks for, or to what it wraps to. -/
theorem route_cases (hf : Finds sg value) (hv : Fitting value conn) (hpos : 1 ≤ g.numCameras)
    (hle : g.numCameras ≤ MAX_NUM_CAMERAS) :
    (∀ src, RoutedTo sg g conn e src ↔ ∃ q, Queried sg conn q ∧ src < g.numCameras ∧
        (AsksFor (valueOf value q (ascii "source")) src ∨
          WrapsTo (valueOf value q (ascii "source")) src)) ∧
      ((∀ src, ¬ RoutedTo sg g conn e src) →
        route sg g.numCameras conn e.stack = .ok .notFound) := by
  unfold RoutedTo
  by_cases hq : ∃ q, Queried sg conn q
  · obtain ⟨q, hq⟩ := hq
    have honly : ∀ q', Queried sg conn q' → q' = q := by
      rintro q' ⟨-, -, hq'⟩
      exact Option.some.inj (hq'.symm.trans hq.2.2)
    obtain ⟨o, ho, hnone, hsome⟩ := @route_queried _ _ _ _ e.stack hf hv hpos hle q hq
    have hiff : ∀ src, (∃ q, Queried sg conn q ∧ src < g.numCameras ∧
        (AsksFor (valueOf value q (ascii "source")) src ∨
          WrapsTo (valueOf value q (ascii "source")) src)) ↔ o = some src := by
      intro src
      rw [ho]
      refine ⟨?_, fun h => ⟨q, hq, h⟩⟩
      rintro ⟨q', hq', h⟩
      exact honly q' hq' ▸ h
    simp only [hiff]
    cases o with
    | none =>
      rw [hnone rfl]
      exact ⟨fun src => by simp, fun _ => rfl⟩
    | some src' =>
      obtain ⟨t, ht, hroute⟩ := hsome src' rfl
      rw [hroute]
      refine ⟨fun src => ?_, fun h => absurd ?_ (h src')⟩
      · rcases ht with rfl | rfl <;> simp
      · rcases ht with rfl | rfl <;> simp
  · push Not at hq
    rw [route_not_queried hq]
    refine ⟨fun src => iff_of_false (by simp) ?_, fun _ => rfl⟩
    rintro ⟨q, h, -⟩
    exact hq q h

/-- A request that is not routed to a camera is answered with 404. -/
theorem handleNewRequest_notFound (hroute : route sg g.numCameras conn e.stack = .ok .notFound) :
    ∃ g', g.handleNewRequest sg conn e = .ok (true, g') ∧ Refused g conn g' := by
  have hcams : (g.say [.handed conn.id]).numCameras = g.numCameras := rfl
  unfold Globals.handleNewRequest
  simp only [hcams, hroute, ok_bind]
  exact ⟨_, rfl, List.append_assoc _ _ _, rfl, rfl⟩

/-- A request that is routed to a camera to wait there is put in its queue, if there is room. -/
theorem handleNewRequest_wait {src : Slot}
    (hroute : route sg g.numCameras conn e.stack = .ok (.wait src.val)) :
    g.handleNewRequest sg conn e = .error (.outOfRange .pendingConnections) ∧
        MAX_PENDING_REQUESTS ≤ (g.pendingRequests src).numPending ∨
      ∃ g', g.handleNewRequest sg conn e = .ok (true, g') ∧ Selected g conn src g' := by
  rw [Globals.handleNewRequest_waits hroute]
  unfold Globals.enqueue
  have hqueue : (g.say [.handed conn.id, .routed src conn.id]).pendingRequests =
      g.pendingRequests := rfl
  simp only [hqueue]
  by_cases hroom : (g.pendingRequests src).numPending < MAX_PENDING_REQUESTS
  · obtain ⟨connections, hwrite, htake⟩ := @Region.write_eq_some _ _
      (g.pendingRequests src).connections (g.pendingRequests src).numPending [some conn]
      (by rw [List.length_singleton]; exact hroom)
    rw [hwrite]
    refine .inr ⟨_, rfl, .waits (List.append_assoc _ _ _) rfl ?_ ?_ fun j hj => ?_⟩
    · show (Globals.pendingRequests (Globals.setQueue _ _ _) src).connections.cells[_]? = _
      rw [Globals.setQueue_self]
      have hcell := congrArg (·[(g.pendingRequests src).numPending]?) htake
      have hmin := Nat.min_eq_left (Nat.le_of_lt hroom)
      simpa [List.getElem?_take, List.getElem?_append, Region.length_cells, hmin] using hcell
    · show (Globals.pendingRequests (Globals.setQueue _ _ _) src).numPending = _
      rw [Globals.setQueue_self]
    · exact Globals.setQueue_of_ne hj
  · refine .inl ⟨?_, Nat.not_lt.1 hroom⟩
    rw [Region.write_eq_none (by rw [List.length_singleton]; omega)]
    rfl

theorem sendJpeg_response (g : Globals P) (conn : SgConnection) (data : List UInt8) (size : Nat)
    (writeOk : Bool) : ∃ ok r,
      g.sendJpeg conn data size writeOk = (ok, g.say [.response conn.id r]) ∧
      (r = .jpeg (jpegHeaders size conn.httpHost) data size ∨
        r = .notFound ∧ Connection.snprintfResult (decimal size).length = LENGTH_BUFFER_SIZE) := by
  unfold Globals.sendJpeg
  split
  · rename_i hdigits
    exact ⟨_, _, rfl, .inr ⟨rfl, hdigits⟩⟩
  · exact ⟨_, _, rfl, .inl rfl⟩

/-- A request that is routed to a camera otherwise is answered with its last image. -/
theorem handleNewRequest_send {src : Slot}
    (hroute : route sg g.numCameras conn e.stack = .ok (.send src.val)) :
    ∃ ok g', g.handleNewRequest sg conn e = .ok (ok, g') ∧ Selected g conn src g' := by
  have hcams : (g.say [.handed conn.id]).numCameras = g.numCameras := rfl
  have hslot : slot .lastImage src.val = .ok src := slot_eq_ok.2 rfl
  have hlast : ((g.say [.handed conn.id]).say [.routed src conn.id]).lastImage = g.lastImage := rfl
  unfold Globals.handleNewRequest
  simp only [hcams, hroute, ok_bind, hslot, hlast]
  cases himage : (g.lastImage src).data with
  | none =>
    refine ⟨true, _, rfl, .answered (r := .notFound) ?_ rfl rfl (fun _ => rfl) ?_⟩
    · simp [Globals.send404, Globals.say]
    · rw [himage]
      rintro image ⟨⟩
  | some image =>
    obtain ⟨ok, r, hsend, hr⟩ := sendJpeg_response ((g.say [.handed conn.id]).say
      [.routed src conn.id]) conn image.bytes (g.lastImage src).size e.writeOk
    simp only [hsend]
    refine ⟨ok, _, rfl, .answered (r := r) ?_ rfl rfl ?_ ?_⟩
    · simp [Globals.say]
    · rw [himage]
      rintro ⟨⟩
    · rw [himage]
      rintro image' ⟨⟩
      exact hr

/-- What has been selected is what the request has been routed to. -/
theorem Selected.routed {ok : Bool} {g' : Globals P} {src : Slot}
    (hs : Selected g conn src g') (h : g.handleNewRequest sg conn e = .ok (ok, g')) :
    RoutedTo sg g conn e src.val := by
  obtain ⟨last, hlog⟩ : ∃ last, g'.log = g.log ++ [.handed conn.id, .routed src conn.id, last] := by
    cases hs with
    | waits hlog | answered hlog => exact ⟨_, hlog⟩
  cases Globals.handleNewRequest_cases h with
  | notFound => simp [Globals.say] at hlog
  | @waits src' g' hroute hqueue =>
    obtain ⟨connections, -, rfl⟩ := Globals.enqueue_cases hqueue
    obtain ⟨rfl, -⟩ : src' = src ∧ _ := by
      simpa [Globals.say, Globals.setQueue] using hlog
    exact .inl hroute
  | @noImage src' hroute =>
    obtain ⟨rfl, -⟩ : src' = src ∧ _ := by simpa [Globals.say] using hlog
    exact .inr hroute
  | @sent src' image ok g' hroute _ hsend =>
    obtain ⟨r, hr⟩ := Globals.sendJpeg_cases (g.say [.handed conn.id, .routed src' conn.id]) conn
      image.bytes (g.lastImage src').size e.writeOk
    rw [hsend] at hr
    obtain rfl : g' = _ := hr
    obtain ⟨rfl, -⟩ : src' = src ∧ _ := by simpa [Globals.say] using hlog
    exact .inr hroute

/-- A request that is routed to a camera selects it, or it has to wait at a full queue. -/
theorem handleNewRequest_routed {src : Slot} (h : RoutedTo sg g conn e src.val) :
    g.handleNewRequest sg conn e = .error (.outOfRange .pendingConnections) ∧
        MAX_PENDING_REQUESTS ≤ (g.pendingRequests src).numPending ∨
      ∃ ok g', g.handleNewRequest sg conn e = .ok (ok, g') ∧ Selected g conn src g' := by
  rcases h with hroute | hroute
  · rcases handleNewRequest_wait hroute with hfull | ⟨g', hg', hs⟩
    · exact .inl hfull
    · exact .inr ⟨true, g', hg', hs⟩
  · exact .inr (handleNewRequest_send hroute)

/-- **Routing.** A request is routed as its source asks, except when the source has a minus and
`strtoul` makes a camera of it. -/
theorem routesRight_iff (hf : Finds sg value) (hv : Fitting value conn) (hpos : 1 ≤ g.numCameras)
    (hle : g.numCameras ≤ MAX_NUM_CAMERAS) : RoutesRight sg value g conn e ↔
      ¬ ∃ q src, Queried sg conn q ∧ src < g.numCameras ∧
        WrapsTo (valueOf value q (ascii "source")) src := by
  obtain ⟨hsel, hnone⟩ := @route_cases _ _ _ g _ e hf hv hpos hle
  have hslot : ∀ src, RoutedTo sg g conn e src → ∃ i : Slot, i.val = src := by
    intro src h
    obtain ⟨q, -, hlt, -⟩ := (hsel src).1 h
    exact ⟨⟨src, Nat.lt_of_lt_of_le hlt hle⟩, rfl⟩
  constructor
  · rintro hright ⟨q, src, hq, hsrc, hwraps⟩
    have hrouted := (hsel src).2 ⟨q, hq, hsrc, .inr hwraps⟩
    obtain ⟨i, rfl⟩ := hslot src hrouted
    -- the source with the minus would have to ask for a camera
    obtain ⟨src', q', hq', -, hasks⟩ : ∃ src', RequestFor sg value g.numCameras conn src' := by
      rcases handleNewRequest_routed hrouted with ⟨hfull, -⟩ | ⟨ok, g', hg', hs⟩
      · obtain ⟨src', hsrc', -⟩ := hright.overflows hfull
        exact ⟨src', hsrc'⟩
      · exact ⟨i, hright.selects ok g' i hg' hs⟩
    obtain rfl : q' = q := Option.some.inj (hq'.2.2.symm.trans hq.2.2)
    obtain ⟨k, hminus, -⟩ := hwraps
    exact not_asksFor_of_minus hminus hasks
  · intro hno
    have hrequest : ∀ src, RoutedTo sg g conn e src →
        RequestFor sg value g.numCameras conn src := by
      intro src h
      obtain ⟨q, hq, hsrc, hasks | hwraps⟩ := (hsel src).1 h
      · exact ⟨q, hq, hsrc, hasks⟩
      · exact absurd ⟨q, src, hq, hsrc, hwraps⟩ hno
    have hrefused := fun h => handleNewRequest_notFound (hnone h)
    refine ⟨fun ok g' src hg' hs => hrequest src (hs.routed hg'), fun hfull => ?_, ?_, fun h => ?_⟩
    · by_cases hrouted : ∃ src, RoutedTo sg g conn e src
      · obtain ⟨src, hrouted⟩ := hrouted
        obtain ⟨i, rfl⟩ := hslot src hrouted
        rcases handleNewRequest_routed hrouted with ⟨-, hle⟩ | ⟨ok, g', hg', -⟩
        · exact ⟨i, hrequest i hrouted, hle⟩
        · rw [hfull] at hg'
          cases hg'
      · push Not at hrouted
        obtain ⟨g', hg', -⟩ := hrefused hrouted
        rw [hfull] at hg'
        cases hg'
    · by_cases hrouted : ∃ src, RoutedTo sg g conn e src
      · obtain ⟨src, hrouted⟩ := hrouted
        obtain ⟨i, rfl⟩ := hslot src hrouted
        rcases handleNewRequest_routed hrouted with ⟨hfull, -⟩ | ⟨ok, g', hg', hs⟩
        · exact .inl hfull
        · exact .inr ⟨ok, g', hg', .inl ⟨i, hs⟩⟩
      · push Not at hrouted
        obtain ⟨g', hg', hr⟩ := hrefused hrouted
        exact .inr ⟨true, g', hg', .inr hr⟩
    · exact hrefused fun src hs => h src (hrequest src hs)

end Request

/-! ## A sample request -/

/-- The value of the first field with that name. -/
def fieldValue (fields : List (CString × CString)) (key : CString) : Option CString :=
  (fields.find? fun f => f.1 = key).map (·.2)

/-- A query string parser that finds values as documented. -/
def documentedSandgrouse : Sandgrouse where
  Query := List (CString × CString)
  init := plainSandgrouse.init
  findFirst fields key buffer _ :=
    match fieldValue fields key with
    | none => some (fields, buffer, 0)
    | some v => (buffer.write 0 (v ++ [0])).map fun buffer => (fields, buffer, v.length)

theorem finds_documented : Finds documentedSandgrouse fieldValue where
  absent q key buffer h := by
    refine ⟨q, buffer, ?_, rfl⟩
    simp only [documentedSandgrouse, h]
  present q key buffer v h hlen := by
    have hfit : 0 + (v ++ [0]).length ≤ QUERY_BUFFER_SIZE := by
      rw [List.length_append, List.length_singleton]
      omega
    obtain ⟨buffer', hwrite, htake⟩ := @Region.write_eq_some _ _ buffer 0 (v ++ [0]) hfit
    refine ⟨q, buffer', ?_, rfl, ?_⟩
    · simp only [documentedSandgrouse, h, hwrite, Option.map_some]
    · rw [List.length_append, List.length_singleton] at hfit htake
      rw [Region.read_eq_some hfit, List.drop_zero]
      simpa using htake

/-- A request for the image of the camera with that source. -/
def sourceRequest (source : String) : SgConnection where
  id := 0
  method := some (ascii "GET")
  pathInfo := some (ascii "/camera.jpg")
  queryString := some (ascii "source=" ++ ascii source)
  httpHost := none

theorem queried_sourceRequest {source : String} (h : plainSandgrouse.init
      (ascii "source=" ++ ascii source) = some [(ascii "source", ascii source)]) :
    Queried documentedSandgrouse (sourceRequest source) [(ascii "source", ascii source)] :=
  ⟨rfl, rfl, h⟩

theorem fitting_sourceRequest {source : String} (h : plainSandgrouse.init
      (ascii "source=" ++ ascii source) = some [(ascii "source", ascii source)])
    (hnul : 0 ∉ ascii source) (hlen : (ascii source).length < QUERY_BUFFER_SIZE) :
    @Fitting documentedSandgrouse fieldValue (sourceRequest source) := by
  intro q hq key v _ hv
  obtain rfl : q = [(ascii "source", ascii source)] := Option.some.inj (hq.symm.trans h)
  unfold fieldValue at hv
  rw [List.find?_singleton] at hv
  split at hv
  · cases hv
    exact ⟨hnul, hlen⟩
  · cases hv

theorem routesRight_iff_sample : RoutesRight documentedSandgrouse fieldValue
    (Reactor.sampleGlobals .untilEof 2 fun _ => none) (sourceRequest " +1") calm.request := by
  have hinit : plainSandgrouse.init (ascii "source=" ++ ascii " +1") =
      some [(ascii "source", ascii " +1")] := rfl
  refine (routesRight_iff finds_documented (fitting_sourceRequest hinit (by decide) (by decide))
    (by decide) (by decide)).2 ?_
  rintro ⟨q, src, hq, -, k, hminus, -⟩
  obtain rfl : q = [(ascii "source", ascii " +1")] := Option.some.inj (hq.2.2.symm.trans hinit)
  exact not_asksFor_of_minus hminus
    (.inr (.inr ⟨ascii " ", ascii "1", rfl, List.forall_mem_singleton.2 rfl,
      (by decide : Numeral (ascii "1") 1)⟩))

/-- A request for camera 2 ^ 64 - 1 below zero selects the second camera. -/
theorem not_routesRight : ∃ (second : Slot) (ok : Bool) (g' : Globals .untilEof), second.val = 1 ∧
    (Reactor.sampleGlobals .untilEof 2 fun _ => none).handleNewRequest documentedSandgrouse
        (sourceRequest "-18446744073709551615") calm.request = .ok (ok, g') ∧
      Selected (Reactor.sampleGlobals .untilEof 2 fun _ => none)
        (sourceRequest "-18446744073709551615") second g' ∧
      ¬ RoutesRight documentedSandgrouse fieldValue
        (Reactor.sampleGlobals .untilEof 2 fun _ => none) (sourceRequest "-18446744073709551615")
        calm.request := by
  obtain ⟨second, hsecond⟩ : ∃ second : Slot, second.val = 1 := ⟨⟨1, by decide⟩, rfl⟩
  have hinit : plainSandgrouse.init (ascii "source=" ++ ascii "-18446744073709551615") =
      some [(ascii "source", ascii "-18446744073709551615")] := rfl
  have hq := queried_sourceRequest hinit
  have hminus : Signed (ascii "-") (ascii "-18446744073709551615") ULONG_MAX :=
    ⟨[], ascii "18446744073709551615", rfl, by simp, by decide⟩
  have hrouted : RoutedTo documentedSandgrouse (Reactor.sampleGlobals .untilEof 2 fun _ => none)
      (sourceRequest "-18446744073709551615") calm.request second.val := by
    rw [hsecond]
    exact ((route_cases finds_documented (fitting_sourceRequest hinit (by decide) (by decide))
      (by decide) (by decide)).1 1).2
        ⟨_, hq, by decide, .inr ⟨ULONG_MAX, hminus, Nat.le_refl _, by decide⟩⟩
  rcases handleNewRequest_routed hrouted with ⟨-, hfull⟩ | ⟨ok, g', hg', hs⟩
  · exact absurd (Nat.le_zero.1 hfull) (by decide)
  · refine ⟨second, ok, g', hsecond, hg', hs, fun hright => ?_⟩
    obtain ⟨q, hq', -, hasks⟩ := hright.selects ok g' second hg' hs
    obtain rfl : q = [(ascii "source", ascii "-18446744073709551615")] :=
      Option.some.inj (hq'.2.2.symm.trans hinit)
    exact not_asksFor_of_minus hminus hasks

end Rsva11001
