import Mathlib.Data.List.Infix
import Rsva11001.Lib.Search
import Rsva11001.Verify.Outcome

/-!
# What the request says about the configuration

`open` pastes the configured strings between the delimiters of the request as they are. A request
is read back here the way a server reads it: its blank lines end the header, its query runs from the
first question mark to the blank or the line end that ends the target, and the fields of the query
are separated by ampersands. When the strings hold no delimiter, and the request fits the output
buffer, what `open` builds determines the configuration and has the structure it is meant to have
(`request_encodes`).
-/

namespace Rsva11001

open Lib

/-! ## Reading a request -/

def crlf : CString := [13, 10]

def blankLine : CString := crlf ++ crlf

/-- What comes before the blank or the line end that ends the target. -/
def untilEnd : CString → CString
  | [] => []
  | b :: rest => if b = 32 ∨ crlf <+: b :: rest then [] else b :: untilEnd rest

/-- What follows the first question mark in the target. -/
def query (request : CString) : CString :=
  untilEnd ((request.dropWhile (· ≠ 63)).drop 1)

/-- The fields of the query. -/
def fields (request : CString) : List CString :=
  (query request).splitOn 38

theorem untilEnd_eq_iff (x y : CString) :
    untilEnd (x ++ (crlf ++ y)) = x ↔ 32 ∉ x ∧ ¬ crlf <:+: x := by
  induction x with
  | nil => simp [untilEnd, crlf]
  | cons b x ih =>
    rw [List.cons_append, untilEnd, List.infix_cons_iff, List.mem_cons]
    split
    · next hend =>
      refine iff_of_false (by simp) fun h => ?_
      rcases hend with rfl | hend
      · exact h.1 (.inl rfl)
      · apply h.2
        cases x with
        | nil => simp [crlf] at hend
        | cons d x => exact .inl (by simpa [crlf] using hend)
    · next hgoes =>
      push Not at hgoes
      have hno : ¬ crlf <+: b :: x := fun h => hgoes.2 (h.trans (List.prefix_append (b :: x) _))
      rw [List.cons.injEq, and_iff_right rfl, ih]
      simp [hno, hgoes.1.symm]

theorem length_splitOn_pos (a : UInt8) (x : CString) : 0 < (x.splitOn a).length :=
  List.length_pos_of_ne_nil (List.splitOn_ne_nil a x)

/-- A text of one field holds no separator. -/
theorem not_mem_of_splitOn {a : UInt8} {x : CString} (h : (x.splitOn a).length = 1) : a ∉ x := by
  intro ha
  obtain ⟨front, back, rfl⟩ := List.append_of_mem ha
  rw [List.splitOn_append_cons_self, List.length_append] at h
  have := length_splitOn_pos a front
  have := length_splitOn_pos a back
  omega

/-- Three strings joined by ampersands are the fields of the result when they hold none. -/
theorem splitOn_three {u p t : CString} (ht : 38 ∉ t) :
    (u ++ 38 :: (p ++ 38 :: t)).splitOn 38 = [u, p, t] ↔ 38 ∉ u ∧ 38 ∉ p := by
  constructor
  · intro h
    rw [List.splitOn_append_cons_self, List.splitOn_append_cons_self] at h
    have hlen := congrArg List.length h
    simp only [List.length_append, List.length_cons, List.length_nil] at hlen
    have := length_splitOn_pos 38 u
    have := length_splitOn_pos 38 p
    have := length_splitOn_pos 38 t
    exact ⟨not_mem_of_splitOn (by omega), not_mem_of_splitOn (by omega)⟩
  · rintro ⟨hu, hp⟩
    rw [List.splitOn_append_cons_self_of_not_mem hu, List.splitOn_append_cons_self_of_not_mem hp,
      List.splitOn_eq_singleton ht]

namespace Connection

variable {P : HttpParser}

/-! ## The parts of the request -/

def channelKey : CString := ascii "&PTZCONTROL=CH"

/-- What follows the request line. -/
def headers (file hostname : CString) : CString :=
  ascii "\r\nUser-Agent: " ++ (file ++ (ascii "\r\nAccept: */*\r\nHost: " ++
    (hostname ++ ascii "\r\nConnection: Close\r\n\r\n")))

theorem request_eq (c : Connection P) (file : CString) : c.request file =
    ascii "GET /snapshot.html" ++ 63 :: (c.username ++ 38 :: (c.password ++
      (channelKey ++ (decimal c.channel ++ headers file c.hostname)))) := by
  have hpath : ascii "GET /snapshot.html" = ascii "GET " ++ ascii "/snapshot.html" := by decide
  have hmark : ascii "?" = [63] := by decide
  have hamp : ascii "&" = [38] := by decide
  have hagent : ascii "\r\nUser-Agent: " = ascii "\r\n" ++ ascii "User-Agent: " := by decide
  have hhost : ascii "\r\nAccept: */*\r\nHost: " =
      ascii "\r\n" ++ (ascii "Accept: */*\r\n" ++ ascii "Host: ") := by decide
  have hclose : ascii "\r\nConnection: Close\r\n\r\n" =
      ascii "\r\n" ++ (ascii "Connection: Close\r\n" ++ ascii "\r\n") := by decide
  unfold request HTTP_PATH channelKey headers
  simp only [hpath, hmark, hamp, hagent, hhost, hclose, List.append_assoc, List.cons_append,
    List.nil_append]

/-! ## The configuration is determined -/

theorem unbordered_amp : Unbordered [(38 : UInt8)] :=
  unbordered_cons (by simp)

theorem unbordered_channelKey : Unbordered channelKey := by
  rw [show channelKey = 38 :: ascii "PTZCONTROL=CH" from by decide]
  exact unbordered_cons (by decide)

theorem decimal_injective {m n : Nat} (hm : m ≤ MAX_CHAN) (hn : n ≤ MAX_CHAN) {x y : CString}
    (h : decimal m ++ x = decimal n ++ y) : m = n ∧ x = y := by
  rw [decimal_digit hm, decimal_digit hn, List.singleton_append, List.singleton_append] at h
  obtain ⟨hdigit, hrest⟩ := List.cons.inj h
  have := congrArg UInt8.toNat hdigit
  simp only [Nat.toUInt8_eq, UInt8.toNat_ofNat'] at this
  unfold MAX_CHAN at hm hn
  exact ⟨by omega, hrest⟩

/-- A connection that `configure` has accepted. -/
def Accepted (c : Connection P) : Prop :=
  ∃ (c₀ : Connection P) (hostname username password : CString) (channel : Nat),
    c₀.configure hostname username password channel = (true, c)

theorem Accepted.channel_le {c : Connection P} (h : Accepted c) : c.channel ≤ MAX_CHAN := by
  obtain ⟨c₀, hostname, username, password, channel, hconf⟩ := h
  obtain ⟨-, rfl, -, -, hle⟩ := configure_accepted hconf
  exact hle

/-- The request determines the configuration when the username holds no ampersand and the password
does not hold what comes after it. -/
theorem request_injective {c c' : Connection P} {file : CString} (hc : Accepted c)
    (hc' : Accepted c') (hu : 38 ∉ c.username) (hu' : 38 ∉ c'.username)
    (hp : ¬ channelKey <:+: c.password) (hp' : ¬ channelKey <:+: c'.password)
    (h : c.request file = c'.request file) : SameConfig c c' := by
  rw [request_eq, request_eq] at h
  obtain ⟨-, h⟩ := List.cons.inj (List.append_cancel_left h)
  obtain ⟨husername, h⟩ := unbordered_amp.cut (by rwa [List.singleton_infix_iff])
    (by rwa [List.singleton_infix_iff]) h
  obtain ⟨hpassword, h⟩ := unbordered_channelKey.cut hp hp' h
  obtain ⟨hchannel, h⟩ := decimal_injective hc.channel_le hc'.channel_le h
  have hhostname := List.append_cancel_right (List.append_cancel_left (List.append_cancel_left
    (List.append_cancel_left h)))
  exact ⟨husername.symm, hpassword.symm, hhostname.symm, hchannel.symm⟩

/-! ## The structure of the request -/

/-- The last field of the query. -/
def channelField (c : Connection P) : CString :=
  ascii "PTZCONTROL=CH" ++ decimal c.channel

/-- A channel brings no delimiter into the request. -/
theorem Accepted.channelField {c : Connection P} (hc : Accepted c) :
    38 ∉ c.channelField ∧ 32 ∉ c.channelField ∧ ¬ crlf <:+: c.channelField ∧
      ¬ blankLine <:+: c.channelField ++ ascii "\r\nUser-Agent:" := by
  have hplain : ∀ n : Fin 10, 38 ∉ ascii "PTZCONTROL=CH" ++ decimal n ∧
      32 ∉ ascii "PTZCONTROL=CH" ++ decimal n ∧
      ¬ crlf <:+: ascii "PTZCONTROL=CH" ++ decimal n ∧
      ¬ blankLine <:+: ascii "PTZCONTROL=CH" ++ decimal n ++ ascii "\r\nUser-Agent:" := by
    decide
  have hle := hc.channel_le
  unfold MAX_CHAN at hle
  exact hplain ⟨c.channel, by omega⟩

theorem query_request (c : Connection P) (file : CString) : query (c.request file) =
    untilEnd ((c.username ++ 38 :: (c.password ++ 38 :: c.channelField)) ++
      headers file c.hostname) := by
  have hpath : (ascii "GET /snapshot.html").all (· ≠ 63) = true := by decide
  have hkey : channelKey = 38 :: ascii "PTZCONTROL=CH" := by decide
  rw [query, request_eq, List.dropWhile_append_of_pos (List.all_eq_true.1 hpath),
    List.dropWhile_cons_of_neg (by simp)]
  simp only [List.drop_succ_cons, List.drop_zero, List.append_assoc, List.cons_append, hkey,
    Connection.channelField]

/-- The query is the three strings joined by ampersands, when neither of the first two ends it. -/
theorem query_eq_iff {c : Connection P} (hc : Accepted c) (file : CString) :
    query (c.request file) = c.username ++ 38 :: (c.password ++ 38 :: c.channelField) ↔
      (32 ∉ c.username ∧ ¬ crlf <:+: c.username) ∧
        32 ∉ c.password ∧ ¬ crlf <:+: c.password := by
  obtain ⟨-, hblank, hline, -⟩ := hc.channelField
  have hheaders : headers file c.hostname = crlf ++ (headers file c.hostname).drop 2 := by
    unfold headers
    rfl
  have hamp : 38 ∉ crlf := by decide
  rw [query_request, hheaders, untilEnd_eq_iff, infix_append_cons hamp, infix_append_cons hamp]
  simp only [List.mem_append, List.mem_cons, hblank, hline]
  tauto

/-- The fields of the query. -/
theorem fields_eq_iff {c : Connection P} (hc : Accepted c) (file : CString) :
    fields (c.request file) = [c.username, c.password, c.channelField] ↔
      (38 ∉ c.username ∧ 32 ∉ c.username ∧ ¬ crlf <:+: c.username) ∧
        38 ∉ c.password ∧ 32 ∉ c.password ∧ ¬ crlf <:+: c.password := by
  have hthree := @splitOn_three c.username c.password c.channelField hc.channelField.1
  have hquery := query_eq_iff hc file
  constructor
  · intro h
    have hjoined : query (c.request file) =
        c.username ++ 38 :: (c.password ++ 38 :: c.channelField) := by
      rw [← @List.intercalate_splitOn _ (query (c.request file)) _ _ 38]
      show [38].intercalate (fields (c.request file)) = _
      rw [h]
      simp
    rw [fields, hjoined] at h
    obtain ⟨hu, hp⟩ := hthree.1 h
    obtain ⟨hu', hp'⟩ := hquery.1 hjoined
    exact ⟨⟨hu, hu'⟩, hp, hp'⟩
  · rintro ⟨⟨hu, hu'⟩, hp, hp'⟩
    rw [fields, hquery.2 ⟨hu', hp'⟩, hthree]
    exact ⟨hu, hp⟩

/-- The request without its last byte, cut where no line ends. -/
theorem request_lines (c : Connection P) (file : CString) : c.request file =
    (ascii "GET /snapshot.html" ++ 63 :: (c.username ++ 38 :: (c.password ++ 38 ::
      ((c.channelField ++ ascii "\r\nUser-Agent:") ++ 32 :: ((file ++ crlf) ++ 65 ::
        (ascii "ccept: */*\r\nHost:" ++ 32 :: ((c.hostname ++ crlf) ++ 67 ::
          ascii "onnection: Close\r\n\r"))))))) ++ [10] := by
  have hkey : channelKey = 38 :: ascii "PTZCONTROL=CH" := by decide
  have hagent : ascii "\r\nUser-Agent: " = ascii "\r\nUser-Agent:" ++ [32] := by decide
  have hhost : ascii "\r\nAccept: */*\r\nHost: " =
      crlf ++ 65 :: (ascii "ccept: */*\r\nHost:" ++ [32]) := by decide
  have hclose : ascii "\r\nConnection: Close\r\n\r\n" =
      crlf ++ 67 :: (ascii "onnection: Close\r\n\r" ++ [10]) := by decide
  rw [request_eq]
  unfold headers Connection.channelField
  simp only [hkey, hagent, hhost, hclose, List.append_assoc, List.cons_append, List.nil_append]

/-- The end of the request is its only blank line exactly when no part of it brings one in. -/
theorem blankLine_iff {c : Connection P} (hc : Accepted c) (file : CString) :
    (∀ i, Occurs blankLine (c.request file) i ↔
        i + blankLine.length = (c.request file).length) ↔
      ¬ blankLine <:+: c.username ∧ ¬ blankLine <:+: c.password ∧
        ¬ blankLine <:+: file ++ crlf ∧ ¬ blankLine <:+: c.hostname ++ crlf := by
  obtain ⟨-, -, -, hagent⟩ := hc.channelField
  have hpath : ¬ blankLine <:+: ascii "GET /snapshot.html" := by decide
  have hhost : ¬ blankLine <:+: ascii "ccept: */*\r\nHost:" := by decide
  have hclose : ¬ blankLine <:+: ascii "onnection: Close\r\n\r" := by decide
  have hend : blankLine <:+ c.request file := by
    have hlast : blankLine <:+ ascii "\r\nConnection: Close\r\n\r\n" := by decide
    rw [request_eq, headers]
    simp only [← List.append_assoc, ← List.cons_append]
    exact hlast.trans (List.suffix_append _ _)
  have h63 : 63 ∉ blankLine := by decide
  have h38 : 38 ∉ blankLine := by decide
  have h32 : 32 ∉ blankLine := by decide
  have h65 : 65 ∉ blankLine := by decide
  have h67 : 67 ∉ blankLine := by decide
  rw [occurs_only_at_end (by decide) hend, request_lines, List.dropLast_concat,
    infix_append_cons h63, infix_append_cons h38, infix_append_cons h38, infix_append_cons h32,
    infix_append_cons h65, infix_append_cons h32, infix_append_cons h67]
  simp only [hpath, hagent, hhost, hclose]
  tauto

/-! ## The request that is built -/

theorem Accepted.sockfd {c : Connection P} (h : Accepted c) : c.sockfd = none := by
  obtain ⟨c₀, hostname, username, password, channel, hconf⟩ := h
  obtain ⟨hclosed, rfl, -, -, -⟩ := configure_accepted hconf
  exact hclosed

/-- An `open` that succeeds builds the request: the bytes of the output buffer that are to be
sent. -/
def Builds (c : Connection P) (file : CString) (e : OpenEnv) (request : CString) : Prop :=
  ∃ r b, c.open file e = .ok r ∧ r.ret = true ∧ r.conn.outputBuffer = some b ∧
    b.cells.take r.conn.outputLength = request

/-- The request is no longer than the output buffer. -/
def FitsOutput (c : Connection P) (file : CString) : Prop :=
  93 + c.username.length + c.password.length + file.length + c.hostname.length ≤
    OUTPUT_BUFFER_SIZE

theorem Accepted.length_request {c : Connection P} (hc : Accepted c) (file : CString) :
    (c.request file).length =
      93 + c.username.length + c.password.length + file.length + c.hostname.length := by
  rw [Connection.length_request, decimal_digit hc.channel_le, List.length_singleton]
  omega

theorem Builds.eq {c : Connection P} {file : CString} {e : OpenEnv} {request : CString}
    (hc : Accepted c) (hfits : FitsOutput c file) (h : Builds c file e request) :
    request = c.request file := by
  obtain ⟨r, b, hr, hret, hb, rfl⟩ := h
  have hle : (c.request file).length ≤ OUTPUT_BUFFER_SIZE := by
    rw [hc.length_request]
    exact hfits
  obtain ⟨b', hb', htake⟩ := (open_stores hc.sockfd hle hr hret).stored
  obtain rfl : b = b' := Option.some.inj (hb.symm.trans hb')
  exact htake

theorem snprintf_succeeds (buffer : Region UInt8 OUTPUT_BUFFER_SIZE) (text : CString) :
    ∃ b, snprintf buffer text = some b := by
  obtain ⟨b, hb, -⟩ :=
    @Region.write_eq_some _ _ buffer 0 (text.take (OUTPUT_BUFFER_SIZE - 1) ++ [0])
    (by
      rw [List.length_append, List.length_take, List.length_singleton]
      unfold OUTPUT_BUFFER_SIZE
      omega)
  exact ⟨b, by rw [snprintf, hb]⟩

/-- When every call that `open` makes succeeds, it builds what `snprintf` has left in the buffer. -/
theorem open_builds {c : Connection P} {file : CString} {e : OpenEnv} {fd : Nat}
    {buffer : Region UInt8 OUTPUT_BUFFER_SIZE} (hc : Accepted c)
    (hcomes : ComesToRequest c e fd buffer) (hpong : e.mallocPong.isSome)
    (hping : e.mallocPing.isSome) (hne : (c.request file).length ≠ OUTPUT_BUFFER_SIZE) :
    ∃ b, snprintf buffer (c.request file) = some b ∧ Builds c file e
      (b.cells.take (snprintfResult (c.request file).length % 2 ^ 64).toNat) := by
  have hlen : snprintfResult (c.request file).length ≠ OUTPUT_BUFFER_SIZE := by
    rwa [Ne, snprintfResult_eq_size]
  obtain ⟨b, hb⟩ := snprintf_succeeds buffer (c.request file)
  obtain ⟨d, hd⟩ := resetReceiver_succeeds hpong hping (c.requested fd buffer (c.request file))
  have hsame := resetReceiver_sameSocket hd
  have hopen : c.open file e = .ok ⟨true, d, []⟩ := by
    rw [open_stored hc.sockfd hcomes hlen, hd]
    rfl
  have hstored : d.outputBuffer = some b := by
    rw [hsame.outputBuffer, requested_outputBuffer, hb]
  refine ⟨b, hb, ⟨true, d, []⟩, b, hopen, rfl, hstored, ?_⟩
  rw [hsame.outputLength, requested_outputLength]

/-- **The request encodes the configuration.** Of two configurations whose requests fit the output
buffer, `open` builds different requests when the usernames hold no ampersand and the passwords not
the text that comes after a password. The end of the request is its only blank line, and its query
splits into the username, the password and the channel, exactly when the strings bring no such
delimiter in. -/
theorem request_encodes {c c' : Connection P} (hc : Accepted c) (hc' : Accepted c')
    {file : CString} (hfits : FitsOutput c file) (hfits' : FitsOutput c' file) {e e' : OpenEnv}
    {request request' : CString} (h : Builds c file e request) (h' : Builds c' file e' request') :
    (38 ∉ c.username → 38 ∉ c'.username → ¬ channelKey <:+: c.password →
        ¬ channelKey <:+: c'.password → request = request' → SameConfig c c') ∧
      ((∀ i, Occurs blankLine request i ↔ i + blankLine.length = request.length) ↔
        ¬ blankLine <:+: c.username ∧ ¬ blankLine <:+: c.password ∧
          ¬ blankLine <:+: file ++ crlf ∧ ¬ blankLine <:+: c.hostname ++ crlf) ∧
      (fields request = [c.username, c.password, c.channelField] ↔
        (38 ∉ c.username ∧ 32 ∉ c.username ∧ ¬ crlf <:+: c.username) ∧
          38 ∉ c.password ∧ 32 ∉ c.password ∧ ¬ crlf <:+: c.password) := by
  obtain rfl := h.eq hc hfits
  obtain rfl := h'.eq hc' hfits'
  exact ⟨fun hu hu' hp hp' => request_injective hc hc' hu hu' hp hp', blankLine_iff hc file,
    fields_eq_iff hc file⟩

theorem accepted_sampleClosed : Accepted (sampleClosed P) :=
  ⟨_, _, _, _, _, sampleClosed_configured P⟩

/-- `open` builds the text of a request that is shorter than the buffer. -/
theorem Accepted.builds {c : Connection P} {file : CString} (hc : Accepted c)
    (hfits : FitsOutput c file) (hne : (c.request file).length ≠ OUTPUT_BUFFER_SIZE) :
    Builds c file openAll (c.request file) := by
  obtain ⟨fd, buffer, hcomes⟩ := openAll_comes c
  obtain ⟨b, -, hbuilds⟩ := open_builds hc hcomes rfl rfl hne
  have heq := hbuilds.eq hc hfits
  rwa [heq] at hbuilds

theorem request_encodes_sample : ∃ request,
    Builds (sampleClosed .untilEof) sampleFile openAll request ∧
    fields request = [ascii "admin", ascii "secret", (sampleClosed .untilEof).channelField] := by
  have hc := @accepted_sampleClosed .untilEof
  have hfits : FitsOutput (sampleClosed .untilEof) sampleFile := by
    unfold FitsOutput
    decide
  have hbuilds := hc.builds hfits (by rw [length_request_sampleClosed]; decide)
  refine ⟨_, hbuilds, (request_encodes hc hc hfits hfits hbuilds hbuilds).2.2.2 ?_⟩
  show (38 ∉ ascii "admin" ∧ 32 ∉ ascii "admin" ∧ ¬ crlf <:+: ascii "admin") ∧
    38 ∉ ascii "secret" ∧ 32 ∉ ascii "secret" ∧ ¬ crlf <:+: ascii "secret"
  decide

/-- A connection configured with the given strings for the first channel. -/
def configuredWith (P : HttpParser) (hostname username password : CString) : Connection P :=
  { malloc P with hostname, username, password, channel := 1 }

theorem accepted_configuredWith {hostname username password : CString}
    (hh : hostname.length < FIELD_SIZE) (hu : username.length < FIELD_SIZE)
    (hp : password.length < FIELD_SIZE) :
    Accepted (configuredWith P hostname username password) := by
  refine ⟨malloc P, hostname, username, password, 1, ?_⟩
  unfold configure
  rw [if_neg (by simp [malloc]), if_neg (by omega), if_neg (by decide)]
  rfl

/-- The request for such a connection, when its strings are short. -/
theorem configuredWith_builds {hostname username password : CString} (hh : hostname.length ≤ 10)
    (hu : username.length ≤ 10) (hp : password.length ≤ 10) :
    Accepted (configuredWith P hostname username password) ∧
      Builds (configuredWith P hostname username password) sampleFile openAll
        ((configuredWith P hostname username password).request sampleFile) := by
  have hc := @accepted_configuredWith P hostname username password
    (by unfold FIELD_SIZE; omega) (by unfold FIELD_SIZE; omega) (by unfold FIELD_SIZE; omega)
  have hlen : 93 + username.length + password.length + sampleFile.length + hostname.length <
      OUTPUT_BUFFER_SIZE := by
    have hfile : sampleFile.length = 11 := rfl
    unfold OUTPUT_BUFFER_SIZE
    omega
  refine ⟨hc, hc.builds (Nat.le_of_lt hlen) ?_⟩
  rw [hc.length_request]
  exact Nat.ne_of_lt hlen

/-- What comes before the hostname in the request. -/
theorem request_front (hostname username password file : CString) :
    (configuredWith P hostname username password).request file =
      (ascii "GET /snapshot.html?" ++ username ++ ascii "&" ++ password ++ channelKey ++
        decimal 1 ++ ascii "\r\nUser-Agent: " ++ file) ++ (ascii "\r\nAccept: */*\r\nHost: " ++
          (hostname ++ ascii "\r\nConnection: Close\r\n\r\n")) := by
  have hmark : ascii "GET /snapshot.html?" = ascii "GET /snapshot.html" ++ [63] := by decide
  have hamp : ascii "&" = [38] := by decide
  rw [request_eq]
  unfold headers configuredWith
  simp only [hmark, hamp, List.append_assoc, List.cons_append, List.nil_append]

/-- What does not fit the buffer is not in the request that is built. -/
theorem builds_overlong {hostname hostname' username password file : CString}
    (hh : hostname.length < FIELD_SIZE) (hh' : hostname'.length = hostname.length)
    (hu : username.length < FIELD_SIZE) (hp : password.length < FIELD_SIZE)
    (hfile : OUTPUT_BUFFER_SIZE ≤ file.length) : ∃ request,
      Builds (configuredWith P hostname username password) file openAll request ∧
        Builds (configuredWith P hostname' username password) file openAll request := by
  have hc := @accepted_configuredWith P _ _ _ hh hu hp
  have hc' := @accepted_configuredWith P _ _ _ (hh'.trans_lt hh) hu hp
  obtain ⟨c, hceq⟩ : ∃ c, c = configuredWith P hostname username password := ⟨_, rfl⟩
  obtain ⟨c', hceq'⟩ : ∃ c', c' = configuredWith P hostname' username password := ⟨_, rfl⟩
  have hfront := request_front (P := P) hostname username password file
  have hfront' := request_front (P := P) hostname' username password file
  rw [← hceq] at hc hfront ⊢
  rw [← hceq'] at hc' hfront' ⊢
  have hlen : (c'.request file).length = (c.request file).length := by
    rw [hfront, hfront']
    simp only [List.length_append, hh']
  have htake : (c'.request file).take (OUTPUT_BUFFER_SIZE - 1) =
      (c.request file).take (OUTPUT_BUFFER_SIZE - 1) := by
    have hcut : ∀ front tail : CString, (front ++ file ++ tail).take (OUTPUT_BUFFER_SIZE - 1) =
        (front ++ file).take (OUTPUT_BUFFER_SIZE - 1) := by
      intro front tail
      apply List.take_append_of_le_length
      rw [List.length_append]
      omega
    rw [hfront, hfront', hcut, hcut]
  have hne : (c.request file).length ≠ OUTPUT_BUFFER_SIZE := by
    have hkey : 0 < channelKey.length := by decide
    rw [hfront]
    simp only [List.length_append]
    omega
  obtain ⟨fd, buffer, hcomes⟩ := openAll_comes c
  have hcomes' : ComesToRequest c' openAll fd buffer := by
    have hbuffer := hcomes.outputBuffer
    rw [hceq] at hbuffer
    refine ⟨hcomes.socket, hcomes.getaddrinfo, hcomes.connect, ?_⟩
    rw [hceq']
    exact hbuffer
  obtain ⟨b, hb, hbuilds⟩ := open_builds hc hcomes rfl rfl hne
  obtain ⟨b', hb', hbuilds'⟩ := open_builds hc' hcomes' rfl rfl (by rwa [hlen])
  rw [snprintf, htake, ← snprintf, hb] at hb'
  cases hb'
  rw [hlen] at hbuilds'
  exact ⟨_, hbuilds, hbuilds'⟩

/-- An ampersand moves from the username to the password without changing the request, a line end in
the hostname brings a blank line in, and a hostname behind a long file name is not in it. -/
theorem not_request_encodes :
    (∃ (c c' : Connection .untilEof) (request : CString), Accepted c ∧ Accepted c' ∧
      Builds c sampleFile openAll request ∧ Builds c' sampleFile openAll request ∧
      ¬ SameConfig c c' ∧ fields request ≠ [c.username, c.password, c.channelField]) ∧
    (∃ (c : Connection .untilEof) (request : CString), Accepted c ∧
      Builds c sampleFile openAll request ∧
      ¬ ∀ i, Occurs blankLine request i ↔ i + blankLine.length = request.length) ∧
    ∃ (c c' : Connection .untilEof) (file request : CString), Accepted c ∧ Accepted c' ∧
      Builds c file openAll request ∧ Builds c' file openAll request ∧
      c.username = [97] ∧ c'.username = [97] ∧ c.password = [99] ∧ c'.password = [99] ∧
      ¬ SameConfig c c' := by
  refine ⟨?_, ?_, ?_⟩
  · obtain ⟨hc, hbuilds⟩ := @configuredWith_builds .untilEof [104] [97, 38, 98] [99] (by decide)
      (by decide) (by decide)
    obtain ⟨hc', hbuilds'⟩ := @configuredWith_builds .untilEof [104] [97] [98, 38, 99] (by decide)
      (by decide) (by decide)
    have hsame : (configuredWith .untilEof [104] [97, 38, 98] [99]).request sampleFile =
        (configuredWith .untilEof [104] [97] [98, 38, 99]).request sampleFile := by
      rw [request_eq, request_eq]
      rfl
    refine ⟨_, _, _, hc, hc', hbuilds, by rwa [hsame], ?_, ?_⟩
    · rintro ⟨husername, -, -, -⟩
      revert husername
      simp [configuredWith]
    · rw [Ne, fields_eq_iff hc]
      simp [configuredWith]
  · obtain ⟨hc, hbuilds⟩ := @configuredWith_builds .untilEof crlf [97] [99] (by decide) (by decide)
      (by decide)
    refine ⟨_, _, hc, hbuilds, ?_⟩
    rw [blankLine_iff hc]
    exact fun h => h.2.2.2 (List.infix_rfl)
  · obtain ⟨request, hbuilds, hbuilds'⟩ := @builds_overlong .untilEof [104] [105] [97] [99]
      (List.replicate OUTPUT_BUFFER_SIZE 97) (by decide) rfl (by decide) (by decide)
      (by rw [List.length_replicate])
    refine ⟨_, _, _, request, accepted_configuredWith (by decide) (by decide) (by decide),
      accepted_configuredWith (by decide) (by decide) (by decide), hbuilds, hbuilds', rfl, rfl, rfl,
      rfl, ?_⟩
    rintro ⟨-, -, hhostname, -⟩
    revert hhostname
    simp [configuredWith]

end Connection

end Rsva11001
