import Rsva11001.Verify.HttpLength

/-!
# The head of a response

What the byte machine does with the head of a response, piece by piece: the status line
(`walks_status`), the name of a header, whose recogniser knows five names (`NameState`), its value,
and the headers together (`walks_headers`). A piece leaves the count of the head's bytes aside,
which only has to stay within its limit (`Walks`).
-/

namespace Rsva11001.Http

open Lib

/-! ## Walking through a head -/

/-- The bytes lead from one parser to the other as long as the head does not grow too long. The
counts of the two parsers do not matter. -/
def Walks (p : Parser) (bytes : List UInt8) (q : Parser) : Prop :=
  ∀ n, n + bytes.length ≤ HTTP_MAX_HEADER_SIZE →
    Runs Parser.step { p with nread := n } bytes { q with nread := n + bytes.length } []

variable {p q r : Parser} {ch : UInt8}

theorem Walks.nil (p : Parser) : Walks p [] p :=
  fun _ _ => Runs.nil _

theorem Walks.append {bytes more : List UInt8} (h : Walks p bytes q) (hmore : Walks q more r) :
    Walks p (bytes ++ more) r := by
  intro n hn
  rw [List.length_append, ← Nat.add_assoc] at hn ⊢
  exact (h n (by omega)).silent (hmore _ hn)

theorem Walks.cons {bytes : List UInt8} (h : Walks p [ch] q) (hmore : Walks q bytes r) :
    Walks p (ch :: bytes) r :=
  h.append hmore

/-- One byte. -/
theorem Walks.byte (hs : p.state.parsingHeader = true)
    (h : ∀ n, Parser.pass ch PASSES { p with nread := n } = .go { q with nread := n } []) :
    Walks p [ch] q :=
  fun n hn => Runs.single (step_head hs hn (h (n + 1)))

/-- One byte that one pass through the switch is enough for. -/
theorem Walks.move (hs : p.state.parsingHeader = true)
    (hnext : ∀ n, (switch { p with nread := n } ch 1).next = .advance)
    (hparser : ∀ n, (switch { p with nread := n } ch 1).parser = { q with nread := n }) :
    Walks p [ch] q := by
  refine .byte hs fun n => ?_
  unfold PASSES Parser.pass
  simp only [hnext, hparser]

/-- Bytes that leave the parser where it is. -/
theorem Walks.stay {bytes : List UInt8} (h : ∀ c ∈ bytes, Walks p [c] p) : Walks p bytes p := by
  induction bytes with
  | nil => exact .nil p
  | cons c bytes ih =>
    exact .cons (h c List.mem_cons_self) (ih fun d hd => h d (List.mem_cons_of_mem c hd))

/-- The digits of a numeral behind the first: `value v` is the parser that has read the number
`v`. -/
theorem walks_moreDigits {read : UInt8 → Option Nat} {base bound : Nat} (hbase : 0 < base)
    {value : Nat → Parser} (hmore : ∀ v c d, read c = some d → v * base + d < bound →
      Walks (value v) [c] (value (v * base + d)))
    {c : UInt8} {d : Nat} (hd : read c = some d) {rest : List UInt8}
    (hsome : ∀ c ∈ rest, (read c).isSome = true)
    (hlt : positional base ((c :: rest).filterMap read) < bound) :
    Walks (value d) rest (value (positional base ((c :: rest).filterMap read))) := by
  induction rest using List.reverseRecOn with
  | nil =>
    rw [List.filterMap_cons_some hd, List.filterMap_nil, positional_singleton]
    exact .nil _
  | append_singleton rest e ih =>
    obtain ⟨f, hf⟩ := Option.isSome_iff_exists.1
      (hsome e (List.mem_append_right _ List.mem_cons_self))
    have hvalue : (c :: (rest ++ [e])).filterMap read = (c :: rest).filterMap read ++ [f] := by
      rw [← List.cons_append, List.filterMap_append, List.filterMap_cons_some hf,
        List.filterMap_nil]
    have hle := positional_le_concat hbase ((c :: rest).filterMap read) f
    rw [hvalue] at hlt ⊢
    rw [positional_concat] at hlt hle ⊢
    refine .append (ih (fun c hc => hsome c (List.mem_append_left _ hc)) (by omega)) ?_
    exact hmore _ e f hf hlt

/-- A numeral. -/
theorem walks_digits {read : UInt8 → Option Nat} {base bound : Nat} (hbase : 0 < base)
    {value : Nat → Parser} (hfirst : ∀ c d, read c = some d → Walks p [c] (value d))
    (hmore : ∀ v c d, read c = some d → v * base + d < bound →
      Walks (value v) [c] (value (v * base + d)))
    (digits : Digits read) (hlt : digits.value base < bound) :
    Walks p digits.bytes (value (digits.value base)) := by
  obtain ⟨bytes, hne, hsome⟩ := digits
  obtain ⟨c, rest, rfl⟩ := List.exists_cons_of_ne_nil hne
  obtain ⟨d, hd⟩ := Option.isSome_iff_exists.1 (hsome c List.mem_cons_self)
  exact .cons (hfirst c d hd)
    (walks_moreDigits hbase hmore hd (fun e he => hsome e (List.mem_cons_of_mem c he)) hlt)

/-! ## The status line -/

theorem walks_version (p : Parser) : Walks { p with state := .startRes } (text "HTTP/")
    { p with state := .resFirstHttpMajor, flags := {}, contentLength := ULLONG_MAX } := by
  let q : Parser := { p with flags := {}, contentLength := ULLONG_MAX }
  have hH : Walks { p with state := .startRes } [chr 'H'] { q with state := .resH } :=
    .byte rfl fun _ => rfl
  have hHT : Walks { q with state := .resH } [chr 'T'] { q with state := .resHT } :=
    .byte rfl fun _ => rfl
  have hHTT : Walks { q with state := .resHT } [chr 'T'] { q with state := .resHTT } :=
    .byte rfl fun _ => rfl
  have hHTTP : Walks { q with state := .resHTT } [chr 'P'] { q with state := .resHTTP } :=
    .byte rfl fun _ => rfl
  have hslash : Walks { q with state := .resHTTP } [chr '/']
      { q with state := .resFirstHttpMajor } :=
    .byte rfl fun _ => rfl
  exact hH.cons (hHT.cons (hHTT.cons (hHTTP.cons hslash)))

theorem walks_major (digits : Digits decimal) (hlt : digits.value 10 < 1000) :
    Walks { p with state := .resFirstHttpMajor } digits.bytes
      { p with state := .resHttpMajor, httpMajor := digits.value 10 } := by
  refine @walks_digits _ decimal 10 1000 (by omega)
    (fun v => { p with state := .resHttpMajor, httpMajor := v }) ?_ ?_ digits hlt
  · intro c d hd
    obtain ⟨hnum, rfl⟩ := decimal_eq_some hd
    refine .move rfl (fun n => ?_) fun n => ?_ <;> simp [switch, hnum]
  · intro v c d hd hv
    obtain ⟨hnum, rfl⟩ := decimal_eq_some hd
    have hdot := ne_of_isNum hnum (chr '.') rfl
    have hle : ¬ 999 < v * 10 + digit c := by omega
    refine .move rfl (fun n => ?_) fun n => ?_ <;>
      simp [switch, versionDigit, hnum, hdot, hle]

theorem walks_minor (digits : Digits decimal) (hlt : digits.value 10 < 1000) :
    Walks { p with state := .resFirstHttpMinor } digits.bytes
      { p with state := .resHttpMinor, httpMinor := digits.value 10 } := by
  refine @walks_digits _ decimal 10 1000 (by omega)
    (fun v => { p with state := .resHttpMinor, httpMinor := v }) ?_ ?_ digits hlt
  · intro c d hd
    obtain ⟨hnum, rfl⟩ := decimal_eq_some hd
    refine .move rfl (fun n => ?_) fun n => ?_ <;> simp [switch, hnum]
  · intro v c d hd hv
    obtain ⟨hnum, rfl⟩ := decimal_eq_some hd
    have hspace := ne_of_isNum hnum SP rfl
    have hle : ¬ 999 < v * 10 + digit c := by omega
    refine .move rfl (fun n => ?_) fun n => ?_ <;>
      simp [switch, versionDigit, hnum, hspace, hle]

theorem walks_code (digits : Digits decimal) (hlt : digits.value 10 < 1000) :
    Walks { p with state := .resFirstStatusCode } digits.bytes
      { p with state := .resStatusCode, statusCode := digits.value 10 } := by
  refine @walks_digits _ decimal 10 1000 (by omega)
    (fun v => { p with state := .resStatusCode, statusCode := v }) ?_ ?_ digits hlt
  · intro c d hd
    obtain ⟨hnum, rfl⟩ := decimal_eq_some hd
    refine .move rfl (fun n => ?_) fun n => ?_ <;> simp [switch, hnum]
  · intro v c d hd hv
    obtain ⟨hnum, rfl⟩ := decimal_eq_some hd
    have hle : ¬ 999 < v * 10 + digit c := by omega
    refine .move rfl (fun n => ?_) fun n => ?_ <;> simp [switch, hnum, hle]

theorem walks_lineEnd (p : Parser) : Walks { p with state := .resLineAlmostDone } [LF]
    { p with state := .headerFieldStart } :=
  .byte rfl fun _ => rfl

theorem walks_reason {text : List UInt8} (h : ∀ c ∈ text, c ≠ CR ∧ c ≠ LF) :
    Walks { p with state := .resStatus } (text ++ [CR, LF])
      { p with state := .headerFieldStart } := by
  refine .append (.stay fun c hc => ?_) (.cons (.byte rfl fun _ => rfl) (walks_lineEnd p))
  obtain ⟨hcr, hlf⟩ := h c hc
  refine .move rfl (fun n => ?_) fun n => ?_ <;> simp [switch, hcr, hlf]

/-- **The status line.** -/
theorem walks_status (p : Parser) (line : StatusLine) :
    Walks { p with state := .startRes } line.encode
      { p with
        state := .headerFieldStart, flags := {}, contentLength := ULLONG_MAX
        httpMajor := line.major.value 10, httpMinor := line.minor.value 10
        statusCode := line.code.value 10 } := by
  let q : Parser := { p with flags := {}, contentLength := ULLONG_MAX }
  let q₁ : Parser := { q with httpMajor := line.major.value 10 }
  let q₂ : Parser := { q₁ with httpMinor := line.minor.value 10 }
  let q₃ : Parser := { q₂ with statusCode := line.code.value 10 }
  have hdot : Walks { q₁ with state := .resHttpMajor } [chr '.']
      { q₁ with state := .resFirstHttpMinor } :=
    .byte rfl fun _ => rfl
  have hspace : Walks { q₂ with state := .resHttpMinor } [SP]
      { q₂ with state := .resFirstStatusCode } :=
    .byte rfl fun _ => rfl
  have hreason : Walks { q₃ with state := .resStatusCode }
      ((line.reason.map (SP :: ·)).getD [] ++ [CR, LF])
      { q₃ with state := .headerFieldStart } := by
    cases hr : line.reason with
    | none => exact .cons (.byte rfl fun _ => rfl) (walks_lineEnd q₃)
    | some text => exact .cons (.byte rfl fun _ => rfl) (walks_reason (line.reason_text text hr))
  have hmajor := @walks_major q line.major line.major_lt
  have hminor := @walks_minor q₁ line.minor line.minor_lt
  have hcode := @walks_code q₂ line.code line.code_lt
  unfold StatusLine.encode
  rw [List.append_assoc]
  exact (walks_version p).append
    (hmajor.append (hdot.cons (hminor.append (hspace.cons (hcode.append hreason)))))

/-! ## The name of a header -/

/-- A name that the parser recognises: the state in which it is matched, the state behind it, and
how many of its characters are needed to tell it from the others. -/
structure Known where
  name : List UInt8
  matching : HeaderState
  found : HeaderState
  prefixLength : Nat
  deriving DecidableEq

def KNOWN : List Known :=
  [⟨CONNECTION, .matchingConnection, .connection, 4⟩,
    ⟨PROXY_CONNECTION, .matchingProxyConnection, .connection, 1⟩,
    ⟨CONTENT_LENGTH, .matchingContentLength, .contentLength, 4⟩,
    ⟨TRANSFER_ENCODING, .matchingTransferEncoding, .transferEncoding, 1⟩,
    ⟨UPGRADE, .matchingUpgrade, .upgrade, 1⟩]

/-- How the header state and the index stand when the name so far is `w`, in lower case. -/
inductive NameState (w : List UInt8) : HeaderState → Nat → Prop where
  | general (index : Nat) : (∀ k ∈ KNOWN, ¬ w <+: k.name) → NameState w .general index
  | c : w = text "c" → NameState w .c 0
  | co : w = text "co" → NameState w .co 1
  | con : w = text "con" → NameState w .con 2
  | partway (k : Known) : k ∈ KNOWN → w <+: k.name → k.prefixLength ≤ w.length →
    w.length < k.name.length → NameState w k.matching (w.length - 1)
  | found (k : Known) (index : Nat) : k ∈ KNOWN → w = k.name → NameState w k.found index

/-- Names that have enough characters in common are the same. -/
theorem known_eq : ∀ k ∈ KNOWN, ∀ l ∈ KNOWN,
    k.name.take k.prefixLength <+: l.name → k = l := by
  decide

/-- One more byte of the constant. -/
theorem getElem?_of_concat_front {w X : List UInt8} {c : UInt8} (h : w ++ [c] <+: X) :
    X[w.length]? = some c := by
  obtain ⟨t, rfl⟩ := h
  simp

theorem concat_front {w X : List UInt8} {c : UInt8} (hw : w <+: X)
    (h : X[w.length]? = some c) : w ++ [c] <+: X := by
  obtain ⟨t, rfl⟩ := hw
  cases t with
  | nil => simp at h
  | cons d t =>
    obtain rfl : d = c := by simpa using h
    exact ⟨t, by simp⟩

/-- Matching the byte behind a part `w` of the constant. -/
theorem matching_eq {X w : List UInt8} (hw : w <+: X) (hne : w ≠ []) (hlt : w.length < X.length)
    {found : HeaderState} (hindex : p.index = w.length - 1) (c : UInt8) :
    matching X found p c =
      { p with
        index := w.length
        headerState :=
          if w ++ [c] = X then found
          else if w ++ [c] <+: X then p.headerState
          else .general } := by
  have hpos := List.length_pos_iff.2 hne
  have hsucc : p.index + 1 = w.length := by omega
  have hget : (X ++ [0])[w.length]? = X[w.length]? := List.getElem?_append_left hlt
  unfold matching
  dsimp only
  rw [hsucc, hget]
  by_cases hc : X[w.length]? = some c
  · have hprefix := concat_front hw hc
    rw [if_neg (by simp [hc]; omega)]
    by_cases hall : w.length = X.length - 1
    · have heq : w ++ [c] = X := hprefix.eq_of_length (by simp; omega)
      rw [if_pos hall, if_pos heq]
    · have hneq : w ++ [c] ≠ X := by
        rintro rfl
        simp at hall
      rw [if_neg hall, if_neg hneq, if_pos hprefix]
  · have hprefix : ¬ w ++ [c] <+: X := fun h => hc (getElem?_of_concat_front h)
    have hneq : w ++ [c] ≠ X := fun h => hprefix (h ▸ List.prefix_refl _)
    rw [if_pos (.inr hc), if_neg hneq, if_neg hprefix]

theorem nameState_first (c : UInt8) : NameState [c] (firstHeaderState c) 0 := by
  unfold firstHeaderState
  split
  · subst_vars
    exact .c rfl
  split
  · subst_vars
    exact .partway ⟨PROXY_CONNECTION, .matchingProxyConnection, .connection, 1⟩ (by decide)
      (by decide) (by decide) (by decide)
  split
  · subst_vars
    exact .partway ⟨TRANSFER_ENCODING, .matchingTransferEncoding, .transferEncoding, 1⟩
      (by decide) (by decide) (by decide) (by decide)
  split
  · subst_vars
    exact .partway ⟨UPGRADE, .matchingUpgrade, .upgrade, 1⟩ (by decide) (by decide) (by decide)
      (by decide)
  · rename_i hc hp ht hu
    refine .general 0 fun k hk hprefix => ?_
    have hfirst : ∀ k ∈ KNOWN, k.name[0]? = some (chr 'c') ∨ k.name[0]? = some (chr 'p') ∨
        k.name[0]? = some (chr 't') ∨ k.name[0]? = some (chr 'u') := by
      decide
    have := @getElem?_of_concat_front [] k.name c hprefix
    rcases hfirst k hk with h | h | h | h <;>
      rw [List.length_nil, h, Option.some.injEq] at this <;> simp_all

/-- A name that goes on differently from all that begin like it is none of them. -/
theorem nameState_other {w : List UInt8} {expected : List UInt8} (c : UInt8) (index : Nat)
    (hall : ∀ k ∈ KNOWN, w <+: k.name → ∃ d ∈ expected, k.name[w.length]? = some d)
    (hc : c ∉ expected) : NameState (w ++ [c]) .general index := by
  refine .general index fun k hk hprefix => ?_
  obtain ⟨d, hd, hget⟩ := hall k hk ((List.prefix_append w [c]).trans hprefix)
  rw [getElem?_of_concat_front hprefix, Option.some.injEq] at hget
  exact hc (hget ▸ hd)

theorem headerFieldChar_matching {k : Known} (hk : k ∈ KNOWN) (hs : p.headerState = k.matching)
    (ch c : UInt8) : headerFieldChar p ch c = some (matching k.name k.found p c) := by
  unfold headerFieldChar
  simp only [KNOWN, List.mem_cons, List.not_mem_nil, or_false] at hk
  rcases hk with rfl | rfl | rfl | rfl | rfl <;> simp only [hs]

theorem headerFieldChar_found {k : Known} (hk : k ∈ KNOWN) (hs : p.headerState = k.found)
    (hch : ch ≠ SP) (c : UInt8) :
    headerFieldChar p ch c = some { p with headerState := .general } := by
  unfold headerFieldChar
  simp only [KNOWN, List.mem_cons, List.not_mem_nil, or_false] at hk
  rcases hk with rfl | rfl | rfl | rfl | rfl <;> simp only [hs, if_pos hch]

/-- One more byte of a name. -/
theorem nameState_step {w : List UInt8} (h : NameState w p.headerState p.index) (hch : ch ≠ SP)
    (c : UInt8) : ∃ hs index,
      (∀ n, headerFieldChar { p with nread := n } ch c =
        some { p with headerState := hs, index := index, nread := n }) ∧
        NameState (w ++ [c]) hs index := by
  obtain ⟨type, flags, state, headerState, index, nread, contentLength, httpMajor, httpMinor,
    statusCode, method, httpErrno, upgrade⟩ := p
  dsimp only at h
  cases h with
  | general index hnone =>
    exact ⟨.general, index, fun _ => rfl, .general index fun k hk hprefix =>
      hnone k hk ((List.prefix_append w [c]).trans hprefix)⟩
  | c hw =>
    subst hw
    refine ⟨_, 1, fun _ => rfl, ?_⟩
    split
    · subst_vars
      exact .co rfl
    · exact @nameState_other (text "c") [chr 'o'] c 1 (by decide) (by simpa)
  | co hw =>
    subst hw
    refine ⟨_, 2, fun _ => rfl, ?_⟩
    split
    · subst_vars
      exact .con rfl
    · exact @nameState_other (text "co") [chr 'n'] c 2 (by decide) (by simpa)
  | con hw =>
    subst hw
    refine ⟨_, 3, fun _ => rfl, ?_⟩
    split
    · subst_vars
      exact .partway ⟨CONNECTION, .matchingConnection, .connection, 4⟩ (by decide) (by decide)
        (by decide) (by decide)
    split
    · subst_vars
      exact .partway ⟨CONTENT_LENGTH, .matchingContentLength, .contentLength, 4⟩ (by decide)
        (by decide) (by decide) (by decide)
    · rename_i hn ht
      exact @nameState_other (text "con") [chr 'n', chr 't'] c 3 (by decide) (by simp [hn, ht])
  | partway k hk hprefix hlen hlt =>
    have hpos : ∀ k ∈ KNOWN, 0 < k.prefixLength := by decide
    have hne : w ≠ [] := List.length_pos_iff.1 (Nat.lt_of_lt_of_le (hpos k hk) hlen)
    refine ⟨if w ++ [c] = k.name then k.found else if w ++ [c] <+: k.name then k.matching
      else .general, w.length, fun n => ?_, ?_⟩
    · exact (headerFieldChar_matching hk (by rfl) ch c).trans
        (congrArg some (matching_eq hprefix hne hlt (by rfl) c))
    split
    · rename_i heq
      exact .found k _ hk heq
    split
    · rename_i hneq hmore
      have hle : (w ++ [c]).length < k.name.length :=
        Nat.lt_of_le_of_ne hmore.length_le fun hlen => hneq (hmore.eq_of_length hlen)
      have hpart := NameState.partway k hk hmore (Nat.le_trans hlen (by simp)) hle
      simpa using hpart
    · rename_i hother
      refine .general _ fun l hl hmore => hother ?_
      have htake : k.name.take k.prefixLength <+: l.name := by
        have hwl : w <+: l.name := (List.prefix_append w [c]).trans hmore
        obtain ⟨t, ht⟩ := hprefix
        rw [← ht, List.take_append_of_le_length hlen]
        exact (List.take_prefix _ w).trans hwl
      rw [known_eq k hk l hl htake]
      exact hmore
  | found k index hk hw =>
    refine ⟨.general, index, fun n => headerFieldChar_found hk (by rfl) hch c,
      .general _ fun l hl hmore => ?_⟩
    have htake : k.name.take k.prefixLength <+: l.name := by
      rw [← hw]
      exact (List.take_prefix _ w).trans ((List.prefix_append w [c]).trans hmore)
    rw [← known_eq k hk l hl htake, hw] at hmore
    have hle := hmore.length_le
    rw [List.length_append, List.length_singleton] at hle
    omega

theorem ne_of_token {c d : UInt8} (h : tokens c ≠ 0) (hd : tokens d = 0) : c ≠ d :=
  fun heq => h (heq ▸ hd)

/-- The state in which a header may start. -/
def State.betweenHeaders : State → Prop
  | .headerFieldStart | .headerValueLws => True
  | _ => False

theorem walks_nameStart {s : State} (hs : s.betweenHeaders) (htoken : tokens ch ≠ 0) :
    Walks { p with state := s } [ch]
      { p with
        state := .headerField, headerState := firstHeaderState (tokens ch), index := 0 } := by
  have hcr := ne_of_token htoken (d := CR) (by decide)
  have hlf := ne_of_token htoken (d := LF) (by decide)
  have hsp := ne_of_token htoken (d := SP) (by decide)
  have hht := ne_of_token htoken (d := HT) (by decide)
  cases s with
  | headerFieldStart =>
    refine .move rfl (fun n => ?_) fun n => ?_ <;>
      simp [switch, headerFieldStart, hcr, hlf, htoken]
  | headerValueLws =>
    refine .byte rfl fun n => ?_
    simp [PASSES, Parser.pass, switch, headerFieldStart, hcr, hlf, hsp, hht, htoken]
  | _ => exact absurd hs id

/-- **The name of a header**, up to its colon. -/
theorem walks_name {s : State} (hs : s.betweenHeaders) {name : List UInt8} (hne : name ≠ [])
    (htoken : ∀ c ∈ name, tokens c ≠ 0) : ∃ headerState index,
      Walks { p with state := s } (name ++ [chr ':'])
        { p with state := .headerValueStart, headerState := headerState, index := index } ∧
      NameState (name.map tokens) headerState index := by
  have hname : ∃ headerState index, Walks { p with state := s } name
      { p with state := .headerField, headerState := headerState, index := index } ∧
      NameState (name.map tokens) headerState index := by
    induction name using List.reverseRecOn with
    | nil => exact absurd rfl hne
    | append_singleton name c ih =>
      have hc := htoken c (List.mem_append_right _ List.mem_cons_self)
      by_cases hnil : name = []
      · subst hnil
        exact ⟨_, _, walks_nameStart hs hc, nameState_first _⟩
      obtain ⟨headerState, index, hwalk, hstate⟩ :=
        ih hnil fun d hd => htoken d (List.mem_append_left _ hd)
      let q : Parser :=
        { p with state := .headerField, headerState := headerState, index := index }
      obtain ⟨headerState', index', hchar, hstate'⟩ :=
        @nameState_step q c _ hstate (ne_of_token hc (by decide)) (tokens c)
      refine ⟨headerState', index', hwalk.append ?_, by simpa using hstate'⟩
      refine .move rfl (fun n => ?_) fun n => ?_ <;>
        simp [switch, headerField, hc, show headerFieldChar _ c (tokens c) = _ from hchar n, q]
  obtain ⟨headerState, index, hwalk, hstate⟩ := hname
  exact ⟨headerState, index, hwalk.append (.byte rfl fun _ => rfl), hstate⟩

/-- The state behind a known name is the state behind no other name. -/
theorem nameState_found {w : List UInt8} {hs : HeaderState} {index : Nat}
    (h : NameState w hs index) {f : HeaderState} (hf : ∃ k ∈ KNOWN, k.found = f) :
    hs = f ↔ ∃ k ∈ KNOWN, k.found = f ∧ w = k.name := by
  have hgeneral : ∀ k ∈ KNOWN, k.found ≠ .general ∧ k.found ≠ .c ∧ k.found ≠ .co ∧
      k.found ≠ .con := by decide
  have hshort : ∀ k ∈ KNOWN, k.name ≠ text "c" ∧ k.name ≠ text "co" ∧ k.name ≠ text "con" := by
    decide
  have hmatching : ∀ k ∈ KNOWN, ∀ l ∈ KNOWN, l.matching ≠ k.found := by decide
  obtain ⟨k₀, hk₀, rfl⟩ := hf
  constructor
  · rintro rfl
    generalize hfound : k₀.found = hs at h
    cases h with
    | general => exact absurd hfound (hgeneral k₀ hk₀).1
    | c => exact absurd hfound (hgeneral k₀ hk₀).2.1
    | co => exact absurd hfound (hgeneral k₀ hk₀).2.2.1
    | con => exact absurd hfound (hgeneral k₀ hk₀).2.2.2
    | partway l hl => exact absurd hfound.symm (hmatching k₀ hk₀ l hl)
    | found l _ hl hw => exact ⟨l, hl, rfl, hw⟩
  · rintro ⟨k, hk, hkf, rfl⟩
    cases h with
    | general _ hnone => exact absurd (List.prefix_refl _) (hnone k hk)
    | c hw => exact absurd hw (hshort k hk).1
    | co hw => exact absurd hw (hshort k hk).2.1
    | con hw => exact absurd hw (hshort k hk).2.2
    | partway l hl hprefix hlen hlt =>
      have heq := known_eq k hk l hl ((List.take_prefix _ _).trans hprefix)
      exact absurd hlt (by rw [heq]; exact Nat.lt_irrefl _)
    | found l _ hl hw =>
      rw [← known_eq k hk l hl ((List.take_prefix _ _).trans (hw ▸ List.prefix_refl _))]
      exact hkf

/-! ## The value of a header -/

def knownChunked : Known :=
  ⟨CHUNKED, .matchingTransferEncodingChunked, .transferEncodingChunked, 1⟩

def knownKeepAlive : Known :=
  ⟨KEEP_ALIVE, .matchingConnectionKeepAlive, .connectionKeepAlive, 1⟩

def knownClose : Known :=
  ⟨CLOSE, .matchingConnectionClose, .connectionClose, 1⟩

/-- The values that the parser recognises. -/
def VALUES : List Known :=
  [knownChunked, knownKeepAlive, knownClose]

/-- The constant in whatever case, with spaces behind it. -/
def Means (value constant : List UInt8) : Prop :=
  ∃ word spaces, value = word ++ spaces ∧ word.map lower = constant ∧ ∀ c ∈ spaces, c = SP

theorem rdropWhile_spaces {spaces : List UInt8} (h : ∀ c ∈ spaces, c = SP) (word : List UInt8) :
    (word ++ spaces).rdropWhile (· = SP) = word.rdropWhile (· = SP) := by
  induction spaces using List.reverseRecOn with
  | nil => rw [List.append_nil]
  | append_singleton spaces c ih =>
    have hc := h c (List.mem_append_right _ List.mem_cons_self)
    rw [← List.append_assoc, List.rdropWhile_concat_pos _ _ _ (by simpa using hc)]
    exact ih fun d hd => h d (List.mem_append_left _ hd)

theorem says_iff (header : Header) {constant : List UInt8} (hne : constant ≠ [])
    (hlast : constant.getLast hne ≠ SP) :
    header.Says constant ↔ Means header.value constant := by
  unfold Header.Says
  constructor
  · intro h
    refine ⟨_, header.value.rtakeWhile (· = SP), ?_, h, fun c hc => ?_⟩
    · exact (List.rdropWhile_append_rtakeWhile ..).symm
    · simpa using List.mem_rtakeWhile_imp hc
  · rintro ⟨word, spaces, hvalue, hword, hspaces⟩
    rw [hvalue, rdropWhile_spaces hspaces]
    refine (congrArg _ (List.rdropWhile_eq_self_iff.2 fun hne' hsp => hlast ?_)).trans hword
    have hsp : word.getLast hne' = SP := by simpa using hsp
    have hmap : constant.getLast hne = lower (word.getLast hne') := by
      simp only [← hword, List.getLast_map]
    rw [hmap, hsp]
    rfl

/-- How the header state and the index stand when the value so far is `w`. -/
inductive ValueState (k : Known) (w : List UInt8) : HeaderState → Nat → Prop where
  | lost (index : Nat) : (∀ more, ¬ Means (w ++ more) k.name) → ValueState k w .general index
  | partway : w.map lower <+: k.name → w ≠ [] → w.length < k.name.length →
    ValueState k w k.matching (w.length - 1)
  | found (word spaces : List UInt8) (index : Nat) : w = word ++ spaces →
    word.map lower = k.name → (∀ c ∈ spaces, c = SP) → ValueState k w k.found index

theorem Means.length_le {value constant : List UInt8} (h : Means value constant) :
    constant.length ≤ value.length := by
  obtain ⟨word, spaces, rfl, rfl, -⟩ := h
  simp

/-- What has been found is the value. -/
theorem valueState_found {k : Known} (hk : k ∈ VALUES) {w : List UInt8} {hs : HeaderState}
    {index : Nat} (h : ValueState k w hs index) : hs = k.found ↔ Means w k.name := by
  have hother : ∀ k ∈ VALUES, k.found ≠ .general ∧ k.matching ≠ k.found := by decide
  cases h with
  | lost _ hnone =>
    refine ⟨fun heq => absurd heq.symm (hother k hk).1, fun hmeans => ?_⟩
    exact absurd (by simpa using hmeans) (hnone [])
  | partway _ _ hlt =>
    refine ⟨fun heq => absurd heq (hother k hk).2, fun hmeans => ?_⟩
    exact absurd hmeans.length_le (Nat.not_le.2 hlt)
  | found word spaces _ hw hword hspaces =>
    exact ⟨fun _ => ⟨word, spaces, hw, hword, hspaces⟩, fun _ => rfl⟩

/-- A byte that does not go on with the constant. -/
theorem not_means_of_other {w constant : List UInt8} {c : UInt8}
    (hlt : w.length < constant.length) (hother : ¬ w.map lower ++ [lower c] <+: constant)
    (more : List UInt8) : ¬ Means (w ++ [c] ++ more) constant := by
  rintro ⟨word, spaces, heq, rfl, -⟩
  rw [List.length_map] at hlt
  have hprefix : w ++ [c] <+: word := by
    refine List.prefix_of_prefix_length_le (List.prefix_append (w ++ [c]) more) ?_ ?_
    · rw [heq]
      exact List.prefix_append _ _
    · rw [List.length_append]
      exact hlt
  exact hother (by simpa using hprefix.map lower)

/-- A byte behind the constant that is not a space. -/
theorem not_means_of_behind {word spaces constant : List UInt8} {c : UInt8}
    (hword : word.map lower = constant) (hc : c ≠ SP) (more : List UInt8) :
    ¬ Means (word ++ spaces ++ [c] ++ more) constant := by
  rintro ⟨word', spaces', heq, hword', hspaces'⟩
  have hlen : word.length = word'.length := by
    simpa using congrArg List.length (hword.trans hword'.symm)
  rw [List.append_assoc, List.append_assoc] at heq
  obtain ⟨-, hrest⟩ := List.append_inj heq hlen
  exact hc (hspaces' c (by rw [← hrest]; simp))

section Value

variable {k : Known}

theorem switch_matching (hk : k ∈ VALUES) (hs : p.state = .headerValue)
    (hh : p.headerState = k.matching) (hcr : ch ≠ CR) (hlf : ch ≠ LF) :
    switch p ch 1 = { parser := matching k.name k.found p (lower ch) } := by
  simp only [VALUES, List.mem_cons, List.not_mem_nil, or_false] at hk
  unfold switch
  simp only [hs]
  unfold headerValue
  rw [if_neg hcr, if_neg hlf]
  rcases hk with rfl | rfl | rfl <;>
    simp only [hh, knownChunked, knownKeepAlive, knownClose]

theorem switch_found (hk : k ∈ VALUES) (hs : p.state = .headerValue)
    (hh : p.headerState = k.found) (hcr : ch ≠ CR) (hlf : ch ≠ LF) : switch p ch 1 =
      if ch ≠ SP then { parser := { p with headerState := .general } } else { parser := p } := by
  simp only [VALUES, List.mem_cons, List.not_mem_nil, or_false] at hk
  unfold switch
  simp only [hs]
  unfold headerValue
  rw [if_neg hcr, if_neg hlf]
  rcases hk with rfl | rfl | rfl <;>
    simp only [hh, hs, knownChunked, knownKeepAlive, knownClose]

/-- One more byte of a value. -/
theorem walks_valueByte (hk : k ∈ VALUES) {w : List UInt8} {hs : HeaderState} {index : Nat}
    (h : ValueState k w hs index) (hcr : ch ≠ CR) (hlf : ch ≠ LF) : ∃ hs' index',
      Walks { p with state := .headerValue, headerState := hs, index := index } [ch]
        { p with state := .headerValue, headerState := hs', index := index' } ∧
      ValueState k (w ++ [ch]) hs' index' := by
  cases h with
  | lost _ hnone =>
    refine ⟨.general, index, .move rfl (fun n => ?_) fun n => ?_, .lost _ fun more => ?_⟩
    · simp [switch, headerValue, hcr, hlf]
    · simp [switch, headerValue, hcr, hlf]
    · rw [List.append_assoc]
      exact hnone _
  | partway hprefix hne hlt =>
    have hlen : (w.map lower).length = w.length := List.length_map ..
    refine ⟨if w.map lower ++ [lower ch] = k.name then k.found
      else if w.map lower ++ [lower ch] <+: k.name then k.matching else .general, w.length,
      .move rfl (fun n => ?_) fun n => ?_, ?_⟩
    · rw [switch_matching hk (by rfl) (by rfl) hcr hlf]
    · rw [switch_matching hk (by rfl) (by rfl) hcr hlf]
      exact (matching_eq hprefix (by simpa using hne) (by rwa [hlen]) (by rw [hlen]) _).trans
        (by rw [hlen])
    split
    · rename_i heq
      exact .found (w ++ [ch]) [] _ (by simp) (by simpa using heq) (by simp)
    split
    · rename_i hneq hmore
      have hle : w.length + 1 < k.name.length :=
        Nat.lt_of_le_of_ne hlt fun hlen' => hneq (hmore.eq_of_length (by simpa using hlen'))
      have hpart := @ValueState.partway k (w ++ [ch]) (by simpa using hmore) (by simp)
        (by simpa using hle)
      simpa using hpart
    · rename_i hother
      exact .lost _ (not_means_of_other hlt hother)
  | found word spaces _ hw hword hspaces =>
    by_cases hsp : ch = SP
    · refine ⟨k.found, index, .move rfl (fun n => ?_) fun n => ?_,
        .found word (spaces ++ [ch]) _ (by simp [hw]) hword fun c hc => ?_⟩
      · rw [switch_found hk (by rfl) (by rfl) hcr hlf, if_neg (not_not.2 hsp)]
      · rw [switch_found hk (by rfl) (by rfl) hcr hlf, if_neg (not_not.2 hsp)]
      · rcases List.mem_append.1 hc with hc | hc
        · exact hspaces c hc
        · exact (List.mem_singleton.1 hc).trans hsp
    · refine ⟨.general, index, .move rfl (fun n => ?_) fun n => ?_, .lost _ ?_⟩
      · rw [switch_found hk (by rfl) (by rfl) hcr hlf, if_pos hsp]
      · rw [switch_found hk (by rfl) (by rfl) hcr hlf, if_pos hsp]
      · rw [hw]
        exact not_means_of_behind hword hsp

/-- The rest of a value. -/
theorem walks_valueRest (hk : k ∈ VALUES) {w : List UInt8} {hs : HeaderState} {index : Nat}
    (h : ValueState k w hs index) {rest : List UInt8} (hrest : ∀ c ∈ rest, c ≠ CR ∧ c ≠ LF) :
    ∃ hs' index',
      Walks { p with state := .headerValue, headerState := hs, index := index } rest
        { p with state := .headerValue, headerState := hs', index := index' } ∧
      ValueState k (w ++ rest) hs' index' := by
  induction rest generalizing w hs index with
  | nil => exact ⟨hs, index, .nil _, by simpa using h⟩
  | cons c rest ih =>
    obtain ⟨hcr, hlf⟩ := hrest c List.mem_cons_self
    obtain ⟨hs₁, index₁, hwalk, hstate⟩ := walks_valueByte (p := p) hk h hcr hlf
    obtain ⟨hs₂, index₂, hwalk', hstate'⟩ :=
      ih hstate fun d hd => hrest d (List.mem_cons_of_mem c hd)
    exact ⟨hs₂, index₂, hwalk.cons hwalk', by simpa using hstate'⟩

/-- A value that begins otherwise. -/
theorem not_means_first (hk : k ∈ VALUES) (hfirst : k.name[0]? ≠ some (lower ch))
    (rest : List UInt8) : ¬ Means (ch :: rest) k.name := by
  have hpos : ∀ k ∈ VALUES, 0 < k.name.length := by decide
  exact @not_means_of_other [] k.name ch (hpos k hk)
    (fun h => hfirst (@getElem?_of_concat_front [] k.name (lower ch) h)) rest

theorem valueState_first (hk : k ∈ VALUES) (hfirst : k.name[0]? = some (lower ch)) :
    ValueState k [ch] k.matching 0 := by
  have hlong : ∀ k ∈ VALUES, 1 < k.name.length := by decide
  exact @ValueState.partway k [ch] (@concat_front [] k.name (lower ch) (List.nil_prefix) hfirst)
    (by simp) (hlong k hk)

/-- The end of the line. -/
theorem walks_valueEnd (p : Parser) : Walks { p with state := .headerValue } [CR, LF]
    { p with state := .headerValueLws, flags := headerFlags p } :=
  .cons (q := { p with state := .headerAlmostDone }) (.byte rfl fun _ => rfl)
    (.byte rfl fun _ => rfl)

/-- The flag of a value. -/
def Known.flag (k : Known) (flags : Flags) : Flags :=
  match k.found with
  | .transferEncodingChunked => { flags with chunked := true }
  | .connectionKeepAlive => { flags with connectionKeepAlive := true }
  | .connectionClose => { flags with connectionClose := true }
  | _ => flags

/-- A value whose first byte is the constant's. -/
theorem walks_matched (hk : k ∈ VALUES) {start : Parser} {rest : List UInt8}
    (hstart : Walks start [ch]
      { p with state := .headerValue, headerState := k.matching, index := 0 })
    (hfirst : k.name[0]? = some (lower ch)) (hrest : ∀ c ∈ rest, c ≠ CR ∧ c ≠ LF)
    {flags : Flags} (hmeans : Means (ch :: rest) k.name → flags = k.flag p.flags)
    (hnot : ¬ Means (ch :: rest) k.name → flags = p.flags) : ∃ hs index,
      Walks start (ch :: rest ++ [CR, LF])
        { p with state := .headerValueLws, headerState := hs, index := index, flags := flags } := by
  obtain ⟨hs, index, hwalk, hstate⟩ :=
    walks_valueRest (p := p) hk (valueState_first hk hfirst) hrest
  have hflags : flags = headerFlags { p with headerState := hs, index := index } := by
    have hfound := valueState_found hk hstate
    simp only [VALUES, List.mem_cons, List.not_mem_nil, or_false] at hk
    by_cases h : Means (ch :: rest) k.name
    · rw [hmeans h, hfound.2 h]
      rcases hk with rfl | rfl | rfl <;> rfl
    · rw [hnot h]
      have hne : hs ≠ k.found := fun heq => h (hfound.1 heq)
      cases hstate with
      | lost => rfl
      | partway => rcases hk with rfl | rfl | rfl <;> rfl
      | found => exact absurd rfl hne
  refine ⟨hs, index, (hstart.cons hwalk).append ?_⟩
  rw [hflags]
  exact walks_valueEnd { p with headerState := hs, index := index }

/-- A value that is not looked at. -/
theorem walks_ignored {start : Parser} {rest : List UInt8}
    (hstart : Walks start [ch]
      { p with state := .headerValue, headerState := .general, index := 0 })
    (hrest : ∀ c ∈ rest, c ≠ CR ∧ c ≠ LF) :
    Walks start (ch :: rest ++ [CR, LF])
      { p with state := .headerValueLws, headerState := .general, index := 0 } := by
  refine (hstart.cons (.stay fun c hc => ?_)).append
    (walks_valueEnd { p with headerState := .general, index := 0 })
  obtain ⟨hcr, hlf⟩ := hrest c hc
  refine .move rfl (fun n => ?_) fun n => ?_ <;> simp [switch, headerValue, hcr, hlf]

theorem filterMap_decimal {value : List UInt8} (h : ∀ c ∈ value, isNum c = true) :
    value.filterMap decimal = value.map digit := by
  induction value with
  | nil => rfl
  | cons c value ih =>
    have hc : decimal c = some (digit c) := if_pos (h c List.mem_cons_self)
    rw [List.filterMap_cons_some hc, ih fun d hd => h d (List.mem_cons_of_mem c hd), List.map_cons]

/-- The value of a `Content-Length`. -/
theorem walks_length (p : Parser) (index : Nat) {value : List UInt8} (hne : value ≠ [])
    (h : IsLength value) :
    Walks { p with state := .headerValueStart, headerState := .contentLength, index := index }
      (value ++ [CR, LF])
      { p with
        state := .headerValueLws, headerState := .contentLength, index := 0
        contentLength := .ofNat (positional 10 (value.map digit)) } := by
  obtain ⟨hnum, hlt⟩ := h
  let digits : Digits decimal := ⟨value, hne, fun c hc => by simp [decimal, hnum c hc]⟩
  have hvalue : digits.value 10 = positional 10 (value.map digit) :=
    congrArg _ (filterMap_decimal hnum)
  rw [← hvalue] at hlt ⊢
  let read : Parser :=
    { p with headerState := .contentLength, index := 0, contentLength := .ofNat (digits.value 10) }
  refine .append (fun n hn => ?_) (walks_valueEnd read)
  let start : Parser :=
    { p with
      state := .headerValueStart, headerState := .contentLength, index := index, nread := n }
  exact (@readsLength_header start rfl rfl).runs hlt hn

theorem Header.Named.ne {header : Header} {X Y : List UInt8} (h : header.Named X) (hne : X ≠ Y) :
    ¬ header.Named Y :=
  fun hY => hne (h.symm.trans hY)

/-- The header state tells which of the known names the header has. -/
theorem named_iff {header : Header} {hs : HeaderState} {index : Nat}
    (h : NameState (header.name.map tokens) hs index) :
    (hs = .upgrade ↔ header.Named UPGRADE) ∧
      (hs = .transferEncoding ↔ header.Named TRANSFER_ENCODING) ∧
      (hs = .contentLength ↔ header.Named CONTENT_LENGTH) ∧
      (hs = .connection ↔ header.Named CONNECTION ∨ header.Named PROXY_CONNECTION) := by
  have hfound (f : HeaderState) (hf : ∃ k ∈ KNOWN, k.found = f) := nameState_found h hf
  refine ⟨(hfound .upgrade (by decide)).trans ?_, (hfound .transferEncoding (by decide)).trans ?_,
    (hfound .contentLength (by decide)).trans ?_, (hfound .connection (by decide)).trans ?_⟩ <;>
    simp [KNOWN, Header.Named]

/-- The bytes of a value that is not empty. -/
theorem Header.bytes {header : Header} {c : UInt8} {rest : List UInt8}
    (h : header.value = c :: rest) :
    (c ≠ SP ∧ c ≠ HT ∧ c ≠ CR ∧ c ≠ LF) ∧ ∀ d ∈ rest, d ≠ CR ∧ d ≠ LF := by
  obtain ⟨hsp, hht⟩ := header.value_start c (by simp [h])
  obtain ⟨hcr, hlf⟩ := header.value_text c (by simp [h])
  exact ⟨⟨hsp, hht, hcr, hlf⟩, fun d hd => header.value_text d (by simp [h, hd])⟩

section Kinds

variable {header : Header} {c : UInt8} {rest : List UInt8} (hvalue : header.value = c :: rest)

include hvalue

theorem says_known (hk : k ∈ VALUES) : header.Says k.name ↔ Means (c :: rest) k.name := by
  have hlast : ∀ k ∈ VALUES, ∃ hne : k.name ≠ [], k.name.getLast hne ≠ SP := by decide
  obtain ⟨hne, hlast⟩ := hlast k hk
  rw [← hvalue]
  exact says_iff header hne hlast

theorem walks_upgrade (p : Parser) (index : Nat) :
    Walks { p with state := .headerValueStart, headerState := .upgrade, index := index }
      (c :: rest ++ [CR, LF])
      { p with
        state := .headerValueLws, headerState := .general, index := 0
        flags := { p.flags with upgrade := true } } := by
  obtain ⟨⟨hsp, hht, hcr, hlf⟩, hrest⟩ := Header.bytes hvalue
  refine walks_ignored (p := { p with flags := { p.flags with upgrade := true } })
    (.move rfl (fun n => ?_) fun n => ?_) hrest <;>
    simp [switch, headerValueStart, hsp, hht, hcr, hlf]

theorem walks_transferEncoding (p : Parser) (index : Nat) : ∃ hs' index',
    Walks { p with state := .headerValueStart, headerState := .transferEncoding, index := index }
      (c :: rest ++ [CR, LF])
      { p with
        state := .headerValueLws, headerState := hs', index := index'
        flags :=
          if header.Says CHUNKED then { p.flags with chunked := true } else p.flags } := by
  obtain ⟨⟨hsp, hht, hcr, hlf⟩, hrest⟩ := Header.bytes hvalue
  have hchunked := says_known hvalue (k := knownChunked) (by decide)
  by_cases hc : lower c = chr 'c'
  · refine walks_matched (k := knownChunked) (by decide) (.move rfl (fun n => ?_) fun n => ?_)
      (by rw [hc]; decide) hrest (fun hmeans => if_pos (hchunked.2 hmeans))
      fun hnot => if_neg fun h => hnot (hchunked.1 h)
    all_goals simp [switch, headerValueStart, hsp, hht, hcr, hlf, hc, knownChunked]
  · have hnot := not_means_first (k := knownChunked) (by decide)
      (fun heq => hc (Option.some.inj heq.symm)) rest
    rw [if_neg fun h : header.Says CHUNKED => hnot (hchunked.1 h)]
    refine ⟨.general, 0, walks_ignored (.move rfl (fun n => ?_) fun n => ?_) hrest⟩ <;>
      simp [switch, headerValueStart, hsp, hht, hcr, hlf, hc]

theorem walks_connection (p : Parser) (index : Nat) : ∃ hs' index',
    Walks { p with state := .headerValueStart, headerState := .connection, index := index }
      (c :: rest ++ [CR, LF])
      { p with
        state := .headerValueLws, headerState := hs', index := index'
        flags :=
          if header.Says KEEP_ALIVE then { p.flags with connectionKeepAlive := true }
          else if header.Says CLOSE then { p.flags with connectionClose := true }
          else p.flags } := by
  obtain ⟨⟨hsp, hht, hcr, hlf⟩, hrest⟩ := Header.bytes hvalue
  have halive := says_known hvalue (k := knownKeepAlive) (by decide)
  have hclose := says_known hvalue (k := knownClose) (by decide)
  by_cases hc : lower c = chr 'k'
  · have hnot : ¬ Means (c :: rest) knownClose.name :=
      not_means_first (by decide) (by rw [hc]; decide) rest
    rw [if_neg fun h : header.Says CLOSE => hnot (hclose.1 h)]
    refine walks_matched (k := knownKeepAlive) (by decide) (.move rfl (fun n => ?_) fun n => ?_)
      (by rw [hc]; decide) hrest (fun hmeans => if_pos (halive.2 hmeans))
      fun hnot => if_neg fun h => hnot (halive.1 h)
    all_goals simp [switch, headerValueStart, hsp, hht, hcr, hlf, hc, knownKeepAlive]
  have hnot := not_means_first (k := knownKeepAlive) (by decide)
    (fun heq => hc (Option.some.inj heq.symm)) rest
  rw [if_neg fun h : header.Says KEEP_ALIVE => hnot (halive.1 h)]
  by_cases hc' : lower c = chr 'c'
  · refine walks_matched (k := knownClose) (by decide) (.move rfl (fun n => ?_) fun n => ?_)
      (by rw [hc']; decide) hrest (fun hmeans => if_pos (hclose.2 hmeans))
      fun hnot => if_neg fun h => hnot (hclose.1 h)
    all_goals
      simp [switch, headerValueStart, hsp, hht, hcr, hlf, hc', knownClose,
        show chr 'c' ≠ chr 'k' by decide]
  · have hnot := not_means_first (k := knownClose) (by decide)
      (fun heq => hc' (Option.some.inj heq.symm)) rest
    rw [if_neg fun h : header.Says CLOSE => hnot (hclose.1 h)]
    refine ⟨.general, 0, walks_ignored (.move rfl (fun n => ?_) fun n => ?_) hrest⟩ <;>
      simp [switch, headerValueStart, hsp, hht, hcr, hlf, hc, hc']

/-- The value of a header that is not known. -/
theorem walks_unknown (p : Parser) {hs : HeaderState} (index : Nat)
    (hs_ne : hs ≠ .upgrade ∧ hs ≠ .transferEncoding ∧ hs ≠ .contentLength ∧ hs ≠ .connection) :
    Walks { p with state := .headerValueStart, headerState := hs, index := index }
      (c :: rest ++ [CR, LF])
      { p with state := .headerValueLws, headerState := .general, index := 0 } := by
  obtain ⟨⟨hsp, hht, hcr, hlf⟩, hrest⟩ := Header.bytes hvalue
  obtain ⟨hup, hte, hcl, hconn⟩ := hs_ne
  refine walks_ignored (.move rfl (fun n => ?_) fun n => ?_) hrest <;> cases hs <;>
    simp_all [switch, headerValueStart]

end Kinds

/-- **The value of a header** and the end of its line. -/
theorem walks_value (p : Parser) (header : Header) {hs : HeaderState} {index : Nat}
    (h : NameState (header.name.map tokens) hs index) : ∃ hs' index',
      Walks { p with state := .headerValueStart, headerState := hs, index := index }
        (header.value ++ [CR, LF])
        { p with
          state := .headerValueLws, headerState := hs', index := index'
          flags := header.flags p.flags
          contentLength := header.contentLength p.contentLength } := by
  obtain ⟨hupgrade, htransfer, hlength, hconnection⟩ := named_iff h
  cases hvalue : header.value with
  | nil =>
    have hflags : header.flags p.flags = p.flags := if_pos hvalue
    have hlen : header.contentLength p.contentLength = p.contentLength :=
      if_neg fun hne => hne.2 hvalue
    refine ⟨.general, 0, ?_⟩
    rw [hflags, hlen]
    exact .cons (q := { p with state := .headerAlmostDone, headerState := .general, index := 0 })
      (.byte rfl fun _ => rfl) (.byte rfl fun _ => rfl)
  | cons c rest =>
    have hne : header.value ≠ [] := by simp [hvalue]
    unfold Header.flags Header.contentLength
    rw [if_neg hne]
    by_cases hnamed : header.Named CONTENT_LENGTH
    · obtain rfl := hlength.2 hnamed
      rw [if_neg (hnamed.ne (by decide)), if_neg (hnamed.ne (by decide)),
        if_neg (not_or.2 ⟨hnamed.ne (by decide), hnamed.ne (by decide)⟩), if_pos ⟨hnamed, hne⟩,
        hvalue]
      exact ⟨_, _, walks_length p index (by simp) (hvalue ▸ header.length hnamed)⟩
    rw [if_neg fun h : header.Named CONTENT_LENGTH ∧ header.value ≠ [] => hnamed h.1]
    by_cases hup : header.Named UPGRADE
    · obtain rfl := hupgrade.2 hup
      rw [if_pos hup]
      exact ⟨_, _, walks_upgrade hvalue p index⟩
    rw [if_neg hup]
    by_cases hte : header.Named TRANSFER_ENCODING
    · obtain rfl := htransfer.2 hte
      rw [if_pos hte]
      exact walks_transferEncoding hvalue p index
    rw [if_neg hte]
    by_cases hconn : header.Named CONNECTION ∨ header.Named PROXY_CONNECTION
    · obtain rfl := hconnection.2 hconn
      rw [if_pos hconn]
      exact walks_connection hvalue p index
    · rw [if_neg hconn]
      exact ⟨_, _, walks_unknown hvalue p index ⟨fun h => hup (hupgrade.1 h),
        fun h => hte (htransfer.1 h), fun h => hnamed (hlength.1 h),
        fun h => hconn (hconnection.1 h)⟩⟩

end Value

/-! ## The headers -/

/-- A header. -/
theorem walks_header {s : State} (hs : s.betweenHeaders) (p : Parser) (header : Header) :
    ∃ hs' index', Walks { p with state := s } header.encode
      { p with
        state := .headerValueLws, headerState := hs', index := index'
        flags := header.flags p.flags
        contentLength := header.contentLength p.contentLength } := by
  obtain ⟨hs₁, index₁, hname, hstate⟩ :=
    walks_name (p := p) hs header.name_ne_nil header.name_token
  obtain ⟨hs', index', hvalue⟩ := walks_value p header hstate
  have hblank : Walks { p with state := .headerValueStart, headerState := hs₁, index := index₁ }
      header.blank { p with state := .headerValueStart, headerState := hs₁, index := index₁ } := by
    refine .stay fun c hc => ?_
    rcases header.blank_space c hc with rfl | rfl <;> exact .byte rfl fun _ => rfl
  refine ⟨hs', index', ?_⟩
  have hbytes : header.encode =
      (header.name ++ [chr ':']) ++ (header.blank ++ (header.value ++ [CR, LF])) := by
    simp [Header.encode]
  rw [hbytes]
  exact hname.append (hblank.append hvalue)

/-- **The headers.** -/
theorem walks_headers {s : State} (hs : s.betweenHeaders) (p : Parser) (headers : List Header) :
    ∃ s' hs' index', s'.betweenHeaders ∧ Walks { p with state := s } (encodeHeaders headers)
      { p with
        state := s', headerState := hs', index := index'
        flags := headersFlags headers p.flags
        contentLength := headersLength headers p.contentLength } := by
  induction headers generalizing s p with
  | nil => exact ⟨s, p.headerState, p.index, hs, .nil _⟩
  | cons header headers ih =>
    obtain ⟨hs₁, index₁, hwalk⟩ := walks_header hs p header
    obtain ⟨s', hs', index', hbetween, hwalk'⟩ := @ih .headerValueLws trivial
      { p with
        headerState := hs₁, index := index₁
        flags := header.flags p.flags
        contentLength := header.contentLength p.contentLength }
    exact ⟨s', hs', index', hbetween, hwalk.append hwalk'⟩

end Rsva11001.Http
