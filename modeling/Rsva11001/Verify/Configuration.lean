import Rsva11001.Adapter.Configuration
import Rsva11001.Verify.Overflow
import Rsva11001.Verify.Strtoul

/-!
# What the configuration lets through

The number of cameras is what `strtoul` makes of the start of the value, and only a number that is
too large is refused (`readConfiguration_copied`). The reactor is safe to enter when the value is a
numeral that is not zero (`countRight_iff`). The copies stay in their fields when all three
variables are set and short enough (`credentialsRight_iff`).
-/

namespace Rsva11001

open Lib

/-! ## The number of cameras -/

/-- The number at the start of the value, as it is read by `strtoul`, is no number of cameras: with
a minus it is taken modulo 2 ^ 64. -/
def TooLarge (s : CString) : Prop :=
  ∃ spaces sign digits tail, Scanned s spaces sign digits tail ∧ digits ≠ [] ∧
    (ULONG_MAX < digitsValue digits ∨
      sign ≠ ascii "-" ∧ MAX_NUM_CAMERAS ≤ digitsValue digits ∨
      sign = ascii "-" ∧ MAX_NUM_CAMERAS ≤ (2 ^ 64 - digitsValue digits) % 2 ^ 64)

/-- The values that are refused are those that `strtoul` returns such a number for. -/
theorem tooLarge_iff {v : EnvValue} {r : Strtoul} (hr : v.strtoul = .ok r) :
    TooLarge v.bytes ↔ MAX_NUM_CAMERAS ≤ r.value := by
  have hscan : ∀ {spaces sign digits tail : CString}, Scanned v.bytes spaces sign digits tail →
      r = scanResult v.bytes sign digits tail := by
    intro spaces sign digits tail h
    exact Option.some.inj ((access_eq_ok.1 hr).symm.trans (strtoul_scanned h []))
  constructor
  · rintro ⟨spaces, sign, digits, tail, h, hne, hlarge⟩
    rw [hscan h, scanResult, if_neg hne]
    split
    · show MAX_NUM_CAMERAS ≤ ULONG_MAX
      decide
    rename_i hmax
    rcases hlarge with hover | ⟨hsign, hge⟩ | ⟨hsign, hge⟩
    · exact absurd hover hmax
    · rw [if_neg hsign]
      exact hge
    · rw [if_pos hsign]
      exact hge
  · intro hge
    obtain ⟨spaces, sign, digits, tail, h⟩ := exists_scanned v.bytes
    rw [hscan h, scanResult] at hge
    split at hge
    · exact absurd hge (Nat.not_succ_le_zero 7)
    rename_i hne
    refine ⟨spaces, sign, digits, tail, h, hne, ?_⟩
    split at hge
    · rename_i hover
      exact .inl hover
    split at hge
    · rename_i hsign
      exact .inr (.inr ⟨hsign, hge⟩)
    · rename_i hsign
      exact .inr (.inl ⟨hsign, hge⟩)

theorem EnvValue.strtoul_total (v : EnvValue) : ∃ r, v.strtoul = .ok r := by
  obtain ⟨r, hr⟩ := Rsva11001.strtoul_total v.bytes []
  exact ⟨r, access_eq_ok.2 hr⟩

/-- A numeral is read as the number it denotes, unless that is too large. -/
theorem EnvValue.strtoul_numeral {v : EnvValue} {r : Strtoul} {n : Nat} (h : Numeral v.bytes n)
    (hr : v.strtoul = .ok r) (hlt : r.value < MAX_NUM_CAMERAS) : r.value = n := by
  have hsigned : Signed [] v.bytes n := ⟨[], v.bytes, rfl, by simp, h⟩
  have heq := (access_eq_ok.1 hr).symm.trans (strtoul_signed (.inl rfl) hsigned [])
  rw [if_neg (by decide : ([] : CString) ≠ ascii "-")] at heq
  split at heq
  · cases heq
    exact absurd hlt (by decide)
  · cases heq
    rfl

/-! ## Reading the configuration -/

/-- The values are short enough for the fields that they are copied to. -/
structure Fit (host password username : EnvValue) : Prop where
  host : host.bytes.length < HOST_SIZE
  password : password.bytes.length < PASSWORD_SIZE
  username : username.bytes.length < USERNAME_SIZE

theorem strcpy_fits {size : Nat} {v : EnvValue} (h : v.bytes.length < size) :
    strcpy size (some v) = .ok v.bytes := by
  unfold strcpy
  rw [Option.bind_some, if_pos h, access_some]

theorem strcpy_overflows {size : Nat} {v : EnvValue} (h : size ≤ v.bytes.length) :
    strcpy size (some v) = .error (.outOfRange .configurationCopy) := by
  unfold strcpy
  rw [Option.bind_some, if_neg (by omega), access_none]

namespace Globals

variable {P : HttpParser} {g g' : Globals P} {env : Environment} {h p u s : EnvValue}

theorem readConfiguration_absent (habsent : env.RSVA11001_HOST = none ∨
    env.RSVA11001_PASSWORD = none ∨ env.RSVA11001_NUM_CAMERAS = none) :
    g.readConfiguration env = .ok (false, g) := by
  unfold readConfiguration
  split
  · rfl
  rename_i hhost
  split
  · rfl
  rename_i hpassword
  split
  · rfl
  rename_i hnum
  rcases habsent with h | h | h
  · exact absurd (by rw [h]; rfl) hhost
  · exact absurd (by rw [h]; rfl) hpassword
  · rw [h] at hnum
    cases hnum

section Present

variable (hh : env.RSVA11001_HOST = some h) (hp : env.RSVA11001_PASSWORD = some p)
  (hs : env.RSVA11001_NUM_CAMERAS = some s)

include hh hp hs

/-- The user name is not looked at before it is copied, and no length is. -/
theorem readConfiguration_overflows
    (hno : ∀ u, env.RSVA11001_USERNAME = some u → ¬ Fit h p u) :
    g.readConfiguration env = .error (.outOfRange .configurationCopy) := by
  unfold readConfiguration
  simp only [hh, hp, hs, Option.isNone_some, Bool.false_eq_true, if_false]
  by_cases hhost : h.bytes.length < HOST_SIZE
  · by_cases hpassword : p.bytes.length < PASSWORD_SIZE
    · rw [strcpy_fits hhost, ok_bind, strcpy_fits hpassword, ok_bind]
      cases hu : env.RSVA11001_USERNAME with
      | none => rfl
      | some u =>
        rw [strcpy_overflows (Nat.not_lt.1 fun hu' => hno u hu ⟨hhost, hpassword, hu'⟩)]
        rfl
    · rw [strcpy_fits hhost, ok_bind, strcpy_overflows (Nat.not_lt.1 hpassword)]
      rfl
  · rw [strcpy_overflows (Nat.not_lt.1 hhost)]
    rfl

/-- **Reading the configuration.** When the copies fit, it is accepted unless the number is too
large. -/
theorem readConfiguration_copied (hu : env.RSVA11001_USERNAME = some u) (hfit : Fit h p u) :
    (TooLarge s.bytes ∧ ∃ g', g.readConfiguration env = .ok (false, g')) ∨
      ∃ r, s.strtoul = .ok r ∧ r.value < MAX_NUM_CAMERAS ∧ g.readConfiguration env = .ok (true,
        { g with
          host := h.bytes, password := p.bytes, username := u.bytes, numCameras := r.value }) := by
  obtain ⟨r, hr⟩ := s.strtoul_total
  unfold readConfiguration
  simp only [hh, hp, hs, hu, Option.isNone_some, Bool.false_eq_true, if_false,
    strcpy_fits hfit.host, strcpy_fits hfit.password, strcpy_fits hfit.username, hr, ok_bind]
  by_cases hlarge : MAX_NUM_CAMERAS ≤ r.value
  · refine .inl ⟨(tooLarge_iff hr).2 hlarge, ?_⟩
    split
    · exact ⟨_, rfl⟩
    · rw [if_pos (.inl hlarge)]
      exact ⟨_, rfl⟩
  · have hlt : r.value < 8 := Nat.not_le.1 hlarge
    refine .inr ⟨r, rfl, hlt, ?_⟩
    rw [if_neg (by unfold ULONG_MAX; omega), if_neg (by unfold MAX_NUM_CAMERAS UINT_MAX; omega),
      Nat.mod_eq_of_lt (by omega)]
    rfl

end Present

/-- What is known of a configuration that is accepted. -/
theorem readConfiguration_accepts (hread : g.readConfiguration env = .ok (true, g')) :
    ∃ h p u s r, env.RSVA11001_HOST = some h ∧ env.RSVA11001_PASSWORD = some p ∧
      env.RSVA11001_USERNAME = some u ∧ env.RSVA11001_NUM_CAMERAS = some s ∧ Fit h p u ∧
      s.strtoul = .ok r ∧ r.value < MAX_NUM_CAMERAS ∧
      g' = { g with
        host := h.bytes, password := p.bytes, username := u.bytes, numCameras := r.value } := by
  cases hh : env.RSVA11001_HOST with
  | none =>
    rw [readConfiguration_absent (.inl hh)] at hread
    cases hread
  | some h =>
  cases hp : env.RSVA11001_PASSWORD with
  | none =>
    rw [readConfiguration_absent (.inr (.inl hp))] at hread
    cases hread
  | some p =>
  cases hs : env.RSVA11001_NUM_CAMERAS with
  | none =>
    rw [readConfiguration_absent (.inr (.inr hs))] at hread
    cases hread
  | some s =>
  by_cases hfit : ∃ u, env.RSVA11001_USERNAME = some u ∧ Fit h p u
  · obtain ⟨u, hu, hfit⟩ := hfit
    rcases @readConfiguration_copied _ g _ _ _ _ _ hh hp hs hu hfit with
      ⟨-, g'', hread'⟩ | ⟨r, hr, hlt, hread'⟩
    · rw [hread'] at hread
      cases hread
    · rw [hread'] at hread
      cases hread
      exact ⟨h, p, u, s, r, rfl, rfl, hu, rfl, hfit, hr, hlt, rfl⟩
  · rw [readConfiguration_overflows hh hp hs fun u hu hfit' => hfit ⟨u, hu, hfit'⟩] at hread
    cases hread

end Globals

/-! ## The assertion that there is a next camera -/

theorem Globals.handleNewRequest_asserts {P : HttpParser} (g : Globals P) (sg : Sandgrouse)
    (conn : SgConnection) (e : RequestEnv) :
    Avoids (.assertFailed .openNextCameraActive) (g.handleNewRequest sg conn e) := by
  have hsite : ∀ site : AccessSite, Halt.assertFailed .openNextCameraActive ≠ .outOfRange site := by
    rintro site ⟨⟩
  unfold handleNewRequest
  refine (route_avoids (.inr rfl) _ _ _ _).bind fun target _ => ?_
  split
  · exact avoids_ok _
  · refine (access_avoids (hsite _) _).bind fun src _ => Avoids.bind ?_ fun _ _ => avoids_ok _
    exact (access_avoids (hsite _) _).bind fun _ _ => avoids_ok _
  · refine (access_avoids (hsite _) _).bind fun src _ => ?_
    simp only
    split
    · exact avoids_ok _
    · exact avoids_ok _

namespace Reactor

open Globals

variable {P : HttpParser} {n : Nat} {sg : Sandgrouse}

theorem step_asserts {r : Reactor P} {b : Board} {e : Env} (h : OnBoard n r b) :
    Avoids (.assertFailed .openNextCameraActive) (step sg r e) := by
  refine step_avoids (.inr rfl) h fun full rest conn ready _ _ => ?_
  unfold serveRequest
  refine (handleNewRequest_asserts _ _ _ _).bind fun handled _ => ?_
  simp only
  split
  · exact avoids_ok _
  · exact avoids_ok _

/-- With a camera to start with there is always a next one. -/
theorem run_asserts {r₀ : Reactor P} {es : List Env} (h₀ : Initial n r₀) :
    run (step sg) r₀ es ≠ .error (.assertFailed .openNextCameraActive) :=
  run_ne_error_of_meets (I := fun r => ∃ b, OnBoard n r b) (fun _ _ _ h _ => onBoard_step h)
    (fun _ _ ⟨_, h⟩ _ => step_asserts h) ⟨_, onBoard_initial h₀⟩ (meets_true r₀ es)

theorem run_next {r₀ r : Reactor P} {es : List Env} (h₀ : Initial n r₀)
    (hrun : run (step sg) r₀ es = .ok r) : r.globals.cameraIterator < r.globals.numCameras ∧
      ∃ i : Slot, i.val = r.globals.cameraIterator ∧ (r.globals.conns i).isSome := by
  have hcams := (run_cameras h₀ hrun).cameras
  have hlt : r.globals.cameraIterator < n := by
    rw [hcams.iterator]
    exact Nat.mod_lt _ hcams.pos
  rw [hcams.numCameras]
  exact ⟨hlt, ⟨_, Nat.lt_of_lt_of_le hlt hcams.le⟩, rfl, (hcams.configured _).2 hlt⟩

end Reactor

/-! ## The number of cameras that is accepted -/

/-- The value is accepted only as the numeral of a number of cameras, and a reactor that is set up
with it always has a next camera. -/
structure CountRight (P : HttpParser) (s : EnvValue) : Prop where
  numeral : ∀ (g g' : Globals P) (env : Environment), env.RSVA11001_NUM_CAMERAS = some s →
    g.readConfiguration env = .ok (true, g') →
    ∃ n, Numeral s.bytes n ∧ 1 ≤ n ∧ n ≤ MAX_NUM_CAMERAS ∧ g'.numCameras = n
  next : ∀ (g g' : Globals P) (env : Environment) (malloc : Nat → Bool),
    env.RSVA11001_NUM_CAMERAS = some s →
    (Globals.zeroed P).readConfiguration env = .ok (true, g) →
    g.setupCameraConnections malloc = .ok (true, g') → ∀ (sg : Sandgrouse) (es : List Env),
      run (Reactor.step sg) (Reactor.start g') es ≠
        .error (.assertFailed .openNextCameraActive) ∧
      ∀ r, run (Reactor.step sg) (Reactor.start g') es = .ok r →
        r.globals.cameraIterator < r.globals.numCameras ∧
        ∃ i : Slot, i.val = r.globals.cameraIterator ∧ (r.globals.conns i).isSome

/-- An environment with the number of cameras, the others short. -/
def shortEnvironment (numCameras : EnvValue) : Environment where
  RSVA11001_HOST := some ⟨ascii "dvr", by decide⟩
  RSVA11001_PASSWORD := some ⟨ascii "secret", by decide⟩
  RSVA11001_USERNAME := some ⟨ascii "admin", by decide⟩
  RSVA11001_NUM_CAMERAS := some numCameras

section Count

variable {P : HttpParser} {s : EnvValue}

theorem shortEnvironment_accepted (hlarge : ¬ TooLarge s.bytes) :
    ∃ r, s.strtoul = .ok r ∧ r.value < MAX_NUM_CAMERAS ∧
      (Globals.zeroed P).readConfiguration (shortEnvironment s) = .ok (true,
        Globals.configured P (ascii "dvr") (ascii "admin") (ascii "secret") r.value) := by
  have hfit : Fit ⟨ascii "dvr", by decide⟩ ⟨ascii "secret", by decide⟩ ⟨ascii "admin", by decide⟩ :=
    ⟨by decide, by decide, by decide⟩
  rcases @Globals.readConfiguration_copied P (Globals.zeroed P) (shortEnvironment s) _ _ _ _ rfl rfl
    rfl rfl hfit with ⟨h, -⟩ | h
  · exact absurd h hlarge
  · exact h

/-- **The number of cameras.** -/
theorem countRight_iff (s : EnvValue) :
    CountRight P s ↔ TooLarge s.bytes ∨ ∃ n, 1 ≤ n ∧ Numeral s.bytes n := by
  constructor
  · intro hright
    by_cases hlarge : TooLarge s.bytes
    · exact .inl hlarge
    · obtain ⟨r, -, -, hread⟩ := @shortEnvironment_accepted P s hlarge
      obtain ⟨n, hn, hpos, -⟩ := hright.numeral _ _ _ rfl hread
      exact .inr ⟨n, hpos, hn⟩
  · intro hs
    have haccepted : ∀ {g g' : Globals P} {env : Environment},
        env.RSVA11001_NUM_CAMERAS = some s → g.readConfiguration env = .ok (true, g') →
        ∃ n host username password, Numeral s.bytes n ∧ 1 ≤ n ∧ n ≤ MAX_NUM_CAMERAS ∧
          g' = { g with host, password, username, numCameras := n } := by
      intro g g' env henv hread
      obtain ⟨h, p, u, s', r, -, -, -, hs', -, hr, hlt, rfl⟩ :=
        Globals.readConfiguration_accepts hread
      obtain rfl : s' = s := Option.some.inj (hs'.symm.trans henv)
      rcases hs with hlarge | ⟨n, hpos, hn⟩
      · exact absurd ((tooLarge_iff hr).1 hlarge) (Nat.not_le.2 hlt)
      · have hvalue := EnvValue.strtoul_numeral hn hr hlt
        exact ⟨r.value, _, _, _, hvalue ▸ hn, hvalue ▸ hpos, Nat.le_of_lt hlt, rfl⟩
    refine ⟨fun g g' env henv hread => ?_, fun g g' env malloc henv hread hsetup sg es => ?_⟩
    · obtain ⟨n, -, -, -, hn, hpos, hle, rfl⟩ := haccepted henv hread
      exact ⟨n, hn, hpos, hle, rfl⟩
    · obtain ⟨n, host, username, password, -, hpos, -, rfl⟩ := haccepted henv hread
      have h₀ : Reactor.Initial n (Reactor.start g') :=
        ⟨host, username, password, malloc, g', hpos, hsetup, rfl⟩
      exact ⟨Reactor.run_asserts h₀, fun r hrun => Reactor.run_next h₀ hrun⟩

/-- An empty value is accepted as the number 0, and the reactor then fails its assertion. -/
theorem not_countRight : ¬ CountRight .untilEof ⟨[], by decide⟩ := by
  intro hright
  obtain ⟨g, hg⟩ : ∃ g, g = Globals.configured .untilEof (ascii "dvr") (ascii "admin")
    (ascii "secret") 0 := ⟨_, rfl⟩
  have hread : (Globals.zeroed .untilEof).readConfiguration (shortEnvironment ⟨[], by decide⟩) =
      .ok (true, g) := by
    rw [hg]
    rfl
  have hsetup : g.setupCameraConnections (fun _ => true) = .ok (true, g) := by
    rw [hg]
    rfl
  refine (hright.next g g _ _ rfl hread hsetup plainSandgrouse [calm]).1 ?_
  rw [hg]
  rfl

end Count

/-! ## The strings that are copied -/

/-- The configuration is read without leaving a field, and when it is accepted the three strings are
those in the environment, nothing else is changed but the number of cameras, and a connection can be
configured with them for any channel. -/
def CredentialsRight {P : HttpParser} (g : Globals P) (env : Environment) : Prop :=
  ∃ b g', g.readConfiguration env = .ok (b, g') ∧ (b = true →
    ∃ h p u, env.RSVA11001_HOST = some h ∧ env.RSVA11001_PASSWORD = some p ∧
      env.RSVA11001_USERNAME = some u ∧ Fit h p u ∧
      (∃ numCameras, g' = { g with
        host := h.bytes, password := p.bytes, username := u.bytes, numCameras }) ∧
      ∀ channel, MIN_CHAN ≤ channel → channel ≤ MAX_CHAN →
        ((Connection.malloc P).configure h.bytes u.bytes p.bytes channel).1 = true)

/-- A variable that is looked for is not set, or all are set and short enough; a host that is too
long for a connection is refused with the number of cameras. -/
def Usable (env : Environment) : Prop :=
  (env.RSVA11001_HOST = none ∨ env.RSVA11001_PASSWORD = none ∨
    env.RSVA11001_NUM_CAMERAS = none) ∨
  ∃ h p u s, env.RSVA11001_HOST = some h ∧ env.RSVA11001_PASSWORD = some p ∧
    env.RSVA11001_USERNAME = some u ∧ env.RSVA11001_NUM_CAMERAS = some s ∧ Fit h p u ∧
    (h.bytes.length < FIELD_SIZE ∨ TooLarge s.bytes)

section Credentials

variable {P : HttpParser} {env : Environment}

theorem configure_accepts_iff {hostname username password : CString} {channel : Nat}
    (hmin : MIN_CHAN ≤ channel) (hmax : channel ≤ MAX_CHAN) :
    ((Connection.malloc P).configure hostname username password channel).1 = true ↔
      hostname.length < FIELD_SIZE ∧ username.length < FIELD_SIZE ∧
        password.length < FIELD_SIZE := by
  unfold Connection.configure
  rw [if_neg (by simp [Connection.malloc])]
  split
  · rename_i hlong
    refine iff_of_false (by simp) ?_
    omega
  rename_i hshort
  rw [if_neg (by omega)]
  refine iff_of_true rfl ?_
  omega

/-- **The credentials.** -/
theorem credentialsRight_iff (g : Globals P) (env : Environment) :
    CredentialsRight g env ↔ Usable env := by
  constructor
  · rintro ⟨b, g', hread, hright⟩
    cases hh : env.RSVA11001_HOST with
    | none => exact .inl (.inl hh)
    | some h =>
    cases hp : env.RSVA11001_PASSWORD with
    | none => exact .inl (.inr (.inl hp))
    | some p =>
    cases hs : env.RSVA11001_NUM_CAMERAS with
    | none => exact .inl (.inr (.inr hs))
    | some s =>
    by_cases hfit : ∃ u, env.RSVA11001_USERNAME = some u ∧ Fit h p u
    · obtain ⟨u, hu, hfit⟩ := hfit
      refine .inr ⟨h, p, u, s, hh, hp, hu, hs, hfit, ?_⟩
      rcases @Globals.readConfiguration_copied _ g _ _ _ _ _ hh hp hs hu hfit with
        ⟨hlarge, -⟩ | ⟨r, -, -, hread'⟩
      · exact .inr hlarge
      · rw [hread'] at hread
        cases hread
        obtain ⟨h', p', u', hh', -, -, -, -, hconf⟩ := hright rfl
        obtain rfl : h' = h := Option.some.inj (hh'.symm.trans hh)
        exact .inl ((configure_accepts_iff (Nat.le_refl _) (by decide)).1
          (hconf MIN_CHAN (Nat.le_refl _) (by decide))).1
    · rw [Globals.readConfiguration_overflows hh hp hs
        fun u hu hfit' => hfit ⟨u, hu, hfit'⟩] at hread
      cases hread
  · rintro (habsent | ⟨h, p, u, s, hh, hp, hu, hs, hfit, hlong⟩)
    · exact ⟨false, g, Globals.readConfiguration_absent habsent, by rintro ⟨⟩⟩
    rcases @Globals.readConfiguration_copied _ g _ _ _ _ _ hh hp hs hu hfit with
      ⟨-, g', hread⟩ | ⟨r, hr, hlt, hread⟩
    · exact ⟨false, g', hread, by rintro ⟨⟩⟩
    · have hshort : h.bytes.length < FIELD_SIZE :=
        hlong.resolve_right fun hlarge => Nat.not_le.2 hlt ((tooLarge_iff hr).1 hlarge)
      exact ⟨true, _, hread, fun _ => ⟨h, p, u, hh, hp, hu, hfit, ⟨r.value, rfl⟩,
        fun channel hmin hmax => (configure_accepts_iff hmin hmax).2
          ⟨hshort, hfit.username, hfit.password⟩⟩⟩

/-- A user name that is not set is copied from a NULL pointer. -/
theorem not_credentialsRight : ¬ CredentialsRight (Globals.zeroed .untilEof)
    { shortEnvironment ⟨ascii "1", by decide⟩ with RSVA11001_USERNAME := none } := by
  rintro ⟨b, g', hread, -⟩
  rw [Globals.readConfiguration_overflows rfl rfl rfl (by rintro u ⟨⟩)] at hread
  cases hread

end Credentials

end Rsva11001
