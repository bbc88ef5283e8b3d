import Cryptile.Cli
import Cryptile.Keyring

/-
  State — the state directory, and logins that are cut short

  `config.json` names the server and the account, the keyring holds the session.
  A login replaces the first and then the second. Between the two renames the new
  config stands beside the old keyring: harmless where there was no keyring, or
  where the config has not changed, and a mixture of two logins everywhere else.
  `save_login_never_mixes_iff` says so of every sequence of logins and re-seals.

  Correspondence (Rust ↔ Lean):
    `config_path`, `keyring_path` ↔ `configPath`, `keyringPath`
    `State::logged_in`            ↔ `loggedIn`
    `State::save_login`           ↔ `saveLogin`
    `State::load_config`          ↔ `State.loadConfig`, over what decodes the config
    `State::load_session`         ↔ `State.loadSession`
-/

namespace Cryptile
open Text Interaction Files

def configPath (dir : Path) : Path := dir.join "config.json"

def keyringPath (dir : Path) : Path := dir.join "keyring"

def loggedIn (dir : Path) : Os Bool := do
  if ← os (.isFile (configPath dir)) then os (.isFile (keyringPath dir)) else return false

def configTmp (dir : Path) : Path := (configPath dir).withExtension "json.tmp"

/-- The config first and the keyring last. -/
def saveLogin (P : Primitives) (encodeConfig : StateConfig → String) (dir : Path) (cfg : StateConfig)
    (sessionJson passphrase : String) : ExceptT String Os Unit := do
  mapErr id (os (.createDirAll dir))
  let _ ← ExceptT.lift (os (.setMode dir 0o700))
  mapErr id (os (.openTruncate (configTmp dir) none))
  mapErr id (os (.writeAll (configTmp dir) (encodeConfig cfg)))
  let _ ← ExceptT.lift (os (.setMode (configTmp dir) 0o600))
  mapErr id (os (.rename (configTmp dir) (configPath dir)))
  -- from here on the new config stands beside the keyring of before
  ExceptT.mk ((fun r : Except KeyringError Unit => r.mapError KeyringError.display) <$>
    (saveKeyring P (keyringPath dir) sessionJson passphrase).run)

/-- `serde_json` and the errors of reading share the one error type. -/
def State.loadConfig (decodeConfig : String → Except String StateConfig) (dir : Path) :
    ExceptT String Os StateConfig := do
  let raw ← mapErr id (os (.readToString (configPath dir)))
  ExceptT.mk (pure (decodeConfig raw))

def State.loadSession (P : Primitives) (dir : Path) (passphrase : String) : ExceptT String Os Session := do
  let handle ← ExceptT.mk ((fun r : Except KeyringError String => r.mapError KeyringError.display) <$>
    (loadKeyring P (keyringPath dir) passphrase).run)
  return { provider := "vw", handle := handle }

/-! ## Where a login can stop -/

section
variable {dir : Path}

theorem withExtension_join {name ext : String} :
    (dir.join name).withExtension ext = dir.join (fileStem name ++ "." ++ ext) := by
  simp [Path.withExtension, Path.join]

theorem join_ne {a b : String} (h : a ≠ b) : dir.join a ≠ dir.join b := by
  simp [Path.join, h]

theorem configTmp_eq : configTmp dir = dir.join "config.json.tmp" := by
  rw [configTmp, configPath, withExtension_join]
  rfl

theorem keyringTmp_eq : (keyringPath dir).withExtension "tmp" = dir.join "keyring.tmp" := by
  rw [keyringPath, withExtension_join]
  rfl

/-- What the two files hold, and which names were replaced. -/
structure Holds (dir : Path) (m : Machine StateConfig) (config keyring : Option (File StateConfig))
    (replaced : List Path) : Prop where
  config : m.files (configPath dir) = config
  keyring : m.files (keyringPath dir) = keyring
  replaced : m.replaced = replaced

theorem Touched.holds_config {m m' : Machine StateConfig} (h : Touched (configTmp dir) m m') :
    Holds dir m' (m.files (configPath dir)) (m.files (keyringPath dir)) m.replaced := by
  have hc : configPath dir ≠ configTmp dir := configTmp_eq ▸ join_ne (by decide)
  have hk : keyringPath dir ≠ configTmp dir := configTmp_eq ▸ join_ne (by decide)
  exact ⟨h.only _ hc, h.only _ hk, h.replaced⟩

theorem Touched.holds_keyring {m m' : Machine StateConfig}
    (h : Touched ((keyringPath dir).withExtension "tmp") m m') :
    Holds dir m' (m.files (configPath dir)) (m.files (keyringPath dir)) m.replaced := by
  have hc : configPath dir ≠ (keyringPath dir).withExtension "tmp" := keyringTmp_eq ▸ join_ne (by decide)
  have hk : keyringPath dir ≠ (keyringPath dir).withExtension "tmp" := keyringTmp_eq ▸ join_ne (by decide)
  exact ⟨h.only _ hc, h.only _ hk, h.replaced⟩

theorem Published.holds_config {f : File StateConfig} {m m' : Machine StateConfig}
    (h : Published (configTmp dir) (configPath dir) f m m') :
    Holds dir m' (some f) (m.files (keyringPath dir)) (m.replaced ++ [configPath dir]) := by
  have htmp : keyringPath dir ≠ configTmp dir := configTmp_eq ▸ join_ne (by decide)
  exact ⟨h.file, h.others _ htmp (join_ne (by decide)), h.replaced⟩

theorem Published.holds_keyring {f : File StateConfig} {m m' : Machine StateConfig}
    (h : Published ((keyringPath dir).withExtension "tmp") (keyringPath dir) f m m') :
    Holds dir m' (m.files (configPath dir)) (some f) (m.replaced ++ [keyringPath dir]) := by
  have htmp : configPath dir ≠ (keyringPath dir).withExtension "tmp" := keyringTmp_eq ▸ join_ne (by decide)
  exact ⟨h.others _ htmp (join_ne (by decide)), h.file, h.replaced⟩

end

section
variable (P : Primitives) (encodeConfig : StateConfig → String) (dir : Path)

/-- A login stops before both renames, between them, or after them. -/
inductive LoginStop (cfg : StateConfig) (sessionJson passphrase : String) (m m' : Machine StateConfig) :
    Prop
  | before (h : Holds dir m' (m.files (configPath dir)) (m.files (keyringPath dir)) m.replaced)
  | between (h : Holds dir m' (some ⟨encodeConfig cfg, cfg⟩) (m.files (keyringPath dir))
      (m.replaced ++ [configPath dir]))
  | after (line : String) (hline : SealedAs P sessionJson passphrase line)
      (h : Holds dir m' (some ⟨encodeConfig cfg, cfg⟩) (some ⟨line, cfg⟩)
        (m.replaced ++ [configPath dir, keyringPath dir]))

end

section
variable {P : Primitives} {encodeConfig : StateConfig → String} {dir : Path} {cfg : StateConfig}
  {sessionJson passphrase : String}

/-- The keyring after the config: from between the renames to after them. -/
theorem LoginStop.keyring {m mc : Machine StateConfig}
    (hconfig : Holds dir mc (some ⟨encodeConfig cfg, cfg⟩) (m.files (keyringPath dir))
      (m.replaced ++ [configPath dir])) :
    Safe (diskStep cfg) (fun _ => LoginStop P encodeConfig dir cfg sessionJson passphrase m)
      (LoginStop P encodeConfig dir cfg sessionJson passphrase m)
      (saveKeyring P (keyringPath dir) sessionJson passphrase).run mc := by
  have hbetween : ∀ {m'}, Touched ((keyringPath dir).withExtension "tmp") mc m' →
      LoginStop P encodeConfig dir cfg sessionJson passphrase m m' := by
    intro m' h
    have hholds := h.holds_keyring
    rw [hconfig.config, hconfig.keyring, hconfig.replaced] at hholds
    exact .between hholds
  have hafter : ∀ {m'}, KeyringSaved P (keyringPath dir) sessionJson passphrase cfg mc m' →
      LoginStop P encodeConfig dir cfg sessionJson passphrase m m' := by
    rintro m' ⟨line, hline, h⟩
    have hholds := h.holds_keyring
    rw [hconfig.config, hconfig.replaced, List.append_assoc] at hholds
    exact .after line hline hholds
  refine (saveKeyring_safe (keyringPath dir) mc).mono ?_ ?_
  · rintro r m' (⟨e, -, h⟩ | ⟨-, h⟩)
    · exact hbetween h
    · exact hafter h
  · rintro m' (h | h)
    · exact hbetween h
    · exact hafter h

theorem saveLogin_safe (m : Machine StateConfig) :
    Safe (diskStep cfg) (fun _ => LoginStop P encodeConfig dir cfg sessionJson passphrase m)
      (LoginStop P encodeConfig dir cfg sessionJson passphrase m)
      (saveLogin P encodeConfig dir cfg sessionJson passphrase).run m := by
  have hstart : Touched (configTmp dir) m m := .refl _ _
  unfold saveLogin
  refine mapErr_safe (quiet_safe (q := .createDirAll _) rfl (.before hstart.holds_config)) ?_ ?_
  · rintro e s rfl
    exact .before hstart.holds_config
  rintro _ s rfl
  refine safe_lift_bind (quiet_safe rfl (.before hstart.holds_config)) ?_
  rintro _ s rfl
  refine mapErr_safe (openTruncate_safe (fun m' h => .before h.holds_config))
    (fun e s h => .before h.holds_config) ?_
  intro _ m₁ h₁
  refine mapErr_safe (writeAll_safe (fun m' h => .before (h₁.trans h).holds_config))
    (fun e s h => .before (h₁.trans h.1).holds_config) ?_
  rintro _ m₂ ⟨h₂, hcontent⟩
  have hwritten := h₁.trans h₂
  refine safe_lift_bind (quiet_safe rfl (.before hwritten.holds_config)) ?_
  rintro _ s rfl
  have hconfig := (hwritten.publish (hcontent rfl) (configPath dir)).holds_config
  refine mapErr_safe (rename_safe (.before hwritten.holds_config) (.between hconfig)) ?_ ?_
  · rintro e s (⟨e', -, rfl⟩ | ⟨hx, -⟩)
    · exact .before hwritten.holds_config
    · cases hx
  rintro _ s (⟨e', hx, -⟩ | ⟨-, rfl⟩)
  · cases hx
  exact safe_map (LoginStop.keyring hconfig)

end

/-! ## Sequences of logins and re-seals -/

/-- A write to the state directory: a login, or a refreshed session of the one there is. -/
inductive Save where
  | login (cfg : StateConfig) (sessionJson passphrase : String)
  | reseal (sessionJson passphrase : String)

/-- The command finds a login. -/
def LoggedIn (dir : Path) (d : Disk Path StateConfig) : Prop :=
  ∃ who tr d', Runs (loggedIn dir) tr true ∧ Steps (fileStep who) d tr d'

/-- A save as far as it got, with the files before and after it. -/
structure Saved where
  before : Disk Path StateConfig
  save : Save
  trace : OsTrace
  after : Disk Path StateConfig

section
variable (P : Primitives) (encodeConfig : StateConfig → String) (dir : Path)

/-- What a save can have done. A re-seal follows a login it found, and writes for the
login whose session it loaded. -/
def Saved.Valid (s : Saved) : Prop :=
  match s.save with
  | .login cfg sessionJson passphrase =>
    Reaches (saveLogin P encodeConfig dir cfg sessionJson passphrase).run s.trace ∧
    Steps (fileStep cfg) s.before s.trace s.after
  | .reseal sessionJson passphrase => LoggedIn dir s.before ∧
    ∃ keyring, s.before (keyringPath dir) = some keyring ∧
      Reaches (saveKeyring P (keyringPath dir) sessionJson passphrase).run s.trace ∧
      Steps (fileStep keyring.owner) s.before s.trace s.after

/-- Saves one after the other, from a directory without a login; the last comes first. -/
inductive SaveRun : List Saved → Disk Path StateConfig → Prop
  | fresh {d} : d (configPath dir) = none → d (keyringPath dir) = none → SaveRun [] d
  | save {saves s} : SaveRun saves s.before → s.Valid P encodeConfig dir → SaveRun (s :: saves) s.after

/-- Where a login is found, the config is that of the login whose session the keyring seals. -/
def SameLogin (d : Disk Path StateConfig) : Prop :=
  LoggedIn dir d → ∃ config keyring, d (configPath dir) = some config ∧
    d (keyringPath dir) = some keyring ∧ config.content = encodeConfig keyring.owner

/-- A login leaves no login, or the one before it, or itself. -/
def Saved.Settles (s : Saved) : Prop :=
  match s.save with
  | .login cfg sessionJson passphrase => ¬ LoggedIn dir s.after ∨
    ((s.after (configPath dir)).map File.content = (s.before (configPath dir)).map File.content ∧
      s.after (keyringPath dir) = s.before (keyringPath dir)) ∨
    ∃ line, SealedAs P sessionJson passphrase line ∧
      s.after (configPath dir) = some ⟨encodeConfig cfg, cfg⟩ ∧
      s.after (keyringPath dir) = some ⟨line, cfg⟩
  | .reseal _ _ => True

/-- No state of the run pairs a session with another login's config. -/
structure NeverMixed (saves : List Saved) (d : Disk Path StateConfig) : Prop where
  same : ∀ d' ∈ d :: saves.map Saved.before, SameLogin encodeConfig dir d'
  settles : ∀ s ∈ saves, s.Settles P encodeConfig dir

/-- A login that stops between its renames started without a keyring, or from the
config that it writes. -/
def Saved.Whole (s : Saved) : Prop :=
  match s.save with
  | .login cfg _ _ => renames s.trace = [configPath dir] → s.before (keyringPath dir) = none ∨
    (s.before (configPath dir)).map File.content = some (encodeConfig cfg)
  | .reseal _ _ => True

end

/-! ## What one save can do -/

section
variable {P : Primitives} {encodeConfig : StateConfig → String} {dir : Path}
  {d : Disk Path StateConfig} {s : Saved}

theorem loggedIn_iff : LoggedIn dir d ↔
    (d (configPath dir)).isSome = true ∧ (d (keyringPath dir)).isSome = true := by
  refine ⟨?_, ?_⟩
  · intro h
    obtain ⟨who, tr, d', hrun, hsteps⟩ := h
    unfold loggedIn at hrun
    obtain ⟨b, rest, rfl, hrest⟩ := runs_request_bind.mp hrun
    obtain ⟨_, ⟨hconfig, rfl⟩, hsteps⟩ := hsteps
    cases b with
    | false => cases hrest.2
    | true =>
      obtain rfl := runs_request.mp hrest
      obtain ⟨_, ⟨hkeyring, -⟩, -⟩ := hsteps
      exact ⟨hconfig rfl, hkeyring rfl⟩
  · intro h
    obtain ⟨hconfig, hkeyring⟩ := h
    refine ⟨⟨"", ""⟩, [⟨.isFile (configPath dir), true⟩, ⟨.isFile (keyringPath dir), true⟩], d, ?_, ?_⟩
    · exact runs_request_bind.mpr ⟨true, _, rfl, runs_request.mpr rfl⟩
    · exact ⟨d, ⟨fun _ => hconfig, rfl⟩, d, ⟨fun _ => hkeyring, rfl⟩, rfl⟩

/-- Before both renames, between them, or after them. -/
theorem Saved.Valid.login {cfg : StateConfig} {sessionJson passphrase : String}
    (h : s.Valid P encodeConfig dir) (hsave : s.save = .login cfg sessionJson passphrase) :
    (s.after (configPath dir) = s.before (configPath dir) ∧
      s.after (keyringPath dir) = s.before (keyringPath dir) ∧ renames s.trace = []) ∨
    (s.after (configPath dir) = some ⟨encodeConfig cfg, cfg⟩ ∧
      s.after (keyringPath dir) = s.before (keyringPath dir) ∧ renames s.trace = [configPath dir]) ∨
    (∃ line, SealedAs P sessionJson passphrase line ∧
      s.after (configPath dir) = some ⟨encodeConfig cfg, cfg⟩ ∧
      s.after (keyringPath dir) = some ⟨line, cfg⟩ ∧
      renames s.trace = [configPath dir, keyringPath dir]) := by
  rw [Saved.Valid, hsave] at h
  cases (saveLogin_safe ⟨s.before, []⟩).reaches h.1 (steps_machine (r := []) h.2) with
  | before h => exact .inl ⟨h.config, h.keyring, h.replaced⟩
  | between h => exact .inr (.inl ⟨h.config, h.keyring, h.replaced⟩)
  | after line hline h => exact .inr (.inr ⟨line, hline, h.config, h.keyring, h.replaced⟩)

/-- A re-seal leaves the config, and the keyring or its owner. -/
theorem Saved.Valid.reseal {sessionJson passphrase : String} (h : s.Valid P encodeConfig dir)
    (hsave : s.save = .reseal sessionJson passphrase) :
    LoggedIn dir s.before ∧ s.after (configPath dir) = s.before (configPath dir) ∧
    (s.after (keyringPath dir) = s.before (keyringPath dir) ∨
     ∃ keyring line, s.before (keyringPath dir) = some keyring ∧
       s.after (keyringPath dir) = some ⟨line, keyring.owner⟩) := by
  rw [Saved.Valid, hsave] at h
  obtain ⟨hlogged, keyring, hkeyring, hreach, hsteps⟩ := h
  refine ⟨hlogged, ?_⟩
  rcases (saveKeyring_safe (keyringPath dir) ⟨s.before, []⟩).reaches hreach (steps_machine hsteps) with
    htouched | ⟨line, -, hpublished⟩
  · exact ⟨htouched.holds_keyring.config, .inl htouched.holds_keyring.keyring⟩
  · exact ⟨hpublished.holds_keyring.config,
      .inr ⟨keyring, line, hkeyring, hpublished.holds_keyring.keyring⟩⟩

/-! ## The invariant -/

/-- Every keyring has the config of its login beside it. -/
def Paired (encodeConfig : StateConfig → String) (dir : Path) (d : Disk Path StateConfig) : Prop :=
  ∀ keyring, d (keyringPath dir) = some keyring →
    ∃ config, d (configPath dir) = some config ∧ config.content = encodeConfig keyring.owner

theorem Paired.sameLogin (h : Paired encodeConfig dir d) : SameLogin encodeConfig dir d := by
  intro hlogged
  obtain ⟨keyring, hkeyring⟩ := Option.isSome_iff_exists.mp (loggedIn_iff.mp hlogged).2
  obtain ⟨config, hconfig, hcontent⟩ := h keyring hkeyring
  exact ⟨config, keyring, hconfig, hkeyring, hcontent⟩

theorem SameLogin.paired (h : SameLogin encodeConfig dir d)
    (hbehind : (d (keyringPath dir)).isSome = true → (d (configPath dir)).isSome = true) :
    Paired encodeConfig dir d := by
  intro keyring hkeyring
  have hsome : (d (keyringPath dir)).isSome = true := by simp [hkeyring]
  obtain ⟨config, keyring', hconfig, hkeyring', hcontent⟩ := h (loggedIn_iff.mpr ⟨hbehind hsome, hsome⟩)
  rw [hkeyring] at hkeyring'
  cases hkeyring'
  exact ⟨config, hconfig, hcontent⟩

/-- A keyring never stands without a config, whole or not. -/
theorem SaveRun.keyring_behind {saves : List Saved} (h : SaveRun P encodeConfig dir saves d) :
    (d (keyringPath dir)).isSome = true → (d (configPath dir)).isSome = true := by
  induction h with
  | fresh hconfig hkeyring => simp [hkeyring]
  | @save saves s _ hvalid ih =>
    cases hsave : s.save with
    | login cfg sessionJson passphrase =>
      rcases hvalid.login hsave with ⟨hconfig, hkeyring, -⟩ | ⟨hconfig, -⟩ | ⟨_, -, hconfig, -⟩
      · rw [hconfig, hkeyring]
        exact ih
      · exact fun _ => by rw [hconfig]; rfl
      · exact fun _ => by rw [hconfig]; rfl
    | reseal sessionJson passphrase =>
      obtain ⟨hlogged, hconfig, -⟩ := hvalid.reseal hsave
      intro _
      rw [hconfig]
      exact (loggedIn_iff.mp hlogged).1

/-- A whole save keeps the pairing. -/
theorem Saved.Valid.paired (hvalid : s.Valid P encodeConfig dir) (hwhole : s.Whole encodeConfig dir)
    (h : Paired encodeConfig dir s.before) : Paired encodeConfig dir s.after := by
  intro keyring hk
  cases hsave : s.save with
  | login cfg sessionJson passphrase =>
    rw [Saved.Whole, hsave] at hwhole
    rcases hvalid.login hsave with ⟨hconfig, hkeyring, -⟩ | ⟨hconfig, hkeyring, hrenames⟩ |
      ⟨line, -, hconfig, hkeyring, -⟩
    · rw [hkeyring] at hk
      rw [hconfig]
      exact h keyring hk
    · -- between the renames: a keyring that is there is paired with what the config was
      rw [hkeyring] at hk
      refine ⟨_, hconfig, ?_⟩
      rcases hwhole hrenames with hnone | hsame
      · rw [hnone] at hk
        cases hk
      · obtain ⟨config, hbefore, hcontent⟩ := h keyring hk
        rw [hbefore] at hsame
        exact (Option.some.inj hsame).symm.trans hcontent
    · rw [hkeyring] at hk
      cases hk
      exact ⟨_, hconfig, rfl⟩
  | reseal sessionJson passphrase =>
    obtain ⟨-, hconfig, hkeyring | ⟨keyring', line, hbefore, hkeyring⟩⟩ := hvalid.reseal hsave
    · rw [hkeyring] at hk
      rw [hconfig]
      exact h keyring hk
    · rw [hkeyring] at hk
      cases hk
      rw [hconfig]
      exact h keyring' hbefore

theorem Saved.Valid.settles (hvalid : s.Valid P encodeConfig dir) (hwhole : s.Whole encodeConfig dir) :
    s.Settles P encodeConfig dir := by
  cases hsave : s.save with
  | login cfg sessionJson passphrase =>
    rw [Saved.Whole, hsave] at hwhole
    rw [Saved.Settles, hsave]
    rcases hvalid.login hsave with ⟨hconfig, hkeyring, -⟩ | ⟨hconfig, hkeyring, hrenames⟩ |
      ⟨line, hline, hconfig, hkeyring, -⟩
    · exact .inr (.inl ⟨congrArg _ hconfig, hkeyring⟩)
    · rcases hwhole hrenames with hnone | hsame
      · refine .inl (fun hlogged => ?_)
        have hsome := (loggedIn_iff.mp hlogged).2
        simp [hkeyring, hnone] at hsome
      · exact .inr (.inl ⟨by rw [hconfig, hsame]; rfl, hkeyring⟩)
    · exact .inr (.inr ⟨line, hline, hconfig, hkeyring⟩)
  | reseal sessionJson passphrase =>
    rw [Saved.Settles, hsave]
    trivial

/-- What the states around a login say about where it stopped. -/
theorem Saved.Valid.whole (hvalid : s.Valid P encodeConfig dir) (hbefore : Paired encodeConfig dir s.before)
    (hafter : SameLogin encodeConfig dir s.after) : s.Whole encodeConfig dir := by
  cases hsave : s.save with
  | reseal sessionJson passphrase =>
    rw [Saved.Whole, hsave]
    trivial
  | login cfg sessionJson passphrase =>
    rw [Saved.Whole, hsave]
    intro hrenames
    rcases hvalid.login hsave with ⟨-, -, hnone⟩ | ⟨hconfig, hkeyring, -⟩ | ⟨_, -, -, -, hboth⟩
    · rw [hnone] at hrenames
      cases hrenames
    · cases hk : s.before (keyringPath dir) with
      | none => exact .inl rfl
      | some keyring =>
        -- the old keyring is paired on both sides of the save, so the config is the same
        rw [hk] at hkeyring
        obtain ⟨config, hc, hcontent⟩ := hbefore keyring hk
        obtain ⟨_, _, hc', hk', hsame⟩ := hafter (loggedIn_iff.mpr ⟨by simp [hconfig], by simp [hkeyring]⟩)
        rw [hconfig] at hc'
        rw [hkeyring] at hk'
        cases hc'
        cases hk'
        exact .inr (by rw [hc]; exact congrArg some (hcontent.trans hsame.symm))
    · rw [hboth] at hrenames
      simp at hrenames

/-! ## Every run -/

theorem SaveRun.paired {saves : List Saved} (h : SaveRun P encodeConfig dir saves d)
    (hwhole : ∀ s ∈ saves, s.Whole encodeConfig dir) :
    Paired encodeConfig dir d ∧ NeverMixed P encodeConfig dir saves d := by
  induction h with
  | @fresh d hconfig hkeyring =>
    have hpaired : Paired encodeConfig dir d := by
      intro keyring hk
      rw [hkeyring] at hk
      cases hk
    exact ⟨hpaired, ⟨by simpa using hpaired.sameLogin, by simp⟩⟩
  | @save saves s _ hvalid ih =>
    obtain ⟨hs, hsaves⟩ := List.forall_mem_cons.mp hwhole
    obtain ⟨hbefore, hnever⟩ := ih hsaves
    have hafter := hvalid.paired hs hbefore
    refine ⟨hafter, ⟨?_, ?_⟩⟩
    · exact List.forall_mem_cons.mpr ⟨hafter.sameLogin, hnever.same⟩
    · exact List.forall_mem_cons.mpr ⟨hvalid.settles hs, hnever.settles⟩

theorem SaveRun.whole {saves : List Saved} (h : SaveRun P encodeConfig dir saves d)
    (hsame : ∀ d' ∈ d :: saves.map Saved.before, SameLogin encodeConfig dir d') :
    ∀ s ∈ saves, s.Whole encodeConfig dir := by
  induction h with
  | fresh _ _ => simp
  | @save saves s hrun hvalid ih =>
    obtain ⟨hafter, hrest⟩ := List.forall_mem_cons.mp hsame
    have hbefore : Paired encodeConfig dir s.before :=
      (hrest s.before (by simp)).paired hrun.keyring_behind
    exact List.forall_mem_cons.mpr ⟨hvalid.whole hbefore hafter, ih hrest⟩

/-- No state of a run mixes two logins exactly if every login that stops between its
renames started without a keyring, or from the config that it writes. -/
theorem save_login_never_mixes_iff {saves : List Saved} (h : SaveRun P encodeConfig dir saves d) :
    NeverMixed P encodeConfig dir saves d ↔ ∀ s ∈ saves, s.Whole encodeConfig dir :=
  ⟨fun hnever => h.whole hnever.same, fun hwhole => (h.paired hwhole).2⟩

end

/-! ## A login over another one -/

section
variable {P : Primitives} {encodeConfig : StateConfig → String} {dir : Path} {cfg : StateConfig}
  {sessionJson passphrase : String} {salt iv : Block 16} {line : String} {d : Disk Path StateConfig}

/-- The events of a login up to and with the rename of the config. -/
def configEvents (encodeConfig : StateConfig → String) (dir : Path) (cfg : StateConfig) : OsTrace :=
  [⟨.createDirAll dir, .ok ()⟩, ⟨.setMode dir 0o700, .ok ()⟩, ⟨.openTruncate (configTmp dir) none, .ok ()⟩,
    ⟨.writeAll (configTmp dir) (encodeConfig cfg), .ok ()⟩, ⟨.setMode (configTmp dir) 0o600, .ok ()⟩,
    ⟨.rename (configTmp dir) (configPath dir), .ok ()⟩]

def keyringEvents (dir : Path) (salt iv : Block 16) (line : String) : OsTrace :=
  let tmp := (keyringPath dir).withExtension "tmp"
  [⟨.random 16, .ok salt⟩, ⟨.random 16, .ok iv⟩, ⟨.createDirAll dir, .ok ()⟩, ⟨.modeOf dir, .ok 0o40700⟩,
    ⟨.openTruncate tmp (some 0o600), .ok ()⟩, ⟨.writeAll tmp line, .ok ()⟩, ⟨.syncAll tmp, .ok ()⟩,
    ⟨.rename tmp (keyringPath dir), .ok ()⟩]

theorem saveKeyring_runs (hline : keyringLine P sessionJson passphrase salt iv = .ok line) :
    Runs (saveKeyring P (keyringPath dir) sessionJson passphrase).run (keyringEvents dir salt iv line)
      (.ok ()) := by
  have hseal : Runs (sealKeyring P sessionJson passphrase).run
      [⟨.random 16, .ok salt⟩, ⟨.random 16, .ok iv⟩] (.ok line) := by
    unfold sealKeyring
    exact ⟨_, _, rfl, _, _, rfl, runs_pure.mpr ⟨rfl, hline.symm⟩⟩
  have hparent : (keyringPath dir).parent = some dir := by simp [keyringPath, Path.parent, Path.join]
  have hensure : Runs (ensureParent (keyringPath dir)).run
      [⟨.createDirAll dir, .ok ()⟩, ⟨.modeOf dir, .ok 0o40700⟩] (.ok ()) := by
    unfold ensureParent
    rw [hparent]
    exact ⟨_, _, rfl, _, _, rfl, rfl, rfl⟩
  unfold saveKeyring
  refine runs_except_bind.mpr (.inr ⟨_, line, _, rfl, hseal, ?_⟩)
  refine runs_except_bind.mpr (.inr ⟨_, (), _, rfl, hensure, ?_⟩)
  exact ⟨_, _, rfl, _, _, rfl, _, _, rfl, _, _, rfl, rfl, rfl⟩

theorem saveLogin_reaches_between :
    Reaches (saveLogin P encodeConfig dir cfg sessionJson passphrase).run
      (configEvents encodeConfig dir cfg) := by
  unfold saveLogin
  exact .inr ⟨_, _, rfl, .inr ⟨_, _, rfl, .inr ⟨_, _, rfl, .inr ⟨_, _, rfl, .inr ⟨_, _, rfl,
    .inr ⟨_, _, rfl, Reaches.nil _⟩⟩⟩⟩⟩⟩

theorem saveLogin_runs (hline : keyringLine P sessionJson passphrase salt iv = .ok line) :
    Runs (saveLogin P encodeConfig dir cfg sessionJson passphrase).run
      (configEvents encodeConfig dir cfg ++ keyringEvents dir salt iv line) (.ok ()) := by
  have hkeyring : Runs ((fun r : Except KeyringError Unit => r.mapError KeyringError.display) <$>
      (saveKeyring P (keyringPath dir) sessionJson passphrase).run) (keyringEvents dir salt iv line)
      (.ok ()) := runs_map.mpr ⟨_, saveKeyring_runs hline, rfl⟩
  unfold saveLogin
  exact ⟨_, _, rfl, _, _, rfl, _, _, rfl, _, _, rfl, _, _, rfl, _, _, rfl, hkeyring⟩

/-- The files after the first half of a login. -/
theorem configEvents_steps : ∃ d', Steps (fileStep cfg) d (configEvents encodeConfig dir cfg) d' := by
  refine ⟨_, _, rfl, _, rfl, _, rfl, _, rfl, _, rfl, _, ⟨?_, rfl⟩, rfl⟩
  rw [put_same]
  rfl

theorem keyringEvents_steps : ∃ d', Steps (fileStep cfg) d (keyringEvents dir salt iv line) d' := by
  refine ⟨_, _, rfl, _, rfl, _, rfl, _, rfl, _, rfl, _, rfl, _, rfl, _, ⟨?_, rfl⟩, rfl⟩
  rw [put_same]
  rfl

/-- A login from an empty directory, and one over it that is killed between its renames. -/
theorem login_over_another (encodeConfig : StateConfig → String) (dir : Path) (old new : StateConfig)
    (hline : keyringLine P sessionJson passphrase salt iv = .ok line) :
    ∃ saves d keyring, SaveRun P encodeConfig dir saves d ∧
      d (configPath dir) = some ⟨encodeConfig new, new⟩ ∧ d (keyringPath dir) = some keyring ∧
      keyring.owner = old := by
  have hconfig₁ : ∃ d', Steps (fileStep old) (fun _ => none) (configEvents encodeConfig dir old) d' :=
    configEvents_steps
  obtain ⟨d₀, hconfig₁⟩ := hconfig₁
  have hkeyring₁ : ∃ d', Steps (fileStep old) d₀ (keyringEvents dir salt iv line) d' :=
    keyringEvents_steps
  obtain ⟨d₁, hkeyring₁⟩ := hkeyring₁
  have hconfig₂ : ∃ d', Steps (fileStep new) d₁ (configEvents encodeConfig dir new) d' :=
    configEvents_steps
  obtain ⟨d₂, hconfig₂⟩ := hconfig₂
  let first : Saved := ⟨fun _ => none, .login old sessionJson passphrase,
    configEvents encodeConfig dir old ++ keyringEvents dir salt iv line, d₁⟩
  let second : Saved := ⟨d₁, .login new sessionJson passphrase, configEvents encodeConfig dir new, d₂⟩
  have hfirst : first.Valid P encodeConfig dir :=
    ⟨(saveLogin_runs hline).reaches, steps_append.mpr ⟨d₀, hconfig₁, hkeyring₁⟩⟩
  have hsecond : second.Valid P encodeConfig dir := ⟨saveLogin_reaches_between, hconfig₂⟩
  have hboth : renames first.trace = [configPath dir, keyringPath dir] := rfl
  have hone : renames second.trace = [configPath dir] := rfl
  rcases hfirst.login rfl with ⟨-, -, h⟩ | ⟨-, -, h⟩ | ⟨line', -, -, hkeyring, -⟩
  · rw [hboth] at h
    cases h
  · rw [hboth] at h
    simp at h
  rcases hsecond.login rfl with ⟨-, -, h⟩ | ⟨hconfig, hkept, -⟩ | ⟨_, -, -, -, h⟩
  · rw [hone] at h
    cases h
  · refine ⟨[second, first], d₂, ⟨line', old⟩, ?_, hconfig, hkept.trans hkeyring, rfl⟩
    exact .save (s := second) (.save (s := first) (.fresh rfl rfl) hfirst) hsecond
  · rw [hone] at h
    simp at h

end

/-- A config as it is written where nothing in it needs an escape. -/
def plainConfig (cfg : StateConfig) : String :=
  "\x7b\n  \"server\": \"" ++ cfg.server ++ "\",\n  \"account\": \"" ++ cfg.account ++ "\"\n\x7d"

theorem plainLine : ∃ line, keyringLine plainPrimitives "session" "pw" (zeros 16) (zeros 16) = .ok line :=
  ⟨_, rfl⟩

theorem save_login_never_mixes_iff_again : ∃ saves d,
    SaveRun plainPrimitives plainConfig ["state"] saves d ∧ LoggedIn ["state"] d ∧
    (NeverMixed plainPrimitives plainConfig ["state"] saves d ↔
      ∀ s ∈ saves, s.Whole plainConfig ["state"]) := by
  obtain ⟨line, hline⟩ := plainLine
  obtain ⟨saves, d, keyring, hrun, hconfig, hkeyring, -⟩ :=
    login_over_another plainConfig ["state"] ⟨"https://a", "me"⟩ ⟨"https://a", "me"⟩ hline
  have hlogged : LoggedIn ["state"] d := loggedIn_iff.mpr ⟨by simp [hconfig], by simp [hkeyring]⟩
  exact ⟨saves, d, hrun, hlogged, save_login_never_mixes_iff hrun⟩

/-- A login to one server, and one to another that is killed between its renames: the
session of the first is used with the server of the second. -/
theorem session_under_another_server : ∃ saves d config keyring,
    SaveRun plainPrimitives plainConfig ["state"] saves d ∧ LoggedIn ["state"] d ∧
    d (configPath ["state"]) = some config ∧ d (keyringPath ["state"]) = some keyring ∧
    config.owner = ⟨"https://b", "me"⟩ ∧ keyring.owner = ⟨"https://a", "me"⟩ ∧
    ¬ NeverMixed plainPrimitives plainConfig ["state"] saves d := by
  obtain ⟨line, hline⟩ := plainLine
  obtain ⟨saves, d, keyring, hrun, hconfig, hkeyring, howner⟩ :=
    login_over_another plainConfig ["state"] ⟨"https://a", "me"⟩ ⟨"https://b", "me"⟩ hline
  have hlogged : LoggedIn ["state"] d := loggedIn_iff.mpr ⟨by simp [hconfig], by simp [hkeyring]⟩
  refine ⟨saves, d, _, keyring, hrun, hlogged, hconfig, hkeyring, rfl, howner, fun hnever => ?_⟩
  obtain ⟨config, keyring', hc, hk, hsame⟩ := hnever.same d (by simp) hlogged
  rw [hconfig] at hc
  rw [hkeyring] at hk
  cases hc
  cases hk
  rw [howner] at hsame
  exact absurd hsame (by decide)

end Cryptile
