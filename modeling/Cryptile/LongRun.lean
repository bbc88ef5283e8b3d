import Cryptile.HostDisk

/-
  LongRun — one login, over all the processes that use its directory

  From an empty directory, processes run one after the other: logins to one account,
  commands, and what needs no login; each ends or is killed after any of its requests.
  The server grants sessions that last (`Service`): an access token may expire between
  two processes, but a session that was granted can be used or refreshed. Every state
  that such a history reaches is `Kept`, and so every command that ends prints what the
  account holds once a login has succeeded, and nothing before.

  Correspondence (Rust ↔ Lean):
    `main`, once for each process                 ↔ `cryptile`, in `History`
    `Command::Login`, `Get`, `List`, `Export`     ↔ `invocation_sanctioned`
    `ops::ensure_fresh`, `reseal`                 ↔ `around_use`, `Service.Holds`
-/

namespace Cryptile
open Text Interaction Files

/-! ## An account as time passes -/

/-- What the server of a login answers, as time passes: one payload, under one user key,
and sessions that last once they are granted. -/
structure Service (P : Primitives) (D : Codecs) (cfg : StateConfig) where
  answers : ℕ → ∀ q, HostAns q → Prop
  account : ∀ n, Account P D.decoders (fun q => answers n (.os q))
  userKey : SymmetricKey
  bundle : SyncBundle
  sameKey : ∀ n, (account n).userKey = userKey
  sameBundle : ∀ n, (account n).bundle = bundle
  reached : ∀ n x, answers n (.buildClient cfg.server) x → x = .ok ()
  /-- A pair of tokens that has been granted. -/
  lives : ℕ → String → Option String → Prop
  usable : ∀ n token refresh, lives n token refresh → (account n).honours token ∨
    ∃ rt, refresh = some rt ∧ ∀ resp, answers n (.os (.http (.postForm .token (tokenRefreshForm rt)))) resp →
      ∃ t, parseResponse D.decoders.token "refresh" resp = .ok t
  lasting : ∀ n token refresh, lives n token refresh → lives (n + 1) token refresh
  refreshed : ∀ n token rt resp t, lives n token (some rt) →
    answers n (.os (.http (.postForm .token (tokenRefreshForm rt)))) resp →
    parseResponse D.decoders.token "refresh" resp = .ok t →
    lives n t.accessToken (t.refreshToken.or (some rt))
  granted : ∀ n deviceId hash factor resp t,
    answers n (.os (.http (.postForm .token (tokenPasswordForm deviceId cfg.account hash factor)))) resp →
    parseResponse D.decoders.token "login" resp = .ok t →
    lives n t.accessToken t.refreshToken ∧
      ∀ masterKey key, unwrapUserKey P t.key masterKey = .ok key → key = userKey

section
variable {P : Primitives} {D : Codecs} {cfg : StateConfig} (svc : Service P D cfg)

/-- The session is one of the account, with tokens that were granted. -/
def Service.Holds (n : ℕ) (sess : VwSession) : Prop :=
  sessUserKey sess = .ok svc.userKey ∧ svc.lives n sess.accessToken sess.refreshToken

/-- The login of the account on a machine, at one time. -/
def Service.at (dir : Path) (passphrase : String) (n : ℕ) : LocalLogin where
  dir := dir
  cfg := cfg
  passphrase := passphrase
  userKey := svc.userKey
  bundle := svc.bundle
  usable := svc.Holds n

/-- What a command prints, at whatever time. -/
def Service.prints (cmd : Command) : List String × ExitCode := (svc.account 0).prints D.renderObject cmd

variable {svc} {n : ℕ} {sess : VwSession} {there : Prop} {dir : Path} {passphrase : String}
  {d : Disk Path StateConfig}

theorem Service.Holds.usable (hD : D.Lawful) (h : svc.Holds n sess) : (svc.account n).Usable ⟨"vw", D.handleOf sess⟩ :=
  ⟨sess, ⟨hD.parseSession_handleOf sess, (svc.sameKey n).symm ▸ h.1⟩, svc.usable n _ _ h.2⟩

/-- What is kept at one time is kept at the next. -/
theorem Kept.later (h : Kept P D (svc.at dir passphrase n) there d) :
    Kept P D (svc.at dir passphrase (n + 1)) there d where
  config := h.config
  keyring raw hraw := by
    obtain ⟨sess, hline, hkey, hlives⟩ := h.keyring raw hraw
    exact ⟨sess, hline, hkey, svc.lasting n _ _ hlives⟩
  cache := h.cache
  present := h.present

end

/-! ### What an account gives does not depend on the time -/

section
variable {P : Primitives} {J : Decoders} {R R' : ∀ q, OsAns q → Prop}

theorem Account.bundle_sync (acc : Account P J R) : acc.bundle.sync = acc.sync := by
  have h := acc.decrypted
  unfold bundleOf at h
  cases hkeys : syncKeys P acc.userKey acc.sync with
  | error e =>
    rw [hkeys] at h
    cases h
  | ok orgKeys =>
    rw [hkeys] at h
    rw [← Except.ok.inj h]

theorem Account.prints_congr {acc : Account P J R} {acc' : Account P J R'} (hkey : acc.userKey = acc'.userKey)
    (hbundle : acc.bundle = acc'.bundle) (renderJson : FieldBag → String) (cmd : Command) :
    acc.prints renderJson cmd = acc'.prints renderJson cmd := by
  have hsync : acc.sync = acc'.sync := by rw [← acc.bundle_sync, ← acc'.bundle_sync, hbundle]
  have hlookup : ∀ coll item, acc.lookup coll item = acc'.lookup coll item := by
    intro coll item
    simp only [Account.lookup, hkey, hbundle, hsync]
  have hanswer : ∀ r, acc.answer r = acc'.answer r := by
    intro r
    simp only [Account.answer, hlookup]
  have hmembers : ∀ {α : Type} loop, acc.members (α := α) loop = acc'.members loop := by
    intro α loop
    funext ns
    simp only [Account.members, hkey, hbundle, hsync]
  have houtcome : ∀ o, acc.outcome o = acc'.outcome o := by
    intro o
    cases o with
    | get r => simp only [Account.outcome, hanswer]
    | list ns => cases ns <;> simp only [Account.outcome, Account.namespaces, hbundle, hmembers]
    | exportNamespace ns => simp only [Account.outcome, Account.namespaces, hbundle, hmembers]
  cases cmd with
  | get ref passphraseEnv refreshCache agent => simp only [Account.prints, houtcome]
  | list ns passphraseEnv => simp only [Account.prints, houtcome]
  | exportNamespace ns format passphraseEnv => simp only [Account.prints, houtcome]

/-- The same account where less is answered. -/
def Account.narrow (acc : Account P J R) (h : ∀ q x, R' q x → R q x) : Account P J R' where
  userKey := acc.userKey
  sync := acc.sync
  cs := acc.cs
  bundle := acc.bundle
  honours := acc.honours
  decrypted := acc.decrypted
  served token htoken := ⟨fun resp hresp => (acc.served token htoken).sync resp (h _ _ hresp),
    fun resp hresp => (acc.served token htoken).collections resp (h _ _ hresp)⟩
  fetched token htoken c hc resp hresp := acc.fetched token htoken c hc resp (h _ _ hresp)
  refused token htoken endpoint resp hresp := acc.refused token htoken endpoint resp (h _ _ hresp)
  granted rt resp token hresp htoken := acc.granted rt resp token (h _ _ hresp) htoken
  owned := acc.owned

theorem Account.Usable.narrow {acc : Account P J R} {s : Session} (husable : acc.Usable s)
    (h : ∀ q x, R' q x → R q x) : (acc.narrow h).Usable s := by
  obtain ⟨sess, hopens, halive⟩ := husable
  refine ⟨sess, ⟨hopens.parsed, hopens.opened⟩, halive.imp_right ?_⟩
  rintro ⟨rt, hrt, hgrant⟩
  exact ⟨rt, hrt, fun resp hresp => hgrant resp (h _ _ hresp)⟩

theorem GivesPassphrase.narrow {R R' : ∀ q, HostAns q → Prop} {passphraseEnv : Option String}
    {passphrase : String} (hgiven : GivesPassphrase R passphraseEnv passphrase)
    (h : ∀ q x, R' q x → R q x) : GivesPassphrase R' passphraseEnv passphrase where
  named var x hvar hx := hgiven.named var x hvar (h _ _ hx)
  terminal b hnone hb := hgiven.terminal b hnone (h _ _ hb)
  typed x hnone hx := hgiven.typed x hnone (h _ _ hx)

end

/-! ## The sessions that are granted -/

section
variable {P : Primitives} {D : Codecs} {cfg : StateConfig} {svc : Service P D cfg} {n : ℕ}
  {deviceId : String} {backend : Option CeremonyBackend}

/-- A session of the account, in the form in which it is sealed. -/
def Service.Session (svc : Service P D cfg) (n : ℕ) (s : Cryptile.Session) : Prop :=
  ∃ sess, s = ⟨"vw", D.handleOf sess⟩ ∧ svc.Holds n sess

theorem Service.Session.usable (hD : D.Lawful) {s : Cryptile.Session} (h : svc.Session n s) : (svc.account n).Usable s := by
  obtain ⟨sess, rfl, hholds⟩ := h
  exact hholds.usable hD

theorem Service.Session.opened (hD : D.Lawful) {s : Cryptile.Session} (h : svc.Session n s) : (svc.account n).Opened s := by
  obtain ⟨sess, hopens, -⟩ := h.usable hD
  exact ⟨sess, hopens⟩

/-- A refresh of a session gives another one. -/
theorem Service.Session.refresh (hD : D.Lawful) {s s' : Cryptile.Session} (h : svc.Session n s)
    (hrefresh : Returns (fun q => svc.answers n (.os q)) (refreshSession D.decoders s).run (.ok s')) :
    svc.Session n s' := by
  obtain ⟨sess, rfl, hkey, hlives⟩ := h
  unfold refreshSession at hrefresh
  rw [hD.parseSession_handleOf, returns_ok_step] at hrefresh
  cases hrt : sess.refreshToken with
  | none =>
    rw [hrt] at hrefresh
    cases hrefresh
  | some rt =>
    rw [hrt] at hrefresh hlives
    obtain ⟨token, hgrant, hrest⟩ := returns_ok_bind.mp hrefresh
    obtain ⟨x, hcall, hx⟩ := liftApi_returns.mp hgrant
    obtain ⟨resp, hresp, rfl⟩ := call_returns.mp hcall
    have hlives' := svc.refreshed n _ rt resp token hlives hresp (mapError_ok.mp hx.symm)
    obtain ⟨now, -, hencode⟩ := returns_lift_bind.mp hrest
    change Except.ok s' = encodeVwSession D.decoders _ at hencode
    rw [hD.encodeVwSession_eq] at hencode
    exact ⟨_, Except.ok.inj hencode, hkey, hlives'⟩

theorem obtainToken_returns {J : Decoders} {R : ∀ q, OsAns q → Prop} {account hash : String}
    {first : Option (UInt8 × String)} {selected : Bool} {pin : Option PinSource} {token : TokenResponse}
    (h : Returns R (obtainToken J deviceId account hash backend first selected pin).run (.ok token)) :
    ∃ factor resp, R (.http (.postForm .token (tokenPasswordForm deviceId account hash factor))) resp ∧
      parseResponse J.token "login" resp = .ok token := by
  unfold obtainToken at h
  obtain ⟨x, hfirst, hrest⟩ := returns_lift_bind.mp h
  obtain ⟨resp, hresp, rfl⟩ := call_returns.mp hfirst
  split at hrest
  · next token' hparse =>
    cases hrest
    exact ⟨first, resp, hresp, hparse⟩
  · obtain ⟨answer, -, hagain⟩ := returns_ok_bind.mp hrest
    cases answer with
    | none => cases hagain
    | some p =>
      obtain ⟨y, hy, hresubmitted⟩ := returns_map.mp hagain
      obtain ⟨resp', hresp', rfl⟩ := call_returns.mp hy
      exact ⟨some p, resp', hresp', resubmitted_ok hresubmitted.symm⟩
  · cases hrest

/-- A login gives a session of the account. -/
theorem Service.login_session (hD : D.Lawful) {params : LoginParams} (haccount : params.account = cfg.account)
    {s : Cryptile.Session} (h : Returns (fun q => svc.answers n (.os q))
      (login P D.decoders ⟨deviceId, none, backend⟩ params).run (.ok s)) : svc.Session n s := by
  unfold login at h
  obtain ⟨_, -, he⟩ | ⟨second, -, h⟩ := returns_settled_bind.mp h
  · cases he
  obtain ⟨pre, -, h⟩ := returns_ok_bind.mp h
  obtain ⟨_, -, he⟩ | ⟨masterKey, -, h⟩ := returns_settled_bind.mp h
  · cases he
  obtain ⟨token, htoken, h⟩ := returns_ok_bind.mp h
  obtain ⟨factor, resp, hresp, hparse⟩ := obtainToken_returns htoken
  rw [haccount] at hresp
  obtain ⟨hlives, hwrapped⟩ := svc.granted n _ _ factor resp token hresp hparse
  unfold openSession at h
  obtain ⟨_, -, he⟩ | ⟨key, hkey, h⟩ := returns_settled_bind.mp h
  · cases he
  obtain ⟨now, -, hencode⟩ := returns_lift_bind.mp h
  change Except.ok s = encodeVwSession D.decoders _ at hencode
  rw [hD.encodeVwSession_eq] at hencode
  refine ⟨_, Except.ok.inj hencode, ?_, hlives⟩
  simp [sessUserKey, hwrapped masterKey key hkey, Base64.decode_encode, SymmetricKey.from64_bytes, liftCrypto,
    Except.mapError]

end

/-! ## The programs of a login -/

theorem output_sanctioned {opened : Session → Prop} {l : LocalLogin} {q : CliReq} (h : isOutput q) :
    Sanctioned D opened l q := by
  cases q <;> first | exact trivial | exact h.elim

theorem setup_sanctioned {opened : Session → Prop} {l : LocalLogin} {q : CliReq} (h : isSetup q) :
    Sanctioned D opened l q := by
  cases q <;> first | exact trivial | exact h.elim

section
variable {P : Primitives} {D : Codecs} {cfg : StateConfig} {svc : Service P D cfg} {n : ℕ}
  {deviceId : String} {backend : Option CeremonyBackend} {dir : Path} {passphrase : String} {there : Prop}

/-- What a process is answered while the files of the login are kept. -/
abbrev Service.keeping (svc : Service P D cfg) (dir : Path) (passphrase : String) (n : ℕ) (there : Prop) :
    ∀ q, HostAns q → Prop :=
  answersIn (hostStep (svc.answers n) cfg) (Kept P D (svc.at dir passphrase n) there)

theorem keeping_answers (q : HostReq) (x : HostAns q) (h : svc.keeping dir passphrase n there q x) :
    svc.answers n q x := by
  obtain ⟨d, d', -, hR, -⟩ := h
  exact hR

theorem keeping_keyring {raw : String}
    (h : svc.keeping dir passphrase n there (.os (.readToString (keyringPath dir))) (.ok raw)) :
    ∃ sess, SealedAs P (D.handleOf sess) passphrase raw ∧ svc.Holds n sess := by
  obtain ⟨d, d', hkept, -, -, hread, -⟩ := h
  exact hkept.keyring raw hread

/-- What a command may ask for the login. -/
abbrev Service.sanctions (svc : Service P D cfg) (dir : Path) (passphrase : String) (n : ℕ) : CliReq → Prop :=
  Sanctioned D (svc.account n).Opened (svc.at dir passphrase n)

abbrev Service.around (svc : Service P D cfg) (deviceId : String) (backend : Option CeremonyBackend)
    (dir : Path) (passphrase : String) (n : ℕ) (there : Prop) : ∀ q, CliAns q → Prop :=
  surroundings P D deviceId backend dir (svc.keeping dir passphrase n there)

/-- The session that is loaded can be used. -/
theorem around_loadSession (hP : P.Lawful) (hD : D.Lawful) {s : Session}
    (h : svc.around deviceId backend dir passphrase n there (.loadSession passphrase) (.ok s)) :
    svc.Session n s := by
  have hfile : Returns (fun q => svc.keeping dir passphrase n there (.os q))
      (State.loadSession P dir passphrase).run (.ok s) := returns_onMachine.mp h
  obtain ⟨tr, hrun, hW⟩ := returns_iff.mp hfile
  obtain ⟨file, rfl, ⟨e, -, e', he⟩ | ⟨raw, rfl, hopened⟩⟩ := loadSession_read hrun
  · cases he
  · obtain ⟨sess, hline, hholds⟩ := keeping_keyring (within_cons.mp hW).1
    exact ⟨sess, Except.ok.inj (hopened _ (openKeyring_sealedAs hP hD hline)), hholds⟩

theorem around_refresh (hD : D.Lawful) {s s' : Session} (hs : svc.Session n s)
    (h : svc.around deviceId backend dir passphrase n there (.provider (.refreshSession s)) (.ok s')) :
    svc.Session n s' :=
  hs.refresh hD ((returns_onMachine.mp h).mono (fun q x hx => keeping_answers (.os q) x hx))

theorem around_login (hD : D.Lawful) {params : LoginParams} (haccount : params.account = cfg.account) {s : Session}
    (h : svc.around deviceId backend dir passphrase n there (.provider (.login params)) (.ok s)) :
    svc.Session n s :=
  Service.login_session hD haccount ((returns_onMachine.mp h).mono (fun q x hx => keeping_answers (.os q) x hx))

/-- The passphrase that is given is that of the login. -/
theorem around_given {passphraseEnv : Option String} {p : String}
    (hgiven : GivesPassphrase (svc.answers n) passphraseEnv passphrase)
    (h : Supplied (svc.around deviceId backend dir passphrase n there) passphraseEnv "keyring passphrase: " p) :
    p = passphrase := (hgiven.narrow keeping_answers).given h.given

/-- The sessions of a login are good ones, and good ones are granted to them. -/
theorem around_use (hD : D.Lawful) : SessionUse (svc.around deviceId backend dir passphrase n there)
    (svc.sanctions dir passphrase n) (svc.Session n) where
  renewed := fun _ _ hs hr => around_refresh hD hs hr
  upkeep := fun _ _ => ⟨trivial, trivial⟩
  names := fun _ _ => trivial
  get := fun _ _ hs => hs.opened hD
  bulk := fun _ _ hs => ⟨hs.opened hD, hs.opened hD⟩
  clock := trivial
  found := trivial
  load := fun _ => trivial
  setup := fun _ hq => setup_sanctioned hq
  output := fun _ hq => output_sanctioned hq

/-- A command fetches for the session that it has loaded, and seals what it has refreshed. -/
theorem command_sanctioned (hP : P.Lawful) (hD : D.Lawful) {cmd : Command}
    (hgiven : GivesPassphrase (svc.answers n) cmd.passphraseEnv passphrase) :
    AsksWithin (svc.around deviceId backend dir passphrase n there) (svc.sanctions dir passphrase n)
      (cmd.run D.renderObject) := by
  refine command_within (around_use hD) ?_ ?_ (fun _ _ _ => trivial) D.renderObject
  · intro p s hp hs
    obtain rfl := around_given hgiven hp
    exact around_loadSession hP hD hs
  · rintro p _ hp ⟨sess, rfl, hholds⟩
    exact ⟨around_given hgiven hp, sess, rfl, hholds⟩

/-- A login saves a session of the account, under the passphrase it was given. -/
theorem around_login_use (hD : D.Lawful) {args : LoginArgs} (hcfg : ⟨args.server, args.account⟩ = cfg)
    (hgiven : GivesPassphrase (svc.answers n) args.passphraseEnv passphrase) :
    LoginUse (svc.around deviceId backend dir passphrase n there) (svc.sanctions dir passphrase n) args where
  plain := fun _ _ _ => trivial
  second := fun _ _ _ _ _ _ _ _ => trivial
  save := by
    subst hcfg
    intro p s params hp haccount hlogin
    obtain ⟨sess, rfl, hholds⟩ := around_login hD haccount hlogin
    exact ⟨rfl, around_given hgiven hp, sess, rfl, hholds⟩
  capable := trivial
  setup := fun _ hq => setup_sanctioned hq
  output := fun _ hq => output_sanctioned hq

/-! ## A process on the directory -/

/-- What a process is told about the login: its own server and account, and the passphrase. -/
def Invocation.Uses (R : ∀ q, HostAns q → Prop) (cfg : StateConfig) (passphrase : String) :
    Invocation → Prop
  | .login args => ⟨args.server, args.account⟩ = cfg ∧ GivesPassphrase R args.passphraseEnv passphrase
  | .command cmd => GivesPassphrase R cmd.passphraseEnv passphrase
  | .parse _ | .backends => True

theorem invocation_sanctioned (hP : P.Lawful) (hD : D.Lawful) {inv : Invocation}
    (huses : inv.Uses (svc.answers n) cfg passphrase) (text : String) :
    AsksWithin (svc.around deviceId backend dir passphrase n there) (svc.sanctions dir passphrase n)
      (inv.run D text) := by
  have houtput : ∀ {p : Cli ExitCode}, Asks isOutput p →
      AsksWithin (svc.around deviceId backend dir passphrase n there) (svc.sanctions dir passphrase n) p :=
    fun hp => (hp.mono (fun _ hq => output_sanctioned hq)).asksWithin
  cases inv with
  | login args => exact loginCommand_within (around_login_use hD huses.1 huses.2) text
  | command cmd => exact command_sanctioned hP hD huses
  | parse ref => exact houtput (parseCommand_outputs ref)
  | backends => exact houtput (emitNames_outputs _)

/-- A request that is sanctioned is carried out safely, and answered as its calls are. -/
theorem sanctioned_kept (hP : P.Lawful) (hD : D.Lawful) (q : CliReq) (d : Disk Path StateConfig)
    (hq : svc.sanctions dir passphrase n q) (h : Kept P D (svc.at dir passphrase n) there d) :
    Safe (hostStep (svc.answers n) cfg)
      (fun x d' => Kept P D (svc.at dir passphrase n) there d' ∧
        svc.around deviceId backend dir passphrase n there q x)
      (Kept P D (svc.at dir passphrase n) there) (hostCalls P D deviceId backend dir q) d := by
  have hkept : Safe (hostStep (svc.answers n) cfg) (fun _ => Kept P D (svc.at dir passphrase n) there)
      (Kept P D (svc.at dir passphrase n) there) (hostCalls P D deviceId backend dir q) d :=
    hostCalls_kept hP hD (svc.sameKey n) (svc.sameBundle n) hq h
  exact hkept.returns

theorem stateDir_kept {d : Disk Path StateConfig} (h : Kept P D (svc.at dir passphrase n) there d)
    (flag : Option String) :
    Safe (hostStep (svc.answers n) cfg)
      (fun text d' => Kept P D (svc.at dir passphrase n) there d' ∧
        Returns (svc.answers n) (stateDir flag) text)
      (Kept P D (svc.at dir passphrase n) there) (stateDir flag) d := by
  have hasks : Asks (isHarmless (svc.at dir passphrase n).dir) (stateDir flag) :=
    (stateDir_asks flag).mono (by rintro _ ⟨name, rfl⟩; trivial)
  have hsafe : Safe (hostStep (svc.answers n) cfg) (fun _ => Kept P D (svc.at dir passphrase n) there)
      (Kept P D (svc.at dir passphrase n) there) (stateDir flag) d := harmless_kept hasks h
  exact hsafe.returns.mono (fun _ _ hr => ⟨hr.1, hr.2.mono keeping_answers⟩) (fun _ hs => hs)

/-- A process that was started, and what it did until it ended or was killed. -/
structure Process where
  flag : Option String
  inv : Invocation
  trace : HostTrace

/-- It uses the directory of the login. -/
structure Process.Uses (p : Process) (R : ∀ q, HostAns q → Prop) (dir : Path) (cfg : StateConfig)
    (passphrase : String) : Prop where
  dir : ∀ text, Returns R (stateDir p.flag) text → Path.ofText text = dir
  inv : p.inv.Uses R cfg passphrase

section
variable {p : Process} {d d' : Disk Path StateConfig}

theorem process_kept (hP : P.Lawful) (hD : D.Lawful) (huses : p.Uses (svc.answers n) dir cfg passphrase)
    (h : Kept P D (svc.at dir passphrase n) there d) :
    Safe (hostStep (svc.answers n) cfg) (fun _ => Kept P D (svc.at dir passphrase n) there)
      (Kept P D (svc.at dir passphrase n) there) (cryptile P D deviceId backend p.flag p.inv) d := by
  refine safe_bind (stateDir_kept h p.flag) ?_
  rintro text d ⟨h, htext⟩
  rw [huses.dir text htext]
  have hasks : AsksWithin (svc.around deviceId backend dir passphrase n there)
      (svc.sanctions dir passphrase n) (p.inv.run D text) := invocation_sanctioned hP hD huses.inv text
  exact (safe_lower (sanctioned_kept hP hD) hasks h).mono (fun _ _ hr => hr.1) (fun _ hs => hs)

/-- Files that are there may be relied on. -/
theorem Kept.relied {there' : Prop} (h : Kept P D (svc.at dir passphrase n) there d)
    (hthere : there' → there ∨ Present dir d) : Kept P D (svc.at dir passphrase n) there' d where
  config := h.config
  keyring := h.keyring
  cache := h.cache
  present ht := (hthere ht).elim h.present id

theorem die_failed {msg : Diag} {code code' : ExitCode} {W : ∀ q, CliAns q → Prop}
    (h : Returns W (die msg code) code') : code' = code := by
  obtain ⟨_, -, hcode⟩ := returns_bind.mp h
  exact hcode

/-- A login that succeeds leaves its files there. -/
theorem loginCommand_leaves (hP : P.Lawful) (hD : D.Lawful) {args : LoginArgs} (hcfg : ⟨args.server, args.account⟩ = cfg)
    (hgiven : GivesPassphrase (svc.answers n) args.passphraseEnv passphrase) (text : String)
    (h : Kept P D (svc.at dir passphrase n) there d) :
    Safe (hostStep (svc.answers n) cfg) (fun code d' => code = .success → Present dir d')
      (Kept P D (svc.at dir passphrase n) there)
      (lower (hostCalls P D deviceId backend dir) (loginCommand text args)) d := by
  have hdie : ∀ {msg code d}, code ≠ .success → Kept P D (svc.at dir passphrase n) there d →
      Safe (hostStep (svc.answers n) cfg) (fun code d' => code = .success → Present dir d')
        (Kept P D (svc.at dir passphrase n) there)
        (lower (hostCalls P D deviceId backend dir) (die msg code)) d := by
    intro msg code d hcode h
    have hasks : AsksWithin (svc.around deviceId backend dir passphrase n there)
        (svc.sanctions dir passphrase n) (die msg code) :=
      ((die_outputs msg code).mono (fun _ hq => output_sanctioned hq)).asksWithin
    refine (safe_lower (sanctioned_kept hP hD) hasks h).mono ?_ (fun _ hs => hs)
    rintro code' _ ⟨-, hr⟩ rfl
    exact absurd (die_failed hr).symm hcode
  have hsetup : ∀ {α : Type} {p : Cli α} {d}, Asks isSetup p → Kept P D (svc.at dir passphrase n) there d →
      Safe (hostStep (svc.answers n) cfg)
        (fun a d' => Kept P D (svc.at dir passphrase n) there d' ∧
          Returns (svc.around deviceId backend dir passphrase n there) p a)
        (Kept P D (svc.at dir passphrase n) there) (lower (hostCalls P D deviceId backend dir) p) d :=
    fun hp h => safe_lower (sanctioned_kept hP hD) (hp.mono (fun _ hq => setup_sanctioned hq)).asksWithin h
  unfold loginCommand
  rw [lower_bind]
  refine safe_bind (hsetup (loginSetup_asks args) h) ?_
  rintro (msg | ⟨p, secret⟩) d ⟨h, hx⟩
  · exact hdie (by decide) h
  obtain ⟨hp, hsecret⟩ := loginSetup_returns hx
  obtain rfl := around_given hgiven hp
  simp only
  rw [lower_bind]
  have hobtain : AsksWithin (svc.around deviceId backend dir p n there) (svc.sanctions dir p n)
      (obtainSession args secret).run := obtainSession_within (around_login_use hD hcfg hgiven) hsecret
  refine safe_bind (safe_lower (sanctioned_kept hP hD) hobtain h) ?_
  rintro (⟨msg, code⟩ | s) d ⟨h, hr⟩
  · obtain ⟨tr, hrun, -⟩ := returns_iff.mp hr
    exact hdie (obtainSession_fails hrun) h
  obtain ⟨params, haccount, hlogin⟩ := obtainSession_returns hr
  subst hcfg
  obtain ⟨sess, rfl, hholds⟩ := around_login hD haccount hlogin
  unfold saveState
  simp only
  rw [lower_bind]
  refine safe_bind (hsetup (rotateCache_asks _) h) ?_
  rintro _ d ⟨h, -⟩
  rw [lower_bind, lower_request]
  have hsave : Safe (hostStep (svc.answers n) ⟨args.server, args.account⟩)
      (fun r d' => Kept P D (svc.at dir p n) there d' ∧ (r = .ok () → Present dir d'))
      (Kept P D (svc.at dir p n) there)
      (hostCalls P D deviceId backend dir
        (.saveLogin ⟨args.server, args.account⟩ (D.handleOf sess) p)) d :=
    onMachine_safe (disk_safe (r := []) (saveLogin_kept h hholds))
  refine safe_bind hsave ?_
  rintro (e | u) d ⟨h, hpresent⟩
  · exact hdie (by decide) h
  · have hthere : Kept P D (svc.at dir p n) True d := h.relied (fun _ => .inr (hpresent rfl))
    have hprint : AsksWithin (svc.around deviceId backend dir p n True) (svc.sanctions dir p n)
        (do println ("logged in; session sealed in " ++ text); return ExitCode.success) :=
      asksWithin_bind (asksWithin_request trivial) (fun _ _ => asksWithin_pure _)
    refine (safe_lower (sanctioned_kept hP hD) hprint hthere).mono ?_ ?_
    · exact fun code d' hr _ => hr.1.present trivial
    · exact fun d' hs => hs.relied (fun _ => .inr (hs.present trivial))

/-- A login that succeeds leaves its files there: of the whole process. -/
theorem process_leaves (hP : P.Lawful) (hD : D.Lawful) {args : LoginArgs} (hinv : p.inv = .login args)
    (huses : p.Uses (svc.answers n) dir cfg passphrase)
    (h : Kept P D (svc.at dir passphrase n) there d) :
    Safe (hostStep (svc.answers n) cfg) (fun code d' => code = .success → Present dir d')
      (Kept P D (svc.at dir passphrase n) there) (cryptile P D deviceId backend p.flag p.inv) d := by
  have hlogin := huses.inv
  rw [hinv] at hlogin ⊢
  refine safe_bind (stateDir_kept h p.flag) ?_
  rintro text d ⟨h, htext⟩
  rw [huses.dir text htext]
  exact loginCommand_leaves hP hD hlogin.1 hlogin.2 text h

end

/-! ## Commands on the files -/

/-- A command on files that are there prints what the account holds. -/
theorem present_prints (hP : P.Lawful) (hD : D.Lawful) {flag : Option String} {cmd : Command} {tr : HostTrace}
    {code : ExitCode} {d d' : Disk Path StateConfig}
    (huses : Process.Uses ⟨flag, .command cmd, tr⟩ (svc.answers n) dir cfg passphrase)
    (h : Kept P D (svc.at dir passphrase n) True d)
    (hrun : Runs (cryptile P D deviceId backend flag (.command cmd)) tr code)
    (hsteps : Steps (hostStep (svc.answers n) cfg) d tr d') : (stdout tr, code) = svc.prints cmd := by
  have hos : ∀ q x, svc.keeping dir passphrase n True (.os q) x → svc.answers n (.os q) x :=
    fun q x hx => keeping_answers (.os q) x hx
  have hwithin : Within (svc.keeping dir passphrase n True) tr :=
    (process_kept hP hD huses h).within hrun.reaches hsteps
  have hdir : ∀ text, Returns (svc.keeping dir passphrase n True) (stateDir flag) text →
      Path.ofText text = dir := fun text htext => huses.dir text (htext.mono keeping_answers)
  have hread : ∀ {path x}, (∀ d, Kept P D (svc.at dir passphrase n) True d → (d path).isSome = true) →
      svc.keeping dir passphrase n True (.os (.readToString path)) x →
      ∃ raw, x = .ok raw ∧ svc.keeping dir passphrase n True (.os (.readToString path)) (.ok raw) := by
    rintro path x hsome ⟨d, d', hkept, hstep⟩
    obtain ⟨raw, rfl⟩ := hstep.2.1 (hsome d hkept)
    exact ⟨raw, rfl, d, d', hkept, hstep⟩
  have hlogin : HoldsLogin P D (svc.keeping dir passphrase n True) dir cmd.passphraseEnv cfg passphrase
      (fun handle => ((svc.account n).narrow hos).Usable ⟨"vw", handle⟩) := by
    refine ⟨huses.inv.narrow keeping_answers, ?_, ?_, ?_, ?_⟩
    · rintro path b hpath ⟨d, d', hkept, -, hseen, -⟩
      obtain ⟨hconfig, hkeyring⟩ := hkept.present trivial
      obtain rfl | rfl := hpath
      · exact hseen hconfig
      · exact hseen hkeyring
    · intro x hx
      obtain ⟨raw, rfl, d, d', hkept, -, -, hcontent, -⟩ :=
        hread (fun d hkept => (hkept.present trivial).1) hx
      obtain rfl := hkept.config raw hcontent
      exact ⟨_, rfl, hD.config cfg⟩
    · intro x hx
      obtain ⟨raw, rfl, hraw⟩ := hread (fun d hkept => (hkept.present trivial).2) hx
      obtain ⟨sess, hline, hholds⟩ := keeping_keyring hraw
      exact ⟨raw, _, rfl, openKeyring_sealedAs hP hD hline, (hholds.usable hD).narrow hos⟩
    · exact fun x hx => svc.reached n x (keeping_answers _ _ hx)
  have hcache : CacheCurrent ((svc.account n).narrow hos) (cachePath dir) := by
    rintro raw ⟨d, d', hkept, -, -, hcontent, -⟩
    have hindex : Indexes P D.decoders svc.userKey svc.bundle raw := hkept.cache raw hcontent
    rw [← svc.sameKey n, ← svc.sameBundle n] at hindex
    exact hindex
  calc (stdout tr, code) = ((svc.account n).narrow hos).prints D.renderObject cmd :=
        process_prints_account hD _ hdir hlogin hcache hrun hwithin
    _ = svc.prints cmd := Account.prints_congr ((svc.sameKey n).trans (svc.sameKey 0).symm)
        ((svc.sameBundle n).trans (svc.sameBundle 0).symm) _ cmd

end

/-! ### Before a login -/

/-- What a command asks for that finds no login. -/
def isFruitless : CliReq → Prop
  | .loggedIn | .removeCache | .eprintln _ => True
  | _ => False

/-- The two files are as they were. -/
def Still (dir : Path) (d₀ d : Disk Path StateConfig) : Prop :=
  d (configPath dir) = d₀ (configPath dir) ∧ d (keyringPath dir) = d₀ (keyringPath dir)

section
variable {P : Primitives} {D : Codecs} {cfg : StateConfig} {R : ∀ q, HostAns q → Prop}
  {deviceId : String} {backend : Option CeremonyBackend} {dir : Path} {d₀ : Disk Path StateConfig}

/-- It finds none where none is. -/
theorem absent_loggedIn (habsent : ¬ Present dir d₀) {b : Bool}
    (h : surroundings P D deviceId backend dir (answersIn (hostStep R cfg) (Still dir d₀)) .loggedIn b) :
    b = false := by
  have hfound : ∀ {path}, (∀ d, Still dir d₀ d → d path = d₀ path) →
      answersIn (hostStep R cfg) (Still dir d₀) (.os (.isFile path)) true → (d₀ path).isSome = true := by
    rintro path hsame ⟨d, d', hstill, -, -, hthere, -⟩
    rw [← hsame d hstill]
    exact hthere rfl
  have hfiles : Returns (fun q => answersIn (hostStep R cfg) (Still dir d₀) (.os q)) (loggedIn dir) b :=
    returns_onMachine.mp h
  obtain ⟨config, hconfig, hrest⟩ := returns_bind.mp hfiles
  cases config with
  | false => exact hrest
  | true =>
    cases b with
    | false => rfl
    | true =>
      have hone := hfound (fun d hstill => hstill.1) (returns_request.mp hconfig)
      have htwo := hfound (fun d hstill => hstill.2) (returns_request.mp hrest)
      exact absurd ⟨hone, htwo⟩ habsent

theorem Still.harmless {d d' : Disk Path StateConfig} (h : Still dir d₀ d) {q : HostReq} {x : HostAns q}
    (hq : isHarmless dir q) (hstep : hostStep R cfg d ⟨q, x⟩ d') : Still dir d₀ d' := by
  obtain ⟨-, -, heffect⟩ := hstep
  cases q with
  | os q =>
    obtain rfl := fileStep_keeps hq heffect
    exact h
  | removeFile path =>
    obtain rfl : path = cachePath dir := hq
    obtain rfl | rfl := heffect
    · exact h
    · exact ⟨(Function.update_of_ne join_ne_join_join _ _).trans h.1,
        (Function.update_of_ne join_ne_join_join _ _).trans h.2⟩
  | _ =>
    obtain rfl : d' = d := heffect
    exact h

theorem fruitless_still {q : CliReq} (hq : isFruitless q) {d : Disk Path StateConfig} (h : Still dir d₀ d) :
    Safe (hostStep R cfg) (fun _ => Still dir d₀) (Still dir d₀) (hostCalls P D deviceId backend dir q) d := by
  have hasks : Asks (isHarmless dir) (hostCalls P D deviceId backend dir q) := by
    refine (hostCalls_asks q).mono (fun r hr => ?_)
    cases q with
    | loggedIn => obtain rfl | rfl := hr <;> rfl
    | removeCache => obtain rfl := hr; rfl
    | eprintln line => obtain rfl := hr; exact trivial
    | _ => exact hq.elim
  exact safe_of_asks (fun r x d d' hr h hstep => h.harmless hr hstep) hasks h

section
variable {W : ∀ q, CliAns q → Prop} (hno : ∀ b, W .loggedIn b → b = false)
include hno

theorem sessionCommand_absent {o : Op} {passphraseEnv : Option String} {scheme : Session → String}
    {emit : o.Out → Cli ExitCode} :
    AsksWithin W isFruitless (sessionCommand o passphraseEnv scheme emit) ∧
    ∀ t code, Runs (sessionCommand o passphraseEnv scheme emit) t code → Within W t →
      stdoutOf t = [] ∧ code = 3 := by
  refine ⟨?_, ?_⟩
  · refine asksWithin_bind (asksWithin_bind (asksWithin_request trivial) (fun b hb => ?_)) (fun x hx => ?_)
    · obtain rfl := hno b (returns_request.mp hb)
      exact asksWithin_pure _
    · obtain ⟨b, hb, hrest⟩ := returns_bind.mp hx
      obtain rfl := hno b (returns_request.mp hb)
      obtain rfl := returns_pure.mp hrest
      exact asksWithin_bind (asksWithin_request trivial) (fun _ _ => asksWithin_pure _)
  · intro t code hrun hW
    obtain ⟨t₀, x, t₁, rfl, hload, hrest⟩ := runs_bind.mp hrun
    obtain ⟨b, t₂, rfl, hb⟩ := runs_request_bind.mp hload
    obtain rfl := hno b (within_cons.mp (within_append.mp hW).1).1
    obtain ⟨rfl, rfl⟩ := hb
    obtain ⟨hout, rfl⟩ := stdoutOf_die hrest
    exact ⟨hout, rfl⟩

/-- Where no login is found a command prints nothing. -/
theorem command_absent (renderJson : FieldBag → String) (cmd : Command) :
    AsksWithin W isFruitless (cmd.run renderJson) ∧
    ∀ t code, Runs (cmd.run renderJson) t code → Within W t →
      stdoutOf t = [] ∧ (code = 2 ∨ code = 3) := by
  have hdie : ∀ msg, AsksWithin W isFruitless (die msg 2) ∧ ∀ t code, Runs (die msg 2) t code →
      Within W t → stdoutOf t = [] ∧ (code = 2 ∨ code = 3) := by
    refine fun msg => ⟨asksWithin_bind (asksWithin_request trivial) (fun _ _ => asksWithin_pure _), ?_⟩
    intro t code hrun _
    obtain ⟨hout, rfl⟩ := stdoutOf_die hrun
    exact ⟨hout, .inl rfl⟩
  have hsession : ∀ {o : Op} {passphraseEnv : Option String} {scheme : Session → String}
      {emit : o.Out → Cli ExitCode}, AsksWithin W isFruitless (sessionCommand o passphraseEnv scheme emit) ∧
        ∀ t code, Runs (sessionCommand o passphraseEnv scheme emit) t code → Within W t →
          stdoutOf t = [] ∧ (code = 2 ∨ code = 3) := by
    intro o passphraseEnv scheme emit
    obtain ⟨hasks, hruns⟩ := sessionCommand_absent hno
    exact ⟨hasks, fun t code hrun hW => (hruns t code hrun hW).imp_right .inr⟩
  cases cmd with
  | get ref passphraseEnv refreshCache agent =>
    change AsksWithin _ _ (getCommand ref passphraseEnv refreshCache agent) ∧
      ∀ t code, Runs (getCommand ref passphraseEnv refreshCache agent) t code → _
    unfold getCommand
    cases Ref.parse ref with
    | error e => exact hdie _
    | ok r =>
      cases refreshCache with
      | false => exact hsession
      | true =>
        refine ⟨asksWithin_bind (asksWithin_request trivial) (fun _ _ => hsession.1), ?_⟩
        intro t code hrun hW
        obtain ⟨u, t', rfl, hrest⟩ := runs_request_bind.mp hrun
        exact hsession.2 t' code hrest (within_cons.mp hW).2
  | list ns passphraseEnv => exact hsession
  | exportNamespace ns format passphraseEnv =>
    change AsksWithin _ _ (exportCommand renderJson ns format passphraseEnv) ∧
      ∀ t code, Runs (exportCommand renderJson ns format passphraseEnv) t code → _
    unfold exportCommand
    split
    · exact hdie _
    · exact hsession

end

theorem absent_prints {flag : Option String} {cmd : Command} {tr : HostTrace} {code : ExitCode}
    {d' : Disk Path StateConfig} (hdir : ∀ text, Returns R (stateDir flag) text → Path.ofText text = dir)
    (habsent : ¬ Present dir d₀)
    (hrun : Runs (cryptile P D deviceId backend flag (.command cmd)) tr code)
    (hsteps : Steps (hostStep R cfg) d₀ tr d') : stdout tr = [] ∧ (code = 2 ∨ code = 3) := by
  have hno : ∀ b, surroundings P D deviceId backend dir (answersIn (hostStep R cfg) (Still dir d₀))
      .loggedIn b → b = false := fun b hb => absent_loggedIn habsent hb
  obtain ⟨hasks, hruns⟩ := command_absent hno D.renderObject cmd
  have hstate : Asks (isHarmless dir) (stateDir flag) :=
    (stateDir_asks flag).mono (by rintro _ ⟨name, rfl⟩; trivial)
  have hanswers : ∀ q x, answersIn (hostStep R cfg) (Still dir d₀) q x → R q x :=
    fun q x ⟨_, _, _, hstep⟩ => hstep.1
  have hfound : Safe (hostStep R cfg) (fun _ => Still dir d₀) (Still dir d₀) (stateDir flag) d₀ :=
    safe_of_asks (fun r x d d' hr h hstep => h.harmless hr hstep) hstate ⟨rfl, rfl⟩
  obtain ⟨t₀, text, t₁, rfl, hstateDir, hrun⟩ := runs_bind.mp hrun
  obtain ⟨mid, hsteps₀, hsteps₁⟩ := steps_append.mp hsteps
  obtain ⟨hstill, htext⟩ := hfound.returns.runs hstateDir hsteps₀
  obtain rfl := hdir text (htext.mono hanswers)
  have hcommand : Safe (hostStep R cfg) _ (Still (Path.ofText text) d₀) _ mid :=
    safe_lower (fun q d hq h => (fruitless_still hq h).returns) hasks hstill
  obtain ⟨t, hcli, hcarried⟩ := runs_lower.mp hrun
  have hwithin := hcarried.within (hcommand.within hrun.reaches hsteps₁)
  have hunseen : Asks isUnseen (stateDir flag) := (stateDir_asks flag).mono (by rintro _ ⟨name, rfl⟩; trivial)
  obtain ⟨hout, hcode⟩ := hruns t code hcli hwithin
  refine ⟨?_, hcode⟩
  rw [stdout, List.flatMap_append, ← stdout, ← stdout, stdout_unseen hunseen hstateDir, List.nil_append,
    stdout_carriedOut hcarried, hout]

end

/-! ## Every history of a login -/

section
variable (P : Primitives) (D : Codecs) (deviceId : String) (backend : Option CeremonyBackend)
  {cfg : StateConfig} (svc : Service P D cfg) (dir : Path) (passphrase : String)

/-- Processes one after the other, each of them ended or killed, and whatever leaves the
three files alone; the last comes first. -/
inductive History : List Process → Disk Path StateConfig → Prop
  | fresh {d} : d (configPath dir) = none → d (keyringPath dir) = none → d (cachePath dir) = none →
      History [] d
  | process {ps p d d'} : History ps d → p.Uses (svc.answers ps.length) dir cfg passphrase →
      Reaches (cryptile P D deviceId backend p.flag p.inv) p.trace →
      Steps (hostStep (svc.answers ps.length) cfg) d p.trace d' → History (p :: ps) d'
  | elsewhere {ps d d'} : History ps d → d' (configPath dir) = d (configPath dir) →
      d' (keyringPath dir) = d (keyringPath dir) → d' (cachePath dir) = d (cachePath dir) → History ps d'

/-- A login that has ended, with success. -/
def Process.LoggedIn (p : Process) : Prop :=
  ∃ args, p.inv = .login args ∧ Runs (cryptile P D deviceId backend p.flag p.inv) p.trace .success

end

section
variable {P : Primitives} {D : Codecs} {deviceId : String} {backend : Option CeremonyBackend}
  {cfg : StateConfig} {svc : Service P D cfg} {dir : Path} {passphrase : String} {ps : List Process}
  {d d' : Disk Path StateConfig}

/-- Every state of a history is kept, with the files there once a login has succeeded. -/
theorem History.kept (hP : P.Lawful) (hD : D.Lawful) (h : History P D deviceId backend svc dir passphrase ps d) :
    Kept P D (svc.at dir passphrase ps.length) (∃ p ∈ ps, p.LoggedIn P D deviceId backend) d := by
  induction h with
  | fresh hconfig hkeyring hcache =>
    have hempty : ∀ {d : Disk Path StateConfig} {path raw}, d path = none →
        (d path).map File.content ≠ some raw := by
      intro d path raw hnone
      simp [hnone]
    exact ⟨fun raw hraw => absurd hraw (hempty hconfig), fun raw hraw => absurd hraw (hempty hkeyring),
      fun raw hraw => absurd hraw (hempty hcache), by simp⟩
  | @process ps p d d' _ huses hreach hsteps ih =>
    have hkept : Kept P D (svc.at dir passphrase ps.length) (∃ p ∈ ps, p.LoggedIn P D deviceId backend) d' :=
      (process_kept hP hD huses ih).reaches hreach hsteps
    refine (hkept.relied ?_).later
    rintro ⟨p', hp', hlogged⟩
    obtain rfl | hp' := List.mem_cons.mp hp'
    · obtain ⟨args, hinv, hrun⟩ := hlogged
      exact .inr ((process_leaves hP hD hinv huses ih).runs hrun hsteps rfl)
    · exact .inl ⟨p', hp', hlogged⟩
  | elsewhere _ hconfig hkeyring hcache ih => exact ih.of_files hconfig hkeyring hcache

/-- After every history the files are kept, and a command that ends prints what the account
holds, if a login has succeeded, and that or nothing in any case. -/
theorem login_serves_its_history (hP : P.Lawful) (hD : D.Lawful)
    (h : History P D deviceId backend svc dir passphrase ps d) {flag : Option String} {cmd : Command}
    {tr : HostTrace} {code : ExitCode}
    (huses : Process.Uses ⟨flag, .command cmd, tr⟩ (svc.answers ps.length) dir cfg passphrase)
    (hrun : Runs (cryptile P D deviceId backend flag (.command cmd)) tr code)
    (hsteps : Steps (hostStep (svc.answers ps.length) cfg) d tr d') :
    Kept P D (svc.at dir passphrase ps.length) (∃ p ∈ ps, p.LoggedIn P D deviceId backend) d ∧
    ((∃ p ∈ ps, p.LoggedIn P D deviceId backend) → (stdout tr, code) = svc.prints cmd) ∧
    ((stdout tr, code) = svc.prints cmd ∨ stdout tr = [] ∧ (code = 2 ∨ code = 3)) := by
  have hkept := h.kept hP hD
  have hpresent : Present dir d → (stdout tr, code) = svc.prints cmd :=
    fun hthere => present_prints hP hD huses (hkept.relied (fun _ => .inr hthere)) hrun hsteps
  refine ⟨hkept, fun hlogged => hpresent (hkept.present hlogged), ?_⟩
  by_cases hthere : Present dir d
  · exact .inl (hpresent hthere)
  · exact .inr (absent_prints huses.dir hthere hrun hsteps)

end

/-! ## A login, and a command on the day after -/

/-- Serde as far as the body of a prelogin needs it. -/
def preloginSerde : SerdeJson := ⟨fun _ text => text, fun _ => .ok (.object [])⟩

def preloginCodecs : Codecs := serdeCodecs preloginSerde

theorem preloginCodecs_lawful : preloginCodecs.Lawful := serdeCodecs_lawful preloginSerde

/-- The token that a grant gives, and that is honoured, that day. -/
def dayToken (n : ℕ) : String := if n = 0 then "first" else "fresh"

def dayMachine (n : ℕ) : ∀ q, HostAns q → Prop
  | .os (.http r), x => vaultServer (dayToken n) r x
  | .envVar _, x => x = some "pw"
  | .buildClient _, x => x = .ok ()
  | _, _ => True

theorem dayMachine_server (n : ℕ) (r : HttpReq) (x : Except String HttpResp)
    (h : dayMachine n (.os (.http r)) x) : vaultServer (dayToken n) r x := h

theorem unwrapUserKey_plain (key : SymmetricKey) (masterKey : Block 32) :
    unwrapUserKey plainPrimitives (plainString key.bytes) masterKey = .ok key := by
  simp [unwrapUserKey, parse_plainString, decryptSymmetric_plain, SymmetricKey.from64_bytes, liftCrypto,
    bind, Except.bind, Except.mapError]

/-- A token of the first day has expired on the next one. -/
def dayService : Service plainPrimitives preloginCodecs oneConfig where
  answers := dayMachine
  account n := vaultAccount preloginSerde (dayToken n) (dayMachine_server n)
  userKey := zeroKey
  bundle := oneBundle
  sameKey _ := rfl
  sameBundle _ := rfl
  reached _ _ h := h
  lives _ _ refresh := refresh.isSome
  usable n token refresh h := by
    obtain ⟨rt, rfl⟩ := Option.isSome_iff_exists.mp h
    exact .inr ⟨rt, rfl, fun resp hresp =>
      ⟨_, vault_granted (R := fun q => dayMachine n (.os q)) (dayMachine_server n) hresp⟩⟩
  lasting _ _ _ h := h
  refreshed _ _ rt _ t _ _ _ := by cases t.refreshToken <;> rfl
  granted n _ _ _ resp t hresp ht := by
    have hfresh : parseResponse preloginCodecs.decoders.token "login" resp = .ok (vaultToken (dayToken n)) :=
      vault_granted (R := fun q => dayMachine n (.os q)) (dayMachine_server n) hresp
    obtain rfl := Except.ok.inj (ht.symm.trans hfresh)
    refine ⟨rfl, fun masterKey key hkey => ?_⟩
    rw [vaultToken, unwrapUserKey_plain] at hkey
    exact (Except.ok.inj hkey).symm

def dayArgs : LoginArgs := ⟨"https://vault", "a@b", some "PASS", some "MASTER", none, none, none⟩

section
variable {R : ∀ q, HostAns q → Prop} {who : StateConfig} {d d' : Disk Path StateConfig}

/-- What has its way on the files has it under a process, if it reads none of them. -/
theorem ends_onMachine {α : Type} {p : Os α} {a : α} {tr : OsTrace} (hrun : Runs p tr a)
    (hsteps : Steps (fileStep who) d tr d')
    (hR : ∀ e ∈ tr, R (.os e.1) e.2 ∧ ∀ d : Disk Path StateConfig, seen d ⟨.os e.1, e.2⟩) :
    Ends (hostStep R who) (onMachine p) d a d' := by
  have hevents : ∀ {tr : OsTrace} {d : Disk Path StateConfig}, Steps (fileStep who) d tr d' →
      (∀ e ∈ tr, R (.os e.1) e.2 ∧ ∀ d : Disk Path StateConfig, seen d ⟨.os e.1, e.2⟩) →
      Steps (fun s e s' => Ends (hostStep R who) (host (.os e.1)) s e.2 s') d tr d' := by
    intro tr
    induction tr with
    | nil => exact fun hsteps _ => hsteps
    | cons e rest ih =>
      rintro d ⟨mid, hstep, hrest⟩ hR
      obtain ⟨hone, hlater⟩ := List.forall_mem_cons.mp hR
      exact ⟨mid, ends_request ⟨hone.1, hone.2 d, hstep⟩, ih hrest hlater⟩
  exact Ends.lower ⟨tr, hrun, hevents hsteps hR⟩

end

/-- A login that is granted at once, and what it asks the machine. -/
theorem login_at_once {P : Primitives} {D : Codecs} {deviceId account secret : String} {pre : Json}
    {masterKey : Block 32} {token : TokenResponse} {userKey : SymmetricKey}
    {prelogin granted : Except String HttpResp}
    (hD : D.Lawful) (hpre : parseResponse D.decoders.value "prelogin" prelogin = .ok pre)
    (hderive : deriveMasterKey P secret account (kdfFromJson pre) = .ok masterKey)
    (hgranted : parseResponse D.decoders.token "login" granted = .ok token)
    (hkey : unwrapUserKey P token.key masterKey = .ok userKey) :
    ∃ form sess, Runs (login P D.decoders ⟨deviceId, none, none⟩ ⟨account, secret, none, none⟩).run
      [⟨.http (.postJson .prelogin account), prelogin⟩, ⟨.http (.postForm .token form), granted⟩,
        ⟨.systemTime, none⟩] (.ok ⟨"vw", D.handleOf sess⟩) := by
  have hopen : ∃ sess, Runs (openSession P D.decoders account masterKey token).run
      [⟨.systemTime, none⟩] (.ok ⟨"vw", D.handleOf sess⟩) := by
    unfold openSession
    refine ⟨⟨token.accessToken, token.refreshToken, Base64.encode userKey.bytes, some account, none⟩, ?_⟩
    refine runs_settled_bind.mpr (.inr ⟨userKey, hkey, ?_⟩)
    refine runs_lift_bind.mpr ⟨_, none, [], rfl, runs_request.mpr rfl, runs_pure.mpr ⟨rfl, ?_⟩⟩
    exact (hD.encodeVwSession_eq _).symm
  obtain ⟨sess, hopen⟩ := hopen
  have hgrant : Runs (obtainToken D.decoders deviceId account (authHash P secret masterKey) none none
      false none).run [tokenEvent deviceId account (authHash P secret masterKey) none granted] (.ok token) :=
    obtainToken_granted hgranted
  have hrest := runs_except_bind.mpr (.inr ⟨_, token, _, rfl, hgrant, hopen⟩)
  have hplain : plainFirst (none : Option CeremonyBackend) none = (none, false) := rfl
  exact ⟨_, sess, login_runs_of (p := ⟨deviceId, none, none⟩) rfl hplain hpre hderive hrest⟩

/-- A request of a command, carried out on the first day. -/
def dayStep (d : Disk Path StateConfig) (e : Sigma CliAns) (d' : Disk Path StateConfig) : Prop :=
  Ends (hostStep (dayMachine 0) oneConfig)
    (hostCalls plainPrimitives preloginCodecs "device" none (Path.ofText "state") e.1) d e.2 d'

theorem day_session : ∃ sess, ∀ d, dayStep d
    ⟨.provider (.login ⟨"a@b", "pw", none, none⟩), .ok ⟨"vw", preloginCodecs.handleOf sess⟩⟩ d := by
  have hpre : parseResponse preloginCodecs.decoders.value "prelogin" (.ok ⟨200, "{}"⟩) =
      .ok (.object []) := parseResponse_plain rfl
  have hderive : deriveMasterKey plainPrimitives "pw" "a@b" (kdfFromJson (.object [])) = .ok (zeros 32) := rfl
  have hkey : unwrapUserKey plainPrimitives (vaultToken "first").key (zeros 32) = .ok zeroKey := by
    rw [vaultToken, unwrapUserKey_plain]
  obtain ⟨form, sess, hlogin⟩ : ∃ form sess, Runs (login plainPrimitives preloginCodecs.decoders
      ⟨"device", none, none⟩ ⟨"a@b", "pw", none, none⟩).run _ (.ok ⟨"vw", preloginCodecs.handleOf sess⟩) :=
    login_at_once preloginCodecs_lawful hpre hderive (vaultToken_response preloginSerde "login" "first") hkey
  refine ⟨sess, fun d => ends_onMachine hlogin ⟨d, rfl, d, rfl, d, rfl, rfl⟩ ?_⟩
  simp [dayMachine, vaultServer, dayToken, seen]

theorem day_saves (d : Disk Path StateConfig) (handle : String) :
    ∃ d', dayStep d ⟨.saveLogin oneConfig handle "pw", .ok ()⟩ d' := by
  obtain ⟨d₁, hconfig⟩ : ∃ d', Steps (fileStep oneConfig) d
    (configEvents preloginCodecs.encodeConfig (Path.ofText "state") oneConfig) d' := configEvents_steps
  obtain ⟨d₂, hkeyring⟩ : ∃ d', Steps (fileStep oneConfig) d₁
    (keyringEvents (Path.ofText "state") (zeros 16) (zeros 16) (plainKeyringLine handle)) d' := keyringEvents_steps
  have hline : keyringLine plainPrimitives handle "pw" (zeros 16) (zeros 16) = .ok (plainKeyringLine handle) := rfl
  refine ⟨d₂, ends_onMachine (saveLogin_runs hline) (steps_append.mpr ⟨d₁, hconfig, hkeyring⟩) ?_⟩
  simp [configEvents, keyringEvents, dayMachine, seen]

/-- A login that succeeds, on an empty directory. -/
theorem day_begins : ∃ tr d', Runs (cryptile plainPrimitives preloginCodecs "device" none (some "state")
      (.login dayArgs)) tr .success ∧ Steps (hostStep (dayMachine 0) oneConfig) (fun _ => none) tr d' := by
  let empty : Disk Path StateConfig := fun _ => none
  have hclient : ∀ d, dayStep d ⟨.newProvider "https://vault" false, .ok ()⟩ d := by
    intro d
    have hbuilt : Ends (hostStep (dayMachine 0) oneConfig) (host (.buildClient "https://vault")) d (.ok ()) d :=
      ends_request ⟨rfl, trivial, rfl⟩
    exact hbuilt.map
  have hconfig : dayStep empty ⟨.loadConfig, .error "No such file or directory"⟩ empty := by
    refine ⟨[⟨.os (.readToString (configPath (Path.ofText "state"))), .error "No such file or directory"⟩],
      ⟨_, _, rfl, rfl, rfl⟩, empty, ⟨trivial, ?_, rfl⟩, rfl⟩
    rintro ⟨⟩
  obtain ⟨sess, hsession⟩ := day_session
  obtain ⟨d', hsaved⟩ := day_saves empty (preloginCodecs.handleOf sess)
  have hcommand : Ends dayStep (loginCommand "state" dayArgs) empty .success d' := by
    refine ⟨[⟨.envVar "PASS", some "pw"⟩, ⟨.envVar "MASTER", some "pw"⟩,
      ⟨.newProvider "https://vault" false, .ok ()⟩, ⟨.stdinIsTerminal, false⟩,
      ⟨.provider (.login ⟨"a@b", "pw", none, none⟩), .ok ⟨"vw", preloginCodecs.handleOf sess⟩⟩,
      ⟨.loadConfig, .error "No such file or directory"⟩, ⟨.saveLogin oneConfig (preloginCodecs.handleOf sess) "pw", .ok ()⟩,
      ⟨.println "logged in; session sealed in state", ()⟩], ?_, ?_⟩
    · exact ⟨_, _, rfl, _, _, rfl, _, _, rfl, _, _, rfl, _, _, rfl, _, _, rfl, _, _, rfl, _, _, rfl, rfl, rfl⟩
    · exact ⟨_, ends_request ⟨rfl, trivial, rfl⟩, _, ends_request ⟨rfl, trivial, rfl⟩, _, hclient _, _,
        ends_request ⟨trivial, trivial, rfl⟩, _, hsession _, _, hconfig, _, hsaved, _,
        ends_request ⟨trivial, trivial, rfl⟩, rfl⟩
  obtain ⟨tr, hrun, hsteps⟩ := hcommand.lower
  exact ⟨tr, d', hrun, hsteps⟩

theorem dayMachine_goesOn (n : ℕ) (d : Disk Path StateConfig) (q : HostReq) :
    ∃ x d', hostStep (dayMachine n) oneConfig d ⟨q, x⟩ d' := by
  cases q with
  | os q =>
    cases q with
    | http r =>
      obtain ⟨x, hx⟩ := vaultServer_total (dayToken n) r
      exact ⟨x, d, hx, trivial, rfl⟩
    | systemTime => exact ⟨none, d, trivial, trivial, rfl⟩
    | isFile path => exact ⟨(d path).isSome, d, trivial, id, id, rfl⟩
    | readToString path =>
      cases hfile : d path with
      | none => exact ⟨.error "", d, trivial, by simp [seen, hfile], rfl⟩
      | some f => exact ⟨.ok f.content, d, trivial, fun _ => ⟨_, rfl⟩, by simp [hfile], rfl⟩
    | openTruncate path mode => exact ⟨.error "", d, trivial, trivial, .refl _ _⟩
    | writeAll path content => exact ⟨.error "", d, trivial, trivial, .refl _ _⟩
    | random n => exact ⟨.error "", d, trivial, trivial, rfl⟩
    | modeOf path => exact ⟨.error "", d, trivial, trivial, rfl⟩
    | fidohCeremony ch pin => exact ⟨none, d, trivial, trivial, rfl⟩
    | legacyCeremony ch => exact ⟨none, d, trivial, trivial, rfl⟩
    | _ => exact ⟨.error "", d, trivial, trivial, rfl⟩
  | envVar name => exact ⟨some "pw", d, rfl, trivial, rfl⟩
  | varOs name => exact ⟨none, d, trivial, trivial, rfl⟩
  | stdinIsTerminal => exact ⟨false, d, trivial, trivial, rfl⟩
  | pathExists path => exact ⟨false, d, trivial, trivial, rfl⟩
  | buildClient server => exact ⟨.ok (), d, rfl, trivial, rfl⟩
  | removeFile path => exact ⟨(), d, trivial, trivial, .inl rfl⟩
  | promptPassword prompt => exact ⟨.error "", d, trivial, trivial, rfl⟩
  | spawn path args => exact ⟨.error "", d, trivial, trivial, rfl⟩
  | writeStdin text => exact ⟨.error "", d, trivial, trivial, rfl⟩
  | waitWithOutput => exact ⟨.error "", d, trivial, trivial, rfl⟩
  | _ => exact ⟨(), d, trivial, trivial, rfl⟩

theorem dayMachine_dir (n : ℕ) (text : String) (h : Returns (dayMachine n) (stateDir (some "state")) text) :
    Path.ofText text = ["state"] := by
  obtain rfl := h
  decide

theorem dayMachine_gives (n : ℕ) : GivesPassphrase (dayMachine n) (some "PASS") "pw" where
  named := by rintro _ _ - rfl; rfl
  terminal := by rintro _ h; cases h
  typed := by rintro _ h; cases h

/-- The first day, on which the login succeeds. -/
theorem day_history : ∃ p d,
    History plainPrimitives preloginCodecs "device" none dayService ["state"] "pw" [p] d ∧
    p.LoggedIn plainPrimitives preloginCodecs "device" none := by
  obtain ⟨tr, d, hlogin, hsteps⟩ := day_begins
  refine ⟨⟨some "state", .login dayArgs, tr⟩, d, ?_, _, rfl, hlogin⟩
  exact .process (.fresh rfl rfl rfl) ⟨dayMachine_dir 0, rfl, dayMachine_gives 0⟩ hlogin.reaches hsteps

/-- On the second day the token has expired; the command refreshes it, and prints. -/
theorem login_serves_its_history_fresh : ∃ ps d tr code d',
    History plainPrimitives preloginCodecs "device" none dayService ["state"] "pw" ps d ∧
    (∃ p ∈ ps, p.LoggedIn plainPrimitives preloginCodecs "device" none) ∧
    Runs (cryptile plainPrimitives preloginCodecs "device" none (some "state") (.command webCommand)) tr code ∧
    Steps (hostStep (dayMachine ps.length) oneConfig) d tr d' ∧
    (stdout tr, code) = (["hi"], .success) := by
  obtain ⟨p, d, hhistory, hlogged⟩ := day_history
  obtain ⟨code, d', tr, hrun, hsteps⟩ := exists_ends (dayMachine_goesOn 1)
    (cryptile plainPrimitives preloginCodecs "device" none (some "state") (.command webCommand)) d
  have huses : Process.Uses ⟨some "state", .command webCommand, tr⟩ (dayService.answers 1) ["state"] oneConfig
      "pw" := ⟨dayMachine_dir 1, dayMachine_gives 1⟩
  have hmem : ∃ q ∈ [p], q.LoggedIn plainPrimitives preloginCodecs "device" none :=
    ⟨p, List.mem_singleton.mpr rfl, hlogged⟩
  have hprints : (stdout tr, code) = dayService.prints webCommand :=
    (login_serves_its_history plainPrimitives_lawful preloginCodecs_lawful hhistory huses hrun hsteps).2.1 hmem
  exact ⟨_, d, tr, code, d', hhistory, hmem, hrun, hsteps,
    hprints.trans (vaultAccount_prints (R := dayMachine 0) (dayMachine_server 0))⟩

end Cryptile
