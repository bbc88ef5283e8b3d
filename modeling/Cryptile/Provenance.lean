import Cryptile.Confinement
import Cryptile.EndToEnd

/-
  Provenance — what a process may do to the machine, in the light of what it was answered

  A process replaces three files and no other: the config, and the keyring and the cache
  as sealed lines. The master password that it was given it sends only as its hash, only
  for a login and for the account that was named. A command sends only tokens of sessions
  that it has (`Obtained`): the one that its keyring opened to, and those it was granted
  for the refresh token of one that it had. It starts one child, the `ssh-add` that it has
  found, only for a `get` that was asked to, and that child is given a private key or
  nothing.

  Correspondence (Rust ↔ Lean):
    `load_state_for`, `Keyring::load`, `refresh_session` ↔ `Obtained`
    `read_secret`, `resolve_second_factor`               ↔ `LoginGiven`
    `main`, what it does to the machine                  ↔ `Confined`
-/

namespace Cryptile
open Text Interaction

/-! ## What a process may do -/

section
variable (P : Primitives) (D : Codecs) (deviceId : String) (backend : Option CeremonyBackend)
  (dir : Path) (R : ∀ q, HostAns q → Prop)

/-- The sessions that a process has: the one that its keyring opens to under the passphrase
it was given, and each that it was granted for the refresh token of one it had. -/
inductive Obtained (passphraseEnv : Option String) : Session → Prop
  | loaded {passphrase raw handle : String} :
      Given R passphraseEnv "keyring passphrase: " passphrase →
      R (.os (.readToString (keyringPath dir))) (.ok raw) → openKeyring P raw passphrase = .ok handle →
      Obtained passphraseEnv ⟨"vw", handle⟩
  | refreshed {s s' : Session} {sess : VwSession} {rt : String} {resp : Except String HttpResp}
      {token : TokenResponse} {now : Option UInt64} : Obtained passphraseEnv s →
      parseSession D.decoders s = .ok sess → sess.refreshToken = some rt →
      R (.os (.http (.postForm .token (tokenRefreshForm rt)))) resp →
      parseResponse D.decoders.token "refresh" resp = .ok token → R (.os .systemTime) now →
      -- the key and the account stay, and the refresh token where no other was granted
      encodeVwSession D.decoders
        { accessToken := token.accessToken, refreshToken := token.refreshToken.or sess.refreshToken,
          userKeyB64 := sess.userKeyB64, account := sess.account,
          expiresAt := now.map (· + token.expiresIn) } = .ok s' →
      Obtained passphraseEnv s'

/-- The account that was named, the master password that was given, and for a second
factor the code that was; a security key has none, and is taken where there is a backend
for keys. -/
structure LoginGiven (args : LoginArgs) (params : LoginParams) : Prop where
  account : params.account = args.account
  secret : Given R args.masterPasswordEnv "master password: " params.secret
  code : ∀ second, params.secondFactor = some second → args.twofaCode = some second.code ∨
    Given R args.twofaEnv (second.providerTag ++ " code: ") second.code ∨
    second.providerTag = "webauthn" ∧ backend.isSome = true

/-- The files that are replaced, and by what. -/
def Invocation.writes : Invocation → OsReq → Prop
  | .login args, r => writesConfig D dir ⟨args.server, args.account⟩ r ∨
      ∃ sessionJson passphrase, Given R args.passphraseEnv "keyring passphrase: " passphrase ∧
        writesKeyring P dir sessionJson passphrase r
  | .command cmd, r => ∃ s, Obtained P D dir R cmd.passphraseEnv s ∧
      ((∃ passphrase, Given R cmd.passphraseEnv "keyring passphrase: " passphrase ∧
        writesKeyring P dir s.handle passphrase r) ∨ writesCache P D dir s r)
  | _, _ => False

/-- What is sent to the server. -/
def Invocation.sends : Invocation → HttpReq → Prop
  | .login args, r => ∃ params, LoginGiven backend R args params ∧
      loginAsks P D deviceId backend (fun q => R (.os q)) params (.http r)
  | .command cmd, r => ∃ s, Obtained P D dir R cmd.passphraseEnv s ∧
      (refreshAsks D s (.http r) ∨ fetches D s (.http r))
  | _, _ => False

/-- Whether the invocation reads the state of a login. -/
def Invocation.hasState : Invocation → Prop
  | .login _ | .command _ => True
  | _ => False

def Invocation.handsOff : Invocation → Prop
  | .command cmd => cmd.handsOff = true
  | _ => False

/-- What an invocation may ask of the machine, once it was answered within `R`. -/
def Confined (inv : Invocation) : HostReq → Prop
  | .os (.http r) => inv.sends P D deviceId backend dir R r
  | .os .systemTime => inv.hasState
  | .os (.fidohCeremony _ _) | .os (.legacyCeremony _) => ∃ args, inv = .login args
  | .os (.isFile path) => inv.handsOff ∨
      inv.hasState ∧ (path = configPath dir ∨ path = keyringPath dir)
  | .os (.readToString path) =>
    inv.hasState ∧ (path = configPath dir ∨ path = keyringPath dir ∨ path = cachePath dir)
  | .os r => inv.writes P D dir R r
  | .removeFile path => inv.hasState ∧ path = cachePath dir
  | .spawn program args => inv.handsOff ∧ SshAdd R program ∧ args = ["-"]
  | .writeStdin text => inv.handsOff ∧ looksLikeSshPrivateKey text = true
  | .pathExists _ | .kill | .wait | .waitWithOutput => inv.handsOff
  | .envVar _ | .stdinIsTerminal | .promptPassword _ | .buildClient _ => inv.hasState
  | .varOs _ | .println _ | .eprintln _ => True

/-! ## What the commands ask for -/

/-- What a command asks for: nothing of a login, the provider with a session that it has,
and the agent only if it is told to. -/
def Command.mayAsk (cmd : Command) : CliReq → Prop
  | .provider (.login _) | .provider (.answersTwoFactor _) | .saveLogin _ _ _ => False
  | .provider (.refreshSession s) | .provider (.sessionExpiry s) | .provider (.listNamespaces s)
  | .provider (.listSecrets s _) | .provider (.getNamespaceSecrets s _) | .provider (.getSecret s _) =>
    Obtained P D dir R cmd.passphraseEnv s
  | .saveKeyring handle passphrase => Given R cmd.passphraseEnv "keyring passphrase: " passphrase ∧
      ∃ s, Obtained P D dir R cmd.passphraseEnv s ∧ handle = s.handle
  | .addToAgent _ _ => cmd.handsOff = true
  | _ => True

/-- What a login asks for: it logs in with what it was given, and saves a login of its account. -/
def LoginArgs.mayAsk (args : LoginArgs) : CliReq → Prop
  | .provider (.login params) => LoginGiven backend R args params
  | .saveLogin cfg _ passphrase => cfg = ⟨args.server, args.account⟩ ∧
      Given R args.passphraseEnv "keyring passphrase: " passphrase
  | .provider (.answersTwoFactor _) | .println _ | .eprintln _ => True
  | q => isSetup q

def Invocation.mayAsk : Invocation → CliReq → Prop
  | .login args => args.mayAsk backend R
  | .command cmd => cmd.mayAsk P D dir R
  | .parse _ | .backends => isOutput

end

section
variable {P : Primitives} {D : Codecs} {deviceId : String} {backend : Option CeremonyBackend}
  {dir : Path} {R : ∀ q, HostAns q → Prop}

/-- The session that is loaded is the one in the keyring. -/
theorem surroundings_loadSession {passphraseEnv : Option String} {p : String} {s : Session}
    (hp : Given R passphraseEnv "keyring passphrase: " p)
    (h : surroundings P D deviceId backend dir R (.loadSession p) (.ok s)) :
    Obtained P D dir R passphraseEnv s := by
  have hfile : Returns (fun q => R (.os q)) (State.loadSession P dir p).run (.ok s) := returns_onMachine.mp h
  obtain ⟨handle, hhandle, hend⟩ := returns_ok_bind.mp hfile
  cases hend
  obtain ⟨y, hy, hopened⟩ := returns_map.mp hhandle
  have hopened : y = .ok handle := mapError_ok.mp hopened.symm
  subst hopened
  obtain ⟨raw, hraw, hopen⟩ := returns_ok_bind.mp hy
  obtain ⟨file, hfile, hread⟩ := returns_map.mp hraw
  have hread : file = .ok raw := mapError_ok.mp hread.symm
  subst hread
  exact .loaded hp (returns_request.mp hfile) hopen.symm

/-- A session that is granted is granted for the refresh token of one that there was. -/
theorem surroundings_refresh {passphraseEnv : Option String} {s s' : Session}
    (hs : Obtained P D dir R passphraseEnv s)
    (h : surroundings P D deviceId backend dir R (.provider (.refreshSession s)) (.ok s')) :
    Obtained P D dir R passphraseEnv s' := by
  have hrefresh : Returns (fun q => R (.os q)) (refreshSession D.decoders s).run (.ok s') :=
    returns_onMachine.mp h
  unfold refreshSession at hrefresh
  obtain ⟨_, -, he⟩ | ⟨sess, hparse, hrefresh⟩ := returns_settled_bind.mp hrefresh
  · cases he
  cases hrt : sess.refreshToken with
  | none =>
    rw [hrt] at hrefresh
    cases hrefresh
  | some rt =>
    rw [hrt] at hrefresh
    obtain ⟨token, hgrant, hrest⟩ := returns_ok_bind.mp hrefresh
    obtain ⟨x, hcall, hx⟩ := liftApi_returns.mp hgrant
    obtain ⟨resp, hresp, rfl⟩ := call_returns.mp hcall
    obtain ⟨now, hnow, hencode⟩ := returns_lift_bind.mp hrest
    refine .refreshed hs hparse hrt hresp (mapError_ok.mp hx.symm) (returns_request.mp hnow) ?_
    rw [hrt]
    exact Eq.symm hencode

theorem command_use (cmd : Command) : SessionUse (surroundings P D deviceId backend dir R)
    (cmd.mayAsk P D dir R) (Obtained P D dir R cmd.passphraseEnv) where
  renewed := fun _ _ => surroundings_refresh
  upkeep := fun _ hs => ⟨hs, hs⟩
  names := fun _ hs => hs
  get := fun _ _ hs => hs
  bulk := fun _ _ hs => ⟨hs, hs⟩
  clock := trivial
  found := trivial
  load := fun _ => trivial
  setup := fun q hq => by cases q <;> first | exact trivial | exact hq.elim
  output := fun q hq => by cases q <;> first | exact trivial | exact hq.elim

theorem pickProvider_webauthn {offered : List String} {pref : Option String} {hardware : Bool}
    (h : pickProvider offered pref hardware = .ok "webauthn") : hardware = true := by
  unfold pickProvider at h
  cases pref with
  | some p =>
    simp only at h
    split at h
    · cases h
    · split at h
      · cases h
      · next hable =>
        cases h
        exact eq_true_of_ne_false (fun hfalse => hable ⟨rfl, hfalse⟩)
  | none =>
    simp only at h
    split at h
    · next tag hfind =>
      cases h
      simpa [answerable] using List.find?_some hfind
    · cases h

/-- A code is that of the command line, or it is supplied. -/
theorem codeFor_returns {W : ∀ q, CliAns q → Prop} {tag code : String} {codeFlag codeEnv : Option String}
    (h : Returns W (codeFor tag codeFlag codeEnv).run (.ok code)) :
    codeFlag = some code ∨ Supplied W codeEnv (tag ++ " code: ") code := by
  cases codeFlag with
  | some c =>
    cases h
    exact .inl rfl
  | none =>
    refine .inr ?_
    cases codeEnv with
    | some var =>
      obtain ⟨v, hv, h⟩ := returns_lift_bind.mp h
      split at h
      · next text htext =>
        obtain ⟨hv', -⟩ := Option.filter_eq_some_iff.mp htext
        subst hv'
        cases h
        exact returns_request.mp hv
      · cases h
    | none =>
      obtain ⟨tty, -, h⟩ := returns_lift_bind.mp h
      cases tty with
      | false => cases h
      | true => exact readSecret_returns h

/-- A second factor is resolved to a code that was given, or to a security key. -/
theorem resolveSecondFactor_returns {W : ∀ q, CliAns q → Prop} {offered : List String} {args : LoginArgs}
    {hardware : Bool} {second : SecondFactor}
    (h : Returns W (resolveSecondFactor offered args hardware).run (.ok second)) :
    args.twofaCode = some second.code ∨
      Supplied W args.twofaEnv (second.providerTag ++ " code: ") second.code ∨
      second.providerTag = "webauthn" ∧ hardware = true := by
  unfold resolveSecondFactor at h
  obtain ⟨_, -, he⟩ | ⟨tag, hpick, h⟩ := returns_settled_bind.mp h
  · cases he
  split at h
  · next htag =>
    -- a security key has no code: it is asked when there is a challenge
    subst htag
    cases h
    exact .inr (.inr ⟨rfl, pickProvider_webauthn hpick⟩)
  obtain ⟨code, hcode, h⟩ := returns_ok_bind.mp h
  cases h
  exact (codeFor_returns hcode).imp_right .inl

theorem login_use (args : LoginArgs) :
    LoginUse (surroundings P D deviceId backend dir R) (args.mayAsk backend R) args where
  plain := fun _ _ hsecret => ⟨rfl, hsecret.given, by simp⟩
  second := by
    intro secret pin offered hardware second hsecret hcapable hresolve
    refine ⟨rfl, hsecret.given, ?_⟩
    rintro _ ⟨⟩
    obtain hflag | hgiven | ⟨htag, hkey⟩ := resolveSecondFactor_returns hresolve
    · exact .inl hflag
    · exact .inr (.inl hgiven.given)
    · have hbackend : hardware = backend.isSome := hcapable
      exact .inr (.inr ⟨htag, hbackend.symm.trans hkey⟩)
  save := fun _ _ _ hp _ _ => ⟨rfl, hp.given⟩
  capable := trivial
  setup := fun q hq => by cases q <;> first | exact trivial | exact hq.elim
  output := fun q hq => by cases q <;> first | exact trivial | exact hq.elim

theorem invocation_within (text : String) (inv : Invocation) :
    AsksWithin (surroundings P D deviceId backend dir R) (inv.mayAsk P D backend dir R) (inv.run D text) := by
  cases inv with
  | login args => exact loginCommand_within (login_use args) text
  | command cmd =>
    refine command_within (command_use cmd) ?_ ?_ (fun _ _ hagent => hagent) D.renderObject
    · exact fun p s hp hs => surroundings_loadSession hp.given hs
    · exact fun p s hp hs => ⟨hp.given, s, hs, rfl⟩
  | parse ref => exact (parseCommand_outputs ref).asksWithin
  | backends => exact (emitNames_outputs _).asksWithin

/-! ## What is confined -/

variable {inv : Invocation}

theorem writes_confined {r : OsReq} (h : inv.writes P D dir R r) :
    Confined P D deviceId backend dir R inv (.os r) := by
  cases inv with
  | login args =>
    obtain hconfig | ⟨sessionJson, passphrase, hp, hkeyring⟩ := h
    · cases r <;> first | exact hconfig.elim | exact .inl hconfig
    · cases r <;> first | exact hkeyring.elim | exact .inr ⟨sessionJson, passphrase, hp, hkeyring⟩
  | command cmd =>
    obtain ⟨s, hs, ⟨passphrase, hp, hkeyring⟩ | hcache⟩ := h
    · cases r <;> first | exact hkeyring.elim | exact ⟨s, hs, .inl ⟨passphrase, hp, hkeyring⟩⟩
    · cases r <;> first | exact hcache.elim | exact ⟨s, hs, .inr hcache⟩
  | parse _ => exact h.elim
  | backends => exact h.elim

/-- An invocation that asks for more than output has state. -/
theorem mayAsk_hasState {q : CliReq} (hq : inv.mayAsk P D backend dir R q) (hout : ¬ isOutput q) :
    inv.hasState := by
  cases inv with
  | login args => exact trivial
  | command cmd => exact trivial
  | parse _ => exact absurd hq hout
  | backends => exact absurd hq hout

section
variable {cmd : Command} {s : Session} (hs : Obtained P D dir R cmd.passphraseEnv s)
include hs

theorem fetches_confined {r : OsReq} (h : fetches D s r) :
    Confined P D deviceId backend dir R (.command cmd) (.os r) := by
  cases r with
  | http q => exact ⟨s, hs, .inr h⟩
  | _ => exact h.elim

theorem refreshAsks_confined {r : OsReq} (h : refreshAsks D s r) :
    Confined P D deviceId backend dir R (.command cmd) (.os r) := by
  cases r with
  | http q => exact ⟨s, hs, .inl h⟩
  | systemTime => exact trivial
  | _ => exact h.elim

end

theorem loginAsks_confined {args : LoginArgs} {params : LoginParams} (hgiven : LoginGiven backend R args params)
    {r : OsReq} (h : loginAsks P D deviceId backend (fun q => R (.os q)) params r) :
    Confined P D deviceId backend dir R (.login args) (.os r) := by
  cases r with
  | http q => exact ⟨params, hgiven, h⟩
  | systemTime => exact trivial
  | fidohCeremony _ _ => exact ⟨args, rfl⟩
  | legacyCeremony _ => exact ⟨args, rfl⟩
  | _ => exact h.elim

/-- What the hand-off takes is confined for an invocation that hands off. -/
theorem handOff_confined {value : String} (hhands : inv.handsOff)
    (hkey : looksLikeSshPrivateKey value = true) {r : HostReq} (h : isHandOff value r)
    (hfound : ∀ program args, r = .spawn program args → SshAdd R program) :
    Confined P D deviceId backend dir R inv r := by
  cases r with
  | os q => cases q <;> first | exact .inl hhands | exact h.elim
  | writeStdin text =>
    obtain rfl : text = value := h
    exact ⟨hhands, hkey⟩
  | spawn program args => exact ⟨hhands, hfound program args rfl, h⟩
  | varOs _ => exact trivial
  | eprintln _ => exact trivial
  | pathExists _ => exact hhands
  | kill => exact hhands
  | wait => exact hhands
  | waitWithOutput => exact hhands
  | _ => exact h.elim

/-- What a request to the provider takes is confined. -/
theorem provider_confined {q : ProviderReq} (hq : inv.mayAsk P D backend dir R (.provider q)) {r : HostReq}
    (h : scope P D deviceId backend dir R (.provider q) r) : Confined P D deviceId backend dir R inv r := by
  cases r with
  | os r =>
    cases inv with
    | login args =>
      cases q with
      | login params => exact loginAsks_confined hq h
      | answersTwoFactor _ => exact h.elim
      | _ => exact hq.elim
    | command cmd =>
      have hcache : ∀ s, Obtained P D dir R cmd.passphraseEnv s → writesCache P D dir s r →
          Confined P D deviceId backend dir R (.command cmd) (.os r) :=
        fun s hs hr => writes_confined ⟨s, hs, .inr hr⟩
      cases q with
      | login params => exact hq.elim
      | answersTwoFactor _ => exact h.elim
      | sessionExpiry _ => exact h.elim
      | refreshSession s => exact refreshAsks_confined hq h
      | listNamespaces s => exact fetches_confined hq h
      | listSecrets s ns => exact h.elim (fetches_confined hq) (hcache s hq)
      | getNamespaceSecrets s ns => exact h.elim (fetches_confined hq) (hcache s hq)
      | getSecret s ref =>
        obtain hr | hr | rfl := h
        · exact fetches_confined hq hr
        · exact hcache s hq hr
        · exact ⟨trivial, .inr (.inr rfl)⟩
    | parse _ => exact hq.elim
    | backends => exact hq.elim
  | _ => cases q <;> exact h.elim

/-- What a request of an invocation takes is confined. -/
theorem scope_confined {q : CliReq} (hq : inv.mayAsk P D backend dir R q) {r : HostReq}
    (h : scope P D deviceId backend dir R q r) : Confined P D deviceId backend dir R inv r := by
  have hstate : ¬ isOutput q → inv.hasState := mayAsk_hasState hq
  cases q with
  | provider q => exact provider_confined hq h
  | systemTime => obtain rfl := h; exact hstate id
  | loggedIn =>
    obtain rfl | rfl := h
    · exact .inr ⟨hstate id, .inl rfl⟩
    · exact .inr ⟨hstate id, .inr rfl⟩
  | loadConfig => obtain rfl := h; exact ⟨hstate id, .inl rfl⟩
  | loadSession _ => obtain rfl := h; exact ⟨hstate id, .inr (.inl rfl)⟩
  | saveLogin cfg sessionJson passphrase =>
    cases r with
    | os r =>
      cases inv with
      | login args =>
        obtain ⟨rfl, hp⟩ := hq
        exact writes_confined (h.imp_right (fun hr => ⟨sessionJson, passphrase, hp, hr⟩))
      | _ => exact hq.elim
    | _ => exact h.elim
  | saveKeyring sessionJson passphrase =>
    cases r with
    | os r =>
      cases inv with
      | command cmd =>
        obtain ⟨hp, s, hs, rfl⟩ := hq
        exact writes_confined ⟨s, hs, .inl ⟨passphrase, hp, h⟩⟩
      | _ => exact hq.elim
    | _ => exact h.elim
  | removeCache => obtain rfl := h; exact ⟨hstate id, rfl⟩
  | envVar name => obtain rfl := h; exact hstate id
  | stdinIsTerminal => obtain rfl := h; exact hstate id
  | promptPassword prompt => obtain rfl := h; exact hstate id
  | newProvider server cached => obtain rfl := h; exact hstate id
  | addToAgent value label =>
    have hhands : inv.handsOff := by
      cases inv with
      | command cmd => exact hq
      | _ => exact hq.elim
    -- the child is fed only where the sniff has found a key
    obtain ⟨⟨hr, hkey⟩, hfound⟩ := h
    exact handOff_confined hhands hkey hr hfound
  | println line => obtain rfl := h; exact trivial
  | eprintln line => obtain rfl := h; exact trivial

theorem lowered_confined (text : String) : AsksWithin R (Confined P D deviceId backend dir R inv)
    (lower (hostCalls P D deviceId backend dir) (inv.run D text)) := by
  refine asksWithin_lower (fun q hq => ?_) (invocation_within text inv)
  exact (hostCalls_within q).mono (fun _ hr => scope_confined hq hr)

/-- Whatever it is answered and wherever it is stopped, a process finds its directory, and
each of its requests from then on is confined by what it was answered before. -/
theorem process_confined {flag : Option String} {tr : HostTrace}
    (h : Reaches (cryptile P D deviceId backend flag inv) tr) :
    ∃ t₀ t₁, tr = t₀ ++ t₁ ∧ (∀ e ∈ t₀, ∃ name, e.1 = .varOs name) ∧
      (t₁ = [] ∨ ∃ dirText, Runs (stateDir flag) t₀ dirText ∧
        ∀ before e after, t₁ = before ++ e :: after →
          Confined P D deviceId backend (Path.ofText dirText) (fun q x => ⟨q, x⟩ ∈ before) inv e.1) := by
  -- it is stopped before the directory is found, or after
  obtain hfirst | ⟨t₀, dirText, t₁, rfl, hrun, hrest⟩ := reaches_bind h
  · exact ⟨tr, [], (List.append_nil tr).symm, (stateDir_asks flag).reaches hfirst, .inl rfl⟩
  · refine ⟨t₀, t₁, rfl, (stateDir_asks flag).runs hrun, .inr ⟨dirText, hrun, ?_⟩⟩
    rintro before e after rfl
    exact (lowered_confined dirText).reaches hrest (fun _ he => he)

end

/-! ## A list whose token has expired -/

/-- The session that is granted for the refresh token of the one in the keyring. -/
def freshSession : VwSession := { oneSession with accessToken := "fresh", refreshToken := some "next" }

/-- A `list` that is refused, refreshes its session, and then finds the server gone. -/
def refusedList : HostTrace :=
  opening ++ [⟨.os (.http (.get .sync "token")), .ok ⟨401, ""⟩⟩,
    ⟨.os (.http (.postForm .token (tokenRefreshForm "refresh"))),
      .ok ⟨200, toJsonString (vaultTokenValue "fresh")⟩⟩,
    ⟨.os .systemTime, none⟩,
    ⟨.os (.http (.get .sync "fresh")), .error "connection refused"⟩,
    ⟨.eprintln (.provider (.transport (ApiError.transport "connection refused").display)), ()⟩]

/-- A `list` whose first fetch fails. -/
theorem listNamespaces_fails {P : Primitives} {D : Codecs} {sess : VwSession} {userKey : SymmetricKey}
    {resp : Except String HttpResp} {e : ApiError} (hD : D.Lawful) (hopens : sessUserKey sess = .ok userKey)
    (hresp : parseResponse D.decoders.sync "sync" resp = .error e) :
    Runs (listNamespaces P D.decoders ⟨"vw", D.handleOf sess⟩).run
      [⟨.http (.get .sync sess.accessToken), resp⟩] (.error (mapApi D.decoders e)) := by
  have hsync : Runs (syncAndKeys P D.decoders sess.accessToken userKey).run
      [⟨.http (.get .sync sess.accessToken), resp⟩] (.error (mapApi D.decoders e)) := by
    refine runs_except_bind.mpr (.inl ⟨_, rfl, runs_map.mpr ⟨_, call_runs.mpr ⟨resp, rfl, rfl⟩, ?_⟩⟩)
    rw [hresp]
    rfl
  unfold listNamespaces
  refine runs_settled_bind.mpr (.inr ⟨sess, hD.parseSession_handleOf sess, ?_⟩)
  refine runs_settled_bind.mpr (.inr ⟨userKey, hopens, ?_⟩)
  exact runs_except_bind.mpr (.inl ⟨_, rfl, hsync⟩)

theorem refusedList_runs : Runs (cryptile plainPrimitives plainCodecs "device" none (some "state")
    (.command (.list none (some "PASS")))) refusedList 4 := by
  let fresh : Session := ⟨"vw", plainCodecs.handleOf freshSession⟩
  let gone : ProviderError := .transport (ApiError.transport "connection refused").display
  have hcommand : Runs (listCommand none (some "PASS")) (openingCalls ++
      [⟨.provider (.sessionExpiry oneLogin), none⟩, ⟨.provider (.listNamespaces oneLogin), .error .authExpired⟩,
        ⟨.provider (.refreshSession oneLogin), .ok fresh⟩, ⟨.provider (.listNamespaces fresh), .error gone⟩,
        ⟨.eprintln (.provider gone), ()⟩]) 4 :=
    ⟨_, _, rfl, _, _, rfl, _, _, rfl, _, _, rfl, _, _, rfl, _, _, rfl, _, _, rfl, _, _, rfl, _, _, rfl,
      _, _, rfl, rfl, rfl⟩
  have hrefused : Runs (listNamespaces plainPrimitives plainCodecs.decoders oneLogin).run
      [⟨.http (.get .sync "token"), .ok ⟨401, ""⟩⟩] (.error .authExpired) :=
    listNamespaces_fails plainCodecs_lawful oneSession_opens parseResponse_unauthorized
  have hrefresh : Runs (refreshSession plainCodecs.decoders oneLogin).run
      [⟨.http (.postForm .token (tokenRefreshForm "refresh")), .ok ⟨200, toJsonString (vaultTokenValue "fresh")⟩⟩,
        ⟨.systemTime, none⟩] (.ok fresh) :=
    refreshSession_runs_ok (plainCodecs_lawful.parseSession_handleOf oneSession) rfl
      (vaultToken_response plainSerde "refresh" "fresh") (plainCodecs_lawful.encodeVwSession_eq freshSession)
  have hgone : Runs (listNamespaces plainPrimitives plainCodecs.decoders fresh).run
      [⟨.http (.get .sync "fresh"), .error "connection refused"⟩] (.error gone) :=
    listNamespaces_fails (e := .transport "connection refused") plainCodecs_lawful oneSession_opens rfl
  refine opened_runs hcommand ⟨[], _, rfl, ⟨rfl, sessionExpiry_one.symm⟩, ?_⟩
  refine ⟨_, _, rfl, onMachine_runs hrefused, ?_⟩
  refine ⟨_, _, rfl, onMachine_runs hrefresh, _, _, rfl, onMachine_runs hgone, ?_⟩
  exact ⟨_, [], rfl, runs_request.mpr rfl, rfl⟩

/-- Each of its requests is confined: the tokens that it sends are that of the session in
its keyring, and that of the one it was granted for it. -/
theorem process_confined_refused : ∃ t₀ t₁, refusedList = t₀ ++ t₁ ∧
    (∀ e ∈ t₀, ∃ name, e.1 = .varOs name) ∧
    (t₁ = [] ∨ ∃ dirText, Runs (stateDir (some "state")) t₀ dirText ∧
      ∀ before e after, t₁ = before ++ e :: after →
        Confined plainPrimitives plainCodecs "device" none (Path.ofText dirText) (fun q x => ⟨q, x⟩ ∈ before)
          (.command (.list none (some "PASS"))) e.1) :=
  process_confined refusedList_runs.reaches

end Cryptile
