import Cryptile.Commands
import Cryptile.Vaultwarden.Login

/-
  LoginCommand — `cryptile login`, and what it sends

  The command logs in plainly; where the server wants a second factor it resolves
  one and logs in once more. Nothing is saved before a login has succeeded.
  `LoginBudget` is what holds of every run of it over this backend: how often it
  asks, what it sends to the token endpoint, and what it saves.

  Correspondence (Rust ↔ Lean):
    `read_passphrase`, `read_secret` ↔ `readPassphrase`, `readSecret`
    `pin_source_for_login`           ↔ `pinSourceForLogin`
    `resolve_second_factor`          ↔ `resolveSecondFactor`, with `pickProvider`
    `Command::Login`                 ↔ `loginCommand`: `loginSetup`, `obtainSession`, `saveState`
-/

namespace Cryptile
open Text Interaction

/-! ## The command -/

structure LoginArgs where
  server : String
  account : String
  passphraseEnv : Option String
  masterPasswordEnv : Option String
  twofaProvider : Option String
  twofaCode : Option String
  twofaEnv : Option String

def isTerminal : Cli Bool := request (A := CliAns) .stdinIsTerminal

def promptPassword (prompt : String) : ExceptT String Cli String :=
  ExceptT.mk (request (A := CliAns) (.promptPassword prompt))

def readPassphrase (prompt : String) : ExceptT String Cli String := do
  if !(← ExceptT.lift isTerminal) then
    throw "refusing to read keyring passphrase from non-TTY stdin"
  let p1 ← promptPassword prompt
  let p2 ← promptPassword "confirm passphrase: "
  if p1 ≠ p2 then throw "passphrases did not match"
  return p1

def readSecret (prompt : String) : ExceptT String Cli String := do
  if !(← ExceptT.lift isTerminal) then throw "refusing to read secret from non-TTY stdin"
  promptPassword prompt

/-- The value of the variable that is named, or what is read where none is. -/
def envOr (var : Option String) (what : String) (read : ExceptT String Cli String) :
    ExceptT String Cli String :=
  match var with
  | some var => do
    match ← ExceptT.lift (request (A := CliAns) (.envVar var)) with
    | some v => return v
    | none => throw ("env var '" ++ var ++ "' (" ++ what ++ ") is not set")
  | none => read

def checkFlags (args : LoginArgs) : Except String Unit :=
  if args.twofaCode.isSome ∧ args.twofaEnv.isSome then
    .error "--2fa-code and --2fa-env are mutually exclusive"
  else match args.twofaProvider with
    | some p =>
      if ["totp", "email", "webauthn"].contains p then .ok ()
      else .error ("invalid --2fa-provider '" ++ p ++ "' (totp|email|webauthn)")
    | none => .ok ()

/-- The flags, the keyring passphrase, the master password, and the backend. -/
def loginSetup (args : LoginArgs) : ExceptT String Cli (String × String) := do
  ExceptT.mk (pure (checkFlags args))
  let passphrase ← envOr args.passphraseEnv "keyring passphrase" (readPassphrase "keyring passphrase: ")
  let secret ← envOr args.masterPasswordEnv "master password" (readSecret "master password: ")
  ExceptT.mk (openBackend "vw" args.server false)
  return (passphrase, secret)

def pinSourceForLogin : Cli (Option PinSource) := do
  if ← isTerminal then return some .tty
  return none

def answerable (hardwareCapable : Bool) (tag : String) : Bool :=
  tag == "totp" || tag == "email" || (tag == "webauthn" && hardwareCapable)

/-- The provider asked for, if it was offered, or the first offered one with an answer. -/
def pickProvider (offered : List String) (pref : Option String) (hardwareCapable : Bool) :
    Except String String :=
  match pref with
  | some p =>
    if !offered.contains p then
      .error ("server did not offer two-factor provider '" ++ p ++ "' (offered: " ++
        ", ".intercalate offered ++ ")")
    else if p = "webauthn" ∧ hardwareCapable = false then
      .error "this build lacks security-key (webauthn) support; rebuild with --features webauthn"
    else .ok p
  | none =>
    match offered.find? (answerable hardwareCapable) with
    | some tag => .ok tag
    | none => .error ("no answerable two-factor provider in: " ++ ", ".intercalate offered ++
        "; build with --features webauthn for security-key support")

/-- The code of a factor: the flag, the variable, or a prompt. -/
def codeFor (tag : String) (codeFlag codeEnv : Option String) : ExceptT String Cli String :=
  match codeFlag, codeEnv with
  | some c, _ => return c
  | none, some var => do
    match (← ExceptT.lift (request (A := CliAns) (.envVar var))).filter (fun v => !v.isEmpty) with
    | some v => return v
    | none => throw ("env var '" ++ var ++ "' (2FA code) is not set")
  | none, none => do
    if ← ExceptT.lift isTerminal then readSecret (tag ++ " code: ")
    else throw ("two-factor required; re-run with --2fa-code <code>, " ++
      "--2fa-env VAR, or interactively to prompt")

def resolveSecondFactor (offered : List String) (args : LoginArgs) (hardwareCapable : Bool) :
    ExceptT String Cli SecondFactor := do
  let tag ← ExceptT.mk (pure (pickProvider offered args.twofaProvider hardwareCapable))
  if tag = "webauthn" then return { providerTag := tag, code := "" }
  let code ← codeFor tag args.twofaCode args.twofaEnv
  return { providerTag := tag, code := code }

def loginOnce (args : LoginArgs) (secret : String) (second : Option SecondFactor) :
    Cli (Except ProviderError Session) := do
  let pin ← pinSourceForLogin
  provider (.login { account := args.account, secret := secret, secondFactor := second, pinSource := pin })

/-- A line for stderr and an exit code. -/
abbrev Failure := Diag × ExitCode

def failed (e : ProviderError) : Failure := (.provider e, exitCode e)

def stillDemands : Failure :=
  (.text ("server still demands a second factor after the resubmit; refusing to retry"), 3)

/-- One login, and after a challenge one more with the second factor. -/
def obtainSession (args : LoginArgs) (secret : String) : ExceptT Failure Cli Session := ExceptT.mk do
  match ← loginOnce args secret none with
  | .ok s => return .ok s
  | .error (.twoFactorRequired providers) =>
    let hardwareCapable ← provider (.answersTwoFactor "webauthn")
    match ← (resolveSecondFactor providers args hardwareCapable).run with
    | .error msg => return .error (.text msg, 3)
    | .ok second =>
      match ← loginOnce args secret (some second) with
      | .ok s => return .ok s
      | .error (.twoFactorRequired _) => return .error stillDemands
      | .error e => return .error (failed e)
  | .error e => return .error (failed e)

/-- Drop the cache of another account. -/
def rotateCache (account : String) : Cli Unit := do
  match ← request (A := CliAns) .loadConfig with
  | .ok old => if old.account ≠ account then request (A := CliAns) .removeCache
  | .error _ => pure ()

def saveState (dir : String) (args : LoginArgs) (passphrase : String) (session : Session) :
    Cli ExitCode := do
  rotateCache args.account
  match ← request (A := CliAns) (.saveLogin ⟨args.server, args.account⟩ session.handle passphrase) with
  | .error e => die (.text ("saving state: " ++ e)) 5
  | .ok () =>
    println ("logged in; session sealed in " ++ dir)
    return .success

def loginCommand (dir : String) (args : LoginArgs) : Cli ExitCode := do
  match ← (loginSetup args).run with
  | .error msg => die (.text msg) 2
  | .ok (passphrase, secret) =>
    match ← (obtainSession args secret).run with
    | .error (msg, code) => die msg code
    | .ok session => saveState dir args passphrase session

/-! ## What a run asks -/

/-- A login call, with its answer. -/
def loginOf : Sigma CliAns → Option (LoginParams × Except ProviderError Session)
  | ⟨.provider (.login params), x⟩ => some (params, x)
  | _ => none

/-- The handle a run puts into the state directory. -/
def savedOf : Sigma CliAns → Option String
  | ⟨.saveLogin _ handle _, _⟩ => some handle
  | _ => none

def logins (tr : CliTrace) : List (LoginParams × Except ProviderError Session) := tr.filterMap loginOf

def saves (tr : CliTrace) : List String := tr.filterMap savedOf

/-- Neither a login nor a save. -/
def isAside : CliReq → Prop
  | .provider (.login _) | .saveLogin _ _ _ => False
  | _ => True

theorem aside_none : ∀ {e : Sigma CliAns}, isAside e.1 → loginOf e = none ∧ savedOf e = none := by
  rintro ⟨q, x⟩ h
  cases q with
  | provider r => cases r <;> first | exact ⟨rfl, rfl⟩ | exact h.elim
  | saveLogin _ _ _ => exact h.elim
  | _ => exact ⟨rfl, rfl⟩

theorem logins_aside {tr : CliTrace} (h : ∀ e ∈ tr, isAside e.1) : logins tr = [] :=
  List.filterMap_eq_nil_iff.mpr (fun e he => (aside_none (h e he)).1)

theorem saves_aside {tr : CliTrace} (h : ∀ e ∈ tr, isAside e.1) : saves tr = [] :=
  List.filterMap_eq_nil_iff.mpr (fun e he => (aside_none (h e he)).2)

theorem logins_append (t₁ t₂ : CliTrace) : logins (t₁ ++ t₂) = logins t₁ ++ logins t₂ :=
  List.filterMap_append

theorem saves_append (t₁ t₂ : CliTrace) : saves (t₁ ++ t₂) = saves t₁ ++ saves t₂ :=
  List.filterMap_append

/-- What a login asks besides: the terminal, the environment, the backend, and the
state of before. -/
def isSetup : CliReq → Prop
  | .stdinIsTerminal | .promptPassword _ | .envVar _ | .newProvider _ _ | .loadConfig | .removeCache => True
  | _ => False

theorem setup_aside : ∀ q, isSetup q → isAside q := by
  intro q h
  cases q <;> trivial

theorem isTerminal_asks : Asks isSetup isTerminal := asks_request trivial

theorem promptPassword_asks (prompt : String) : Asks isSetup (promptPassword prompt).run :=
  asks_request trivial

theorem lift_asks {α : Type} {p : Cli α} (h : Asks isSetup p) :
    Asks isSetup (ExceptT.lift p : ExceptT String Cli α).run :=
  asks_bind h (fun _ => asks_pure _)

theorem readPassphrase_asks (prompt : String) : Asks isSetup (readPassphrase prompt).run := by
  unfold readPassphrase
  refine asks_except_bind (lift_asks isTerminal_asks) (fun b => ?_)
  cases b with
  | false => exact asks_pure _
  | true =>
    refine asks_except_bind (promptPassword_asks _) (fun p1 => ?_)
    refine asks_except_bind (promptPassword_asks _) (fun p2 => ?_)
    split <;> exact asks_pure _

theorem readSecret_asks (prompt : String) : Asks isSetup (readSecret prompt).run := by
  unfold readSecret
  refine asks_except_bind (lift_asks isTerminal_asks) (fun b => ?_)
  cases b with
  | false => exact asks_pure _
  | true => exact promptPassword_asks _

theorem envOr_asks {var : Option String} {what : String} {read : ExceptT String Cli String}
    (h : Asks isSetup read.run) : Asks isSetup (envOr var what read).run := by
  unfold envOr
  cases var with
  | none => exact h
  | some var =>
    refine asks_except_bind (lift_asks (asks_request trivial)) (fun v => ?_)
    cases v <;> exact asks_pure _

theorem loginSetup_asks (args : LoginArgs) : Asks isSetup (loginSetup args).run := by
  unfold loginSetup
  refine asks_except_bind (asks_pure _) (fun _ => ?_)
  refine asks_except_bind (envOr_asks (readPassphrase_asks _)) (fun passphrase => ?_)
  refine asks_except_bind (envOr_asks (readSecret_asks _)) (fun secret => ?_)
  exact asks_except_bind (asks_request trivial) (fun _ => asks_pure _)

theorem resolveSecondFactor_asks (offered : List String) (args : LoginArgs) (hardwareCapable : Bool) :
    Asks isSetup (resolveSecondFactor offered args hardwareCapable).run := by
  unfold resolveSecondFactor codeFor
  refine asks_except_bind (asks_pure _) (fun tag => ?_)
  split
  · exact asks_pure _
  · refine asks_except_bind ?_ (fun code => asks_pure _)
    split
    · exact asks_pure _
    · refine asks_except_bind (lift_asks (asks_request trivial)) (fun v => ?_)
      split <;> exact asks_pure _
    · refine asks_except_bind (lift_asks isTerminal_asks) (fun b => ?_)
      cases b with
      | false => exact asks_pure _
      | true => exact readSecret_asks _

theorem rotateCache_asks (account : String) : Asks isSetup (rotateCache account) := by
  unfold rotateCache
  refine asks_bind (asks_request trivial) (fun x => ?_)
  split
  · split
    · exact ⟨trivial, fun _ => trivial⟩
    · exact asks_pure _
  · exact asks_pure _

/-! ## Every run of the command -/

/-- The login calls of a run, and the session they end with. -/
inductive SessionRun (args : LoginArgs) (secret : String) :
    List (LoginParams × Except ProviderError Session) → Except Failure Session → Prop
  | once (pin x) : (∀ providers, x ≠ .error (.twoFactorRequired providers)) →
      SessionRun args secret [(⟨args.account, secret, none, pin⟩, x)] (x.mapError failed)
  | unresolved (pin providers e) :
      SessionRun args secret [(⟨args.account, secret, none, pin⟩, .error (.twoFactorRequired providers))]
        (.error e)
  | twice (pin providers second pin' x r) : (∀ s, r = .ok s ↔ x = .ok s) →
      SessionRun args secret
        [(⟨args.account, secret, none, pin⟩, .error (.twoFactorRequired providers)),
          (⟨args.account, secret, some second, pin'⟩, x)] r

theorem loginOnce_runs {args : LoginArgs} {secret : String} {second : Option SecondFactor}
    {tr : CliTrace} {x : Except ProviderError Session} (h : Runs (loginOnce args secret second) tr x) :
    ∃ pin, logins tr = [(⟨args.account, secret, second, pin⟩, x)] ∧ saves tr = [] := by
  unfold loginOnce pinSourceForLogin at h
  obtain ⟨t₁, pin, t₂, rfl, hpin, hlogin⟩ := runs_bind.mp h
  obtain rfl := runs_request.mp hlogin
  obtain ⟨t₃, b, t₄, rfl, hb, hp⟩ := runs_bind.mp hpin
  obtain rfl := runs_request.mp hb
  have ht : t₄ = [] := by
    cases b
    · exact hp.1
    · exact hp.1
  subst ht
  exact ⟨pin, rfl, rfl⟩

theorem obtainSession_runs {args : LoginArgs} {secret : String} {tr : CliTrace}
    {r : Except Failure Session} (h : Runs (obtainSession args secret).run tr r) :
    SessionRun args secret (logins tr) r ∧ saves tr = [] := by
  unfold obtainSession at h
  obtain ⟨t₁, x, t₂, rfl, hfirst, h₂⟩ := runs_bind.mp h
  obtain ⟨pin, hlogins, hsaves⟩ := loginOnce_runs hfirst
  rw [logins_append, saves_append, hlogins, hsaves]
  by_cases hchallenge : ∃ providers, x = .error (.twoFactorRequired providers)
  · obtain ⟨providers, rfl⟩ := hchallenge
    -- between the two calls nothing is asked but what resolves the factor
    obtain ⟨hardware, rest, rfl, h₃⟩ := runs_request_bind.mp h₂
    obtain ⟨t₃, second, t₄, rfl, hresolve, h₄⟩ := runs_bind.mp h₃
    have haside := ((resolveSecondFactor_asks providers args hardware).mono setup_aside).runs hresolve
    have hlogins₃ : logins (⟨.provider (.answersTwoFactor "webauthn"), hardware⟩ :: (t₃ ++ t₄)) =
        logins t₄ := by
      change logins (t₃ ++ t₄) = _
      rw [logins_append, logins_aside haside, List.nil_append]
    have hsaves₃ : saves (⟨.provider (.answersTwoFactor "webauthn"), hardware⟩ :: (t₃ ++ t₄)) =
        saves t₄ := by
      change saves (t₃ ++ t₄) = _
      rw [saves_append, saves_aside haside, List.nil_append]
    rw [hlogins₃, hsaves₃]
    cases second with
    | error msg =>
      obtain ⟨rfl, rfl⟩ := h₄
      exact ⟨.unresolved pin providers _, rfl⟩
    | ok second =>
      obtain ⟨t₅, y, t₆, rfl, hsecond, h₅⟩ := runs_bind.mp h₄
      obtain ⟨pin', hlogins₅, hsaves₅⟩ := loginOnce_runs hsecond
      have hend : t₆ = [] ∧ ∀ s, r = .ok s ↔ y = .ok s := by
        split at h₅ <;> (obtain ⟨rfl, rfl⟩ := h₅; simp)
      rw [hend.1, List.append_nil, hlogins₅, hsaves₅]
      exact ⟨.twice pin providers second pin' y r hend.2, rfl⟩
  · have hend : t₂ = [] ∧ r = x.mapError failed := by
      split at h₂
      · exact h₂
      · next providers => exact absurd ⟨providers, rfl⟩ hchallenge
      · exact h₂
    rw [hend.1, hend.2]
    exact ⟨.once pin x (fun providers he => hchallenge ⟨providers, he⟩), rfl⟩

theorem saveState_runs {dir : String} {args : LoginArgs} {passphrase : String} {session : Session}
    {tr : CliTrace} {code : ExitCode} (h : Runs (saveState dir args passphrase session) tr code) :
    logins tr = [] ∧ saves tr = [session.handle] := by
  unfold saveState at h
  obtain ⟨t₁, _, t₂, rfl, hcache, h₂⟩ := runs_bind.mp h
  have haside := ((rotateCache_asks args.account).mono setup_aside).runs hcache
  rw [logins_append, saves_append, logins_aside haside, saves_aside haside, List.nil_append,
    List.nil_append]
  obtain ⟨x, t₃, rfl, h₃⟩ := runs_request_bind.mp h₂
  cases x with
  | error e =>
    obtain ⟨_, rest, rfl, rfl, -⟩ := h₃
    exact ⟨rfl, rfl⟩
  | ok _ =>
    obtain ⟨_, rest, rfl, rfl, -⟩ := h₃
    exact ⟨rfl, rfl⟩

/-- A run saves nothing, or the session of its last login. -/
theorem loginCommand_runs {dir : String} {args : LoginArgs} {tr : CliTrace} {code : ExitCode}
    (h : Runs (loginCommand dir args) tr code) :
    (logins tr = [] ∧ saves tr = []) ∨
    ∃ secret r, SessionRun args secret (logins tr) r ∧
      ∀ handle ∈ saves tr, ∃ s, r = .ok s ∧ s.handle = handle := by
  unfold loginCommand at h
  obtain ⟨t₁, setup, t₂, rfl, hsetup, h₂⟩ := runs_bind.mp h
  have haside := ((loginSetup_asks args).mono setup_aside).runs hsetup
  rw [logins_append, saves_append, logins_aside haside, saves_aside haside, List.nil_append,
    List.nil_append]
  cases setup with
  | error msg =>
    refine .inl ?_
    obtain ⟨_, rest, rfl, rfl, -⟩ := h₂
    exact ⟨rfl, rfl⟩
  | ok p =>
    obtain ⟨passphrase, secret⟩ := p
    obtain ⟨t₃, r, t₄, rfl, hobtain, h₄⟩ := runs_bind.mp h₂
    obtain ⟨hrun, hsaves⟩ := obtainSession_runs hobtain
    rw [logins_append, saves_append, hsaves, List.nil_append]
    refine .inr ⟨secret, r, ?_⟩
    cases r with
    | error e =>
      obtain ⟨_, rest, rfl, rfl, -⟩ := h₄
      rw [show logins [_] = [] from rfl, List.append_nil]
      exact ⟨hrun, by simp [saves, savedOf]⟩
    | ok session =>
      obtain ⟨hnone, hsaved⟩ := saveState_runs h₄
      rw [hnone, List.append_nil, hsaved]
      refine ⟨hrun, ?_⟩
      intro handle hmem
      exact ⟨session, rfl, (List.mem_singleton.mp hmem).symm⟩

/-! ## The budget -/

/-- A login call of a run, with what it did on the wire. -/
structure LoginCall where
  params : LoginParams
  trace : OsTrace
  answer : Except ProviderError Session

/-- The calls are the run's, each answered by a run of the backend. -/
structure AnsweredBy (P : Primitives) (J : Decoders) (p : VaultwardenProvider) (tr : CliTrace)
    (calls : List LoginCall) : Prop where
  asked : logins tr = calls.map (fun c => (c.params, c.answer))
  runs : ∀ c ∈ calls, Runs (login P J p c.params).run c.trace c.answer

def callPosts (J : Decoders) (calls : List LoginCall) : List TokenPost :=
  calls.flatMap (fun c => tokenPosts J c.trace)

/-- What holds of the calls of one command, and of what it saves. -/
structure LoginBudget (P : Primitives) (J : Decoders) (tr : CliTrace) (calls : List LoginCall) : Prop where
  calls_le : calls.length ≤ 2
  posts_le : (callPosts J calls).length ≤ 3
  settled : ∀ c ∈ calls, c.params.secondFactor.isSome = true → ∀ providers,
    c.answer = .error (.twoFactorRequired providers) → tokenPosts J c.trace = []
  hardware : ∀ c ∈ calls, ∀ before post after, tokenPosts J c.trace = before ++ post :: after →
    post.provider = some "7" → ∃ first, before = [first] ∧ first.bare ∧ first.challenged
  saved : ∀ handle ∈ saves tr, ∃ c s post token, calls.getLast? = some c ∧ c.answer = .ok s ∧
    s.handle = handle ∧ (callPosts J calls).getLast? = some post ∧ post.answer = .ok token ∧
    UnwrapsKey P J c.params c.trace token

section
variable {P : Primitives} {J : Decoders} {p : VaultwardenProvider} {args : LoginArgs} {secret : String}
  {tr : CliTrace} {calls : List LoginCall}

/-- Two calls at most, the first of them without a second factor; a session is the last one's. -/
theorem SessionRun.asks {asked : List (LoginParams × Except ProviderError Session)}
    {r : Except Failure Session} (h : SessionRun args secret asked r) :
    (asked.length = 1 ∨ asked.length = 2) ∧
    (∃ params x, asked.head? = some (params, x) ∧ params.secondFactor = none) ∧
    ∀ s, r = .ok s → ∃ params, asked.getLast? = some (params, .ok s) := by
  cases h with
  | once pin x hne =>
    refine ⟨.inl rfl, ⟨_, _, rfl, rfl⟩, ?_⟩
    intro s hs
    cases x with
    | ok s' => cases hs; exact ⟨_, rfl⟩
    | error e => cases hs
  | unresolved pin providers e => exact ⟨.inl rfl, ⟨_, _, rfl, rfl⟩, by simp⟩
  | twice pin providers second pin' x r hr =>
    refine ⟨.inr rfl, ⟨_, _, rfl, rfl⟩, ?_⟩
    intro s hs
    rw [(hr s).mp hs]
    exact ⟨_, rfl⟩

theorem callPosts_le {first : LoginCall} {rest : List LoginCall}
    (hruns : ∀ c ∈ first :: rest, Runs (login P J p c.params).run c.trace c.answer)
    (hlen : rest.length ≤ 1) (hplain : first.params.secondFactor = none) :
    (callPosts J (first :: rest)).length ≤ 3 := by
  -- the plain call posts once, the other one at most twice
  have hfirst := (login_posts_le (hruns first (by simp))).2 hplain
  match rest, hlen with
  | [], _ =>
    calc (callPosts J [first]).length
        = (tokenPosts J first.trace).length := by simp [callPosts]
      _ ≤ 3 := by omega
  | [second], _ =>
    have hsecond := (login_posts_le (hruns second (by simp))).1
    calc (callPosts J [first, second]).length
        = (tokenPosts J first.trace).length + (tokenPosts J second.trace).length := by simp [callPosts]
      _ ≤ 3 := by omega

theorem callPosts_getLast {c : LoginCall} {post : TokenPost} (hlast : calls.getLast? = some c)
    (hpost : (tokenPosts J c.trace).getLast? = some post) : (callPosts J calls).getLast? = some post := by
  obtain ⟨init, rfl⟩ := List.getLast?_eq_some_iff.mp hlast
  simp [callPosts, List.flatMap_append, List.getLast?_append, hpost]

/-- One login command: two calls and three token requests at most, no second challenge
to a call with a factor, a key's token on a challenge only, and nothing saved but the
session of the last response, whose key unwrapped. -/
theorem login_command_budget {dir : String} {code : ExitCode} (hback : p.backend.isSome = true)
    (h : Runs (loginCommand dir args) tr code) (hcalls : AnsweredBy P J p tr calls) :
    LoginBudget P J tr calls := by
  have hsettled : ∀ c ∈ calls, c.params.secondFactor.isSome = true → ∀ providers,
      c.answer = .error (.twoFactorRequired providers) → tokenPosts J c.trace = [] :=
    fun c hc hfactor _ hx => login_settles hfactor (hcalls.runs c hc) hx
  have hhardware : ∀ c ∈ calls, ∀ before post after, tokenPosts J c.trace = before ++ post :: after →
      post.provider = some "7" → ∃ first, before = [first] ∧ first.bare ∧ first.challenged :=
    fun c hc _ _ _ hsplit hseven => login_hardware hback (hcalls.runs c hc) hsplit hseven
  rcases loginCommand_runs h with ⟨hnone, hsaves⟩ | ⟨secret, r, hrun, hsaves⟩
  · have hnil : calls = [] := by simpa [hnone] using hcalls.asked.symm
    subst hnil
    exact ⟨by simp, by simp [callPosts], hsettled, hhardware, by simp [hsaves]⟩
  obtain ⟨hlen, ⟨params, x, hhead, hplain⟩, hlast⟩ := hrun.asks
  rw [hcalls.asked, List.length_map] at hlen
  cases calls with
  | nil => simp at hlen
  | cons first rest =>
    rw [hcalls.asked] at hhead hlast
    cases hhead
    have hrest : rest.length ≤ 1 := by
      simp only [List.length_cons] at hlen
      omega
    refine ⟨?_, callPosts_le hcalls.runs hrest hplain, hsettled, hhardware, fun handle hmem => ?_⟩
    · simp only [List.length_cons]
      omega
    · -- what is saved is the session of the last call, and so of the last response
      obtain ⟨s, hs, hhandle⟩ := hsaves handle hmem
      obtain ⟨params, hp⟩ := hlast s hs
      rw [List.getLast?_map] at hp
      obtain ⟨c, hc, heq⟩ := Option.map_eq_some_iff.mp hp
      have hok : c.answer = .ok s := congrArg Prod.snd heq
      have hrun := hcalls.runs c (List.mem_of_getLast? hc)
      rw [hok] at hrun
      obtain ⟨post, token, hpost, hanswer, hunwraps⟩ := login_unwraps hrun
      exact ⟨c, s, post, token, hc, hok, hhandle, callPosts_getLast hc hpost, hanswer, hunwraps⟩

end

/-! ## A login with a code -/

def grantedToken : TokenResponse := ⟨"access", none, 0, plainString zeroKey.bytes⟩

/-- Decoders of a server that offers codes and grants a token under the zero key. -/
def grantingDecoders : Decoders :=
  { oneDecoders with
    value := fun body => .ok (.object
      (if body = "" then [] else [("TwoFactorProviders", .array [.str "0"])]))
    token := fun _ => .ok grantedToken }

theorem granting_prelogin :
    parseResponse grantingDecoders.value "prelogin" (.ok ⟨200, ""⟩) = .ok (.object []) := by
  have h200 : isSuccess 200 = true := by decide
  simp [parseResponse, h200, grantingDecoders]

theorem granting_token :
    parseResponse grantingDecoders.token "login" (.ok ⟨200, ""⟩) = .ok grantedToken := by
  have h200 : isSuccess 200 = true := by decide
  simp [parseResponse, h200, grantingDecoders]

theorem granting_challenge : mapApi grantingDecoders (.twoFactorChallenge "Two factor required.") =
    .twoFactorRequired ["totp"] := by
  have hoffered : offeredIds (.object [("TwoFactorProviders", .array [.str "0"])]) = [0] := by decide
  simp [mapApi, decodeTwoFactorProviders, grantingDecoders, hoffered, pushTag, idToTag]

theorem unwrap_plainKey {token : TokenResponse} {key : SymmetricKey} {masterKey : Block 32}
    (h : token.key = plainString key.bytes) :
    unwrapUserKey plainPrimitives token.key masterKey = .ok key := by
  simp [h, unwrapUserKey, parse_plainString, decryptSymmetric_plain, liftCrypto, bind, Except.bind,
    Except.mapError]

def fidohProvider : VaultwardenProvider := ⟨"device", none, some .fidoh⟩

def codeParams (second : Option SecondFactor) : LoginParams := ⟨"a@b", "master", second, none⟩

theorem derive_codeParams {second : Option SecondFactor} : deriveMasterKey plainPrimitives
    (codeParams second).secret (codeParams second).account (kdfFromJson (.object [])) =
      .ok (zeros 32) := rfl

/-- A plain login of this server is challenged. -/
theorem login_challenged : ∃ t, Runs (login plainPrimitives grantingDecoders fidohProvider
    (codeParams none)).run t (.error (.twoFactorRequired ["totp"])) := by
  rw [← granting_challenge]
  exact ⟨_, login_runs_of rfl rfl granting_prelogin derive_codeParams
    (runs_except_bind.mpr (.inl ⟨_, rfl, obtainToken_unanswered challenge_response⟩))⟩

/-- A login with a code is granted. -/
theorem login_granted : ∃ t, Runs (login plainPrimitives grantingDecoders fidohProvider
    (codeParams (some ⟨"totp", "123456"⟩))).run t (.ok ⟨"vw", "session"⟩) := by
  have hwire : wireFactor (codeParams (some ⟨"totp", "123456"⟩)).secondFactor =
      .ok (some (0, "123456")) := by
    simp [codeParams, wireFactor, tagToWireId]
  exact login_runs_ok hwire totp_plain granting_prelogin derive_codeParams granting_token
    (unwrap_plainKey rfl) (fun _ => rfl)

def codeArgs : LoginArgs := ⟨"https://vault", "a@b", some "PASS", some "MASTER", none, some "123456", none⟩

/-- The command on that server: challenged, resubmitted with the code, saved. -/
def codeTrace : CliTrace :=
  [⟨.envVar "PASS", some "pw"⟩, ⟨.envVar "MASTER", some "master"⟩,
    ⟨.newProvider "https://vault" false, .ok ()⟩, ⟨.stdinIsTerminal, false⟩,
    ⟨.provider (.login (codeParams none)), .error (.twoFactorRequired ["totp"])⟩,
    ⟨.provider (.answersTwoFactor "webauthn"), true⟩, ⟨.stdinIsTerminal, false⟩,
    ⟨.provider (.login (codeParams (some ⟨"totp", "123456"⟩))), .ok ⟨"vw", "session"⟩⟩,
    ⟨.loadConfig, .error "no such file"⟩,
    ⟨.saveLogin ⟨"https://vault", "a@b"⟩ "session" "pw", .ok ()⟩,
    ⟨.println "logged in; session sealed in state", ()⟩]

theorem login_command_budget_code : ∃ calls,
    Runs (loginCommand "state" codeArgs) codeTrace .success ∧ saves codeTrace = ["session"] ∧
    AnsweredBy plainPrimitives grantingDecoders fidohProvider codeTrace calls ∧
    LoginBudget plainPrimitives grantingDecoders codeTrace calls := by
  obtain ⟨t₁, h₁⟩ := login_challenged
  obtain ⟨t₂, h₂⟩ := login_granted
  have hrun : Runs (loginCommand "state" codeArgs) codeTrace .success := runs_of_replay (by decide)
  have hcalls : AnsweredBy plainPrimitives grantingDecoders fidohProvider codeTrace
      [⟨codeParams none, t₁, .error (.twoFactorRequired ["totp"])⟩,
        ⟨codeParams (some ⟨"totp", "123456"⟩), t₂, .ok ⟨"vw", "session"⟩⟩] := by
    refine ⟨rfl, fun c hc => ?_⟩
    rcases List.mem_cons.mp hc with rfl | hc
    · exact h₁
    · cases List.mem_singleton.mp hc
      exact h₂
  exact ⟨_, hrun, rfl, hcalls, login_command_budget rfl hrun hcalls⟩

end Cryptile
