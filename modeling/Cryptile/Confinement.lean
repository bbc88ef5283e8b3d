import Cryptile.Host
import Cryptile.SessionUse
import Cryptile.CommandPromise
import Cryptile.Vaultwarden.CacheIsolation
import Cryptile.Vaultwarden.NullTolerance

/-
  Confinement — what each request of a command takes of the machine, whatever it is answered

  A request that saves replaces a file under its own temporary name: the config, the
  keyring or the cache, the last two as sealed lines. A login posts for its account, the
  master password as a hash; a refresh posts the refresh token of its session, and what is
  fetched is fetched with the access token of the session. A hand-off starts one child,
  and that is given a private key or nothing.

  Correspondence (Rust ↔ Lean):
    `State::save_login`, `Keyring::save`, `SyncCache::store` ↔ `replacesFile`
    `Client::post_form`, `get_cipher`, `sync`, `collections` ↔ `loginAsks`, `refreshAsks`, `fetches`
    `add_to_agent`                                           ↔ `isHandOff`
-/

namespace Cryptile
open Text Interaction Serde

/-! ## What one request of a command takes -/

def keyringTmp (dir : Path) : Path := (keyringPath dir).withExtension "tmp"

def cacheTmp (dir : Path) : Path := (cachePath dir).withExtension "tmp"

/-- A file is replaced by one with such a content, by way of its temporary name. -/
def replacesFile (path tmp : Path) (mode : Option UInt32) (content : String → Prop) : OsReq → Prop
  | .random _ => True
  | .createDirAll p | .modeOf p => path.parent = some p
  | .setMode p m => path.parent = some p ∧ m = 0o700 ∨ p = tmp ∧ m = 0o600
  | .openTruncate p m => p = tmp ∧ m = mode
  | .writeAll p text => p = tmp ∧ content text
  | .syncAll p => p = tmp
  | .rename source target => source = tmp ∧ target = path
  | _ => False

section
variable (P : Primitives) (D : Codecs) (deviceId : String) (backend : Option CeremonyBackend)
  (dir : Path)

def writesConfig (cfg : StateConfig) : OsReq → Prop :=
  replacesFile (configPath dir) (configTmp dir) none (fun text => text = D.encodeConfig cfg)

def writesKeyring (sessionJson passphrase : String) : OsReq → Prop :=
  replacesFile (keyringPath dir) (keyringTmp dir) (some 0o600) (SealedAs P sessionJson passphrase)

/-- A line that seals an index under the user key of the session. -/
def SealsIndex (s : Session) (line : String) : Prop :=
  ∃ sess userKey data salt iv, parseSession D.decoders s = .ok sess ∧ sessUserKey sess = .ok userKey ∧
    sealLine P D.decoders userKey data salt iv = .ok line

def writesCache (s : Session) : OsReq → Prop :=
  replacesFile (cachePath dir) (cacheTmp dir) (some 0o600) (SealsIndex P D s)

/-- A factor of a grant: the code that was given, or what a security key has signed; where
there is a backend for keys no code is sent for one. -/
def Factor (R : ∀ q, OsAns q → Prop) (given : Option SecondFactor) : Option (UInt8 × String) → Prop
  | none => True
  | some (n, code) =>
    (∃ second, given = some second ∧ tagToWireId second.providerTag = some n ∧ code = second.code ∧
      (n = 7 → backend = none)) ∨
    n = 7 ∧ ((∃ ch pin, R (.fidohCeremony ch pin) (some (.ok code))) ∨
      ∃ ch, R (.legacyCeremony ch) (some (.ok code)))

/-- A login posts for its account, and the master password only as its hash, by the
parameters that the server has answered. -/
def loginAsks (R : ∀ q, OsAns q → Prop) (params : LoginParams) : OsReq → Prop
  | .http (.postJson e email) => e = .prelogin ∧ email = params.account
  -- the parameters are those of an answer that came before
  | .http (.postForm e form) => e = .token ∧ ∃ resp pre masterKey factor,
      R (.http (.postJson .prelogin params.account)) resp ∧
      parseResponse D.decoders.value "prelogin" resp = .ok pre ∧
      deriveMasterKey P params.secret params.account (kdfFromJson pre) = .ok masterKey ∧
      Factor backend R params.secondFactor factor ∧
      form = tokenPasswordForm deviceId params.account (authHash P params.secret masterKey) factor
  | .fidohCeremony _ _ | .legacyCeremony _ | .systemTime => True
  | _ => False

/-- A refresh posts the refresh token of its session. -/
def refreshAsks (s : Session) : OsReq → Prop
  | .http (.postForm e form) => e = .token ∧ ∃ rt, tokenOf D.decoders s = some rt ∧
      form = tokenRefreshForm rt
  | .systemTime => True
  | _ => False

/-- What is fetched is fetched with the access token of the session. -/
def fetches (s : Session) : OsReq → Prop
  | .http (.get _ bearer) => ∃ sess, parseSession D.decoders s = .ok sess ∧
      bearer = sess.accessToken
  | _ => False

/-- `ssh-add` as it was found: in a folder of the path, or where it usually is. -/
def SshAdd (R : ∀ q, HostAns q → Prop) (program : Path) : Prop :=
  (∃ paths folder, R (.varOs "PATH") (some paths) ∧ folder ∈ split paths ':' ∧
    program = (Path.ofText folder).join "ssh-add" ∧ R (.os (.isFile program)) true) ∨
  program = sshAddFallback ∧ R (.pathExists sshAddFallback) true

/-- What a request takes, in the light of what was answered. -/
def scope (R : ∀ q, HostAns q → Prop) : CliReq → HostReq → Prop
  | .provider (.login params), .os r => loginAsks P D deviceId backend (fun q => R (.os q)) params r
  | .provider (.refreshSession s), .os r => refreshAsks D s r
  | .provider (.listNamespaces s), .os r => fetches D s r
  | .provider (.listSecrets s _), .os r => fetches D s r ∨ writesCache P D dir s r
  | .provider (.getNamespaceSecrets s _), .os r => fetches D s r ∨ writesCache P D dir s r
  | .provider (.getSecret s _), .os r =>
    fetches D s r ∨ writesCache P D dir s r ∨ r = .readToString (cachePath dir)
  | .provider _, _ => False
  | .systemTime, r => r = .os .systemTime
  | .loggedIn, r => r = .os (.isFile (configPath dir)) ∨ r = .os (.isFile (keyringPath dir))
  | .loadConfig, r => r = .os (.readToString (configPath dir))
  | .loadSession _, r => r = .os (.readToString (keyringPath dir))
  | .saveLogin cfg sessionJson passphrase, .os r =>
    writesConfig D dir cfg r ∨ writesKeyring P dir sessionJson passphrase r
  | .saveLogin _ _ _, _ => False
  | .saveKeyring sessionJson passphrase, .os r => writesKeyring P dir sessionJson passphrase r
  | .saveKeyring _ _, _ => False
  | .removeCache, r => r = .removeFile (cachePath dir)
  | .envVar name, r => r = .envVar name
  | .stdinIsTerminal, r => r = .stdinIsTerminal
  | .promptPassword prompt, r => r = .promptPassword prompt
  | .newProvider server _, r => r = .buildClient server
  | .addToAgent value _, r => (isHandOff value r ∧ looksLikeSshPrivateKey value = true) ∧
      ∀ program args, r = .spawn program args → SshAdd R program
  | .println line, r => r = .println line
  | .eprintln line, r => r = .eprintln line

end

section
variable {P : Primitives} {D : Codecs} {deviceId : String} {backend : Option CeremonyBackend}
  {dir : Path}

/-! ### The calls of the provider -/

theorem liftApi_asked {J : Decoders} {S : OsReq → Prop} {α : Type} {r : HttpReq}
    {decode : String → Except String α} {op : String} (h : S (.http r)) :
    Asks S (liftApi J (call r decode op)).run :=
  asks_bind (asks_bind (asks_request h) (fun _ => asks_pure _)) (fun _ => asks_pure _)

section
variable {J : Decoders} {R : ∀ q, OsAns q → Prop} {given : Option SecondFactor}
  {second selected : Option (UInt8 × String)} {n : UInt8} {code body : String} {pin : Option PinSource}

theorem wireFactor_given (h : wireFactor given = .ok (some (n, code))) :
    ∃ second, given = some second ∧ tagToWireId second.providerTag = some n ∧ code = second.code := by
  unfold wireFactor at h
  split at h
  · cases h
  · next second =>
    split at h
    · next m hm =>
      cases h
      exact ⟨second, rfl, hm, rfl⟩
    · cases h

theorem plainFirst_given (h : (plainFirst backend second).1 = some (n, code)) :
    second = some (n, code) ∧ (n = 7 → backend = none) := by
  unfold plainFirst at h
  split at h
  · split at h
    · cases h
    · next hplain =>
      cases h
      exact ⟨rfl, fun hseven => Option.not_isSome_iff_eq_none.mp (fun hsome => hplain ⟨hsome, hseven⟩)⟩
  · cases h

theorem plainFirst_factor (hwire : wireFactor given = .ok second) :
    Factor backend R given (plainFirst backend second).1 := by
  cases hfirst : (plainFirst backend second).1 with
  | none => exact trivial
  | some p =>
    obtain ⟨n, code⟩ := p
    obtain ⟨hsecond, hkey⟩ := plainFirst_given hfirst
    rw [hsecond] at hwire
    obtain ⟨sf, hgiven, htag, hcode⟩ := wireFactor_given hwire
    exact .inl ⟨sf, hgiven, htag, hcode, hkey⟩

/-- The answer of a key is what it has signed. -/
theorem hardwareAnswer_signs (h : Returns R (hardwareAnswer J backend body pin).run (.ok code)) :
    (∃ ch pin, R (.fidohCeremony ch pin) (some (.ok code))) ∨
      ∃ ch, R (.legacyCeremony ch) (some (.ok code)) := by
  unfold hardwareAnswer at h
  cases backend with
  | none => cases h
  | some b =>
    obtain ⟨_, -, he⟩ | ⟨ch, -, h⟩ := returns_settled_bind.mp h
    · cases he
    cases b with
    | fidoh =>
      obtain ⟨r, hr, hout⟩ := returns_map.mp h
      rcases r with _ | (e | token)
      · cases hout
      · cases hout
      · cases hout
        exact .inl ⟨ch, pin, returns_request.mp hr⟩
    | webauthn =>
      obtain ⟨r, hr, hout⟩ := returns_map.mp h
      rcases r with _ | (e | token)
      · cases hout
      · cases hout
      · cases hout
        exact .inr ⟨ch, returns_request.mp hr⟩

/-- A challenge is answered with the code that was selected, or with a signature. -/
theorem answerTwoFactor_factor
    (h : Returns R (answerTwoFactor J backend body selected pin).run (.ok (some (n, code)))) :
    selected = some (n, code) ∧ (n = 0 ∨ n = 1) ∨
    n = 7 ∧ ((∃ ch pin, R (.fidohCeremony ch pin) (some (.ok code))) ∨
      ∃ ch, R (.legacyCeremony ch) (some (.ok code))) := by
  unfold answerTwoFactor at h
  cases selected with
  | none => cases h
  | some p =>
    obtain ⟨m, c⟩ := p
    simp only at h
    split at h
    · next hcode =>
      cases h
      exact .inl ⟨rfl, hcode⟩
    · split at h
      · obtain ⟨token, htoken, h⟩ := returns_ok_bind.mp h
        cases h
        exact .inr ⟨rfl, hardwareAnswer_signs htoken⟩
      · cases h

theorem answerTwoFactor_asks : Asks isCeremony (answerTwoFactor J backend body selected pin).run := by
  unfold answerTwoFactor
  cases selected with
  | none => exact asks_pure _
  | some p =>
    simp only
    split
    · exact asks_pure _
    · split
      · exact asks_except_bind hardwareAnswer_asks (fun _ => asks_pure _)
      · exact asks_pure _

/-- A factor that is selected and answered is a factor of the grant. -/
theorem answered_factor (hwire : wireFactor given = .ok second)
    (h : Returns R (answerTwoFactor J backend body
      (if (plainFirst backend second).2 then some (7, "") else (plainFirst backend second).1) pin).run
        (.ok (some (n, code)))) : Factor backend R given (some (n, code)) := by
  obtain ⟨hselected, hcode⟩ | hsigned := answerTwoFactor_factor h
  · split at hselected
    · -- where a key is selected, no code is the answer
      cases hselected
      obtain h | h := hcode <;> cases h
    · have hfirst : Factor backend R given (plainFirst backend second).1 := plainFirst_factor hwire
      rwa [hselected] at hfirst
  · exact .inr hsigned

theorem login_within (params : LoginParams) : AsksWithin R (loginAsks P D deviceId backend R params)
    (login P D.decoders ⟨deviceId, none, backend⟩ params).run := by
  have hceremony : ∀ q, isCeremony q → loginAsks P D deviceId backend R params q := by
    intro q h
    cases q <;> first | exact trivial | exact h.elim
  unfold login
  refine asksWithin_settled_bind (fun second hwire => ?_)
  refine asksWithin_except_bind (liftApi_asked ⟨rfl, rfl⟩).asksWithin (fun pre hpre => ?_)
  obtain ⟨resp, hresp, hparse⟩ : ∃ resp, R (.http (.postJson .prelogin params.account)) resp ∧
      parseResponse D.decoders.value "prelogin" resp = .ok pre := by
    obtain ⟨x, hcall, hx⟩ := liftApi_returns.mp hpre
    obtain ⟨resp, hresp, rfl⟩ := call_returns.mp hcall
    exact ⟨resp, hresp, mapError_ok.mp hx.symm⟩
  refine asksWithin_settled_bind (fun masterKey hderive => ?_)
  have hderived : deriveMasterKey P params.secret params.account (kdfFromJson pre) = .ok masterKey :=
    mapError_ok.mp hderive
  have hgrant : ∀ factor, Factor backend R params.secondFactor factor →
      Asks (loginAsks P D deviceId backend R params) (tokenPassword D.decoders deviceId params.account
        (authHash P params.secret masterKey) factor) :=
    fun factor hfactor => asks_bind
      (asks_request ⟨rfl, resp, pre, masterKey, factor, hresp, hparse, hderived, hfactor, rfl⟩)
      (fun _ => asks_pure _)
  refine asksWithin_except_bind ?_ (fun token _ => ?_)
  · unfold obtainToken
    -- the first grant carries what was given, where that is a code
    have hfirst : Factor backend R params.secondFactor (plainFirst backend second).1 := plainFirst_factor hwire
    refine asksWithin_except_bind (asks_bind (hgrant _ hfirst) (fun _ => asks_pure _)).asksWithin (fun x _ => ?_)
    split
    · exact asksWithin_pure _
    · -- after a challenge there is one more, with what answers it
      refine asksWithin_except_bind (answerTwoFactor_asks.mono hceremony).asksWithin (fun answer hanswer => ?_)
      split
      · next n value =>
        exact (asks_bind (hgrant _ (answered_factor hwire hanswer)) (fun _ => asks_pure _)).asksWithin
      · exact asksWithin_pure _
    · exact asksWithin_pure _
  · unfold openSession
    refine (asks_except_bind (asks_pure _) (fun userKey => ?_)).asksWithin
    exact asks_except_bind (asks_bind (asks_request trivial) (fun _ => asks_pure _)) (fun _ => asks_pure _)

end

theorem refreshSession_asks (s : Session) :
    Asks (refreshAsks D s) (refreshSession D.decoders s).run := by
  unfold refreshSession
  refine asks_settled_bind (fun sess hparse => ?_)
  cases hrt : sess.refreshToken with
  | none => exact asks_pure _
  | some rt =>
    have htoken : tokenOf D.decoders s = some rt := by
      rw [tokenOf, hparse]
      exact hrt
    refine asks_except_bind (liftApi_asked ⟨rfl, rt, htoken, rfl⟩) (fun token => ?_)
    exact asks_except_bind (asks_bind (asks_request trivial) (fun _ => asks_pure _)) (fun _ => asks_pure _)

section
variable {s : Session} {sess : VwSession} {userKey : SymmetricKey}

theorem syncAndKeys_fetches (h : parseSession D.decoders s = .ok sess) :
    Asks (fetches D s) (syncAndKeys P D.decoders sess.accessToken userKey).run := by
  unfold syncAndKeys
  refine asks_except_bind (liftApi_asked ⟨sess, h, rfl⟩) (fun sync => ?_)
  refine asks_except_bind (asks_pure _) (fun orgKeys => ?_)
  exact asks_except_bind (liftApi_asked ⟨sess, h, rfl⟩) (fun cs => asks_pure _)

theorem tryCandidates_fetches (h : parseSession D.decoders s = .ok sess) {cache : CacheData}
    {item : String} (entries : List CipherIndexEntry) :
    Asks (fetches D s) (tryCandidates P D.decoders sess cache item entries).run := by
  induction entries with
  | nil => exact asks_pure _
  | cons entry rest ih =>
    unfold tryCandidates
    refine asks_bind (asks_bind (asks_request ⟨sess, h, rfl⟩) (fun _ => asks_pure _)) (fun x => ?_)
    split
    · exact ih
    · exact asks_pure _
    · exact asks_pure _

theorem writeCache_writes (hparse : parseSession D.decoders s = .ok sess) (hkey : sessUserKey sess = .ok userKey)
    (b : SyncBundle) : Asks (writesCache P D dir s)
    (writeCache P D.decoders (some (cachePath dir)) sess userKey b) := by
  have hparent : (cachePath dir).parent = some (dir.join "cache") := by
    simp [cachePath, Path.parent, Path.join]
  unfold writeCache
  refine asks_bind ?_ (fun _ => asks_pure _)
  unfold storeCache
  refine asks_except_bind_runs ?_ (fun tr line hseal => ?_)
  · unfold sealCache
    refine asks_except_bind (asks_request trivial) (fun salt => ?_)
    exact asks_except_bind (asks_request trivial) (fun iv => asks_pure _)
  -- the line that is written is the one that was sealed
  have hline : SealsIndex P D s line := by
    unfold sealCache at hseal
    obtain ⟨_, he, -⟩ | ⟨_, salt, _, -, -, hseal⟩ := runs_except_bind.mp hseal
    · cases he
    obtain ⟨_, he, -⟩ | ⟨_, iv, _, -, -, hseal⟩ := runs_except_bind.mp hseal
    · cases he
    exact ⟨sess, userKey, _, salt, iv, hparse, hkey, hseal.2.symm⟩
  rw [hparent]
  refine asks_except_bind (asks_request hparent) (fun _ => ?_)
  refine asks_except_bind (asks_bind (asks_request (.inl ⟨hparent, rfl⟩)) (fun _ => asks_pure _)) (fun _ => ?_)
  refine asks_except_bind (asks_request ⟨rfl, rfl⟩) (fun _ => ?_)
  refine asks_except_bind (asks_request ⟨rfl, hline⟩) (fun _ => ?_)
  exact asks_except_bind (asks_request rfl) (fun _ => asks_request ⟨rfl, rfl⟩)

theorem bulkOp_asks {α : Type}
    (loop : String → List (String × SymmetricKey) → SymmetricKey → List Cipher → α) (ns : Namespace) :
    Asks (fun r => fetches D s r ∨ writesCache P D dir s r)
      (bulkOp P D.decoders loop (some (cachePath dir)) s ns).run := by
  unfold bulkOp
  refine asks_settled_bind (fun sess hparse => ?_)
  refine asks_settled_bind (fun userKey hkey => ?_)
  refine asks_except_bind ((syncAndKeys_fetches hparse).mono (fun r h => .inl h)) (fun b => ?_)
  refine asks_settled_bind (fun collId hcoll => ?_)
  refine asks_except_bind (asks_bind ((writeCache_writes hparse hkey b).mono (fun r h => .inr h))
    (fun _ => asks_pure _)) (fun _ => asks_pure _)

theorem listNamespaces_asks :
    Asks (fetches D s) (listNamespaces P D.decoders s).run := by
  unfold listNamespaces
  refine asks_settled_bind (fun sess hparse => ?_)
  refine asks_settled_bind (fun userKey hkey => ?_)
  exact asks_except_bind (syncAndKeys_fetches hparse) (fun b => asks_pure _)

/-- What the cache answers, and the bodies that its index names. -/
theorem getSecretCached_asks (h : parseSession D.decoders s = .ok sess) {path : Path}
    (coll item : String) : Asks (fun q => fetches D s q ∨ q = .readToString path)
      (getSecretCached P D.decoders path sess userKey coll item).run := by
  unfold getSecretCached
  refine asks_except_bind (asks_bind (asks_bind (asks_request (.inr rfl)) (fun file => ?_))
    (fun _ => asks_pure _)) (fun cache => ?_)
  · cases file <;> exact asks_pure _
  · cases cache with
    | none => exact asks_pure _
    | some cache =>
      simp only [getSecretWarm]
      split
      · exact asks_pure _
      · exact (tryCandidates_fetches h _).mono (fun q hq => .inl hq)

theorem getSecret_asks (r : Ref) :
    Asks (fun q => fetches D s q ∨ writesCache P D dir s q ∨ q = .readToString (cachePath dir))
      (getSecret P D.decoders (some (cachePath dir)) s r).run := by
  unfold getSecret
  by_cases hscheme : r.scheme ≠ "vw"
  · rw [if_pos hscheme]
    exact asks_pure _
  rw [if_neg hscheme]
  refine asks_settled_bind (fun sess hparse => ?_)
  refine asks_settled_bind (fun userKey hkey => ?_)
  split
  · exact asks_pure _
  refine asks_except_bind ((getSecretCached_asks hparse _ _).mono (fun q h => h.imp_right .inr))
    (fun found => ?_)
  · cases found with
    | some secret => exact asks_pure _
    | none =>
      unfold getSecretCold
      refine asks_except_bind ((syncAndKeys_fetches hparse).mono (fun q h => .inl h)) (fun b => ?_)
      split
      · exact asks_pure _
      · refine asks_settled_bind (fun secret hscan => ?_)
        exact asks_except_bind (asks_bind ((writeCache_writes hparse hkey b).mono (fun q h => .inr (.inl h)))
          (fun _ => asks_pure _)) (fun _ => asks_pure _)

end

/-! ### The state directory -/

theorem mapErr_asks {S : OsReq → Prop} {ε α : Type} {wrap : String → ε} {p : Os (Except String α)}
    (h : Asks S p) : Asks S (mapErr wrap p).run := asks_bind h (fun _ => asks_pure _)

theorem keyringPath_parent : (keyringPath dir).parent = some dir := by
  simp [keyringPath, Path.parent, Path.join]

theorem configPath_parent : (configPath dir).parent = some dir := by
  simp [configPath, Path.parent, Path.join]

theorem saveKeyring_asks (sessionJson passphrase : String) :
    Asks (writesKeyring P dir sessionJson passphrase)
      (saveKeyring P (keyringPath dir) sessionJson passphrase).run := by
  have hparent : (keyringPath dir).parent = some dir := keyringPath_parent
  unfold saveKeyring
  refine asks_except_bind_runs ?_ (fun tr line hseal => ?_)
  · unfold sealKeyring
    refine asks_except_bind (mapErr_asks (asks_request trivial)) (fun salt => ?_)
    exact asks_except_bind (mapErr_asks (asks_request trivial)) (fun iv => asks_pure _)
  refine asks_except_bind ?_ (fun _ => ?_)
  · unfold ensureParent
    rw [hparent]
    refine asks_except_bind (mapErr_asks (asks_request hparent)) (fun _ => ?_)
    refine asks_except_bind (mapErr_asks (asks_request hparent)) (fun mode => ?_)
    split
    · exact mapErr_asks (asks_request (.inl ⟨hparent, rfl⟩))
    · exact asks_pure _
  refine asks_except_bind (mapErr_asks (asks_request ⟨rfl, rfl⟩)) (fun _ => ?_)
  refine asks_except_bind (mapErr_asks (asks_request ⟨rfl, sealKeyring_line hseal⟩)) (fun _ => ?_)
  refine asks_except_bind (mapErr_asks (asks_request rfl)) (fun _ => ?_)
  exact mapErr_asks (asks_request ⟨rfl, rfl⟩)

theorem saveLogin_asks (cfg : StateConfig) (sessionJson passphrase : String) :
    Asks (fun r => writesConfig D dir cfg r ∨ writesKeyring P dir sessionJson passphrase r)
      (saveLogin P D.encodeConfig dir cfg sessionJson passphrase).run := by
  have hparent : (configPath dir).parent = some dir := configPath_parent
  unfold saveLogin
  refine asks_except_bind (mapErr_asks (asks_request (.inl hparent))) (fun _ => ?_)
  refine asks_except_bind (asks_bind (asks_request (.inl (.inl ⟨hparent, rfl⟩))) (fun _ => asks_pure _))
    (fun _ => ?_)
  refine asks_except_bind (mapErr_asks (asks_request (.inl ⟨rfl, rfl⟩))) (fun _ => ?_)
  refine asks_except_bind (mapErr_asks (asks_request (.inl ⟨rfl, rfl⟩))) (fun _ => ?_)
  refine asks_except_bind (asks_bind (asks_request (.inl (.inr ⟨rfl, rfl⟩))) (fun _ => asks_pure _))
    (fun _ => ?_)
  refine asks_except_bind (mapErr_asks (asks_request (.inl ⟨rfl, rfl⟩))) (fun _ => ?_)
  exact asks_bind ((saveKeyring_asks sessionJson passphrase).mono (fun r h => .inr h)) (fun _ => asks_pure _)

/-! ### The hand-off -/

section
variable {R : ∀ q, HostAns q → Prop}

theorem firstFile_returns {candidates : List Path} {program : Path}
    (h : Returns R (firstFile candidates) (some program)) :
    program ∈ candidates ∧ R (.os (.isFile program)) true := by
  induction candidates with
  | nil => cases h
  | cons candidate rest ih =>
    obtain ⟨found, hfound, h⟩ := returns_bind.mp h
    cases found with
    | true =>
      cases h
      exact ⟨List.mem_cons_self, returns_request.mp hfound⟩
    | false =>
      obtain ⟨hmem, hfile⟩ := ih h
      exact ⟨List.mem_cons_of_mem _ hmem, hfile⟩

theorem whichSshAdd_returns {program : Path} (h : Returns R whichSshAdd (some program)) : SshAdd R program := by
  obtain ⟨found, hfound, h⟩ := returns_bind.mp h
  cases found with
  | some path =>
    cases h
    obtain ⟨paths, hpaths, hsearch⟩ := returns_bind.mp hfound
    cases paths with
    | none => cases hsearch
    | some paths =>
      obtain ⟨hmem, hfile⟩ := firstFile_returns hsearch
      obtain ⟨folder, hfolder, rfl⟩ := List.mem_map.mp hmem
      exact .inl ⟨paths, folder, returns_request.mp hpaths, hfolder, rfl, hfile⟩
  | none =>
    obtain ⟨there, hthere, h⟩ := returns_bind.mp h
    cases there with
    | false => cases h
    | true =>
      cases h
      exact .inr ⟨rfl, returns_request.mp hthere⟩

/-- What is started is the program that was found. -/
theorem addToAgent_found (key item : String) :
    AsksWithin R (fun q => ∀ program args, q = .spawn program args → SshAdd R program) (addToAgent key item) := by
  have hskipped : ∀ msg, Asks (fun q => ∀ program args, q = .spawn program args → SshAdd R program)
      (skipped msg) := fun msg => asks_bind (asks_request (by simp)) (fun _ => asks_pure _)
  unfold addToAgent
  split
  · exact asksWithin_pure _
  refine asksWithin_bind (asksWithin_request (by simp)) (fun sock _ => ?_)
  split
  · exact asksWithin_pure _
  refine asksWithin_bind (whichSshAdd_asks.mono ?_).asksWithin (fun found hfound => ?_)
  · rintro _ hq program args rfl
    exact hq.elim
  cases found with
  | none => exact (hskipped _).asksWithin
  | some sshAdd =>
    refine asksWithin_bind (asksWithin_request ?_) (fun spawned _ => Asks.asksWithin ?_)
    · rintro program args ⟨⟩
      exact whichSshAdd_returns hfound
    cases spawned with
    | error e => exact hskipped _
    | ok u =>
      refine asks_bind (asks_request (by simp)) (fun piped => ?_)
      cases piped with
      | error e =>
        exact asks_bind (asks_request (by simp)) (fun _ => asks_bind (asks_request (by simp))
          (fun _ => asks_bind (asks_request (by simp)) (fun _ => asks_pure _)))
      | ok u =>
        refine asks_bind (asks_request (by simp)) (fun ended => ?_)
        rcases ended with e | ⟨_ | _, stderr⟩
        · exact hskipped _
        · exact hskipped _
        · exact asks_bind (asks_request (by simp)) (fun _ => asks_pure _)

/-! ### Every request -/

/-- A request of a command takes what is in its scope. -/
theorem hostCalls_within (q : CliReq) :
    AsksWithin R (scope P D deviceId backend dir R q) (hostCalls P D deviceId backend dir q) := by
  have hmachine : ∀ {α : Type} {S : OsReq → Prop} {S' : HostReq → Prop} {p : Os α}, Asks S p →
      (∀ r, S r → S' (.os r)) → AsksWithin R S' (onMachine p) := by
    intro α S S' p hp hS
    refine ((onMachine_asks hp).mono ?_).asksWithin
    rintro _ ⟨r, rfl, hr⟩
    exact hS r hr
  have hasked : ∀ {r : HostReq}, scope P D deviceId backend dir R q r →
      AsksWithin R (scope P D deviceId backend dir R q) (host r) := fun h => asksWithin_request h
  cases q with
  | provider q =>
    cases q with
    | login params =>
      refine (onMachine_within (login_within params)).mono ?_
      rintro _ ⟨r, rfl, hr⟩
      exact hr
    | answersTwoFactor tag => exact asksWithin_pure _
    | refreshSession s => exact hmachine (refreshSession_asks s) (fun r h => h)
    | sessionExpiry s => exact asksWithin_pure _
    | listNamespaces s => exact hmachine listNamespaces_asks (fun r h => h)
    | listSecrets s ns => exact hmachine (bulkOp_asks _ ns) (fun r h => h)
    | getNamespaceSecrets s ns => exact hmachine (bulkOp_asks _ ns) (fun r h => h)
    | getSecret s ref => exact hmachine (getSecret_asks ref) (fun r h => h)
  | systemTime => exact hasked rfl
  | loggedIn =>
    have hfiles : Asks (fun r => r = .isFile (configPath dir) ∨ r = .isFile (keyringPath dir))
        (loggedIn dir) := by
      refine asks_bind (asks_request (.inl rfl)) (fun b => ?_)
      cases b
      · exact asks_pure _
      · exact asks_request (.inr rfl)
    exact hmachine hfiles (fun r h => h.imp (congrArg _) (congrArg _))
  | loadConfig =>
    have hfile : Asks (fun r => r = .readToString (configPath dir))
        (State.loadConfig D.decodeConfig dir).run :=
      asks_except_bind (mapErr_asks (asks_request rfl)) (fun _ => asks_pure _)
    exact hmachine hfile (fun r h => congrArg _ h)
  | loadSession passphrase =>
    have hfile : Asks (fun r => r = .readToString (keyringPath dir))
        (State.loadSession P dir passphrase).run := by
      refine asks_except_bind (asks_bind ?_ (fun _ => asks_pure _)) (fun _ => asks_pure _)
      exact asks_except_bind (mapErr_asks (asks_request rfl)) (fun _ => asks_pure _)
    exact hmachine hfile (fun r h => congrArg _ h)
  | saveLogin cfg sessionJson passphrase =>
    exact hmachine (saveLogin_asks cfg sessionJson passphrase) (fun r h => h)
  | saveKeyring sessionJson passphrase =>
    exact asksWithin_bind (hmachine (saveKeyring_asks sessionJson passphrase) (fun r h => h))
      (fun _ _ => asksWithin_pure _)
  | removeCache => exact hasked rfl
  | envVar name => exact hasked rfl
  | stdinIsTerminal => exact hasked rfl
  | promptPassword prompt => exact hasked rfl
  | newProvider server cached => exact asksWithin_bind (hasked rfl) (fun _ _ => asksWithin_pure _)
  | addToAgent value label =>
    exact asksWithin_bind ((addToAgent_asks value label).asksWithin.and (addToAgent_found value label))
      (fun _ _ => asksWithin_pure _)
  | println line => exact hasked rfl
  | eprintln line => exact hasked rfl

end

/-- The same, whatever is answered. -/
theorem hostCalls_asks (q : CliReq) : Asks (scope P D deviceId backend dir (fun _ _ => True) q)
    (hostCalls P D deviceId backend dir q) := asks_of_within (hostCalls_within q)

end

theorem parseCommand_outputs (ref : String) : Asks isOutput (parseCommand ref) := by
  unfold parseCommand
  cases Ref.parse ref with
  | ok r => exact asks_bind (asks_request trivial) (fun _ => asks_pure _)
  | error e => exact die_outputs _ _

end Cryptile
