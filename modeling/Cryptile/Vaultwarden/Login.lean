import Cryptile.Vaultwarden.TwoFactor
import Cryptile.Vaultwarden.Payload

/-
  Login — the password grant, its second factor, and what a call sends

  A login sends one token request, and after a two-factor challenge that it can
  answer one more. `GrantRun` lists every run of that part, whatever the server
  and the key answer; `login_runs` puts the prelogin before it and the session
  after it.

  Correspondence (Rust ↔ Lean):
    `kdf_from_json`                ↔ `kdfFromJson`
    `unwrap_user_key`              ↔ `unwrapUserKey`
    `VaultwardenProvider::login`   ↔ `login`: `wireFactor`, `plainFirst`, `obtainToken`, `openSession`
-/

namespace Cryptile
open Text Interaction

/-! ## The call -/

/-- A number member, truncated to 32 bits, under either key. -/
def jsonU32 (v : Json) (keys : List String) : Option UInt32 :=
  keys.findSome? (fun k => ((v.get k).bind Json.asU64).map UInt64.toUInt32)

def kdfFromJson (v : Json) : KdfParams :=
  let iters := jsonU32 v ["kdfIterations", "KdfIterations"]
  match jsonU32 v ["kdf", "KDF"] with
  | some 1 =>
    -- MiB to KiB
    KdfParams.argon2id (iters.getD 3) ((jsonU32 v ["kdfMemory", "KdfMemory"]).getD 64 * 1024)
      ((jsonU32 v ["kdfParallelism", "KdfParallelism"]).getD 4)
  | _ => KdfParams.pbkdf2 (iters.getD 600000)

section
variable (P : Primitives) (J : Decoders)

def unwrapUserKey (encUserKey : String) (masterKey : Block 32) : Except ProviderError SymmetricKey :=
  liftCrypto do
    let es ← EncString.parse encUserKey
    SymmetricKey.from64 (← es.decryptSymmetric P (stretchMasterKey P masterKey))

/-- The second factor as the wire has it. -/
def wireFactor : Option SecondFactor → Except ProviderError (Option (UInt8 × String))
  | none => .ok none
  | some sf =>
    match tagToWireId sf.providerTag with
    | some n => .ok (some (n, sf.code))
    | none => .error (.server ("unsupported two-factor provider tag: " ++ sf.providerTag))

/-- A security key has no code, so its first grant goes out plain; whether it was
selected is remembered. A build without a ceremony sends the factor as it is. -/
def plainFirst (backend : Option CeremonyBackend) (second : Option (UInt8 × String)) :
    Option (UInt8 × String) × Bool :=
  match second with
  | some (n, code) => if backend.isSome ∧ n = 7 then (none, true) else (some (n, code), false)
  | none => (none, false)

section
variable (deviceId account hash : String)

/-- What a token request is answered with after the one resubmit. -/
def resubmitted (n : UInt8) : Except ApiError TokenResponse → Except ProviderError TokenResponse
  | .ok token => .ok token
  | .error (.twoFactorChallenge _) =>
    .error (.auth ("two-factor " ++ toString n ++ " answer rejected: server re-challenged"))
  | .error e => .error (mapApi J e)

/-- One grant; where it is challenged, one answer and one resubmit. -/
def obtainToken (backend : Option CeremonyBackend) (first : Option (UInt8 × String))
    (webauthnSelected : Bool) (pin : Option PinSource) : ExceptT ProviderError Os TokenResponse := do
  match ← ExceptT.lift (tokenPassword J deviceId account hash first) with
  | .ok token => return token
  | .error (.twoFactorChallenge body) =>
    let selected := if webauthnSelected then some (7, "") else first
    match ← answerTwoFactor J backend body selected pin with
    | some (n, value) =>
      ExceptT.mk (resubmitted J n <$> tokenPassword J deviceId account hash (some (n, value)))
    | none => throw (mapApi J (.twoFactorChallenge body))
  | .error e => throw (mapApi J e)

end

/-- The session of a token response, once its key unwraps. -/
def openSession (account : String) (masterKey : Block 32) (token : TokenResponse) :
    ExceptT ProviderError Os Session := do
  let userKey ← ExceptT.mk (pure (unwrapUserKey P token.key masterKey))
  let now ← ExceptT.lift (os .systemTime)
  ExceptT.mk (pure (encodeVwSession J
    { accessToken := token.accessToken
      refreshToken := token.refreshToken
      userKeyB64 := Base64.encode userKey.bytes
      account := some account
      expiresAt := now.map (· + token.expiresIn) }))

def login (p : VaultwardenProvider) (params : LoginParams) : ExceptT ProviderError Os Session := do
  let second ← ExceptT.mk (pure (wireFactor params.secondFactor))
  let first := plainFirst p.backend second
  let pre ← liftApi J (apiPrelogin J params.account)
  let masterKey ← ExceptT.mk (pure (liftCrypto
    (deriveMasterKey P params.secret params.account (kdfFromJson pre))))
  let hash := authHash P params.secret masterKey
  let token ← obtainToken J p.deviceId params.account hash p.backend first.1 first.2 params.pinSource
  openSession P J params.account masterKey token

end

/-! ## Token requests -/

/-- A token request, by its form, and its answer. -/
structure TokenPost where
  form : List (String × String)
  answer : Except ApiError TokenResponse

def tokenPostOf (J : Decoders) : Sigma OsAns → Option TokenPost
  | ⟨.http (.postForm .token form), resp⟩ => some ⟨form, parseResponse J.token "login" resp⟩
  | _ => none

def tokenPosts (J : Decoders) (tr : OsTrace) : List TokenPost := tr.filterMap (tokenPostOf J)

/-- The provider and the token a request carries, if it carries a second factor. -/
def TokenPost.provider (post : TokenPost) : Option String := post.form.lookup "twoFactorProvider"

def TokenPost.token (post : TokenPost) : Option String := post.form.lookup "twoFactorToken"

def TokenPost.challenged (post : TokenPost) : Prop :=
  ∃ body, post.answer = .error (.twoFactorChallenge body)

section
variable {J : Decoders} {deviceId account hash : String} {factor : Option (UInt8 × String)}

theorem form_provider : (tokenPasswordForm deviceId account hash factor).lookup "twoFactorProvider" =
    factor.map (fun f => toString f.1) := by
  cases factor <;> rfl

theorem form_token : (tokenPasswordForm deviceId account hash factor).lookup "twoFactorToken" =
    factor.map Prod.snd := by
  cases factor <;> rfl

end

/-! ## Every run of a call -/

section
variable (J : Decoders) (deviceId account hash : String)

abbrev tokenEvent (factor : Option (UInt8 × String)) (resp : Except String HttpResp) : Sigma OsAns :=
  ⟨.http (.postForm .token (tokenPasswordForm deviceId account hash factor)), resp⟩

def postOf (factor : Option (UInt8 × String)) (resp : Except String HttpResp) : TokenPost :=
  ⟨tokenPasswordForm deviceId account hash factor, parseResponse J.token "login" resp⟩

/-- The runs of the grant, by what the first request is answered with: a token, a
refusal, or a challenge that has no answer, whose ceremony fails, or that is answered. -/
inductive GrantRun (backend : Option CeremonyBackend) (first selected : Option (UInt8 × String))
    (pin : Option PinSource) : OsTrace → Except ProviderError TokenResponse → Prop
  | granted (resp token) : parseResponse J.token "login" resp = .ok token →
      GrantRun backend first selected pin [tokenEvent deviceId account hash first resp] (.ok token)
  | refused (resp e) : parseResponse J.token "login" resp = .error e →
      (∀ body, e ≠ .twoFactorChallenge body) →
      GrantRun backend first selected pin [tokenEvent deviceId account hash first resp]
        (.error (mapApi J e))
  | unanswered (resp body) : parseResponse J.token "login" resp = .error (.twoFactorChallenge body) →
      selected = none →
      GrantRun backend first selected pin [tokenEvent deviceId account hash first resp]
        (.error (mapApi J (.twoFactorChallenge body)))
  | failed (resp body t e) : parseResponse J.token "login" resp = .error (.twoFactorChallenge body) →
      Runs (answerTwoFactor J backend body selected pin).run t (.error e) →
      GrantRun backend first selected pin (tokenEvent deviceId account hash first resp :: t) (.error e)
  | answered (resp body t answer resp₂) :
      parseResponse J.token "login" resp = .error (.twoFactorChallenge body) →
      Runs (answerTwoFactor J backend body selected pin).run t (.ok (some answer)) →
      GrantRun backend first selected pin
        (tokenEvent deviceId account hash first resp ::
          (t ++ [tokenEvent deviceId account hash (some answer) resp₂]))
        (resubmitted J answer.1 (parseResponse J.token "login" resp₂))

end

section
variable {P : Primitives} {J : Decoders} {deviceId account hash : String}
  {backend : Option CeremonyBackend} {first : Option (UInt8 × String)} {selected : Bool}
  {pin : Option PinSource} {tr : OsTrace}

theorem obtainToken_runs {r : Except ProviderError TokenResponse}
    (h : Runs (obtainToken J deviceId account hash backend first selected pin).run tr r) :
    GrantRun J deviceId account hash backend first (if selected then some (7, "") else first) pin tr r := by
  unfold obtainToken at h
  obtain ⟨t₁, x, t₂, rfl, hcall, h'⟩ := runs_lift_bind.mp h
  obtain ⟨resp, rfl, rfl⟩ := call_runs.mp hcall
  cases hresp : parseResponse J.token "login" resp with
  | ok token =>
    rw [hresp] at h'
    obtain ⟨rfl, rfl⟩ := h'
    exact .granted resp token hresp
  | error e =>
    rw [hresp] at h'
    cases e with
    | twoFactorChallenge body =>
      rcases runs_except_bind.mp h' with ⟨e, rfl, hans⟩ | ⟨t, answer, t₃, rfl, hans, h''⟩
      · exact .failed resp body t₂ e hresp hans
      · cases answer with
        | none =>
          obtain ⟨rfl, rfl⟩ := h''
          rcases answerTwoFactor_runs hans with ⟨hnone, rfl, -⟩ | ⟨_, _, _, _, _, hx⟩ |
            ⟨_, _, _, _, _, _, ⟨_, _, hx⟩ | ⟨_, hx, _⟩⟩
          · exact .unanswered resp body hresp hnone
          all_goals cases hx
        | some answer =>
          obtain ⟨x, hcall₂, rfl⟩ := runs_map.mp h''
          obtain ⟨resp₂, rfl, rfl⟩ := call_runs.mp hcall₂
          exact .answered resp body t answer resp₂ hresp hans
    | transport msg =>
      obtain ⟨rfl, rfl⟩ := h'
      exact .refused resp _ hresp (by simp)
    | status op code detail =>
      obtain ⟨rfl, rfl⟩ := h'
      exact .refused resp _ hresp (by simp)
    | malformed msg =>
      obtain ⟨rfl, rfl⟩ := h'
      exact .refused resp _ hresp (by simp)

end

/-! ## The token requests of a call -/

section
variable {P : Primitives} {J : Decoders} {deviceId account hash : String}
  {backend : Option CeremonyBackend} {first selected : Option (UInt8 × String)}
  {pin : Option PinSource} {tr : OsTrace}

theorem mapApi_ne_challenge {e : ApiError} (h : ∀ body, e ≠ .twoFactorChallenge body)
    {providers : List String} : mapApi J e ≠ .twoFactorRequired providers := by
  cases e with
  | twoFactorChallenge body => exact absurd rfl (h body)
  | status op code detail =>
    simp only [mapApi]
    split_ifs <;> simp
  | transport msg => simp [mapApi]
  | malformed msg => simp [mapApi]

theorem tokenPosts_append (t₁ t₂ : OsTrace) :
    tokenPosts J (t₁ ++ t₂) = tokenPosts J t₁ ++ tokenPosts J t₂ := List.filterMap_append

theorem tokenPosts_prelogin {resp : Except String HttpResp} :
    tokenPosts J (⟨.http (.postJson .prelogin account), resp⟩ :: tr) = tokenPosts J tr := rfl

theorem tokenPosts_grant {resp : Except String HttpResp} :
    tokenPosts J (tokenEvent deviceId account hash first resp :: tr) =
      postOf J deviceId account hash first resp :: tokenPosts J tr := rfl

theorem tokenPosts_ceremony (h : ∀ e ∈ tr, isCeremony e.1) : tokenPosts J tr = [] := by
  refine List.filterMap_eq_nil_iff.mpr (fun e he => ?_)
  have hc := h e he
  obtain ⟨q, x⟩ := e
  cases q <;> first | rfl | exact hc.elim

theorem answerTwoFactor_ceremony {body : String} {x : Except ProviderError (Option (UInt8 × String))}
    (h : Runs (answerTwoFactor J backend body selected pin).run tr x) : tokenPosts J tr = [] := by
  rcases answerTwoFactor_runs h with ⟨-, rfl, -⟩ | ⟨_, _, -, -, rfl, -⟩ | ⟨_, _, -, -, -, hc, -⟩
  · rfl
  · rfl
  · exact tokenPosts_ceremony hc

/-- A grant posts its first request, and after an answered challenge the answer. -/
theorem GrantRun.posts {r : Except ProviderError TokenResponse}
    (h : GrantRun J deviceId account hash backend first selected pin tr r) :
    (∃ resp, tokenPosts J tr = [postOf J deviceId account hash first resp] ∧
      (∀ body, parseResponse J.token "login" resp ≠ .error (.twoFactorChallenge body)) ∧
      (∀ token, r = .ok token → parseResponse J.token "login" resp = .ok token) ∧
      ∀ providers, r ≠ .error (.twoFactorRequired providers)) ∨
    (∃ resp body e, parseResponse J.token "login" resp = .error (.twoFactorChallenge body) ∧
      tokenPosts J tr = [postOf J deviceId account hash first resp] ∧ r = .error e ∧
      (selected = none ∨ ∃ t, Runs (answerTwoFactor J backend body selected pin).run t (.error e))) ∨
    ∃ resp body t answer resp₂, parseResponse J.token "login" resp = .error (.twoFactorChallenge body) ∧
      Runs (answerTwoFactor J backend body selected pin).run t (.ok (some answer)) ∧
      tokenPosts J tr = [postOf J deviceId account hash first resp,
        postOf J deviceId account hash (some answer) resp₂] ∧
      r = resubmitted J answer.1 (parseResponse J.token "login" resp₂) := by
  cases h with
  | granted resp token hresp => exact .inl ⟨resp, rfl, by simp [hresp], by simp [hresp], by simp⟩
  | refused resp e hresp hne =>
    refine .inl ⟨resp, rfl, by simpa [hresp] using hne, by simp, fun providers hp => ?_⟩
    exact mapApi_ne_challenge hne (Except.error.inj hp)
  | unanswered resp body hresp hnone =>
    exact .inr (.inl ⟨resp, body, _, hresp, rfl, rfl, .inl hnone⟩)
  | failed resp body t e hresp hans =>
    refine .inr (.inl ⟨resp, body, e, hresp, ?_, rfl, .inr ⟨t, hans⟩⟩)
    rw [tokenPosts_grant, answerTwoFactor_ceremony hans]
  | answered resp body t answer resp₂ hresp hans =>
    refine .inr (.inr ⟨resp, body, t, answer, resp₂, hresp, hans, ?_, rfl⟩)
    rw [tokenPosts_grant, tokenPosts_append, answerTwoFactor_ceremony hans]
    rfl

theorem openSession_posts {masterKey : Block 32} {token : TokenResponse} {x : Except ProviderError Session}
    (h : Runs (openSession P J account masterKey token).run tr x) : tokenPosts J tr = [] := by
  unfold openSession at h
  rcases runs_settled_bind.mp h with ⟨_, -, rfl, -⟩ | ⟨_, -, h'⟩
  · rfl
  · obtain ⟨t₁, now, t₂, rfl, hclock, rfl, -⟩ := runs_lift_bind.mp h'
    obtain rfl := runs_request.mp hclock
    rfl

/-- The factor a challenge is answered with. -/
def selectedFactor (backend : Option CeremonyBackend) (second : Option (UInt8 × String)) :
    Option (UInt8 × String) :=
  if (plainFirst backend second).2 then some (7, "") else (plainFirst backend second).1

/-- A call sends no token request, or it is a prelogin, a grant, and what comes of it. -/
theorem login_runs {p : VaultwardenProvider} {params : LoginParams} {x : Except ProviderError Session}
    (h : Runs (login P J p params).run tr x) :
    (tokenPosts J tr = [] ∧ ∃ e, x = .error e) ∨
    ∃ second resp pre masterKey t r, wireFactor params.secondFactor = .ok second ∧
      tr.head? = some ⟨.http (.postJson .prelogin params.account), resp⟩ ∧
      parseResponse J.value "prelogin" resp = .ok pre ∧
      deriveMasterKey P params.secret params.account (kdfFromJson pre) = .ok masterKey ∧
      GrantRun J p.deviceId params.account (authHash P params.secret masterKey) p.backend
        (plainFirst p.backend second).1 (selectedFactor p.backend second) params.pinSource t r ∧
      tokenPosts J tr = tokenPosts J t ∧
      ((∃ e, r = .error e ∧ x = .error e) ∨
       ∃ token t', r = .ok token ∧ Runs (openSession P J params.account masterKey token).run t' x) := by
  unfold login at h
  rcases runs_settled_bind.mp h with ⟨e, -, rfl, rfl⟩ | ⟨second, hfactor, h₁⟩
  · exact .inl ⟨rfl, e, rfl⟩
  rcases runs_except_bind.mp h₁ with ⟨e, rfl, hpre⟩ | ⟨t₁, pre, t₂, rfl, hpre, h₂⟩
  · obtain ⟨_, hcall, -⟩ := runs_map.mp hpre
    obtain ⟨resp, rfl, -⟩ := call_runs.mp hcall
    exact .inl ⟨rfl, e, rfl⟩
  obtain ⟨y, hcall, hy⟩ := runs_map.mp hpre
  obtain ⟨resp, rfl, rfl⟩ := call_runs.mp hcall
  have hparse : parseResponse J.value "prelogin" resp = .ok pre := by
    cases hv : parseResponse J.value "prelogin" resp with
    | error e => rw [hv] at hy; cases hy
    | ok v => rw [hv] at hy; cases hy; rfl
  rcases runs_settled_bind.mp h₂ with ⟨e, -, rfl, rfl⟩ | ⟨masterKey, hkey, h₃⟩
  · exact .inl ⟨rfl, e, rfl⟩
  have hderive : deriveMasterKey P params.secret params.account (kdfFromJson pre) = .ok masterKey := by
    cases hv : deriveMasterKey P params.secret params.account (kdfFromJson pre) with
    | error e => rw [hv] at hkey; cases hkey
    | ok v => rw [hv] at hkey; cases hkey; rfl
  rcases runs_except_bind.mp h₃ with ⟨e, rfl, hgrant⟩ | ⟨t, token, t', rfl, hgrant, hopen⟩
  · exact .inr ⟨second, resp, pre, masterKey, t₂, _, hfactor, rfl, hparse, hderive,
      obtainToken_runs hgrant, rfl, .inl ⟨e, rfl, rfl⟩⟩
  · refine .inr ⟨second, resp, pre, masterKey, t, _, hfactor, rfl, hparse, hderive,
      obtainToken_runs hgrant, ?_, .inr ⟨token, t', rfl, hopen⟩⟩
    rw [tokenPosts_append, tokenPosts_append, openSession_posts hopen, List.append_nil]
    rfl

end

/-! ## The budget of one call -/

section
variable {P : Primitives} {J : Decoders} {backend : Option CeremonyBackend}
  {second : Option (UInt8 × String)} {tr : OsTrace} {p : VaultwardenProvider} {params : LoginParams}
  {x : Except ProviderError Session}

@[simp] theorem selectedFactor_none : selectedFactor backend none = none := rfl

theorem selectedFactor_some (backend : Option CeremonyBackend) (f : UInt8 × String) :
    ∃ g, selectedFactor backend (some f) = some g := by
  by_cases h : backend.isSome ∧ f.1 = 7
  · exact ⟨(7, ""), by simp [selectedFactor, plainFirst, h]⟩
  · exact ⟨f, by simp [selectedFactor, plainFirst, h]⟩

/-- With a ceremony backend no first grant is a key's, and a key's first grant is bare. -/
theorem plainFirst_hardware (hback : backend.isSome = true) {n : UInt8} {code : String} :
    ((plainFirst backend second).1 = some (n, code) → n ≠ 7) ∧
    (selectedFactor backend second = some (n, code) → n = 7 → (plainFirst backend second).1 = none) := by
  cases second with
  | none => simp [plainFirst]
  | some f =>
    by_cases h : f.1 = 7
    · simp [selectedFactor, plainFirst, hback, h]
    · have hfirst : plainFirst backend (some f) = (some f, false) := by simp [plainFirst, h]
      rw [selectedFactor, hfirst]
      simp only [Bool.false_eq_true, if_false]
      refine ⟨?_, ?_⟩
      · intro hf
        cases hf
        exact h
      · intro hf h7
        cases hf
        exact absurd h7 h

theorem wireFactor_none (h : wireFactor none = .ok second) : second = none := by
  cases h
  rfl

theorem wireFactor_some {f : SecondFactor} (h : wireFactor (some f) = .ok second) :
    ∃ n, second = some (n, f.code) := by
  unfold wireFactor at h
  cases htag : tagToWireId f.providerTag with
  | none => simp [htag] at h
  | some n => exact ⟨n, by simpa [htag] using h.symm⟩

/-- At most two token requests, and one where there is no second factor. -/
theorem login_posts_le (h : Runs (login P J p params).run tr x) :
    (tokenPosts J tr).length ≤ 2 ∧ (params.secondFactor = none → (tokenPosts J tr).length ≤ 1) := by
  rcases login_runs h with ⟨hnone, -⟩ | ⟨second, _, _, _, t, r, hsecond, -, -, -, hgrant, hposts, -⟩
  · simp [hnone]
  rw [hposts]
  rcases hgrant.posts with ⟨resp, hone, -⟩ | ⟨resp, _, _, -, hone, -⟩ | ⟨resp, _, _, _, _, -, hans, htwo, -⟩
  · simp [hone]
  · simp [hone]
  · refine ⟨by simp [htwo], fun hnone => ?_⟩
    rw [hnone] at hsecond
    rw [wireFactor_none hsecond, selectedFactor_none] at hans
    rcases answerTwoFactor_runs hans with ⟨-, -, hx⟩ | ⟨_, _, hx, -⟩ | ⟨_, _, hx, -⟩ <;> cases hx

theorem resubmitted_ne_challenge {n : UInt8} {y : Except ApiError TokenResponse} {providers : List String} :
    resubmitted J n y ≠ .error (.twoFactorRequired providers) := by
  cases y with
  | ok token => simp [resubmitted]
  | error e =>
    cases e with
    | twoFactorChallenge body => simp [resubmitted]
    | _ => exact fun hp => mapApi_ne_challenge (by simp) (Except.error.inj hp)

theorem openSession_ne_challenge {account : String} {masterKey : Block 32} {token : TokenResponse}
    {providers : List String} (h : Runs (openSession P J account masterKey token).run tr x) :
    x ≠ .error (.twoFactorRequired providers) := by
  unfold openSession at h
  rcases runs_settled_bind.mp h with ⟨e, he, -, rfl⟩ | ⟨_, -, h'⟩
  · rintro ⟨⟩
    cases hk : (do
      let es ← EncString.parse token.key
      SymmetricKey.from64 (← es.decryptSymmetric P (stretchMasterKey P masterKey)) :
        Except CryptoError SymmetricKey) with
    | ok key => rw [unwrapUserKey, hk] at he; cases he
    | error e => rw [unwrapUserKey, hk] at he; cases he
  · obtain ⟨t₁, now, t₂, rfl, -, -, rfl⟩ := runs_lift_bind.mp h'
    unfold encodeVwSession
    split <;> simp

/-- With a second factor no answer of the token endpoint is a challenge to the caller. -/
theorem login_settles (hfactor : params.secondFactor.isSome = true)
    (h : Runs (login P J p params).run tr x) {providers : List String}
    (hx : x = .error (.twoFactorRequired providers)) : tokenPosts J tr = [] := by
  obtain ⟨f, hf⟩ := Option.isSome_iff_exists.mp hfactor
  rcases login_runs h with ⟨hnone, -⟩ | ⟨second, _, _, _, t, r, hsecond, -, -, -, hgrant, -, hend⟩
  · exact hnone
  -- a factor that is given is the one selected, and none of its outcomes is a challenge
  exfalso
  subst hx
  rw [hf] at hsecond
  obtain ⟨n, rfl⟩ := wireFactor_some hsecond
  obtain ⟨g, hg⟩ := selectedFactor_some p.backend (n, f.code)
  rcases hend with ⟨e, rfl, he⟩ | ⟨token, t', -, hopen⟩
  · cases he
    rcases hgrant.posts with ⟨_, -, -, -, hne⟩ | ⟨_, _, e, -, -, he, hno⟩ | ⟨_, _, _, _, _, -, -, -, he⟩
    · exact hne providers rfl
    · cases he
      rcases hno with hnone | ⟨t', ht'⟩
      · rw [hg] at hnone
        cases hnone
      · rcases answerTwoFactor_runs ht' with ⟨-, -, hx⟩ | ⟨_, _, -, -, -, hx⟩ |
          ⟨_, _, -, -, -, -, ⟨-, _, hx⟩ | ⟨e, hx, hne⟩⟩
        · cases hx
        · cases hx
        · cases hx
        · cases hx
          exact hne providers rfl
    · exact resubmitted_ne_challenge he.symm
  · exact openSession_ne_challenge hopen rfl

/-- A request without a second factor. -/
def TokenPost.bare (post : TokenPost) : Prop := post.provider = none ∧ post.token = none

theorem postOf_seven {deviceId account hash : String} {factor : Option (UInt8 × String)}
    {resp : Except String HttpResp}
    (h : (postOf J deviceId account hash factor resp).provider = some "7") :
    ∃ code, factor = some (7, code) := by
  rw [TokenPost.provider, postOf, form_provider] at h
  cases factor with
  | none => cases h
  | some f =>
    have hseven : f.1.toNat = (7 : UInt8).toNat := toString_injective (Option.some.inj h)
    exact ⟨f.2, by rw [← UInt8.toNat.inj hseven]⟩

theorem single_split {α : Type} {a b : α} {before after : List α} (h : [a] = before ++ b :: after) :
    before = [] ∧ b = a := by
  cases before with
  | nil => cases h; exact ⟨rfl, rfl⟩
  | cons c before => simp at h

theorem pair_split {α : Type} {a₁ a₂ b : α} {before after : List α}
    (h : [a₁, a₂] = before ++ b :: after) : (before = [] ∧ b = a₁) ∨ before = [a₁] ∧ b = a₂ := by
  cases before with
  | nil => cases h; exact .inl ⟨rfl, rfl⟩
  | cons c before =>
    obtain ⟨rfl, hrest⟩ := List.cons.inj h
    obtain ⟨rfl, rfl⟩ := single_split hrest
    exact .inr ⟨rfl, rfl⟩

/-- A key's token goes out after a challenge to a bare request of the same call. -/
theorem login_hardware (hback : p.backend.isSome = true) (h : Runs (login P J p params).run tr x)
    {before after : List TokenPost} {post : TokenPost} (hsplit : tokenPosts J tr = before ++ post :: after)
    (hseven : post.provider = some "7") : ∃ first, before = [first] ∧ first.bare ∧ first.challenged := by
  rcases login_runs h with ⟨hnone, -⟩ | ⟨second, _, _, masterKey, t, r, -, -, -, -, hgrant, hposts, -⟩
  · rw [hnone] at hsplit
    cases before <;> cases hsplit
  -- the first request is never a key's
  have hfirst : ∀ resp, post ≠ postOf J p.deviceId params.account
      (authHash P params.secret masterKey) (plainFirst p.backend second).1 resp := by
    rintro resp rfl
    obtain ⟨code, hc⟩ := postOf_seven hseven
    exact (plainFirst_hardware hback).1 hc rfl
  rw [hposts] at hsplit
  rcases hgrant.posts with ⟨resp, hone, -⟩ | ⟨resp, _, _, -, hone, -⟩ |
    ⟨resp, body, t', answer, resp₂, hresp, hans, htwo, -⟩
  · rw [hone] at hsplit
    exact absurd (single_split hsplit).2 (hfirst resp)
  · rw [hone] at hsplit
    exact absurd (single_split hsplit).2 (hfirst resp)
  · rw [htwo] at hsplit
    rcases pair_split hsplit with ⟨-, rfl⟩ | ⟨rfl, rfl⟩
    · exact absurd rfl (hfirst resp)
    obtain ⟨code, hanswer⟩ := postOf_seven hseven
    cases hanswer
    -- the key answered, so it was selected, and the first request went out bare
    have hselected : ∃ code, selectedFactor p.backend second = some (7, code) := by
      rcases answerTwoFactor_runs hans with ⟨-, -, hx⟩ | ⟨n, code', hs, -, -, hx⟩ |
        ⟨n, code', hs, -, -, -, ⟨rfl, token, hx⟩ | ⟨e, hx, -⟩⟩
      · cases hx
      · cases hx
        exact ⟨code, hs⟩
      · exact ⟨code', hs⟩
      · cases hx
    obtain ⟨code', hs⟩ := hselected
    have hplain := (plainFirst_hardware hback).2 hs rfl
    refine ⟨_, rfl, ?_, body, hresp⟩
    rw [TokenPost.bare, TokenPost.provider, TokenPost.token, postOf, form_provider, form_token, hplain]
    exact ⟨rfl, rfl⟩

/-- The key of the token unwraps under the master key that the call derived. -/
def UnwrapsKey (P : Primitives) (J : Decoders) (params : LoginParams) (tr : OsTrace)
    (token : TokenResponse) : Prop :=
  ∃ resp pre masterKey userKey, tr.head? = some ⟨.http (.postJson .prelogin params.account), resp⟩ ∧
    parseResponse J.value "prelogin" resp = .ok pre ∧
    deriveMasterKey P params.secret params.account (kdfFromJson pre) = .ok masterKey ∧
    unwrapUserKey P token.key masterKey = .ok userKey ∧ userKey.bytes.length = 64

theorem resubmitted_ok {n : UInt8} {y : Except ApiError TokenResponse} {token : TokenResponse}
    (h : resubmitted J n y = .ok token) : y = .ok token := by
  cases y with
  | ok token' => exact congrArg _ (Except.ok.inj h)
  | error e => cases e <;> simp [resubmitted] at h

theorem openSession_unwraps {account : String} {masterKey : Block 32} {token : TokenResponse} {s : Session}
    (h : Runs (openSession P J account masterKey token).run tr (.ok s)) :
    ∃ userKey, unwrapUserKey P token.key masterKey = .ok userKey := by
  unfold openSession at h
  rcases runs_settled_bind.mp h with ⟨_, -, -, he⟩ | ⟨userKey, hkey, -⟩
  · cases he
  · exact ⟨userKey, hkey⟩

/-- A session comes of the last token response, whose key unwrapped. -/
theorem login_unwraps {s : Session} (h : Runs (login P J p params).run tr (.ok s)) :
    ∃ post token, (tokenPosts J tr).getLast? = some post ∧ post.answer = .ok token ∧
      UnwrapsKey P J params tr token := by
  rcases login_runs h with ⟨-, _, he⟩ | ⟨second, resp, pre, masterKey, t, r, -, hhead, hpre, hderive,
    hgrant, hposts, ⟨_, -, he⟩ | ⟨token, t', rfl, hopen⟩⟩
  · cases he
  · cases he
  obtain ⟨userKey, hkey⟩ := openSession_unwraps hopen
  have hunwraps : UnwrapsKey P J params tr token :=
    ⟨resp, pre, masterKey, userKey, hhead, hpre, hderive, hkey, userKey.bytes_length⟩
  rw [hposts]
  rcases hgrant.posts with ⟨_, hone, -, hok, -⟩ | ⟨_, _, _, -, -, he, -⟩ | ⟨_, _, _, _, _, -, -, htwo, hr⟩
  · exact ⟨_, token, by rw [hone]; rfl, hok token rfl, hunwraps⟩
  · cases he
  · exact ⟨_, token, by rw [htwo]; rfl, resubmitted_ok hr.symm, hunwraps⟩

end

/-! ## One submission of a code -/

/-- The request carries the code. -/
def TokenPost.carries (code : String) (post : TokenPost) : Bool := post.token == some code

/-- The code is posted at most once, and where it is not granted the call fails. -/
def SubmitsOnce (J : Decoders) (code : String) (tr : OsTrace) (x : Except ProviderError Session) : Prop :=
  ((tokenPosts J tr).filter (TokenPost.carries code)).length ≤ 1 ∧
  ∀ post ∈ tokenPosts J tr, post.carries code = true → (∀ token, post.answer ≠ .ok token) →
    ∃ e, x = .error e

section
variable {P : Primitives} {J : Decoders} {deviceId account hash : String}
  {backend : Option CeremonyBackend} {pin : Option PinSource} {tr : OsTrace}

theorem postOf_carries (n : UInt8) (code : String) (resp : Except String HttpResp) :
    (postOf J deviceId account hash (some (n, code)) resp).carries code = true := by
  simp [TokenPost.carries, TokenPost.token, postOf, form_token]

/-- A code is its own answer: a challenge to the first request posts it again. -/
theorem GrantRun.code_posts {n : UInt8} {code : String} (hn : n = 0 ∨ n = 1)
    {r : Except ProviderError TokenResponse}
    (h : GrantRun J deviceId account hash backend (some (n, code)) (some (n, code)) pin tr r) :
    (∃ resp, tokenPosts J tr = [postOf J deviceId account hash (some (n, code)) resp] ∧
      ¬ (postOf J deviceId account hash (some (n, code)) resp).challenged ∧
      ∀ token, r = .ok token → parseResponse J.token "login" resp = .ok token) ∨
    ∃ resp resp₂, (postOf J deviceId account hash (some (n, code)) resp).challenged ∧
      tokenPosts J tr = [postOf J deviceId account hash (some (n, code)) resp,
        postOf J deviceId account hash (some (n, code)) resp₂] := by
  -- whatever the challenge says, the answer is the code that was just sent
  have hanswer : ∀ {body t x}, Runs (answerTwoFactor J backend body (some (n, code)) pin).run t x →
      x = .ok (some (n, code)) := by
    intro body t x hx
    rcases answerTwoFactor_runs hx with ⟨h₀, -, -⟩ | ⟨_, _, h₀, -, -, rfl⟩ | ⟨_, _, h₀, hne₀, hne₁, -, -⟩
    · cases h₀
    · cases h₀; rfl
    · cases h₀
      exact absurd hn (by simp [hne₀, hne₁])
  rcases h.posts with ⟨resp, hposts, hne, hok, -⟩ | ⟨resp, body, e, hresp, -, -, hno⟩ |
    ⟨resp, body, t, answer, resp₂, hresp, hans, hposts, -⟩
  · exact .inl ⟨resp, hposts, fun ⟨body, hc⟩ => hne body hc, hok⟩
  · rcases hno with hnone | ⟨t, ht⟩
    · cases hnone
    · cases hanswer ht
  · cases hanswer hans
    exact .inr ⟨resp, resp₂, ⟨body, hresp⟩, hposts⟩

theorem submitsOnce_none {code : String} {x : Except ProviderError Session}
    (hposts : tokenPosts J tr = []) :
    SubmitsOnce J code tr x ↔ ∀ post ∈ (tokenPosts J tr).head?, ¬ post.challenged := by
  simp [SubmitsOnce, hposts]

theorem submitsOnce_single {code : String} {post : TokenPost} {x : Except ProviderError Session}
    (hposts : tokenPosts J tr = [post]) (hne : ¬ post.challenged)
    (hfail : (∀ token, post.answer ≠ .ok token) → ∃ e, x = .error e) :
    SubmitsOnce J code tr x ↔ ∀ post ∈ (tokenPosts J tr).head?, ¬ post.challenged := by
  rw [SubmitsOnce, hposts]
  refine ⟨?_, ?_⟩
  · rintro - _ ⟨⟩
    exact hne
  · intro _
    refine ⟨List.length_filter_le _ _, ?_⟩
    intro post' hpost _ hnot
    cases List.mem_singleton.mp hpost
    exact hfail hnot

theorem submitsOnce_twice {code : String} {post post₂ : TokenPost} {x : Except ProviderError Session}
    (hposts : tokenPosts J tr = [post, post₂]) (hchallenged : post.challenged)
    (hcarries : post.carries code = true) (hcarries₂ : post₂.carries code = true) :
    SubmitsOnce J code tr x ↔ ∀ post ∈ (tokenPosts J tr).head?, ¬ post.challenged := by
  rw [SubmitsOnce, hposts]
  refine ⟨?_, ?_⟩
  · intro h
    obtain ⟨hlen, -⟩ := h
    simp [hcarries, hcarries₂] at hlen
  · intro hhead
    exact absurd hchallenged (hhead post rfl)

/-- A code is posted once, and its rejection ends the call, exactly if the first
token request is not answered with a two-factor challenge. -/
theorem login_submits_code_once_iff {p : VaultwardenProvider} {params : LoginParams} {f : SecondFactor}
    {x : Except ProviderError Session} (hfactor : params.secondFactor = some f)
    (htag : f.providerTag = "totp" ∨ f.providerTag = "email")
    (h : Runs (login P J p params).run tr x) :
    SubmitsOnce J f.code tr x ↔ ∀ post ∈ (tokenPosts J tr).head?, ¬ post.challenged := by
  obtain ⟨n, hn, hwire⟩ : ∃ n : UInt8, (n = 0 ∨ n = 1) ∧
      wireFactor params.secondFactor = .ok (some (n, f.code)) := by
    rcases htag with ht | ht
    · exact ⟨0, .inl rfl, by simp [hfactor, wireFactor, tagToWireId, ht]⟩
    · exact ⟨1, .inr rfl, by simp [hfactor, wireFactor, tagToWireId, ht]⟩
  have hplain : plainFirst p.backend (some (n, f.code)) = (some (n, f.code), false) := by
    rcases hn with rfl | rfl <;> simp [plainFirst]
  rcases login_runs h with ⟨hnone, -⟩ | ⟨_, _, _, _, t, r, hsecond, -, -, -, hgrant, hposts, hx⟩
  · exact submitsOnce_none hnone
  rw [hwire] at hsecond
  cases hsecond
  rw [selectedFactor, hplain] at hgrant
  rcases hgrant.code_posts hn with ⟨resp₁, hone, hne, hok⟩ | ⟨resp₁, resp₂, hchallenged, htwo⟩
  · refine submitsOnce_single (hposts.trans hone) hne (fun hnot => ?_)
    rcases hx with ⟨e, -, rfl⟩ | ⟨token, _, rfl, -⟩
    · exact ⟨e, rfl⟩
    · exact absurd (hok token rfl) (hnot token)
  · exact submitsOnce_twice (hposts.trans htwo) hchallenged (postOf_carries n _ _) (postOf_carries n _ _)

end

/-! ## A server that rejects every code -/

section
variable {P : Primitives} {J : Decoders} {p : VaultwardenProvider} {params : LoginParams} {n : UInt8}
  {code : String} {second first : Option (UInt8 × String)} {selected : Bool} {pre : Json}
  {masterKey : Block 32} {resp₀ resp : Except String HttpResp} {t : OsTrace}

/-- A call, from the runs of its parts. -/
theorem login_runs_of {x : Except ProviderError Session}
    (hwire : wireFactor params.secondFactor = .ok second)
    (hplain : plainFirst p.backend second = (first, selected))
    (hpre : parseResponse J.value "prelogin" resp₀ = .ok pre)
    (hderive : deriveMasterKey P params.secret params.account (kdfFromJson pre) = .ok masterKey)
    (h : Runs (obtainToken J p.deviceId params.account (authHash P params.secret masterKey) p.backend
      first selected params.pinSource >>= openSession P J params.account masterKey).run t x) :
    Runs (login P J p params).run (⟨.http (.postJson .prelogin params.account), resp₀⟩ :: t) x := by
  have hprelogin : Runs (liftApi J (apiPrelogin J params.account)).run
      [⟨.http (.postJson .prelogin params.account), resp₀⟩] (.ok pre) :=
    runs_map.mpr ⟨_, call_runs.mpr ⟨resp₀, rfl, rfl⟩, by rw [hpre]; rfl⟩
  unfold login
  refine runs_settled_bind.mpr (.inr ⟨_, hwire, ?_⟩)
  refine runs_except_bind.mpr (.inr ⟨_, pre, t, rfl, hprelogin, ?_⟩)
  refine runs_settled_bind.mpr (.inr ⟨masterKey, by rw [hderive]; rfl, ?_⟩)
  rw [hplain]
  exact h

variable {deviceId account hash : String} {backend : Option CeremonyBackend} {pin : Option PinSource}

theorem obtainToken_granted {token : TokenResponse}
    (hresp : parseResponse J.token "login" resp = .ok token) :
    Runs (obtainToken J deviceId account hash backend first selected pin).run
      [tokenEvent deviceId account hash first resp] (.ok token) := by
  unfold obtainToken
  refine runs_lift_bind.mpr ⟨_, _, [], rfl, call_runs.mpr ⟨resp, rfl, rfl⟩, ?_⟩
  rw [hresp]
  exact ⟨rfl, rfl⟩

theorem obtainToken_unanswered {body : String}
    (hresp : parseResponse J.token "login" resp = .error (.twoFactorChallenge body)) :
    Runs (obtainToken J deviceId account hash backend none false pin).run
      [tokenEvent deviceId account hash none resp] (.error (mapApi J (.twoFactorChallenge body))) := by
  unfold obtainToken
  refine runs_lift_bind.mpr ⟨_, _, [], rfl, call_runs.mpr ⟨resp, rfl, rfl⟩, ?_⟩
  rw [hresp]
  exact runs_except_bind.mpr (.inr ⟨[], none, [], rfl, ⟨rfl, rfl⟩, ⟨rfl, rfl⟩⟩)

theorem openSession_opened {token : TokenResponse} {userKey : SymmetricKey} {now : Option UInt64}
    {s : Session} (hkey : unwrapUserKey P token.key masterKey = .ok userKey)
    (hs : ∀ sess, encodeVwSession J sess = .ok s) :
    Runs (openSession P J account masterKey token).run [⟨.systemTime, now⟩] (.ok s) := by
  unfold openSession
  refine runs_settled_bind.mpr (.inr ⟨userKey, hkey, ?_⟩)
  exact runs_lift_bind.mpr ⟨_, now, [], rfl, runs_request.mpr rfl, rfl, (hs _).symm⟩

/-- A call whose first request is granted. -/
theorem login_runs_ok {token : TokenResponse} {userKey : SymmetricKey} {s : Session}
    (hwire : wireFactor params.secondFactor = .ok second)
    (hplain : plainFirst p.backend second = (first, selected))
    (hpre : parseResponse J.value "prelogin" resp₀ = .ok pre)
    (hderive : deriveMasterKey P params.secret params.account (kdfFromJson pre) = .ok masterKey)
    (hresp : parseResponse J.token "login" resp = .ok token)
    (hkey : unwrapUserKey P token.key masterKey = .ok userKey)
    (hs : ∀ sess, encodeVwSession J sess = .ok s) : ∃ t, Runs (login P J p params).run t (.ok s) :=
  ⟨_, login_runs_of hwire hplain hpre hderive (runs_except_bind.mpr (.inr
    ⟨_, token, [⟨.systemTime, none⟩], rfl, obtainToken_granted hresp, openSession_opened hkey hs⟩))⟩

theorem obtainToken_rejected {err : ApiError} (hresp : parseResponse J.token "login" resp = .error err)
    (hne : ∀ body, err ≠ .twoFactorChallenge body) :
    Runs (obtainToken J deviceId account hash backend (some (n, code)) false pin).run
      [tokenEvent deviceId account hash (some (n, code)) resp] (.error (mapApi J err)) := by
  unfold obtainToken
  refine runs_lift_bind.mpr ⟨_, _, [], rfl, call_runs.mpr ⟨resp, rfl, rfl⟩, ?_⟩
  rw [hresp]
  cases err with
  | twoFactorChallenge body => exact absurd rfl (hne body)
  | transport msg => exact ⟨rfl, rfl⟩
  | status op code detail => exact ⟨rfl, rfl⟩
  | malformed msg => exact ⟨rfl, rfl⟩

theorem obtainToken_rechallenged {body body₂ : String} {resp₂ : Except String HttpResp}
    (hn : n = 0 ∨ n = 1)
    (hresp : parseResponse J.token "login" resp = .error (.twoFactorChallenge body))
    (hresp₂ : parseResponse J.token "login" resp₂ = .error (.twoFactorChallenge body₂)) :
    Runs (obtainToken J deviceId account hash backend (some (n, code)) false pin).run
      [tokenEvent deviceId account hash (some (n, code)) resp,
        tokenEvent deviceId account hash (some (n, code)) resp₂]
      (.error (.auth ("two-factor " ++ toString n ++ " answer rejected: server re-challenged"))) := by
  have hanswer : Runs (answerTwoFactor J backend body (some (n, code)) pin).run []
      (.ok (some (n, code))) := by
    simp only [answerTwoFactor, hn, if_true]
    exact ⟨rfl, rfl⟩
  unfold obtainToken
  refine runs_lift_bind.mpr ⟨_, _, [tokenEvent deviceId account hash (some (n, code)) resp₂], rfl,
    call_runs.mpr ⟨resp, rfl, rfl⟩, ?_⟩
  rw [hresp]
  refine runs_except_bind.mpr (.inr ⟨[], some (n, code), _, rfl, hanswer, ?_⟩)
  exact runs_map.mpr ⟨_, call_runs.mpr ⟨resp₂, rfl, rfl⟩, by rw [hresp₂]; rfl⟩

end

/-- Decoders that know an empty prelogin body. -/
def preloginDecoders : Decoders := { oneDecoders with value := fun _ => .ok (.object []) }

def totpParams : LoginParams := ⟨"a@b", "master", some ⟨"totp", "123456"⟩, none⟩

theorem prelogin_response :
    parseResponse preloginDecoders.value "prelogin" (.ok ⟨200, ""⟩) = .ok (.object []) := by
  have h200 : isSuccess 200 = true := by decide
  simp [parseResponse, h200, preloginDecoders]

theorem challenge_response {decode : String → Except String TokenResponse} : parseResponse decode "login"
    (.ok ⟨400, "Two factor required."⟩) = .error (.twoFactorChallenge "Two factor required.") := by
  have h400 : isSuccess 400 = false := by decide
  have hchallenge : isChallenge ⟨400, "Two factor required."⟩ = true := by decide
  simp [parseResponse, h400, hchallenge]

theorem invalid_response : parseResponse preloginDecoders.token "login" (.ok ⟨400, "Invalid TOTP code!"⟩) =
    .error (.status "login" 400 (sanitize "Invalid TOTP code!")) := by
  have h400 : isSuccess 400 = false := by decide
  have hchallenge : isChallenge ⟨400, "Invalid TOTP code!"⟩ = false := by decide
  simp [parseResponse, h400, hchallenge]

theorem totp_wire : wireFactor totpParams.secondFactor = .ok (some (0, "123456")) := by
  simp [totpParams, wireFactor, tagToWireId]

theorem totp_plain {backend : Option CeremonyBackend} {code : String} :
    plainFirst backend (some (0, code)) = (some (0, code), false) := by
  simp [plainFirst]

theorem derive_zero : deriveMasterKey plainPrimitives totpParams.secret totpParams.account
    (kdfFromJson (.object [])) = .ok (zeros 32) := rfl

/-- A wrong code that is rejected with an error: it was posted once. -/
theorem login_submits_code_once_iff_invalid : ∃ tr x,
    Runs (login plainPrimitives preloginDecoders ⟨"device", none, some .fidoh⟩ totpParams).run tr x ∧
    (SubmitsOnce preloginDecoders "123456" tr x ↔
      ∀ post ∈ (tokenPosts preloginDecoders tr).head?, ¬ post.challenged) :=
  have hruns := login_runs_of (p := ⟨"device", none, some .fidoh⟩) totp_wire totp_plain prelogin_response
    derive_zero (runs_except_bind.mpr
      (.inl ⟨_, rfl, obtainToken_rejected invalid_response (by simp)⟩))
  ⟨_, _, hruns, login_submits_code_once_iff rfl (.inl rfl) hruns⟩

/-- A wrong code that is rejected with a fresh challenge: it is posted again. -/
theorem code_posted_twice : ∃ tr x,
    Runs (login plainPrimitives preloginDecoders ⟨"device", none, some .fidoh⟩ totpParams).run tr x ∧
    totpParams.secondFactor = some ⟨"totp", "123456"⟩ ∧
    ((tokenPosts preloginDecoders tr).filter (TokenPost.carries "123456")).length = 2 ∧
    ¬ SubmitsOnce preloginDecoders "123456" tr x := by
  have hruns := login_runs_of (p := ⟨"device", none, some .fidoh⟩) totp_wire totp_plain prelogin_response
    derive_zero (runs_except_bind.mpr
      (.inl ⟨_, rfl, obtainToken_rechallenged (.inl rfl) challenge_response challenge_response⟩))
  refine ⟨_, _, hruns, rfl, ?_⟩
  rw [SubmitsOnce, tokenPosts_prelogin, tokenPosts_grant, tokenPosts_grant]
  simp [tokenPosts, postOf_carries]

end Cryptile
