import Cryptile.Host
import Cryptile.SessionUse
import Cryptile.StateCell
import Cryptile.Vaultwarden.Addressing
import Cryptile.Vaultwarden.NullTolerance

/-
  EndToEnd — what a command prints is what the account holds

  An account is a payload that its server serves to the access tokens it honours; any
  other token is answered 401. A command that finds the state of a login, in a keyring
  that its passphrase opens, prints what the scan of that payload gives, and ends with
  the exit code of that answer: with a token that has expired, as long as it can be
  refreshed, whatever else happens to a refresh, whatever is in the cache but the index
  of another payload, whatever becomes of the re-seal and of the hand-off to the agent.
-/

namespace Cryptile
open Text Interaction JsonText

/-! ## The retry rule in known surroundings -/

section
variable {W : ∀ q, CliAns q → Prop} {β γ : Type} {once : Attempt β} {good opened : Session → Prop}
  {x : Except ProviderError β} {s : Session}

/-- With a good session the attempt has one answer; with any other that opens it has
that answer too, or finds the session expired. -/
structure OneAnswer (W : ∀ q, CliAns q → Prop) (good opened : Session → Prop) (once : Attempt β)
    (x : Except ProviderError β) : Prop where
  live : ∀ s r, good s → Returns W (once s).run r → r = x.map (fun b => (s, b))
  expiring : ∀ s r, opened s → Returns W (once s).run r →
    r = x.map (fun b => (s, b)) ∨ r = .error .authExpired
  settled : x ≠ .error .authExpired

/-- What a refresh can do to a session: a session that is refreshed is good, and one
that is not good can be. -/
structure Renewable (W : ∀ q, CliAns q → Prop) (good : Session → Prop) (s : Session) : Prop where
  renewed : ∀ s', W (.provider (.refreshSession s)) (.ok s') → good s'
  alive : good s ∨ ∀ y, W (.provider (.refreshSession s)) y → ∃ s', y = .ok s'

/-- The session of the first attempt is good, unless it is the one that was loaded. -/
theorem FreshRun.attempts {tr : CliTrace} {s₀ : Session} (h : FreshRun s tr s₀) (hs : Renewable W good s)
    (hW : Within W tr) : good s₀ ∨ s₀ = s := by
  cases h with
  | unknown => exact .inr rfl
  | fresh _ _ _ => exact .inr rfl
  | refused _ _ _ _ => exact .inr rfl
  | rotated exp t _ _ =>
    have hrefresh : refreshEvent s (.ok s₀) ∈ ([⟨.provider (.sessionExpiry s), some exp⟩, ⟨.systemTime, t⟩,
        refreshEvent s (.ok s₀)] : CliTrace) := by simp
    exact .inl (hs.renewed s₀ (hW _ hrefresh))

/-- Where refreshing works, a session that has expired changes no answer. -/
theorem withRetry_answers (h : OneAnswer W good opened once x) (hs : Renewable W good s) (hopen : opened s)
    {tr : CliTrace} {r : Except ProviderError (Session × β)} (hrun : RetryRun once s tr r)
    (hW : Within W tr) : ∃ s', r = x.map (fun b => (s', b)) := by
  have hfirst : ∀ {t₀ t₁ s₀ r}, FreshRun s t₀ s₀ → Within W t₀ → Runs (once s₀).run t₁ r → Within W t₁ →
      r = x.map (fun b => (s₀, b)) ∨ s₀ = s ∧ ¬ good s ∧ r = .error .authExpired := by
    intro t₀ t₁ s₀ r hfresh hW₀ h₁ hW₁
    have hreturns := h₁.returns hW₁
    rcases hfresh.attempts hs hW₀ with hgood | rfl
    · exact .inl (h.live s₀ r hgood hreturns)
    · by_cases hgood : good s₀
      · exact .inl (h.live s₀ r hgood hreturns)
      · exact (h.expiring s₀ r hopen hreturns).imp_right (fun he => ⟨rfl, hgood, he⟩)
  cases hrun with
  | @settled t₀ s₀ t₁ _ h₀ h₁ hsettled =>
    obtain ⟨hW₀, hW₁⟩ := within_append.mp hW
    obtain he | ⟨-, -, he⟩ := hfirst h₀ hW₀ h₁ hW₁
    · exact ⟨s₀, he⟩
    · exact absurd he hsettled
  | @refused t₀ s₀ t₁ e h₀ h₁ =>
    -- the attempt found the session expired, so that the refresh cannot have been refused
    obtain ⟨hW₀, hrest⟩ := within_append.mp hW
    obtain ⟨hW₁, hW₂⟩ := within_append.mp hrest
    obtain he | ⟨-, hgood, -⟩ := hfirst h₀ hW₀ h₁ hW₁
    · exact absurd (except_map_error.mp he.symm) h.settled
    · obtain hgood' | hgranted := hs.alive
      · exact absurd hgood' hgood
      · obtain ⟨s', he⟩ := hgranted _ (within_cons.mp hW₂).1
        cases he
  | @retried t₀ s₀ t₁ s₂ t₂ r₂ h₀ h₁ h₂ =>
    obtain ⟨-, hrest⟩ := within_append.mp hW
    obtain ⟨-, hW₂⟩ := within_append.mp hrest
    obtain ⟨hrefresh, hW₂⟩ := within_cons.mp hW₂
    have hr := h.live s₂ r₂ (hs.renewed s₂ hrefresh) (h₂.returns hW₂)
    subst hr
    refine ⟨s₂, ?_⟩
    cases x with
    | ok b => rfl
    | error e =>
      cases e with
      | authExpired => exact absurd rfl h.settled
      | _ => rfl

/-- So does what an operation makes of its attempt. -/
theorem retried_answers {finish : β → Except ProviderError γ} (h : OneAnswer W good opened once x)
    (hs : Renewable W good s) (hopen : opened s) {tr : CliTrace}
    {r : Except ProviderError (Session × γ)} (hrun : Runs (retried once finish s).run tr r)
    (hW : Within W tr) : ∃ s', r = (x.bind finish).map (fun v => (s', v)) := by
  obtain ⟨r', hretry, rfl⟩ := retried_runs.mp hrun
  obtain ⟨s', rfl⟩ := withRetry_answers h hs hopen hretry hW
  refine ⟨s', ?_⟩
  cases x with
  | error e => rfl
  | ok b => rfl

theorem answers_directly {call : Session → Cli (Except ProviderError β)}
    (hgood : ∀ s y, good s → Returns W (call s) y → y = x)
    (hopened : ∀ s y, opened s → Returns W (call s) y → y = x ∨ y = .error .authExpired)
    (hx : x ≠ .error .authExpired) : OneAnswer W good opened (directly call) x := by
  have hmap : ∀ {s : Session} {r : Except ProviderError (Session × β)}, Returns W (directly call s).run r →
      ∃ y, Returns W (call s) y ∧ r = y.map (fun b => (s, b)) := by
    intro s r h
    obtain ⟨tr, hrun, hW⟩ := returns_iff.mp h
    obtain ⟨y, hy, rfl⟩ := runs_except_map.mp hrun
    exact ⟨y, hy.returns hW, rfl⟩
  refine ⟨?_, ?_, hx⟩
  · intro s r hs h
    obtain ⟨y, hy, rfl⟩ := hmap h
    rw [hgood s y hs hy]
  · intro s r hs h
    obtain ⟨y, hy, rfl⟩ := hmap h
    obtain rfl | rfl := hopened s y hs hy
    · exact .inl rfl
    · exact .inr rfl

/-- An attempt that lists the namespaces first finds out there that its session has
expired. -/
theorem answers_inNamespace {ns : String} {call : Session → Namespace → Cli (Except ProviderError β)}
    {names : List Namespace} {z : Namespace → Except ProviderError β}
    (hnames : ∀ s y, good s → W (.provider (.listNamespaces s)) y → y = .ok names)
    (hcall : ∀ s target y, good s → Returns W (call s target) y → y = z target)
    (hopened : ∀ s y, opened s → ¬ good s → W (.provider (.listNamespaces s)) y → y = .error .authExpired)
    (hx : (findNamespace ns names).bind z ≠ .error .authExpired) :
    OneAnswer W good opened (inNamespace ns call) ((findNamespace ns names).bind z) := by
  have hgood : ∀ s r, good s → Returns W (inNamespace ns call s).run r →
      r = ((findNamespace ns names).bind z).map (fun b => (s, b)) := by
    intro s r hs h
    obtain ⟨tr, hrun, hW⟩ := returns_iff.mp h
    rcases inNamespace_runs.mp hrun with ⟨e, rfl, rfl⟩ | ⟨names', e, rfl, hfind, rfl⟩ |
      ⟨names', target, rest, y, rfl, hfind, hy, rfl⟩
    · cases hnames s _ hs (within_cons.mp hW).1
    · cases hnames s _ hs (within_cons.mp hW).1
      rw [hfind]
      rfl
    · obtain ⟨hlist, hrest⟩ := within_cons.mp hW
      cases hnames s _ hs hlist
      rw [hfind, hcall s target y hs (hy.returns hrest)]
      rfl
  refine ⟨hgood, ?_, hx⟩
  intro s r hs h
  by_cases hlive : good s
  · exact .inl (hgood s r hlive h)
  · obtain ⟨tr, hrun, hW⟩ := returns_iff.mp h
    rcases inNamespace_runs.mp hrun with ⟨e, rfl, rfl⟩ | ⟨_, _, rfl, -, -⟩ | ⟨_, _, _, _, rfl, -, -, -⟩
    · cases hopened s _ hs hlive (within_cons.mp hW).1
      exact .inr rfl
    · cases hopened s _ hs hlive (within_cons.mp hW).1
    · cases hopened s _ hs hlive (within_cons.mp hW).1

end

/-! ## The account behind a server -/

/-- A payload that is served to the tokens a server honours; it answers every other 401,
and what it grants for a refresh token it honours. Of its server it is assumed that a
cipher fetched by its id is the one of the payload (`fetched`), and that a cipher without
an organization carries no collections (`owned`). -/
structure Account (P : Primitives) (J : Decoders) (R : ∀ q, OsAns q → Prop) where
  userKey : SymmetricKey
  sync : SyncResponse
  cs : List ApiCollection
  bundle : SyncBundle
  honours : String → Prop
  decrypted : bundleOf P userKey sync cs = .ok bundle
  served : ∀ token, honours token → Serves J R token sync cs
  fetched : ∀ token, honours token → ∀ c ∈ sync.ciphers, ∀ resp,
    R (.http (.get (.cipher c.id) token)) resp → parseResponse J.cipher "get_cipher" resp = .ok c
  refused : ∀ token, ¬ honours token → ∀ endpoint resp, R (.http (.get endpoint token)) resp →
    ∃ body, resp = .ok ⟨401, body⟩
  granted : ∀ rt resp token, R (.http (.postForm .token (tokenRefreshForm rt))) resp →
    parseResponse J.token "refresh" resp = .ok token → honours token.accessToken
  owned : ∀ c ∈ sync.ciphers, c.organizationId = none → c.collectionIds.getD [] = []

section
variable {P : Primitives} {J : Decoders} {R : ∀ q, OsAns q → Prop} (acc : Account P J R)
  {s s' : Session} {sess : VwSession}

/-- The session is one of the account. -/
structure Account.Opens (s : Session) (sess : VwSession) : Prop where
  parsed : parseSession J s = .ok sess
  opened : sessUserKey sess = .ok acc.userKey

def Account.Opened (s : Session) : Prop := ∃ sess, acc.Opens s sess

/-- It is one whose token the server honours. -/
def Account.Good (s : Session) : Prop := ∃ sess, acc.Opens s sess ∧ acc.honours sess.accessToken

/-- Its token is honoured, or its refresh token is good for another. -/
def Account.Alive (sess : VwSession) : Prop :=
  acc.honours sess.accessToken ∨ ∃ rt, sess.refreshToken = some rt ∧ ∀ resp,
    R (.http (.postForm .token (tokenRefreshForm rt))) resp →
      ∃ token, parseResponse J.token "refresh" resp = .ok token

/-- The session can be used: its token is honoured, or it can be refreshed. -/
def Account.Usable (s : Session) : Prop := ∃ sess, acc.Opens s sess ∧ acc.Alive sess

/-- What the payload has under a collection and an item. -/
def Account.lookup (coll item : String) : Except ProviderError Secret :=
  match resolveCollection coll acc.bundle.collections with
  | none => .error (.notFound ("collection " ++ coll))
  | some collId => scanSecret P collId acc.bundle.orgKeys acc.userKey coll item 0 acc.sync.ciphers

def Account.answer (r : Ref) : Except ProviderError Secret :=
  if r.scheme ≠ "vw" then .error (.badRef ("not a vw ref: " ++ r.display))
  else match splitOnce r.locus "/" with
    | none => .error (.badRef ("vw locus must be collection/item: " ++ r.locus))
    | some (coll, item) => acc.lookup coll item

def Account.namespaces : List Namespace := listedNamespaces acc.bundle.collections

/-- What one of the loops makes of the payload in a namespace. -/
def Account.members {α : Type}
    (loop : String → List (String × SymmetricKey) → SymmetricKey → List Cipher → α) (ns : Namespace) :
    Except ProviderError α :=
  (namespaceCollection ns acc.bundle.collections).map
    (fun collId => loop collId acc.bundle.orgKeys acc.userKey acc.sync.ciphers)

/-- What an operation is to answer. -/
def Account.outcome : (o : Op) → Except ProviderError o.Out
  | .get r => (acc.answer r).bind (getFinish r)
  | .list none => listNsFinish acc.namespaces
  | .list (some ns) =>
    ((findNamespace ns acc.namespaces).bind (acc.members (listMetas P))).bind listItemsFinish
  | .exportNamespace ns => (findNamespace ns acc.namespaces).bind (acc.members (namespaceSecrets P))

/-- What a command prints for the outcome of its operation, and its exit code. -/
def reported {α : Type} (x : Except ProviderError α) (f : α → List String × ExitCode) :
    List String × ExitCode :=
  match x with
  | .ok a => f a
  | .error e => ([], exitCode e)

/-- The lines of an export, and its exit code: a value with a NUL ends the env format. -/
def exportLines (renderJson : FieldBag → String) (format : String) (secrets : List Secret) : List String × ExitCode :=
  if format = "json" then ([renderJson (jsonObject secrets)], .success)
  else (((envEntries ∅ (exportedFields secrets)).takeWhile (fun p => !hasNul p.2)).map envLine,
    if (exportedFields secrets).any (fun p => hasNul p.2) then 6 else .success)

/-- What a command prints and how it exits, by the account alone. -/
def Account.prints (renderJson : FieldBag → String) : Command → List String × ExitCode
  | .get ref _ _ _ =>
    match Ref.parse ref with
    | .error _ => ([], 2)
    | .ok r => reported (acc.outcome (.get r)) (fun value => ([value], .success))
  | .list ns _ => reported (acc.outcome (.list ns)) (fun names => (names, .success))
  | .exportNamespace ns format _ =>
    if format ≠ "env" ∧ format ≠ "json" then ([], 2)
    else reported (acc.outcome (.exportNamespace ns)) (exportLines renderJson format)

variable {acc}

/-- The vault that a good session opens. -/
def Account.Opens.vault (h : acc.Opens s sess) (hhonoured : acc.honours sess.accessToken) : Vault P J R s where
  sess := sess
  userKey := acc.userKey
  sync := acc.sync
  cs := acc.cs
  bundle := acc.bundle
  parsed := h.parsed
  opened := h.opened
  served := acc.served _ hhonoured
  decrypted := acc.decrypted

theorem Account.Opens.unique {sess' : VwSession} (h : acc.Opens s sess) (h' : acc.Opens s sess') :
    sess' = sess := by
  have hparsed := h'.parsed
  rw [h.parsed] at hparsed
  exact (Except.ok.inj hparsed).symm

/-! ### A token that is refused -/

theorem parseResponse_unauthorized {α : Type} {decode : String → Except String α} {op body : String} :
    parseResponse decode op (.ok ⟨401, body⟩) = .error (.status op 401 (sanitize body)) := by
  have hchallenge : isChallenge ⟨401, body⟩ = false := rfl
  have hsuccess : isSuccess 401 = false := by decide
  simp [parseResponse, hsuccess, hchallenge]

variable {token : String}

theorem Account.get_refused (htoken : ¬ acc.honours token) {α : Type} {endpoint : Endpoint}
    {decode : String → Except String α} {op : String} {x : Except ApiError α}
    (h : Returns R (call (.get endpoint token) decode op) x) : ∃ detail, x = .error (.status op 401 detail) := by
  obtain ⟨resp, hresp, rfl⟩ := call_returns.mp h
  obtain ⟨body, rfl⟩ := acc.refused token htoken endpoint resp hresp
  exact ⟨_, parseResponse_unauthorized⟩

theorem Account.sync_refused (htoken : ¬ acc.honours token) {userKey : SymmetricKey}
    {r : Except ProviderError SyncBundle} (h : Returns R (syncAndKeys P J token userKey).run r) :
    r = .error .authExpired := by
  have hfirst : ∀ r', Returns R (liftApi J (apiSync J token)).run r' → r' = .error .authExpired := by
    intro r' h'
    obtain ⟨x, hx, rfl⟩ := liftApi_returns.mp h'
    obtain ⟨detail, rfl⟩ := Account.get_refused htoken hx
    rfl
  unfold syncAndKeys at h
  rcases returns_except_bind.mp h with ⟨e, rfl, h₁⟩ | ⟨sync, h₁, -⟩
  · cases hfirst _ h₁
    rfl
  · cases hfirst _ h₁

/-- No candidate of an index can be fetched. -/
theorem Account.candidates_refused (htoken : ¬ acc.honours sess.accessToken) {cache : CacheData}
    {item : String} {entries : List CipherIndexEntry} {x : Except ProviderError (Option Secret)}
    (h : Returns R (tryCandidates P J sess cache item entries).run x) : x = .ok none := by
  induction entries with
  | nil => exact h
  | cons entry rest ih =>
    obtain ⟨y, hy, hrest⟩ := returns_bind.mp h
    obtain ⟨detail, rfl⟩ := Account.get_refused htoken hy
    exact ih hrest

theorem Account.cached_refused (htoken : ¬ acc.honours sess.accessToken) {path : Path}
    {userKey : SymmetricKey} {coll item : String} {x : Except ProviderError (Option Secret)}
    (h : Returns R (getSecretCached P J path sess userKey coll item).run x) : x = .ok none := by
  unfold getSecretCached at h
  obtain ⟨cache, -, h⟩ := returns_lift_bind.mp h
  cases cache with
  | none => exact h
  | some cache =>
    simp only [getSecretWarm] at h
    cases hcoll : resolveCollection coll cache.collectionTuples with
    | none =>
      rw [hcoll] at h
      exact h
    | some collId =>
      rw [hcoll] at h
      exact Account.candidates_refused htoken h

theorem Account.cold_refused (htoken : ¬ acc.honours sess.accessToken) {cachePath : Option Path}
    {userKey : SymmetricKey} {coll item : String} {x : Except ProviderError Secret}
    (h : Returns R (getSecretCold P J cachePath sess userKey coll item).run x) : x = .error .authExpired := by
  unfold getSecretCold at h
  rcases returns_except_bind.mp h with ⟨e, rfl, h₁⟩ | ⟨b, h₁, -⟩
  · cases Account.sync_refused htoken h₁
    rfl
  · cases Account.sync_refused htoken h₁

/-- With a token that is refused a get finds its session expired, unless the reference
is not one of this backend. -/
theorem Account.getSecret_refused (h : acc.Opens s sess) (htoken : ¬ acc.honours sess.accessToken)
    {cachePath : Option Path} {r : Ref} {x : Except ProviderError Secret}
    (hx : Returns R (getSecret P J cachePath s r).run x) : x = acc.answer r ∨ x = .error .authExpired := by
  unfold getSecret at hx
  unfold Account.answer
  by_cases hscheme : r.scheme ≠ "vw"
  · rw [if_pos hscheme] at hx ⊢
    exact .inl hx
  rw [if_neg hscheme] at hx ⊢
  have hget := hx
  rw [h.parsed, returns_ok_step, h.opened, returns_ok_step] at hget
  cases hsplit : splitOnce r.locus "/" with
  | none =>
    rw [hsplit] at hget
    exact .inl hget
  | some p =>
    rw [hsplit] at hget
    refine .inr ?_
    cases cachePath with
    | none => exact Account.cold_refused htoken hget
    | some path =>
      rcases returns_except_bind.mp hget with ⟨e, rfl, hc⟩ | ⟨y, hc, hrest⟩
      · cases Account.cached_refused htoken hc
      · cases Account.cached_refused htoken hc
        exact Account.cold_refused htoken hrest

theorem Account.listNamespaces_refused (h : acc.Opens s sess) (htoken : ¬ acc.honours sess.accessToken)
    {x : Except ProviderError (List Namespace)} (hx : Returns R (listNamespaces P J s).run x) :
    x = .error .authExpired := by
  unfold listNamespaces at hx
  rw [h.parsed, returns_ok_step, h.opened, returns_ok_step] at hx
  rcases returns_except_bind.mp hx with ⟨e, rfl, h₁⟩ | ⟨b, h₁, -⟩
  · cases Account.sync_refused htoken h₁
    rfl
  · cases Account.sync_refused htoken h₁

/-! ### A session that is refreshed -/

/-- A refresh that is granted gives a good session of the account. -/
theorem Account.refreshed (hkeep : J.KeepsSessions) (h : acc.Opens s sess)
    (hrefresh : Returns R (refreshSession J s).run (.ok s')) : acc.Good s' := by
  unfold refreshSession at hrefresh
  rw [h.parsed, returns_ok_step] at hrefresh
  cases hrt : sess.refreshToken with
  | none =>
    rw [hrt] at hrefresh
    cases hrefresh
  | some rt =>
    rw [hrt] at hrefresh
    obtain ⟨token, hgrant, hrest⟩ := returns_ok_bind.mp hrefresh
    obtain ⟨x, hcall, hx⟩ := liftApi_returns.mp hgrant
    obtain ⟨resp, hresp, rfl⟩ := call_returns.mp hcall
    have htoken := mapError_ok.mp hx.symm
    obtain ⟨now, -, hencode⟩ := returns_lift_bind.mp hrest
    have hencode : ∃ sess', sess'.accessToken = token.accessToken ∧ sess'.userKeyB64 = sess.userKeyB64 ∧
        Except.ok s' = encodeVwSession J sess' :=
      ⟨{ sess with
          accessToken := token.accessToken
          refreshToken := token.refreshToken.or (some rt)
          expiresAt := now.map (· + token.expiresIn) }, rfl, rfl, hencode⟩
    obtain ⟨sess', haccess, hkey, hencode⟩ := hencode
    obtain ⟨handle, hhandle, hdecode⟩ := hkeep sess'
    rw [encodeVwSession, hhandle] at hencode
    cases hencode
    refine ⟨sess', ⟨?_, ?_⟩, haccess ▸ acc.granted rt resp token hresp htoken⟩
    · rw [parseSession, hdecode]
      rfl
    · rw [sessUserKey, hkey]
      exact h.opened

theorem refreshSession_granted (hkeep : J.KeepsSessions) (hparse : parseSession J s = .ok sess) {rt : String}
    (hrt : sess.refreshToken = some rt)
    (hgrant : ∀ resp, R (.http (.postForm .token (tokenRefreshForm rt))) resp →
      ∃ token, parseResponse J.token "refresh" resp = .ok token)
    {x : Except ProviderError Session} (hx : Returns R (refreshSession J s).run x) : ∃ s', x = .ok s' := by
  unfold refreshSession at hx
  rw [hparse, returns_ok_step, hrt] at hx
  have hcall : ∀ y, Returns R (liftApi J (tokenRefresh J rt)).run y → ∃ token, y = .ok token := by
    intro y hy
    obtain ⟨z, hz, rfl⟩ := liftApi_returns.mp hy
    obtain ⟨resp, hresp, rfl⟩ := call_returns.mp hz
    obtain ⟨token, htoken⟩ := hgrant resp hresp
    exact ⟨token, mapError_ok.mpr htoken⟩
  obtain ⟨e, -, herror⟩ | ⟨token, -, hrest⟩ := returns_except_bind.mp hx
  · obtain ⟨_, he⟩ := hcall _ herror
    cases he
  · obtain ⟨now, -, hencode⟩ := returns_lift_bind.mp hrest
    have hencode : ∃ sess', x = encodeVwSession J sess' := ⟨_, hencode⟩
    obtain ⟨sess', rfl⟩ := hencode
    obtain ⟨handle, hhandle, -⟩ := hkeep sess'
    exact ⟨_, by rw [encodeVwSession, hhandle]⟩

/-! ### A token that is honoured -/

/-- What opens under the user key is the index of the bundle. -/
def Indexes (P : Primitives) (J : Decoders) (userKey : SymmetricKey) (b : SyncBundle) (raw : String) : Prop :=
  ∀ data, unsealLine P J userKey raw = some data → ∃ sess, data = cacheData P sess userKey b

/-- An index of the payload answers as the scan does, or not at all. -/
theorem Account.cached_honoured (h : acc.Opens s sess)
    (hhonoured : acc.honours sess.accessToken) {path : Path} {coll item : String}
    (hfile : ∀ raw, R (.readToString path) (.ok raw) → Indexes P J acc.userKey acc.bundle raw)
    {x : Except ProviderError (Option Secret)}
    (hx : Returns R (getSecretCached P J path sess acc.userKey coll item).run x) :
    x = .ok none ∨ x = (acc.lookup coll item).map some := by
  have hfetch : ∀ c ∈ acc.sync.ciphers, ∀ y, Returns R (getCipher J sess.accessToken c.id) y → y = .ok c := by
    intro c hc y hy
    obtain ⟨resp, hresp, rfl⟩ := call_returns.mp hy
    exact acc.fetched _ hhonoured c hc resp hresp
  have hindex : ∀ cache, Returns R (loadCache P J path acc.userKey) cache →
      cache = none ∨ ∃ sess₀, cache = some (cacheData P sess₀ acc.userKey acc.bundle) := by
    intro cache hload
    obtain ⟨file, hread, hcache⟩ := returns_bind.mp hload
    cases file with
    | error e => exact .inl hcache
    | ok raw =>
      have hraw := hfile raw (returns_request.mp hread)
      cases hopens : unsealLine P J acc.userKey raw with
      | none => exact .inl (Eq.trans hcache hopens)
      | some data =>
        obtain ⟨sess₀, rfl⟩ := hraw data hopens
        exact .inr ⟨sess₀, Eq.trans hcache hopens⟩
  unfold getSecretCached at hx
  obtain ⟨cache, hload, hx⟩ := returns_lift_bind.mp hx
  obtain rfl | ⟨sess₀, rfl⟩ := hindex cache hload
  · exact .inl hx
  simp only [getSecretWarm, cacheData_collectionTuples] at hx
  unfold Account.lookup
  cases hcoll : resolveCollection coll acc.bundle.collections with
  | none =>
    rw [hcoll] at hx
    exact .inl hx
  | some collId =>
    have hsync : acc.bundle.sync = acc.sync := (h.vault hhonoured).bundle_sync
    rw [hcoll] at hx
    simp only [candidates_cacheData, hsync] at hx
    exact (tryCandidates_scan sess₀ h.opened hfetch acc.owned hx).imp_right (fun hscan => hscan 0)

theorem Account.getSecret_honoured (h : acc.Opens s sess)
    (hhonoured : acc.honours sess.accessToken) {path : Path} {r : Ref}
    (hfile : ∀ raw, R (.readToString path) (.ok raw) → Indexes P J acc.userKey acc.bundle raw)
    {x : Except ProviderError Secret} (hx : Returns R (getSecret P J (some path) s r).run x) :
    x = acc.answer r :=
  (h.vault hhonoured).get_returns (fun _ _ _ _ hpath hcached => by
    cases hpath
    exact Account.cached_honoured h hhonoured hfile hcached) hx

/-! ### No answer is an expired session -/

theorem scanSecret_settled {collId coll item : String} {orgKeys : List (String × SymmetricKey)}
    {userKey : SymmetricKey} {ciphers : List Cipher} {failures : Nat} :
    scanSecret P collId orgKeys userKey coll item failures ciphers ≠ .error .authExpired := by
  induction ciphers generalizing failures with
  | nil =>
    rw [scanSecret_nil]
    split <;> simp [unwrapFailed]
  | cons c rest ih =>
    by_cases hun : Unmatched P collId orgKeys userKey item c
    · obtain ⟨failures', -, -, hpass⟩ := scanSecret_pass hun coll rest failures
      rw [hpass]
      exact ih
    · obtain ⟨key, name, hb, hk, hn, he⟩ := matched hun
      rw [scanSecret_hit hb hk hn he]
      cases mapCipher P key c <;> simp [liftCrypto, Except.mapError, cryptoErr]

theorem Account.answer_settled (r : Ref) : acc.answer r ≠ .error .authExpired := by
  unfold Account.answer
  split
  · simp
  · split
    · simp
    · unfold Account.lookup
      split
      · simp
      · exact scanSecret_settled

theorem Account.members_settled {α : Type} {ns : String}
    {loop : String → List (String × SymmetricKey) → SymmetricKey → List Cipher → α} :
    (findNamespace ns acc.namespaces).bind (acc.members loop) ≠ .error .authExpired := by
  have hcoll : ∀ target e, namespaceCollection target acc.bundle.collections = .error e → e ≠ .authExpired := by
    intro target e he
    unfold namespaceCollection at he
    split at he <;> cases he
    simp
  intro h
  cases hfind : findNamespace ns acc.namespaces with
  | error e =>
    rw [hfind] at h
    cases h
    cases findNamespace_error hfind
  | ok target =>
    rw [hfind] at h
    exact hcoll target _ (except_map_error.mp h) rfl

end

/-! ## A command on a machine that holds a login -/

section
variable {P : Primitives} {D : Codecs} {deviceId : String} {backend : Option CeremonyBackend}
  {R : ∀ q, HostAns q → Prop} {dir : Path} (acc : Account P D.decoders (fun q => R (.os q)))

/-- What the command's requests are answered where the process runs within `R`. -/
abbrev surroundings (P : Primitives) (D : Codecs) (deviceId : String)
    (backend : Option CeremonyBackend) (dir : Path) (R : ∀ q, HostAns q → Prop) :
    ∀ q, CliAns q → Prop := carried (hostCalls P D deviceId backend dir) R

/-- A text that a process was given, by the variable that is named or at a prompt. -/
def Given (R : ∀ q, HostAns q → Prop) (var : Option String) (prompt text : String) : Prop :=
  match var with
  | some name => R (.envVar name) (some text)
  | none => R (.promptPassword prompt) (.ok text)

theorem Supplied.given {var : Option String} {prompt text : String}
    (h : Supplied (surroundings P D deviceId backend dir R) var prompt text) : Given R var prompt text := by
  cases var with
  | some name => exact returns_request.mp h
  | none => exact returns_request.mp h

/-- The passphrase that a process is given, by the variable that is named or at a prompt. -/
structure GivesPassphrase (R : ∀ q, HostAns q → Prop) (passphraseEnv : Option String)
    (passphrase : String) : Prop where
  named : ∀ var x, passphraseEnv = some var → R (.envVar var) x → x = some passphrase
  terminal : ∀ b, passphraseEnv = none → R .stdinIsTerminal b → b = true
  typed : ∀ x, passphraseEnv = none → R (.promptPassword "keyring passphrase: ") x → x = .ok passphrase

/-- The directory holds a login whose keyring the passphrase that is given opens, to a
session with such a handle. -/
structure HoldsLogin (P : Primitives) (D : Codecs) (R : ∀ q, HostAns q → Prop) (dir : Path)
    (passphraseEnv : Option String) (cfg : StateConfig) (passphrase : String) (good : String → Prop) :
    Prop extends GivesPassphrase R passphraseEnv passphrase where
  present : ∀ path b, path = configPath dir ∨ path = keyringPath dir → R (.os (.isFile path)) b → b = true
  config : ∀ x, R (.os (.readToString (configPath dir))) x → ∃ raw, x = .ok raw ∧ D.decodeConfig raw = .ok cfg
  keyring : ∀ x, R (.os (.readToString (keyringPath dir))) x →
    ∃ raw handle, x = .ok raw ∧ openKeyring P raw passphrase = .ok handle ∧ good handle
  client : ∀ x, R (.buildClient cfg.server) x → x = .ok ()

/-- The cache does not open, or it is the index of the payload. -/
def CacheCurrent (path : Path) : Prop := ∀ raw, R (.os (.readToString path)) (.ok raw) →
  Indexes P D.decoders acc.userKey acc.bundle raw

variable {acc} {passphraseEnv : Option String} {cfg : StateConfig} {passphrase : String}
  {good : String → Prop}

/-! ### Loading -/

theorem HoldsLogin.loggedIn (h : HoldsLogin P D R dir passphraseEnv cfg passphrase good) {b : Bool}
    (hb : surroundings P D deviceId backend dir R .loggedIn b) : b = true := by
  have hfiles : Returns (fun q => R (.os q)) (Cryptile.loggedIn dir) b := returns_onMachine.mp hb
  obtain ⟨config, hconfig, hrest⟩ := returns_bind.mp hfiles
  obtain rfl : config = true := h.present _ _ (.inl rfl) (returns_request.mp hconfig)
  exact h.present _ _ (.inr rfl) (returns_request.mp hrest)

theorem HoldsLogin.loadConfig (h : HoldsLogin P D R dir passphraseEnv cfg passphrase good)
    {x : Except String StateConfig} (hx : surroundings P D deviceId backend dir R .loadConfig x) :
    x = .ok cfg := by
  have hfile : Returns (fun q => R (.os q)) (State.loadConfig D.decodeConfig dir).run x :=
    returns_onMachine.mp hx
  have hread : ∀ y, Returns (fun q => R (.os q)) (mapErr id (os (.readToString (configPath dir)))).run y →
      ∃ raw, y = .ok raw ∧ D.decodeConfig raw = .ok cfg := by
    intro y hy
    obtain ⟨z, hz, rfl⟩ := returns_map.mp hy
    obtain ⟨raw, rfl, hraw⟩ := h.config z (returns_request.mp hz)
    exact ⟨raw, rfl, hraw⟩
  obtain ⟨e, -, herror⟩ | ⟨raw, hraw, hdecode⟩ := returns_except_bind.mp hfile
  · obtain ⟨_, he, -⟩ := hread _ herror
    cases he
  · obtain ⟨_, he, hcfg⟩ := hread _ hraw
    cases he
    exact Eq.trans hdecode hcfg

theorem HoldsLogin.loadSession (h : HoldsLogin P D R dir passphraseEnv cfg passphrase good)
    {x : Except String Session}
    (hx : surroundings P D deviceId backend dir R (.loadSession passphrase) x) :
    ∃ handle, good handle ∧ x = .ok ⟨"vw", handle⟩ := by
  have hfile : Returns (fun q => R (.os q)) (State.loadSession P dir passphrase).run x :=
    returns_onMachine.mp hx
  have hopen : ∀ y, Returns (fun q => R (.os q)) (loadKeyring P (keyringPath dir) passphrase).run y →
      ∃ handle, good handle ∧ y = .ok handle := by
    intro y hy
    obtain ⟨z, hz, hrest⟩ := returns_bind.mp hy
    obtain ⟨raw', hraw', hz'⟩ := returns_bind.mp hz
    obtain ⟨raw, handle, rfl, hraw, hgood⟩ := h.keyring raw' (returns_request.mp hraw')
    cases hz'
    exact ⟨handle, hgood, Eq.trans hrest hraw⟩
  obtain ⟨e, -, herror⟩ | ⟨handle, hhandle, hend⟩ := returns_except_bind.mp hfile
  · obtain ⟨y, hy, he⟩ := returns_map.mp herror
    obtain ⟨_, -, rfl⟩ := hopen y hy
    cases he
  · obtain ⟨y, hy, he⟩ := returns_map.mp hhandle
    obtain ⟨_, hgood, rfl⟩ := hopen y hy
    cases he
    exact ⟨handle, hgood, hend⟩

theorem GivesPassphrase.passphraseFor (h : GivesPassphrase R passphraseEnv passphrase)
    {x : Except String String}
    (hx : Returns (surroundings P D deviceId backend dir R) (Cryptile.passphraseFor passphraseEnv).run x) :
    x = .ok passphrase := by
  cases passphraseEnv with
  | some var =>
    obtain ⟨v, hv, hend⟩ := returns_bind.mp hx
    have hvar : R (.envVar var) v := returns_request.mp (returns_request.mp hv)
    obtain rfl := h.named var v rfl hvar
    exact hend
  | none =>
    obtain ⟨tty, htty, hprompt⟩ := returns_bind.mp hx
    have hterminal : R .stdinIsTerminal tty := returns_request.mp (returns_request.mp htty)
    obtain rfl := h.terminal tty rfl hterminal
    have htyped : R (.promptPassword "keyring passphrase: ") x :=
      returns_request.mp (returns_request.mp hprompt)
    exact h.typed x rfl htyped

theorem GivesPassphrase.given (h : GivesPassphrase R passphraseEnv passphrase) {p : String}
    (hp : Given R passphraseEnv "keyring passphrase: " p) : p = passphrase := by
  cases passphraseEnv with
  | some var => exact Option.some.inj (h.named var _ rfl hp)
  | none => exact Except.ok.inj (h.typed _ rfl hp)

theorem HoldsLogin.loads (h : HoldsLogin P D R dir passphraseEnv cfg passphrase good)
    {x : Except String (StateConfig × String × Session)}
    (hx : Returns (surroundings P D deviceId backend dir R) (loadStateFor passphraseEnv).run x) :
    ∃ handle, good handle ∧ x = .ok (cfg, passphrase, ⟨"vw", handle⟩) := by
  obtain ⟨present, hpresent, hrest⟩ := returns_bind.mp hx
  obtain rfl := h.loggedIn (returns_request.mp hpresent)
  have hconfig : ∀ y, Returns (surroundings P D deviceId backend dir R) Cryptile.loadConfig y → y = .ok cfg := by
    intro y hy
    obtain ⟨z, hz, rfl⟩ := returns_map.mp hy
    rw [h.loadConfig (returns_request.mp hz)]
    rfl
  obtain ⟨e, -, herror⟩ | ⟨cfg', hcfg, hrest⟩ := returns_except_bind.mp hrest
  · cases hconfig _ herror
  cases hconfig _ hcfg
  obtain ⟨e, -, herror⟩ | ⟨passphrase', hpass, hrest⟩ := returns_except_bind.mp hrest
  · cases h.passphraseFor herror
  cases h.passphraseFor hpass
  obtain ⟨e, -, herror⟩ | ⟨s, hs, hend⟩ := returns_except_bind.mp hrest
  · obtain ⟨_, -, he⟩ := h.loadSession (returns_request.mp herror)
    cases he
  · obtain ⟨handle, hgood, he⟩ := h.loadSession (returns_request.mp hs)
    cases he
    exact ⟨handle, hgood, hend⟩

theorem HoldsLogin.opensBackend (h : HoldsLogin P D R dir passphraseEnv cfg passphrase good)
    {x : Except String Unit}
    (hx : Returns (surroundings P D deviceId backend dir R) (openBackend "vw" cfg.server true) x) :
    x = .ok () := by
  unfold openBackend at hx
  rw [if_pos rfl] at hx
  obtain ⟨y, hy, rfl⟩ := returns_map.mp (returns_request.mp hx)
  rw [h.client y (returns_request.mp hy)]
  rfl

/-! ### Operating -/

section
variable {t : CliTrace} {code : ExitCode}

theorem surroundings_provider {q : ProviderReq} {x : ProviderAns q} :
    Returns (surroundings P D deviceId backend dir R) (provider q) x ↔
      Returns R (providerCalls P D deviceId backend (some (cachePath dir)) q) x := returns_request

/-- Every operation on a session of the account has the answer that the account gives. -/
theorem Account.op_answers (hD : D.Lawful) {s : Session} (husable : acc.Usable s)
    (hcache : CacheCurrent acc (cachePath dir)) (o : Op)
    {r : Except ProviderError (Session × o.Out)} (h : Runs (o.run s).run t r)
    (hW : Within (surroundings P D deviceId backend dir R) t) :
    ∃ s', r = (acc.outcome o).map (fun out => (s', out)) := by
  have hkeep := hD.keepsSessions
  obtain ⟨sess, hopens, halive⟩ := husable
  have hopened : acc.Opened s := ⟨sess, hopens⟩
  have hrenewable : Renewable (surroundings P D deviceId backend dir R) acc.Good s := by
    refine ⟨fun s' hs' => Account.refreshed hkeep hopens (returns_onMachine.mp hs'), ?_⟩
    obtain hhonoured | ⟨rt, hrt, hgrant⟩ := halive
    · exact .inl ⟨sess, hopens, hhonoured⟩
    · exact .inr (fun y hy => refreshSession_granted hkeep hopens.parsed hrt hgrant (returns_onMachine.mp hy))
  have hnames : ∀ s y, acc.Good s →
      surroundings P D deviceId backend dir R (.provider (.listNamespaces s)) y → y = .ok acc.namespaces := by
    rintro s y ⟨sess', hs, hhonoured⟩ hy
    exact (hs.vault hhonoured).namespaces_returns (returns_onMachine.mp hy)
  have hrefused : ∀ s y, acc.Opened s → ¬ acc.Good s →
      surroundings P D deviceId backend dir R (.provider (.listNamespaces s)) y → y = .error .authExpired := by
    rintro s y ⟨sess', hs⟩ hbad hy
    exact Account.listNamespaces_refused hs (fun hhonoured => hbad ⟨sess', hs, hhonoured⟩)
      (returns_onMachine.mp hy)
  cases o with
  | get ref =>
    refine retried_answers (answers_directly ?_ ?_ (acc.answer_settled ref)) hrenewable hopened h hW
    · rintro s y ⟨sess', hs, hhonoured⟩ hy
      exact Account.getSecret_honoured hs hhonoured hcache
        (returns_onMachine.mp (surroundings_provider.mp hy))
    · rintro s y ⟨sess', hs⟩ hy
      have hget := returns_onMachine.mp (surroundings_provider.mp hy)
      by_cases hhonoured : acc.honours sess'.accessToken
      · exact .inl (Account.getSecret_honoured hs hhonoured hcache hget)
      · exact Account.getSecret_refused hs hhonoured hget
  | list ns =>
    cases ns with
    | none =>
      have hlist : OneAnswer (surroundings P D deviceId backend dir R) acc.Good acc.Opened listNsOnce
          (.ok acc.namespaces) := by
        refine answers_directly (fun s y hs hy => hnames s y hs (returns_request.mp hy)) ?_ (by simp)
        intro s y hs hy
        by_cases hgood : acc.Good s
        · exact .inl (hnames s y hgood (returns_request.mp hy))
        · exact .inr (hrefused s y hs hgood (returns_request.mp hy))
      exact retried_answers hlist hrenewable hopened h hW
    | some ns =>
      refine retried_answers (answers_inNamespace hnames ?_ hrefused Account.members_settled)
        hrenewable hopened h hW
      rintro s target y ⟨sess', hs, hhonoured⟩ hy
      exact (hs.vault hhonoured).bulk_returns (returns_onMachine.mp (surroundings_provider.mp hy))
  | exportNamespace ns =>
    have hcall : ∀ s target y, acc.Good s → Returns (surroundings P D deviceId backend dir R)
        (provider (.getNamespaceSecrets s target)) y → y = acc.members (namespaceSecrets P) target := by
      rintro s target y ⟨sess', hs, hhonoured⟩ hy
      exact (hs.vault hhonoured).bulk_returns (returns_onMachine.mp (surroundings_provider.mp hy))
    obtain ⟨s', hr⟩ := retried_answers (answers_inNamespace hnames hcall hrefused Account.members_settled)
      hrenewable hopened h hW
    refine ⟨s', ?_⟩
    rw [hr, Account.outcome]
    cases (findNamespace ns acc.namespaces).bind (acc.members (namespaceSecrets P)) <;> rfl

end

/-! ### Printing -/

theorem openBackend_silent {scheme server : String} {t : CliTrace} {x : Except String Unit}
    (h : Runs (openBackend scheme server true) t x) : ∀ e ∈ t, silent e := by
  have hasks : Asks isQuiet (openBackend scheme server true) := by
    unfold openBackend
    split
    · exact asks_request ⟨rfl, id⟩
    · exact asks_pure _
  exact fun e he => silent_quiet (hasks.runs h e he)

theorem loadStateFor_silent {t : CliTrace} {x : Except String (StateConfig × String × Session)}
    (h : Runs (loadStateFor passphraseEnv).run t x) : ∀ e ∈ t, silent e := by
  obtain ⟨_, _, hsilent⟩ | ⟨_, _, _, t', _, rfl, hquiet⟩ := loadStateFor_runs h
  · exact hsilent
  · exact List.forall_mem_append.mpr ⟨fun e he => silent_quiet (hquiet e he),
      List.forall_mem_singleton.mpr ⟨⟨rfl, rfl⟩, id⟩⟩

theorem dieProvider_prints {e : ProviderError} {t : CliTrace} {code : ExitCode}
    (h : Runs (dieProvider e) t code) : (stdoutOf t, code) = ([], exitCode e) := by
  obtain ⟨hout, rfl⟩ := stdoutOf_die h
  rw [hout]

/-- A command prints what it makes of its operation's outcome. -/
theorem sessionCommand_prints (hD : D.Lawful)
    (hlogin : HoldsLogin P D R dir passphraseEnv cfg passphrase (fun handle => acc.Usable ⟨"vw", handle⟩))
    (hcache : CacheCurrent acc (cachePath dir)) {o : Op} {scheme : Session → String}
    {emit : o.Out → Cli ExitCode} {f : o.Out → List String × ExitCode}
    (hemit : ∀ out t code, Runs (emit out) t code → (stdoutOf t, code) = f out)
    (hscheme : ∀ handle, scheme ⟨"vw", handle⟩ = "vw" ∨ ∃ detail, acc.outcome o = .error (.badRef detail))
    {t : CliTrace} {code : ExitCode} (h : Runs (sessionCommand o passphraseEnv scheme emit) t code)
    (hW : Within (surroundings P D deviceId backend dir R) t) :
    (stdoutOf t, code) = reported (acc.outcome o) f := by
  obtain ⟨t₀, x, t₁, rfl, hload, h₁⟩ := runs_bind.mp h
  obtain ⟨hW₀, hW₁⟩ := within_append.mp hW
  obtain ⟨handle, husable, rfl⟩ := hlogin.loads (hload.returns hW₀)
  obtain ⟨t₂, y, t₃, rfl, hopen, h₂⟩ := runs_bind.mp h₁
  obtain ⟨hW₂, hW₃⟩ := within_append.mp hW₁
  rw [stdoutOf_append, stdoutOf_append, stdoutOf_of_silent (loadStateFor_silent hload),
    stdoutOf_of_silent (openBackend_silent hopen), List.nil_append, List.nil_append]
  by_cases hvw : scheme ⟨"vw", handle⟩ = "vw"
  · have hok : y = .ok () := by
      have hreturns := hopen.returns hW₂
      rw [hvw] at hreturns
      exact hlogin.opensBackend hreturns
    subst hok
    obtain ⟨t₄, r, t₅, rfl, hrun, h₃⟩ := runs_bind.mp h₂
    obtain ⟨hW₄, -⟩ := within_append.mp hW₃
    obtain ⟨s', rfl⟩ := acc.op_answers hD husable hcache o hrun hW₄
    rw [stdoutOf_append, stdoutOf_op (Op.requests hrun), List.nil_append]
    cases hout : acc.outcome o with
    | error e =>
      rw [hout] at h₃
      exact dieProvider_prints h₃
    | ok out =>
      rw [hout] at h₃
      obtain ⟨t₆, _, t₇, rfl, hseal, hemitted⟩ := runs_bind.mp h₃
      rw [stdoutOf_append, stdoutOf_of_silent (reseal_silent hseal), List.nil_append]
      exact hemit out _ _ hemitted
  · -- no backend for the scheme: a bad reference either way
    obtain hvw' | ⟨detail, hbad⟩ := hscheme handle
    · exact absurd hvw' hvw
    · have hno : t₂ = [] ∧ ∃ e, y = .error e := by
        unfold openBackend at hopen
        rw [if_neg hvw] at hopen
        exact ⟨hopen.1, _, hopen.2⟩
      obtain ⟨-, e, rfl⟩ := hno
      obtain ⟨hout, rfl⟩ := stdoutOf_die h₂
      rw [hout, hbad]
      rfl

theorem emitValue_prints {agent : Bool} {label value : String} {t : CliTrace} {code : ExitCode}
    (h : Runs (emitValue agent label value) t code) : (stdoutOf t, code) = ([value], .success) := by
  cases agent
  · obtain ⟨_, _, rfl, rfl, rfl⟩ := h
    rfl
  · obtain ⟨_, _, rfl, _, _, rfl, rfl, rfl⟩ := h
    rfl

theorem emitNames_prints {names : List String} {t : CliTrace} {code : ExitCode}
    (h : Runs (emitNames names) t code) : (stdoutOf t, code) = (names, .success) := by
  induction names generalizing t with
  | nil =>
    obtain ⟨rfl, rfl⟩ := h
    rfl
  | cons n rest ih =>
    obtain ⟨_, t', rfl, hrest⟩ := runs_request_bind.mp h
    have hlines := ih hrest
    rw [Prod.mk.injEq] at hlines ⊢
    refine ⟨?_, hlines.2⟩
    calc stdoutOf (⟨.println n, _⟩ :: t') = n :: stdoutOf t' := rfl
      _ = n :: rest := by rw [hlines.1]

theorem emitExport_prints {format : String} (hformat : format = "env" ∨ format = "json")
    {secrets : List Secret} {t : CliTrace} {code : ExitCode}
    (h : Runs (emitExport D.renderObject format secrets) t code) :
    (stdoutOf t, code) = exportLines D.renderObject format secrets := by
  unfold exportLines
  obtain rfl | rfl := hformat
  · obtain ⟨hlines, rfl⟩ := emitExport_env h
    have hjson : ¬ ("env" = "json") := by decide
    rw [hlines, if_neg hjson]
  · obtain ⟨hlines, rfl⟩ := emitExport_json h
    rw [hlines, if_pos rfl]

theorem command_prints (hD : D.Lawful) {cmd : Command}
    (hlogin : HoldsLogin P D R dir cmd.passphraseEnv cfg passphrase (fun handle => acc.Usable ⟨"vw", handle⟩))
    (hcache : CacheCurrent acc (cachePath dir)) {t : CliTrace} {code : ExitCode}
    (h : Runs (cmd.run D.renderObject) t code)
    (hW : Within (surroundings P D deviceId backend dir R) t) :
    (stdoutOf t, code) = acc.prints D.renderObject cmd := by
  have husage : ∀ {msg : Diag} {t : CliTrace} {code : ExitCode}, Runs (die msg 2) t code →
      (stdoutOf t, code) = ([], 2) := by
    intro msg t code hdie
    obtain ⟨hout, rfl⟩ := stdoutOf_die hdie
    rw [hout]
  cases cmd with
  | get ref passphraseEnv refreshCache agent =>
    simp only [Account.prints]
    change Runs (getCommand ref passphraseEnv refreshCache agent) t code at h
    unfold getCommand at h
    cases href : Ref.parse ref with
    | error e =>
      rw [href] at h
      exact husage h
    | ok r =>
      rw [href] at h
      simp only
      have hscheme : String → r.scheme = "vw" ∨ ∃ detail, acc.outcome (.get r) = .error (.badRef detail) := by
        intro _
        by_cases hvw : r.scheme = "vw"
        · exact .inl hvw
        · refine .inr ⟨"not a vw ref: " ++ r.display, ?_⟩
          rw [Account.outcome, Account.answer, if_pos hvw]
          rfl
      have hsession : ∀ {t : CliTrace}, Runs (sessionCommand (.get r) passphraseEnv (fun _ => r.scheme)
          (emitValue agent (itemLabel r))) t code → Within (surroundings P D deviceId backend dir R) t →
          (stdoutOf t, code) = reported (acc.outcome (.get r)) (fun value => ([value], .success)) :=
        sessionCommand_prints hD hlogin hcache (fun _ _ _ hemit => emitValue_prints hemit)
          hscheme
      cases refreshCache with
      | false => exact hsession h hW
      | true =>
        obtain ⟨_, t', rfl, hrest⟩ := runs_request_bind.mp h
        have hprinted := hsession hrest (within_cons.mp hW).2
        exact hprinted
  | list ns passphraseEnv =>
    exact sessionCommand_prints hD hlogin hcache (fun _ _ _ hemit => emitNames_prints hemit)
      (fun _ => .inl rfl) h hW
  | exportNamespace ns format passphraseEnv =>
    simp only [Account.prints]
    change Runs (exportCommand D.renderObject ns format passphraseEnv) t code at h
    unfold exportCommand at h
    by_cases hformat : format ≠ "env" ∧ format ≠ "json"
    · rw [if_pos hformat] at h ⊢
      exact husage h
    · rw [if_neg hformat] at h ⊢
      have hknown : format = "env" ∨ format = "json" := by
        by_cases henv : format = "env"
        · exact .inl henv
        · exact .inr (not_not.mp (fun hjson => hformat ⟨henv, hjson⟩))
      exact sessionCommand_prints hD hlogin hcache
        (fun _ _ _ hemit => emitExport_prints hknown hemit) (fun _ => .inl rfl) h hW

/-- Every run of a process on the machine prints and exits as the account says. -/
theorem process_prints_account (hD : D.Lawful) (acc : Account P D.decoders (fun q => R (.os q)))
    {flag : Option String} {cmd : Command}
    (hdir : ∀ text, Returns R (stateDir flag) text → Path.ofText text = dir)
    (hlogin : HoldsLogin P D R dir cmd.passphraseEnv cfg passphrase (fun handle => acc.Usable ⟨"vw", handle⟩))
    (hcache : CacheCurrent acc (cachePath dir)) {tr : HostTrace} {code : ExitCode}
    (h : Runs (cryptile P D deviceId backend flag (.command cmd)) tr code) (hR : Within R tr) :
    (stdout tr, code) = acc.prints D.renderObject cmd := by
  obtain ⟨t₀, text, t₁, rfl, hstate, hrun⟩ := runs_bind.mp h
  obtain ⟨hR₀, hR₁⟩ := within_append.mp hR
  obtain rfl := hdir text (hstate.returns hR₀)
  have hunseen : Asks isUnseen (stateDir flag) :=
    (stateDir_asks flag).mono (by rintro _ ⟨name, rfl⟩; trivial)
  obtain ⟨t, hcommand, hcarried⟩ := runs_lower.mp hrun
  calc (stdout (t₀ ++ t₁), code) = (stdoutOf t, code) := by
        rw [stdout, List.flatMap_append, ← stdout, ← stdout, stdout_unseen hunseen hstate,
          List.nil_append, stdout_carriedOut hcarried]
    _ = acc.prints D.renderObject cmd := command_prints hD hlogin hcache hcommand (hcarried.within hR₁)

end

/-! ## A machine with a session that has expired -/

def oneConfig : StateConfig := ⟨"https://vault", "a@b"⟩

/-- What a grant is answered with. -/
def vaultTokenValue (token : String) : Value :=
  .object [("access_token", .string token), ("refresh_token", .string "next"),
    ("Key", .string (plainString zeroKey.bytes))]

def vaultToken (token : String) : TokenResponse := ⟨token, some "next", 3600, plainString zeroKey.bytes⟩

/-- The server of the vault of one item honours the one token. -/
def vaultServer (token : String) : ∀ r, OsAns (.http r) → Prop
  | .get endpoint bearer, x =>
    if bearer = token then jsonServer [] (.http (.get endpoint bearer)) x else x = .ok ⟨401, ""⟩
  | .postForm _ _, x => x = .ok ⟨200, toJsonString (vaultTokenValue token)⟩
  | .postJson _ _, x => x = .ok ⟨200, "{}"⟩

theorem vaultServer_total (token : String) : ∀ r, ∃ x, vaultServer token r x
  | .get endpoint bearer => by
    change ∃ x, ite _ _ _
    split
    · exact jsonServer_total [] (.http (.get endpoint bearer))
    · exact ⟨_, rfl⟩
  | .postForm _ _ => ⟨_, rfl⟩
  | .postJson _ _ => ⟨_, rfl⟩

theorem decodeTokenResponse_vaultTokenValue (token : String) :
    decodeTokenResponse (vaultTokenValue token) = some (vaultToken token) := rfl

theorem vaultToken_response (D : SerdeJson) (op token : String) : parseResponse (serdeDecoders D).token op
    (.ok ⟨200, toJsonString (vaultTokenValue token)⟩) = .ok (vaultToken token) := by
  refine parseResponse_plain ?_
  simp only [serdeDecoders, toJsonString]
  exact fromStr_print D .compact _ (by simp [vaultTokenValue]) (decodeTokenResponse_vaultTokenValue token)

section
variable {D : SerdeJson} {token : String} {R : ∀ q, OsAns q → Prop}
  (hR : ∀ r x, R (.http r) x → vaultServer token r x)
include hR

theorem vault_get {endpoint : Endpoint} {resp : Except String HttpResp}
    (h : R (.http (.get endpoint token)) resp) : jsonServer [] (.http (.get endpoint token)) resp := by
  have hget := hR _ _ h
  simpa only [vaultServer, if_pos] using hget

theorem vault_serves : Serves (serdeDecoders D) R token oneSync oneCollections :=
  ⟨fun resp h => (jsonServer_serves D token).sync resp (vault_get hR h),
    fun resp h => (jsonServer_serves D token).collections resp (vault_get hR h)⟩

theorem vault_fetched : ∀ c ∈ oneSync.ciphers, ∀ resp, R (.http (.get (.cipher c.id) token)) resp →
    parseResponse (serdeDecoders D).cipher "get_cipher" resp = .ok c := by
  intro c hc resp h
  obtain rfl : c = oneCipher := List.mem_singleton.mp hc
  obtain rfl := vault_get hR h
  exact parseResponse_plain (jsonServer_cipher D)

theorem vault_refused {bearer : String} (hbearer : bearer ≠ token) {endpoint : Endpoint}
    {resp : Except String HttpResp} (h : R (.http (.get endpoint bearer)) resp) :
    ∃ body, resp = .ok ⟨401, body⟩ := by
  have hget := hR _ _ h
  simp only [vaultServer, if_neg hbearer] at hget
  exact ⟨"", hget⟩

theorem vault_granted {op : String} {form : List (String × String)} {resp : Except String HttpResp}
    (h : R (.http (.postForm .token form)) resp) :
    parseResponse (serdeDecoders D).token op resp = .ok (vaultToken token) := by
  obtain rfl := hR _ _ h
  exact vaultToken_response D op token

end

theorem oneSync_owned : ∀ c ∈ oneSync.ciphers, c.organizationId = none → c.collectionIds.getD [] = [] := by
  intro c hc h
  obtain rfl : c = oneCipher := List.mem_singleton.mp hc
  cases h

/-- The account behind that server. -/
def vaultAccount (D : SerdeJson) (token : String) {R : ∀ q, OsAns q → Prop}
    (hR : ∀ r x, R (.http r) x → vaultServer token r x) : Account plainPrimitives (serdeDecoders D) R where
  userKey := zeroKey
  sync := oneSync
  cs := oneCollections
  bundle := oneBundle
  honours bearer := bearer = token
  decrypted := oneBundle_decrypted
  served := by
    rintro _ rfl
    exact vault_serves hR
  fetched := by
    rintro _ rfl
    exact vault_fetched hR
  refused _ hbearer _ _ h := vault_refused hR hbearer h
  granted rt resp t h ht := by
    rw [vault_granted hR h] at ht
    rw [← Except.ok.inj ht]
    rfl
  owned := oneSync_owned

/-! ### A command with a login -/

def oneLogin : Session := ⟨"vw", plainCodecs.handleOf oneSession⟩

/-- What a command asks for before its provider, where it finds a login. -/
def openingCalls : CliTrace :=
  [⟨.loggedIn, true⟩, ⟨.loadConfig, .ok oneConfig⟩, ⟨.envVar "PASS", some "pw"⟩,
    ⟨.loadSession "pw", .ok oneLogin⟩, ⟨.newProvider "https://vault" true, .ok ()⟩]

def opening : HostTrace :=
  [⟨.os (.isFile ["state", "config.json"]), true⟩, ⟨.os (.isFile ["state", "keyring"]), true⟩,
    ⟨.os (.readToString ["state", "config.json"]), .ok (plainCodecs.encodeConfig oneConfig)⟩,
    ⟨.envVar "PASS", some "pw"⟩,
    ⟨.os (.readToString ["state", "keyring"]), .ok (plainKeyringLine oneLogin.handle)⟩,
    ⟨.buildClient "https://vault", .ok ()⟩]

theorem loggedIn_one : Runs (loggedIn ["state"])
    [⟨.isFile ["state", "config.json"], true⟩, ⟨.isFile ["state", "keyring"], true⟩] true :=
  ⟨true, _, rfl, true, _, rfl, rfl, rfl⟩

theorem loadConfig_one : Runs (State.loadConfig plainCodecs.decodeConfig ["state"]).run
    [⟨.readToString ["state", "config.json"], .ok (plainCodecs.encodeConfig oneConfig)⟩] (.ok oneConfig) := by
  refine runs_except_bind.mpr (.inr ⟨_, plainCodecs.encodeConfig oneConfig, [], rfl, ⟨_, _, rfl, rfl, rfl⟩, rfl, ?_⟩)
  exact (plainCodecs_lawful.config oneConfig).symm

theorem loadSession_one : Runs (State.loadSession plainPrimitives ["state"] "pw").run
    [⟨.readToString ["state", "keyring"], .ok (plainKeyringLine oneLogin.handle)⟩] (.ok oneLogin) := by
  have hopened : openKeyring plainPrimitives (plainKeyringLine oneLogin.handle) "pw" = .ok oneLogin.handle := by
    rw [plainKeyringLine_opens, oneLogin, plainCodecs_lawful.trim_handleOf]
  have hload : Runs (loadKeyring plainPrimitives ["state", "keyring"] "pw").run _ (.ok oneLogin.handle) :=
    runs_except_bind.mpr (.inr ⟨_, _, [], rfl, ⟨.ok _, _, rfl, rfl, rfl⟩, rfl, hopened.symm⟩)
  exact runs_except_bind.mpr (.inr ⟨_, _, [], rfl, runs_map.mpr ⟨_, hload, rfl⟩, rfl, rfl⟩)

theorem sessionExpiry_one : sessionExpiry plainCodecs.decoders oneLogin = none := by
  rw [sessionExpiry, oneLogin, plainCodecs_lawful.parseSession_handleOf]
  rfl

theorem opening_carried :
    CarriedOut (hostCalls plainPrimitives plainCodecs "device" none ["state"]) openingCalls opening := by
  refine ⟨_, _, rfl, onMachine_runs loggedIn_one, ?_⟩
  refine ⟨_, _, rfl, onMachine_runs loadConfig_one, _, _, rfl, runs_request.mpr rfl, ?_⟩
  refine ⟨_, _, rfl, onMachine_runs loadSession_one, ?_⟩
  exact ⟨_, [], rfl, runs_map.mpr ⟨.ok (), runs_request.mpr rfl, rfl⟩, rfl⟩

/-- A process over that login goes on as its command does. -/
theorem opened_runs {cmd : Command} {t : CliTrace} {tr : HostTrace} {code : ExitCode}
    (hcommand : Runs (cmd.run plainCodecs.renderObject) (openingCalls ++ t) code)
    (hrest : CarriedOut (hostCalls plainPrimitives plainCodecs "device" none ["state"]) t tr) :
    Runs (cryptile plainPrimitives plainCodecs "device" none (some "state") (.command cmd))
      (opening ++ tr) code := by
  have hpath : Path.ofText "state" = ["state"] := by decide
  rw [cryptile]
  refine runs_bind.mpr ⟨[], "state", opening ++ tr, rfl, ⟨rfl, rfl⟩, ?_⟩
  rw [hpath]
  exact runs_lower.mpr ⟨openingCalls ++ t, hcommand, opening_carried.append hrest⟩

def webCommand : Command := .get "vw://infra/web#password" (some "PASS") false true

theorem vaultAccount_prints {D : SerdeJson} {token : String} {R : ∀ q, HostAns q → Prop}
    (hR : ∀ r x, R (.os (.http r)) x → vaultServer token r x) :
    Account.prints (vaultAccount D token (R := fun q => R (.os q)) hR) renderObject webCommand = (["hi"], .success) := by
  have href : Ref.parse "vw://infra/web#password" = .ok ⟨"vw", "infra/web", "password", true⟩ := by decide
  have hout : Account.outcome (vaultAccount D token (R := fun q => R (.os q)) hR) (.get ⟨"vw", "infra/web", "password", true⟩) =
      .ok "hi" := rfl
  simp only [Account.prints, webCommand, href, hout, reported]

/-- The login on the machine has another token than the one that is honoured. -/
def expiredMachine : ∀ q, HostAns q → Prop
  | .os (.isFile _), x => x = true
  | .os (.readToString path), x =>
    if path = configPath ["state"] then x = .ok (plainCodecs.encodeConfig oneConfig)
    else if path = keyringPath ["state"] then x = .ok (plainKeyringLine (plainCodecs.handleOf oneSession))
    else x = .error "No such file or directory"
  | .os (.http r), x => vaultServer "fresh" r x
  | .envVar _, x => x = some "pw"
  | .buildClient _, x => x = .ok ()
  | _, _ => True

theorem expiredMachine_total : ∀ q, ∃ x, expiredMachine q x
  | .os (.isFile _) => ⟨true, rfl⟩
  | .os (.readToString path) => by
    change ∃ x, ite _ _ _
    split
    · exact ⟨_, rfl⟩
    · split <;> exact ⟨_, rfl⟩
  | .os (.http r) => vaultServer_total "fresh" r
  | .os .systemTime => ⟨none, trivial⟩
  | .os (.random _) | .os (.modeOf _) => ⟨.error "", trivial⟩
  | .os (.createDirAll _) | .os (.setMode _ _) | .os (.openTruncate _ _) | .os (.writeAll _ _)
  | .os (.syncAll _) | .os (.rename _ _) => ⟨.ok (), trivial⟩
  | .os (.fidohCeremony _ _) | .os (.legacyCeremony _) => ⟨none, trivial⟩
  | .envVar _ => ⟨_, rfl⟩
  | .varOs _ => ⟨none, trivial⟩
  | .stdinIsTerminal | .pathExists _ => ⟨false, trivial⟩
  | .promptPassword _ | .waitWithOutput => ⟨.error "", trivial⟩
  | .buildClient _ => ⟨_, rfl⟩
  | .removeFile _ | .kill | .wait | .println _ | .eprintln _ => ⟨(), trivial⟩
  | .spawn _ _ | .writeStdin _ => ⟨.error "", trivial⟩

theorem expiredMachine_server (r : HttpReq) (x : Except String HttpResp)
    (h : expiredMachine (.os (.http r)) x) : vaultServer "fresh" r x := h

def expiredAccount :
    Account plainPrimitives plainCodecs.decoders (fun q => expiredMachine (.os q)) :=
  vaultAccount plainSerde "fresh" expiredMachine_server

/-- The token of the login has expired, and its refresh token is good. -/
theorem expiredAccount_usable : expiredAccount.Usable ⟨"vw", plainCodecs.handleOf oneSession⟩ := by
  refine ⟨oneSession, ⟨plainCodecs_lawful.parseSession_handleOf _, oneSession_opens⟩, .inr ⟨"refresh", rfl, ?_⟩⟩
  intro resp h
  exact ⟨_, vault_granted (R := fun q => expiredMachine (.os q)) expiredMachine_server h⟩

theorem expiredMachine_holdsLogin : HoldsLogin plainPrimitives plainCodecs expiredMachine ["state"]
    webCommand.passphraseEnv oneConfig "pw" (fun handle => expiredAccount.Usable ⟨"vw", handle⟩) where
  present := by rintro _ b - rfl; rfl
  config := by
    rintro _ rfl
    exact ⟨_, rfl, decodeConfig_toStringPretty plainSerde oneConfig⟩
  keyring := by
    rintro _ rfl
    refine ⟨_, plainCodecs.handleOf oneSession, rfl, ?_, expiredAccount_usable⟩
    rw [plainKeyringLine_opens, plainCodecs_lawful.trim_handleOf]
  named := by rintro _ _ - rfl; rfl
  terminal := by rintro _ h; cases h
  typed := by rintro _ h; cases h
  client := by rintro _ rfl; rfl

theorem process_prints_account_expired : ∃ tr code,
    Runs (cryptile plainPrimitives plainCodecs "device" none (some "state") (.command webCommand)) tr code ∧
    Within expiredMachine tr ∧ (stdout tr, code) = (["hi"], .success) := by
  obtain ⟨tr, code, hrun, hwithin⟩ := exists_run_within expiredMachine_total
    (cryptile plainPrimitives plainCodecs "device" none (some "state") (.command webCommand))
  have hdir : ∀ text, Returns expiredMachine (stateDir (some "state")) text →
      Path.ofText text = ["state"] := by
    rintro _ rfl
    decide
  have hcache : CacheCurrent expiredAccount (cachePath ["state"]) := by
    intro raw hraw
    cases hraw
  have hprints : (stdout tr, code) = expiredAccount.prints plainCodecs.renderObject webCommand :=
    process_prints_account plainCodecs_lawful expiredAccount hdir expiredMachine_holdsLogin hcache hrun hwithin
  exact ⟨tr, code, hrun, hwithin, hprints.trans (vaultAccount_prints expiredMachine_server)⟩

end Cryptile
