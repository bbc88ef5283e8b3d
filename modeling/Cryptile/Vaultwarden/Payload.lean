import Cryptile.Vaultwarden.Provider

/-
  Payload — the read paths against a server that serves one payload

  A server is known by the answers it allows. While it serves one sync payload and
  one list of collections, `syncAndKeys` has one result, `bundleOf` the payload,
  and the operations are their loops over it.
-/

namespace Cryptile
open Text Interaction

variable {P : Primitives} {J : Decoders} {R : ∀ q, OsAns q → Prop}

/-- For this access token the server answers with this payload. -/
structure Serves (J : Decoders) (R : ∀ q, OsAns q → Prop) (accessToken : String)
    (sync : SyncResponse) (cs : List ApiCollection) : Prop where
  sync : ∀ resp, R (.http (.get .sync accessToken)) resp → parseResponse J.sync "sync" resp = .ok sync
  collections : ∀ resp, R (.http (.get .collections accessToken)) resp →
    parseResponse (fun body => (J.collections body).map (fun d => d.getD [])) "collections" resp = .ok cs

/-- The keys and names a payload decrypts to under a user key. -/
def bundleOf (P : Primitives) (userKey : SymmetricKey) (sync : SyncResponse)
    (cs : List ApiCollection) : Except CryptoError SyncBundle :=
  (syncKeys P userKey sync).map (fun orgKeys =>
    { sync := sync, orgKeys := orgKeys, collections := namedCollections P orgKeys cs })

section
variable {accessToken : String} {sync : SyncResponse} {cs : List ApiCollection}
  {userKey : SymmetricKey}

theorem liftApi_returns {α : Type} {x : Os (Except ApiError α)} {r : Except ProviderError α} :
    Returns R (liftApi J x).run r ↔ ∃ r', Returns R x r' ∧ r = r'.mapError (mapApi J) :=
  returns_map

theorem Serves.sync_returns (h : Serves J R accessToken sync cs)
    {r : Except ProviderError SyncResponse} (hr : Returns R (liftApi J (apiSync J accessToken)).run r) :
    r = .ok sync := by
  obtain ⟨r', h', rfl⟩ := liftApi_returns.mp hr
  obtain ⟨resp, hresp, rfl⟩ := call_returns.mp h'
  rw [h.sync resp hresp]
  rfl

theorem Serves.collections_returns (h : Serves J R accessToken sync cs)
    {r : Except ProviderError (List ApiCollection)}
    (hr : Returns R (liftApi J (apiCollections J accessToken)).run r) : r = .ok cs := by
  obtain ⟨r', h', rfl⟩ := liftApi_returns.mp hr
  obtain ⟨resp, hresp, rfl⟩ := call_returns.mp h'
  rw [h.collections resp hresp]
  rfl

theorem syncAndKeys_returns (h : Serves J R accessToken sync cs) {r : Except ProviderError SyncBundle}
    (hr : Returns R (syncAndKeys P J accessToken userKey).run r) :
    r = liftCrypto (bundleOf P userKey sync cs) := by
  unfold syncAndKeys at hr
  rcases returns_except_bind.mp hr with ⟨e, rfl, h₁⟩ | ⟨sync', h₁, hr⟩
  · cases h.sync_returns h₁
  cases h.sync_returns h₁
  rcases returns_settled_bind.mp hr with ⟨e, hk, rfl⟩ | ⟨orgKeys, hk, hr⟩
  · cases hkeys : syncKeys P userKey sync with
    | error e' =>
      rw [hkeys] at hk
      cases hk
      simp [bundleOf, hkeys, liftCrypto, Except.map, Except.mapError]
    | ok k => rw [hkeys] at hk; cases hk
  cases hkeys : syncKeys P userKey sync with
  | error e' => rw [hkeys] at hk; cases hk
  | ok k =>
    rw [hkeys] at hk
    cases hk
    rcases returns_except_bind.mp hr with ⟨e, rfl, h₂⟩ | ⟨cs', h₂, hr⟩
    · cases h.collections_returns h₂
    · cases h.collections_returns h₂
      cases hr
      simp [bundleOf, hkeys, liftCrypto, Except.map, Except.mapError]

end

/-! ## The operations on one payload -/

/-- A session that opens, a payload that is served to it, and what it decrypts to. -/
structure Vault (P : Primitives) (J : Decoders) (R : ∀ q, OsAns q → Prop) (s : Session) where
  sess : VwSession
  userKey : SymmetricKey
  sync : SyncResponse
  cs : List ApiCollection
  bundle : SyncBundle
  parsed : parseSession J s = .ok sess
  opened : sessUserKey sess = .ok userKey
  served : Serves J R sess.accessToken sync cs
  decrypted : bundleOf P userKey sync cs = .ok bundle

section
variable {s : Session} (v : Vault P J R s)

theorem Vault.sync_returns {r : Except ProviderError SyncBundle}
    (hr : Returns R (syncAndKeys P J v.sess.accessToken v.userKey).run r) : r = .ok v.bundle := by
  rw [syncAndKeys_returns v.served hr, v.decrypted]
  rfl

theorem Vault.bundle_sync : v.bundle.sync = v.sync := by
  have h := v.decrypted
  unfold bundleOf at h
  cases hk : syncKeys P v.userKey v.sync with
  | error e => rw [hk] at h; cases h
  | ok orgKeys =>
    rw [hk] at h
    simp only [Except.map, Except.ok.injEq] at h
    rw [← h]

/-- What an operation does with the session it is given, it does with the vault's. -/
theorem Vault.session_returns {α : Type} {f : VwSession → SymmetricKey → ExceptT ProviderError Os α}
    {r : Except ProviderError α} :
    Returns R (do
      let sess ← ExceptT.mk (pure (parseSession J s))
      let userKey ← ExceptT.mk (pure (sessUserKey sess))
      f sess userKey).run r ↔ Returns R (f v.sess v.userKey).run r := by
  rw [v.parsed, returns_ok_step, v.opened, returns_ok_step]

/-- A bulk operation is its loop over the payload. -/
theorem Vault.bulk_returns {α : Type} {cachePath : Option Path} {ns : Namespace}
    {loop : String → List (String × SymmetricKey) → SymmetricKey → List Cipher → α}
    {r : Except ProviderError α} (hr : Returns R (bulkOp P J loop cachePath s ns).run r) :
    r = (namespaceCollection ns v.bundle.collections).map
      (fun collId => loop collId v.bundle.orgKeys v.userKey v.sync.ciphers) := by
  unfold bulkOp at hr
  rw [v.session_returns] at hr
  rcases returns_except_bind.mp hr with ⟨_, rfl, hs⟩ | ⟨b, hs, hr⟩
  · cases v.sync_returns hs
  cases v.sync_returns hs
  rcases returns_settled_bind.mp hr with ⟨e, hc, rfl⟩ | ⟨collId, hc, hr⟩
  · rw [hc]; rfl
  obtain ⟨_, -, rfl⟩ := returns_lift_bind.mp hr
  rw [hc, v.bundle_sync]
  rfl

/-- A bulk operation that succeeds has resolved its namespace. -/
theorem Vault.bulk_ok {α : Type} {cachePath : Option Path} {ns : Namespace}
    {loop : String → List (String × SymmetricKey) → SymmetricKey → List Cipher → α} {a : α}
    (hr : Returns R (bulkOp P J loop cachePath s ns).run (.ok a)) :
    ∃ collId, namespaceCollection ns v.bundle.collections = .ok collId ∧
      a = loop collId v.bundle.orgKeys v.userKey v.sync.ciphers := by
  have hbulk := v.bulk_returns hr
  cases hcoll : namespaceCollection ns v.bundle.collections with
  | error e =>
    rw [hcoll] at hbulk
    cases hbulk
  | ok collId =>
    rw [hcoll] at hbulk
    exact ⟨collId, rfl, Except.ok.inj hbulk⟩

/-- The full-sync path of a get is the scan of the payload. -/
theorem Vault.cold_returns {cachePath : Option Path} {coll item : String}
    {r : Except ProviderError Secret}
    (hr : Returns R (getSecretCold P J cachePath v.sess v.userKey coll item).run r) :
    r = match resolveCollection coll v.bundle.collections with
      | none => .error (.notFound ("collection " ++ coll))
      | some collId => scanSecret P collId v.bundle.orgKeys v.userKey coll item 0 v.sync.ciphers := by
  unfold getSecretCold at hr
  rcases returns_except_bind.mp hr with ⟨_, rfl, hs⟩ | ⟨b, hs, hr⟩
  · cases v.sync_returns hs
  cases v.sync_returns hs
  cases hcoll : resolveCollection coll v.bundle.collections with
  | none => rw [hcoll] at hr; exact hr
  | some collId =>
    rw [hcoll] at hr
    simp only
    rw [← v.bundle_sync]
    rcases returns_settled_bind.mp hr with ⟨e, hscan, rfl⟩ | ⟨secret, hscan, hr⟩
    · exact hscan.symm
    · obtain ⟨_, -, rfl⟩ := returns_lift_bind.mp hr
      exact hscan.symm

end

/-! ## A vault of one item -/

def zeroKey : SymmetricKey := ⟨zeros 32, zeros 32⟩

/-- A login `web` in the collection `infra` of the one organization there is. -/
def oneCipher : Cipher where
  id := "i1"
  name := plainString [0x77, 0x65, 0x62]
  organizationId := some "o1"
  collectionIds := some ["c1"]
  key := none
  login := some ⟨none, some (plainString [0x68, 0x69]), none, []⟩
  card := none
  identity := none
  sshKey := none
  notes := none
  fields := []

def oneSync : SyncResponse where
  profile := { privateKey := plainString [],
               organizations := [{ id := "o1", key := plainOrgKey zeroKey }] }
  ciphers := [oneCipher]

def oneCollections : List ApiCollection :=
  [{ id := "c1", organizationId := "o1", name := plainString [0x69, 0x6e, 0x66, 0x72, 0x61] }]

def oneSession : VwSession where
  accessToken := "token"
  refreshToken := some "refresh"
  userKeyB64 := Base64.encode zeroKey.bytes
  account := some "a@b"
  expiresAt := none

def oneBundle : SyncBundle where
  sync := oneSync
  orgKeys := [("o1", zeroKey)]
  collections := [("c1", "o1", "infra")]

def oneData : CacheData := cacheData plainPrimitives oneSession zeroKey oneBundle

/-- Decoders that know the bodies of this vault. -/
def oneDecoders : Decoders where
  value _ := .error "no JSON"
  token _ := .error "no token"
  sync _ := .ok oneSync
  collections _ := .ok (some oneCollections)
  cipher _ := .ok oneCipher
  session _ := .ok oneSession
  encodeSession _ := .ok "session"
  cacheData b := if b = [1] then some oneData else none
  encodeCacheData d := if d = oneData then .ok [1] else .error "another index"

theorem oneDecoders_lawful : oneDecoders.Lawful := by
  intro data bytes h
  simp only [oneDecoders] at h ⊢
  split at h
  · next hd => cases h; simp [hd]
  · cases h

/-- A server of this vault: every body is fetched, the rest is left open. -/
def oneServer : ∀ q, OsAns q → Prop
  | .http (.get _ _), x => x = .ok ⟨200, ""⟩
  | _, _ => True

theorem oneServer_total : ∀ q, ∃ x, oneServer q x
  | .http (.get _ _) => ⟨.ok ⟨200, ""⟩, rfl⟩
  | .http (.postJson _ _) | .http (.postForm _ _) => ⟨.error "", trivial⟩
  | .systemTime => ⟨none, trivial⟩
  | .random _ => ⟨.error "", trivial⟩
  | .createDirAll _ | .setMode _ _ | .openTruncate _ _ | .writeAll _ _ | .syncAll _
  | .rename _ _ => ⟨.ok (), trivial⟩
  | .modeOf _ => ⟨.error "", trivial⟩
  | .isFile _ => ⟨true, trivial⟩
  | .readToString _ => ⟨.error "", trivial⟩
  | .fidohCeremony _ _ | .legacyCeremony _ => ⟨none, trivial⟩

/-- A cipher that holds a password and nothing else. -/
theorem mapCipher_password {c : Cipher} {key : SymmetricKey} {name enc value : String}
    (hname : decryptStr P c.name key = .ok name) (hlogin : c.login = some ⟨none, some enc, none, []⟩)
    (hne : enc.isEmpty = false) (hvalue : decryptStr P enc key = .ok value) (hcard : c.card = none)
    (hidentity : c.identity = none) (hssh : c.sshKey = none) (hnotes : c.notes = none)
    (hfields : c.fields = []) : ∃ secret, mapCipher P key c = .ok secret := by
  simp [mapCipher, mapFields, mapBlock, mapLogin, mapUris, insertEach, insertIf, hname, hlogin, hne,
    hvalue, hcard, hidentity, hssh, hnotes, hfields, bind, Except.bind, pure, Except.pure]

theorem syncKeys_single {userKey key : SymmetricKey} {sync : SyncResponse} {es orgEs : EncString}
    {privateKey : Bytes} {org : Org}
    (hparse : EncString.parse sync.profile.privateKey = .ok es)
    (hdec : es.decryptSymmetric P userKey = .ok privateKey)
    (horgs : sync.profile.organizations = [org]) (hne : org.key.isEmpty = false)
    (horg : EncString.parse org.key = .ok orgEs) (hkey : unwrapOrgKey P orgEs privateKey = .ok key) :
    syncKeys P userKey sync = .ok [(org.id, key)] := by
  simp [syncKeys, hparse, hdec, horgs, hne, orgKeyOf, horg, hkey, bind, Except.bind, pure, Except.pure]

theorem namedCollections_single {orgId name : String} {key : SymmetricKey} {c : ApiCollection}
    (horg : c.organizationId = orgId) (hname : decryptStr P c.name key = .ok name) :
    namedCollections P [(orgId, key)] [c] = [(c.id, orgId, name)] := by
  subst horg
  simp [namedCollections, hname, Except.toOption]

theorem plainOrgKey_nonempty (key : SymmetricKey) : (plainOrgKey key).isEmpty = false := by
  simp [plainOrgKey]

theorem unwrap_plainOrgKey (key : SymmetricKey) (b : Bytes) : unwrapOrgKey plainPrimitives
    ⟨.rsa2048OaepSha1B64, [], key.bytes, none⟩ b = .ok key :=
  SymmetricKey.from64_bytes key

theorem bundleOf_ok {userKey : SymmetricKey} {sync : SyncResponse} {cs : List ApiCollection}
    {orgKeys : List (String × SymmetricKey)} {collections : List (String × String × String)}
    (hkeys : syncKeys P userKey sync = .ok orgKeys)
    (hcolls : namedCollections P orgKeys cs = collections) :
    bundleOf P userKey sync cs = .ok ⟨sync, orgKeys, collections⟩ := by
  simp [bundleOf, hkeys, hcolls, Except.map]

theorem syncKeys_oneSync : syncKeys plainPrimitives zeroKey oneSync = .ok [("o1", zeroKey)] := by
  have hparse : EncString.parse oneSync.profile.privateKey =
      .ok ⟨.aesCbc256HmacSha256B64, (zeros 16).1, pkcs7 [], some (zeros 32).1⟩ := parse_plainString []
  have horgs : oneSync.profile.organizations = [⟨"o1", plainOrgKey zeroKey⟩] := rfl
  exact syncKeys_single hparse (decryptSymmetric_plain [] zeroKey) horgs (plainOrgKey_nonempty zeroKey)
    (parse_plainOrgKey zeroKey) (unwrap_plainOrgKey zeroKey [])

theorem oneCollections_named : namedCollections plainPrimitives [("o1", zeroKey)] oneCollections =
    [("c1", "o1", "infra")] := by
  have hname : decryptStr plainPrimitives (plainString [0x69, 0x6e, 0x66, 0x72, 0x61]) zeroKey =
      .ok "infra" := by
    rw [decryptStr_plainString]
    decide
  exact namedCollections_single rfl hname

theorem oneSession_opens : sessUserKey oneSession = .ok zeroKey := by
  simp [sessUserKey, oneSession, Base64.decode_encode, liftCrypto, Except.mapError]

def itemsSync (ciphers : List Cipher) : SyncResponse := { oneSync with ciphers := ciphers }

def itemsDecoders (ciphers : List Cipher) (cs : List ApiCollection) : Decoders :=
  { oneDecoders with
    sync := fun _ => .ok (itemsSync ciphers)
    collections := fun _ => .ok (some cs) }

def itemsVault (ciphers : List Cipher) (cs : List ApiCollection)
    (collections : List (String × String × String))
    (h : namedCollections plainPrimitives [("o1", zeroKey)] cs = collections) :
    Vault plainPrimitives (itemsDecoders ciphers cs) oneServer ⟨"vw", "session"⟩ where
  sess := oneSession
  userKey := zeroKey
  sync := itemsSync ciphers
  cs := cs
  bundle := ⟨itemsSync ciphers, [("o1", zeroKey)], collections⟩
  parsed := rfl
  opened := oneSession_opens
  served :=
    { sync := by intro resp h; cases h; rfl
      collections := by intro resp h; cases h; rfl }
  decrypted := bundleOf_ok syncKeys_oneSync h

/-! ## A vault with a name twice, and with items that do not open -/

/-- A login of this name in the collection `infra`, with this encrypted password. -/
def loginCipher (id : String) (name : Bytes) (password : String) : Cipher :=
  { oneCipher with id := id, name := plainString name, login := some ⟨none, some password, none, []⟩ }

/-- What it maps to. -/
def loginSecret (id name password : String) : Secret where
  info := ⟨id, name, "o1", ["password"]⟩
  fields := (∅ : FieldBag).insert "password" password

/-- Its name does not decrypt. -/
def unnamedCipher : Cipher := { oneCipher with id := "i0", name := "x" }

/-- Beside it `web`, `WEB`, and `db` with a password that does not decrypt. -/
def crowdedCiphers : List Cipher :=
  [unnamedCipher, loginCipher "i1" [0x77, 0x65, 0x62] (plainString [0x68, 0x69]),
   loginCipher "i2" [0x57, 0x45, 0x42] (plainString [0x68, 0x6f]), loginCipher "i3" [0x64, 0x62] "x"]

def crowdedVault : Vault plainPrimitives (itemsDecoders crowdedCiphers oneCollections) oneServer
    ⟨"vw", "session"⟩ :=
  itemsVault crowdedCiphers oneCollections [("c1", "o1", "infra")] oneCollections_named

theorem mapCipher_loginCipher (id : String) (name password : Bytes) (key : SymmetricKey) :
    mapCipher plainPrimitives key (loginCipher id name (plainString password)) =
      .ok (loginSecret id (fromUtf8Lossy name) (fromUtf8Lossy password)) := by
  have hkeys : ((∅ : FieldBag).insert "password" (fromUtf8Lossy password)).keys = ["password"] := rfl
  simp [loginCipher, loginSecret, oneCipher, mapCipher, mapFields, mapBlock, mapLogin, mapUris, insertEach,
    insertIf, decryptStr_plainString, plainString_nonempty, bind, Except.bind, pure, Except.pure, hkeys]

theorem mapCipher_halfCorrupt (id : String) (name : Bytes) (key : SymmetricKey) :
    mapCipher plainPrimitives key (loginCipher id name "x") = .error .malformedEncString := by
  have hcorrupt : decryptStr plainPrimitives "x" key = .error .malformedEncString := rfl
  have hne : "x".isEmpty = false := by decide
  simp [loginCipher, oneCipher, mapCipher, mapFields, mapBlock, mapLogin, insertEach, insertIf,
    decryptStr_plainString, hcorrupt, hne, bind, Except.bind]

end Cryptile
