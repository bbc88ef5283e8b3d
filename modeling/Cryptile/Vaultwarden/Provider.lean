import Cryptile.Vaultwarden.Mapping
import Cryptile.Vaultwarden.Cache

/-
  Provider — the read paths of the backend: sync, list, get, and the token refresh

  The full-sync paths decrypt the keys, then go through the ciphers one by one:
  `listMetas`, `namespaceSecrets` and `scanSecret` are the three loops. The warm
  path goes through an index instead and fetches one cipher at a time; what it
  does with a fetched body is `warmVerdict`.

  Correspondence (Rust ↔ Lean):
    `decode_two_factor_providers`, `map_api` ↔ `decodeTwoFactorProviders`, `mapApi`
    `parse_session`, `sess_user_key`         ↔ `parseSession`, `sessUserKey`
    `key_for`, `effective_key`               ↔ `keyFor`, `effectiveKey`
    `sync_and_keys`                          ↔ `syncAndKeys`, with `syncKeys`, `namedCollections`
    `write_cache`                            ↔ `writeCache`, with `cacheData`
    `list_namespaces`, `list_secrets`, ...   ↔ `listNamespaces`, `listSecrets`, ...
    `get_secret`, `get_secret_warm`          ↔ `getSecret`, `getSecretWarm`
    `refresh_session`, `session_expiry`      ↔ `refreshSession`, `sessionExpiry`
-/

namespace Cryptile
open Text Interaction

/-- The ceremony backend a build has: the one its features select, if any. -/
inductive CeremonyBackend where
  | fidoh
  | webauthn
  deriving DecidableEq, Repr

structure VaultwardenProvider where
  deviceId : String
  cachePath : Option Path
  backend : Option CeremonyBackend

/-! ## Errors -/

def idToTag : Nat → String
  | 0 => "totp"
  | 1 => "email"
  | 7 => "webauthn"
  | other => "unknown(" ++ toString other ++ ")"

def pushTag (out : List String) (n : Nat) : List String :=
  if out.contains (idToTag n) then out else out ++ [idToTag n]

def u64Max : Nat := 0xFFFFFFFFFFFFFFFF

def itemId (item : Json) : Option Nat :=
  (item.asU64.map UInt64.toNat).or (item.asStr.bind (parseUint u64Max))

/-- The provider ids a challenge offers: the members of the arrays, then the keys of
the maps, either casing. -/
def offeredIds (v : Json) : List Nat :=
  ["TwoFactorProviders", "twoFactorProviders"].flatMap
    (fun key => (((v.get key).bind Json.asArray).getD []).filterMap itemId) ++
  ["TwoFactorProviders2", "twoFactorProviders2"].flatMap
    (fun key => (((v.get key).bind Json.asObject).getD []).filterMap (fun m => parseUint u64Max m.1))

section
variable (P : Primitives) (J : Decoders)

def decodeTwoFactorProviders (body : String) : List String :=
  match J.value body with
  | .error _ => []
  | .ok v => (offeredIds v).foldl pushTag []

def mapApi : ApiError → ProviderError
  | .twoFactorChallenge body => .twoFactorRequired (decodeTwoFactorProviders J body)
  | .status op code detail =>
    if code = 401 then .authExpired
    else if code = 403 then .forbidden detail
    else if code = 404 then .notFound detail
    else if 400 ≤ code && code ≤ 499 then .auth (op ++ ": " ++ detail)
    else .server (op ++ ": " ++ detail)
  | other => .transport other.display

def liftApi {α : Type} (x : Os (Except ApiError α)) : ExceptT ProviderError Os α :=
  ExceptT.mk ((fun r : Except ApiError α => r.mapError (mapApi J)) <$> x)

def liftCrypto {α : Type} (x : Except CryptoError α) : Except ProviderError α := x.mapError cryptoErr

/-! ## Sessions and keys -/

def parseSession (s : Session) : Except ProviderError VwSession :=
  (J.session s.handle).mapError (fun e => .auth ("corrupt session: " ++ e))

def sessUserKey (sess : VwSession) : Except ProviderError SymmetricKey :=
  match Base64.decode sess.userKeyB64 with
  | some raw => liftCrypto (SymmetricKey.from64 raw)
  | none => .error .authExpired

/-- The organization's key if the profile has it, the user key otherwise. -/
def keyFor (org : Option String) (orgKeys : List (String × SymmetricKey)) (userKey : SymmetricKey) :
    SymmetricKey :=
  match org with
  | some o => ((orgKeys.find? (fun p => p.1 == o)).map Prod.snd).getD userKey
  | none => userKey

/-- The key the fields of a cipher are sealed under: its own, if it carries one. -/
def effectiveKey (cipherKeyField : Option String) (container : SymmetricKey) :
    Except CryptoError SymmetricKey :=
  match cipherKeyField.filter (fun k => !k.isEmpty) with
  | none => .ok container
  | some k => do
    let es ← EncString.parse k
    SymmetricKey.from64 (← es.decryptSymmetric P container)

/-! ## Full sync -/

structure SyncBundle where
  sync : SyncResponse
  orgKeys : List (String × SymmetricKey)
  collections : List (String × String × String)

def orgKeyOf (privateKey : Bytes) (org : Org) : Except CryptoError (String × SymmetricKey) := do
  let es ← EncString.parse org.key
  return (org.id, ← unwrapOrgKey P es privateKey)

/-- The keys of the organizations that have one, in the profile's order. -/
def syncKeys (userKey : SymmetricKey) (sync : SyncResponse) :
    Except CryptoError (List (String × SymmetricKey)) := do
  let es ← EncString.parse sync.profile.privateKey
  let privateKey ← es.decryptSymmetric P userKey
  (sync.profile.organizations.filter (fun o => !o.key.isEmpty)).mapM (orgKeyOf P privateKey)

/-- The collections whose organization's key is known and whose name decrypts. -/
def namedCollections (orgKeys : List (String × SymmetricKey)) (cs : List ApiCollection) :
    List (String × String × String) :=
  cs.filterMap (fun c => do
    let k ← (orgKeys.find? (fun p => p.1 == c.organizationId)).map Prod.snd
    let name ← (decryptStr P c.name k).toOption
    return (c.id, c.organizationId, name))

def syncAndKeys (accessToken : String) (userKey : SymmetricKey) :
    ExceptT ProviderError Os SyncBundle := do
  let sync ← liftApi J (apiSync J accessToken)
  let orgKeys ← ExceptT.mk (pure (liftCrypto (syncKeys P userKey sync)))
  let cs ← liftApi J (apiCollections J accessToken)
  return { sync := sync, orgKeys := orgKeys, collections := namedCollections P orgKeys cs }

/-- Whether a cipher is in the collection: the personal vault is the empty id. -/
def belongs (collId : String) (c : Cipher) : Bool :=
  match c.organizationId, collId.isEmpty with
  | none, true => true
  | some _, true => false
  | none, false => false
  | some _, false => (c.collectionIds.getD []).contains collId

/-! ## The sync cache -/

/-- The index entry of a cipher whose key and name decrypt. -/
def cipherEntry (orgKeys : List (String × SymmetricKey)) (userKey : SymmetricKey) (c : Cipher) :
    Option CipherIndexEntry := do
  let key ← (effectiveKey P c.key (keyFor c.organizationId orgKeys userKey)).toOption
  let name ← (decryptStr P c.name key).toOption
  return { id := c.id, orgId := c.organizationId, name := name,
           collectionIds := c.collectionIds.getD [] }

def cacheData (sess : VwSession) (userKey : SymmetricKey) (b : SyncBundle) : CacheData where
  v := 1
  account := sess.account
  collections := b.collections.map (fun c => { id := c.1, orgId := c.2.1, name := c.2.2 })
  ciphers := b.sync.ciphers.filterMap (cipherEntry P b.orgKeys userKey)
  orgKeys := b.orgKeys.map (fun k => { orgId := k.1, keyB64 := Base64.encode k.2.bytes })

/-- Best effort: a failure to store changes nothing else. -/
def writeCache (cachePath : Option Path) (sess : VwSession) (userKey : SymmetricKey)
    (b : SyncBundle) : Os Unit :=
  match cachePath with
  | none => return ()
  | some path => do
    let _ ← (storeCache P J path userKey (cacheData P sess userKey b)).run
    return ()

/-! ## The full-sync loops -/

section
variable (collId : String) (orgKeys : List (String × SymmetricKey)) (userKey : SymmetricKey)

def listMetas : List Cipher → List SecretMeta
  | [] => []
  | c :: rest =>
    if !belongs collId c then listMetas rest
    else match effectiveKey P c.key (keyFor c.organizationId orgKeys userKey) with
      | .error _ => listMetas rest
      | .ok key =>
        match mapCipher P key c with
        | .ok secret => secret.info :: listMetas rest
        | .error _ => listMetas rest

def namespaceSecrets : List Cipher → List Secret
  | [] => []
  | c :: rest =>
    if !belongs collId c then namespaceSecrets rest
    else match effectiveKey P c.key (keyFor c.organizationId orgKeys userKey) with
      | .error _ => namespaceSecrets rest
      | .ok key =>
        match mapCipher P key c with
        | .ok secret => secret :: namespaceSecrets rest
        | .error _ => namespaceSecrets rest

def unwrapFailed (failures : Nat) (coll : String) : ProviderError :=
  .crypto (toString failures ++ " cipher(s) in collection " ++ coll ++ " carry cipher-level " ++
    "keys that fail to unwrap under the available container keys")

/-- The first cipher of the collection with the name, counting the keys that fail. -/
def scanSecret (coll item : String) : Nat → List Cipher → Except ProviderError Secret
  | failures, [] =>
    if failures > 0 then .error (unwrapFailed failures coll)
    else .error (.notFound ("vw://" ++ coll ++ "/" ++ item))
  | failures, c :: rest =>
    if !belongs collId c then scanSecret coll item failures rest
    else match effectiveKey P c.key (keyFor c.organizationId orgKeys userKey) with
      -- its name cannot be read: it is counted, so that a search in vain can say so
      | .error _ => scanSecret coll item (failures + 1) rest
      | .ok key =>
        match decryptStr P c.name key with
        | .error _ => scanSecret coll item failures rest
        | .ok name =>
          if !eqIgnoreAsciiCase name item then scanSecret coll item failures rest
          else liftCrypto (mapCipher P key c)

end

/-! ## The warm path -/

def cipherKey (cache : CacheData) (cipher : Cipher) (sess : VwSession) :
    Except ProviderError SymmetricKey :=
  match cipher.organizationId with
  | some org =>
    match cache.orgKey org with
    | some k => .ok k
    | none => .error (.crypto "org key missing from cache; resync needed")
  | none => sessUserKey sess

/-- Whether an index entry has the name and is in the collection. -/
def isCandidate (collId item : String) (e : CipherIndexEntry) : Bool :=
  eqIgnoreAsciiCase e.name item &&
    (if collId.isEmpty then e.orgId.isNone else e.collectionIds.contains collId)

def candidates (cache : CacheData) (collId item : String) : List CipherIndexEntry :=
  cache.ciphers.filter (isCandidate collId item)

/-- What the warm path does with a fetched cipher: try the next candidate, leave it
to the full sync, or answer. -/
inductive Verdict where
  | next
  | miss
  | answer (r : Except ProviderError Secret)

def warmVerdict (sess : VwSession) (cache : CacheData) (item : String) (cipher : Cipher) : Verdict :=
  match cipherKey cache cipher sess with
  | .error _ => .miss
  | .ok container =>
    match effectiveKey P cipher.key container with
    | .error _ => .miss
    | .ok key =>
      match decryptStr P cipher.name key with
      | .error _ => .miss
      -- the name is checked again; the collections of the body are not looked at
      | .ok name =>
        if !eqIgnoreAsciiCase name item then .next
        else .answer (liftCrypto (mapCipher P key cipher))

/-- A body that cannot be fetched leaves the search to the next candidate. -/
def fetchVerdict (sess : VwSession) (cache : CacheData) (item : String) :
    Except ApiError Cipher → Verdict
  | .error _ => .next
  | .ok cipher => warmVerdict P sess cache item cipher

def tryCandidates (sess : VwSession) (cache : CacheData) (item : String) :
    List CipherIndexEntry → ExceptT ProviderError Os (Option Secret)
  | [] => return none
  | entry :: rest => ExceptT.mk do
    match fetchVerdict P sess cache item (← getCipher J sess.accessToken entry.id) with
    | .next => (tryCandidates sess cache item rest).run
    | .miss => return .ok none
    | .answer r => return r.map some

def getSecretWarm (sess : VwSession) (cache : CacheData) (coll item : String) :
    ExceptT ProviderError Os (Option Secret) :=
  match resolveCollection coll cache.collectionTuples with
  | none => return none
  | some collId => tryCandidates P J sess cache item (candidates cache collId item)

/-! ## The operations -/

def listNamespaces (s : Session) : ExceptT ProviderError Os (List Namespace) := do
  let sess ← ExceptT.mk (pure (parseSession J s))
  let userKey ← ExceptT.mk (pure (sessUserKey sess))
  let b ← syncAndKeys P J sess.accessToken userKey
  return b.collections.map (fun c => { id := c.1, name := c.2.2 }) ++ [{ id := "", name := "personal" }]

def namespaceCollection (ns : Namespace) (collections : List (String × String × String)) :
    Except ProviderError String :=
  match (if ns.id.isEmpty then some "" else resolveCollection ns.id collections) with
  | some collId => .ok collId
  | none => .error (.notFound ("namespace " ++ ns.id))

/-- A full sync, one loop over its ciphers, and the cache rewritten. -/
def bulkOp {α : Type} (loop : String → List (String × SymmetricKey) → SymmetricKey → List Cipher → α)
    (cachePath : Option Path) (s : Session) (ns : Namespace) : ExceptT ProviderError Os α := do
  let sess ← ExceptT.mk (pure (parseSession J s))
  let userKey ← ExceptT.mk (pure (sessUserKey sess))
  let b ← syncAndKeys P J sess.accessToken userKey
  let collId ← ExceptT.mk (pure (namespaceCollection ns b.collections))
  ExceptT.lift (writeCache P J cachePath sess userKey b)
  return loop collId b.orgKeys userKey b.sync.ciphers

def listSecrets : Option Path → Session → Namespace → ExceptT ProviderError Os (List SecretMeta) :=
  bulkOp P J (listMetas P)

def getNamespaceSecrets : Option Path → Session → Namespace → ExceptT ProviderError Os (List Secret) :=
  bulkOp P J (namespaceSecrets P)

/-- Full sync, then a linear scan; the cache is rewritten when a secret is found. -/
def getSecretCold (cachePath : Option Path) (sess : VwSession) (userKey : SymmetricKey)
    (coll item : String) : ExceptT ProviderError Os Secret := do
  let b ← syncAndKeys P J sess.accessToken userKey
  match resolveCollection coll b.collections with
  | none => throw (.notFound ("collection " ++ coll))
  | some collId =>
    let secret ← ExceptT.mk (pure (scanSecret P collId b.orgKeys userKey coll item 0 b.sync.ciphers))
    ExceptT.lift (writeCache P J cachePath sess userKey b)
    return secret

/-- What the cache answers, if it is there, opens and has the item. -/
def getSecretCached (path : Path) (sess : VwSession) (userKey : SymmetricKey) (coll item : String) :
    ExceptT ProviderError Os (Option Secret) := do
  match ← ExceptT.lift (loadCache P J path userKey) with
  | some cache => getSecretWarm P J sess cache coll item
  | none => return none

def getSecret (cachePath : Option Path) (s : Session) (r : Ref) : ExceptT ProviderError Os Secret := do
  if r.scheme ≠ "vw" then throw (.badRef ("not a vw ref: " ++ r.display))
  let sess ← ExceptT.mk (pure (parseSession J s))
  let userKey ← ExceptT.mk (pure (sessUserKey sess))
  match splitOnce r.locus "/" with
  | none => throw (.badRef ("vw locus must be collection/item: " ++ r.locus))
  | some (coll, item) =>
    match cachePath with
    | none => getSecretCold P J none sess userKey coll item
    | some path =>
      match ← getSecretCached P J path sess userKey coll item with
      | some secret => return secret
      | none => getSecretCold P J (some path) sess userKey coll item

def encodeVwSession (sess : VwSession) : Except ProviderError Session :=
  match J.encodeSession sess with
  | .ok handle => .ok { provider := "vw", handle := handle }
  | .error e => .error (.server e)

/-- The refresh-token grant: the new tokens in a session that keeps the user key. -/
def refreshSession (s : Session) : ExceptT ProviderError Os Session := do
  let sess ← ExceptT.mk (pure (parseSession J s))
  match sess.refreshToken with
  | none => throw .authExpired
  | some rt =>
    let token ← liftApi J (tokenRefresh J rt)
    let now ← ExceptT.lift (os .systemTime)
    ExceptT.mk (pure (encodeVwSession J
      { accessToken := token.accessToken
        refreshToken := token.refreshToken.or sess.refreshToken
        userKeyB64 := sess.userKeyB64
        account := sess.account
        expiresAt := now.map (· + token.expiresIn) }))

def sessionExpiry (s : Session) : Option UInt64 :=
  (parseSession J s).toOption.bind VwSession.expiresAt

end

end Cryptile
