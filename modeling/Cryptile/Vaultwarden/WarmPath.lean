import Cryptile.Vaultwarden.Scan

/-
  WarmPath — a get through the index answers what the full scan answers

  The index holds the names and collections of the ciphers that open, in the
  order of the payload, and the organizations' keys. While the server still
  serves that payload, every body the warm path fetches is the one the scan would
  stop at, so the first candidate decides as the scan does; where the index has
  no key for it, or no candidate, the full sync follows anyway.
-/

namespace Cryptile
open Text Interaction

variable {P : Primitives} {J : Decoders} {R : ∀ q, OsAns q → Prop}

/-! ## What `write_cache` leaves in the file -/

theorem sealCache_runs {userKey : SymmetricKey} {data : CacheData} {tr : OsTrace} {line : String}
    (h : Runs (sealCache P J userKey data).run tr (.ok line)) :
    (∀ e ∈ tr, ∃ n, e.1 = .random n) ∧ ∃ salt iv, sealLine P J userKey data salt iv = .ok line := by
  unfold sealCache at h
  rcases runs_except_bind.mp h with ⟨_, e, _⟩ | ⟨_, salt, _, rfl, h₁, h'⟩
  · cases e
  rcases runs_except_bind.mp h' with ⟨_, e, _⟩ | ⟨_, iv, _, rfl, h₂, h''⟩
  · cases e
  obtain rfl := runs_request.mp h₁
  obtain rfl := runs_request.mp h₂
  obtain ⟨rfl, hline⟩ := h''
  exact ⟨by simp, salt, iv, hline.symm⟩

/-- Whatever `store` writes is the index under a seal. -/
theorem storeCache_writes {path p : Path} {userKey : SymmetricKey} {data : CacheData} {tr : OsTrace}
    {r : Except String Unit} {raw : String} {x : Except String Unit}
    (h : Runs (storeCache P J path userKey data).run tr r)
    (hw : ⟨.writeAll p raw, x⟩ ∈ tr) : ∃ salt iv, sealLine P J userKey data salt iv = .ok raw := by
  have hno : ∀ {t : OsTrace} {y : Except String String}, Runs (sealCache P J userKey data).run t y →
      ∀ e ∈ t, ∃ n, e.1 = .random n := by
    intro t y hy
    refine Asks.runs (P := fun q => ∃ n, q = .random n) ?_ hy
    exact asks_except_bind (asks_request ⟨16, rfl⟩) (fun _ =>
      asks_except_bind (asks_request ⟨16, rfl⟩) (fun _ => asks_pure _))
  unfold storeCache at h
  rcases runs_except_bind.mp h with ⟨_, _, h₁⟩ | ⟨t₁, line, t₂, rfl, h₁, h₂⟩
  · obtain ⟨n, hn⟩ := hno h₁ _ hw
    cases hn
  rcases List.mem_append.mp hw with hw | hw
  · obtain ⟨n, hn⟩ := hno h₁ _ hw
    cases hn
  have hraw : raw = line := by
    refine Asks.runs (P := fun q => ∀ p raw, q = .writeAll p raw → raw = line) ?_ h₂ _ hw p raw rfl
    have hrest : Asks (fun q => ∀ p raw, q = .writeAll p raw → raw = line)
        (do ExceptT.mk (os (.openTruncate (path.withExtension "tmp") (some 0o600)))
            ExceptT.mk (os (.writeAll (path.withExtension "tmp") line))
            ExceptT.mk (os (.syncAll (path.withExtension "tmp")))
            ExceptT.mk (os (.rename (path.withExtension "tmp") path)) : ExceptT String Os Unit).run := by
      refine asks_except_bind (asks_request (by rintro _ _ ⟨⟩)) (fun _ => ?_)
      refine asks_except_bind (asks_request (by rintro _ _ ⟨⟩; rfl)) (fun _ => ?_)
      exact asks_except_bind (asks_request (by rintro _ _ ⟨⟩)) (fun _ =>
        asks_request (by rintro _ _ ⟨⟩))
    cases path.parent with
    | none => exact hrest
    | some parent =>
      refine asks_except_bind (asks_request (by rintro _ _ ⟨⟩)) (fun _ => ?_)
      exact asks_except_bind (asks_bind (asks_request (by rintro _ _ ⟨⟩)) (fun _ => asks_pure _))
        (fun _ => hrest)
  subst hraw
  exact (sealCache_runs h₁).2

/-- The text of the file at `path` is what a `write_cache` of this bundle put there. -/
def CachedFrom (P : Primitives) (J : Decoders) (path : Path) (userKey : SymmetricKey)
    (b : SyncBundle) (raw : String) : Prop :=
  ∃ sess tr, Runs (writeCache P J (some path) sess userKey b) tr () ∧
    ⟨.writeAll (path.withExtension "tmp") raw, .ok ()⟩ ∈ tr ∧
    ⟨.rename (path.withExtension "tmp") path, .ok ()⟩ ∈ tr

/-- The file opens, under the same user key, to the index of the bundle. -/
theorem CachedFrom.opens (hP : P.Lawful) (hJ : J.Lawful) {path : Path} {userKey : SymmetricKey}
    {b : SyncBundle} {raw : String} (h : CachedFrom P J path userKey b raw) :
    ∃ sess, unsealLine P J userKey raw = some (cacheData P sess userKey b) := by
  obtain ⟨sess, tr, hruns, hw, _⟩ := h
  obtain ⟨t₁, r, t₂, rfl, h₁, rfl, _⟩ := runs_bind.mp hruns
  rw [List.append_nil] at hw
  obtain ⟨salt, iv, hseal⟩ := storeCache_writes h₁ hw
  exact ⟨sess, unsealLine_sealLine hP hJ hseal⟩

/-! ## The index of a bundle -/

section
variable {sess : VwSession} {userKey : SymmetricKey} {b : SyncBundle}

theorem cacheData_collectionTuples : (cacheData P sess userKey b).collectionTuples = b.collections := by
  simp [cacheData, CacheData.collectionTuples, Function.comp_def]

theorem cacheData_orgKey (org : String) : (cacheData P sess userKey b).orgKey org =
    (b.orgKeys.find? (fun p => p.1 == org)).map Prod.snd := by
  simp only [cacheData, CacheData.orgKey, List.find?_map, Function.comp_def]
  cases b.orgKeys.find? (fun p => p.1 == org) with
  | none => rfl
  | some p => simp [Base64.decode_encode, SymmetricKey.from64_bytes, Except.toOption]

/-- Where the index has a key for the cipher, it is the one the full sync uses. -/
theorem cipherKey_cacheData {sess' : VwSession} (hopen : sessUserKey sess' = .ok userKey)
    {c : Cipher} {k : SymmetricKey} (h : cipherKey (cacheData P sess userKey b) c sess' = .ok k) :
    k = keyFor c.organizationId b.orgKeys userKey := by
  unfold cipherKey at h
  unfold keyFor
  cases horg : c.organizationId with
  | none =>
    rw [horg, hopen] at h
    cases h
    rfl
  | some org =>
    rw [horg] at h
    simp only [cacheData_orgKey] at h ⊢
    cases hk : (b.orgKeys.find? (fun p => p.1 == org)).map Prod.snd with
    | none => rw [hk] at h; cases h
    | some k' =>
      rw [hk] at h
      cases h
      rfl

theorem cipherEntry_eq_some_iff {orgKeys : List (String × SymmetricKey)} {c : Cipher}
    {e : CipherIndexEntry} : cipherEntry P orgKeys userKey c = some e ↔
      ∃ key name, effectiveKey P c.key (keyFor c.organizationId orgKeys userKey) = .ok key ∧
        decryptStr P c.name key = .ok name ∧
        e = { id := c.id, orgId := c.organizationId, name := name,
              collectionIds := c.collectionIds.getD [] } := by
  unfold cipherEntry
  cases hk : effectiveKey P c.key (keyFor c.organizationId orgKeys userKey) with
  | error _ => simp [Except.toOption]
  | ok key =>
    cases hn : decryptStr P c.name key with
    | error _ => simp [hn, Except.toOption]
    | ok name => simp [hn, Except.toOption, eq_comm]

theorem unmatched_of_unindexed {orgKeys : List (String × SymmetricKey)} {c : Cipher}
    {collId item : String} (h : cipherEntry P orgKeys userKey c = none) :
    Unmatched P collId orgKeys userKey item c := by
  intro key name _ hkey hname
  have hentry := cipherEntry_eq_some_iff.mpr ⟨key, name, hkey, hname, rfl⟩
  rw [h] at hentry
  cases hentry

theorem unmatched_of_indexed {orgKeys : List (String × SymmetricKey)} {c : Cipher}
    {collId item name : String} {key : SymmetricKey}
    (hkey : effectiveKey P c.key (keyFor c.organizationId orgKeys userKey) = .ok key)
    (hname : decryptStr P c.name key = .ok name)
    (h : (eqIgnoreAsciiCase name item && belongs collId c) = false) :
    Unmatched P collId orgKeys userKey item c := by
  intro key' name' hb hkey' hname'
  cases hkey.symm.trans hkey'
  cases hname.symm.trans hname'
  rwa [hb, Bool.and_true] at h

/-- The membership test of the index is that of the full sync, for a cipher that
carries no collection ids unless an organization owns it. -/
theorem indexed_belongs (collId : String) {c : Cipher}
    (howned : c.organizationId = none → c.collectionIds.getD [] = []) :
    (if collId.isEmpty then c.organizationId.isNone else (c.collectionIds.getD []).contains collId) =
      belongs collId c := by
  unfold belongs
  cases horg : c.organizationId with
  | none =>
    cases hempty : collId.isEmpty with
    | true => rfl
    | false => simp [howned horg]
  | some org =>
    cases hempty : collId.isEmpty with
    | true => rfl
    | false => rfl

end

/-! ## The candidates and the scan -/

theorem candidates_cacheData {sess : VwSession} {userKey : SymmetricKey} {b : SyncBundle}
    {collId item : String} : candidates (cacheData P sess userKey b) collId item =
      (b.sync.ciphers.filterMap (cipherEntry P b.orgKeys userKey)).filter (isCandidate collId item) := rfl

/-- What the warm path makes of the body of an indexed cipher. -/
theorem warmVerdict_indexed (sess : VwSession) {sess' : VwSession} {userKey key : SymmetricKey} {b : SyncBundle}
    (hopen : sessUserKey sess' = .ok userKey) {c : Cipher} {item name : String}
    (hkey : effectiveKey P c.key (keyFor c.organizationId b.orgKeys userKey) = .ok key)
    (hname : decryptStr P c.name key = .ok name) (heq : eqIgnoreAsciiCase name item = true) :
    warmVerdict P sess' (cacheData P sess userKey b) item c = .miss ∨
    warmVerdict P sess' (cacheData P sess userKey b) item c = .answer (liftCrypto (mapCipher P key c)) := by
  unfold warmVerdict
  cases hck : cipherKey (cacheData P sess userKey b) c sess' with
  | error _ => exact .inl rfl
  | ok container =>
    obtain rfl := cipherKey_cacheData hopen hck
    simp [hkey, hname, heq]

/-- The candidates leave the answer to the full sync or give that of its scan. -/
theorem tryCandidates_scan (sess : VwSession) {sess' : VwSession} {userKey : SymmetricKey} {b : SyncBundle}
    (hopen : sessUserKey sess' = .ok userKey) {collId coll item : String} {cs : List Cipher}
    (hfetch : ∀ c ∈ cs, ∀ x, Returns R (getCipher J sess'.accessToken c.id) x → x = .ok c)
    (howned : ∀ c ∈ cs, c.organizationId = none → c.collectionIds.getD [] = [])
    {r : Except ProviderError (Option Secret)}
    (h : Returns R (tryCandidates P J sess' (cacheData P sess userKey b) item
      ((cs.filterMap (cipherEntry P b.orgKeys userKey)).filter (isCandidate collId item))).run r) :
    r = .ok none ∨ ∀ failures,
      r = (scanSecret P collId b.orgKeys userKey coll item failures cs).map some := by
  induction cs with
  | nil => exact .inl h
  | cons c rest ih =>
    have ih := ih (fun c' hc' => hfetch c' (by simp [hc'])) (fun c' hc' => howned c' (by simp [hc']))
    have hpassed (hun : Unmatched P collId b.orgKeys userKey item c)
        (hscan : ∀ failures, r = (scanSecret P collId b.orgKeys userKey coll item failures rest).map some)
        (failures : Nat) :
        r = (scanSecret P collId b.orgKeys userKey coll item failures (c :: rest)).map some := by
      obtain ⟨failures', -, -, hpass⟩ := scanSecret_pass hun coll rest failures
      rw [hpass]
      exact hscan failures'
    cases hentry : cipherEntry P b.orgKeys userKey c with
    | none =>
      -- not in the index: the scan passes over it, counting it at most
      rw [List.filterMap_cons_none hentry] at h
      exact (ih h).imp_right (hpassed (unmatched_of_unindexed hentry))
    | some entry =>
      obtain ⟨key, name, hkey, hname, rfl⟩ := cipherEntry_eq_some_iff.mp hentry
      rw [List.filterMap_cons_some hentry, List.filter_cons] at h
      unfold isCandidate at h ih
      have hmember := indexed_belongs collId (howned c (by simp))
      by_cases htest : (eqIgnoreAsciiCase name item && belongs collId c) = true
      · -- the scan stops at this cipher, and so does the warm path
        rw [Bool.and_eq_true] at htest
        simp only [hmember, htest, Bool.and_self, if_true] at h
        obtain ⟨x, hx, h⟩ := returns_bind.mp h
        cases hfetch c (by simp) x hx
        rcases warmVerdict_indexed sess hopen hkey hname htest.1 with hv | hv
        · simp only [fetchVerdict, hv] at h
          exact .inl h
        · simp only [fetchVerdict, hv] at h
          refine .inr (fun failures => ?_)
          rw [scanSecret_hit htest.2 hkey hname htest.1]
          exact h
      · -- no candidate, and the scan passes over it too
        rw [Bool.not_eq_true] at htest
        simp only [hmember, htest, Bool.false_eq_true, if_false] at h
        exact (ih h).imp_right (hpassed (unmatched_of_indexed hkey hname htest))

/-! ## The two paths -/

section
variable {s : Session} (v : Vault P J R s)

/-- What the full scan of the payload finds under a collection and an item. -/
def Vault.lookup (coll item : String) : Except ProviderError Secret :=
  match resolveCollection coll v.bundle.collections with
  | none => .error (.notFound ("collection " ++ coll))
  | some collId => scanSecret P collId v.bundle.orgKeys v.userKey coll item 0 v.sync.ciphers

/-- What a get of the reference is to answer, with or without a cache. -/
def Vault.answer (r : Ref) : Except ProviderError Secret :=
  if r.scheme ≠ "vw" then .error (.badRef ("not a vw ref: " ++ r.display))
  else match splitOnce r.locus "/" with
    | none => .error (.badRef ("vw locus must be collection/item: " ++ r.locus))
    | some (coll, item) => v.lookup coll item

/-- A cache that answers as the scan does, or not at all, changes no answer. -/
theorem Vault.get_returns {cachePath : Option Path} {r : Ref} {a : Except ProviderError Secret}
    (hcached : ∀ path coll item x, cachePath = some path →
      Returns R (getSecretCached P J path v.sess v.userKey coll item).run x →
        x = .ok none ∨ x = (v.lookup coll item).map some)
    (h : Returns R (getSecret P J cachePath s r).run a) : a = v.answer r := by
  unfold getSecret at h
  unfold Vault.answer
  by_cases hscheme : r.scheme ≠ "vw"
  · rw [if_pos hscheme] at h ⊢
    exact h
  rw [if_neg hscheme] at h ⊢
  have hget := v.session_returns.mp h
  cases hsplit : splitOnce r.locus "/" with
  | none =>
    rw [hsplit] at hget
    exact hget
  | some p =>
    obtain ⟨coll, item⟩ := p
    rw [hsplit] at hget
    change a = v.lookup coll item
    cases cachePath with
    | none => exact v.cold_returns hget
    | some path =>
      rcases returns_except_bind.mp hget with ⟨e, rfl, hc⟩ | ⟨x, hc, hrest⟩
      · -- the cache fails only as the scan does
        obtain h₀ | hx := hcached path coll item _ rfl hc
        · cases h₀
        · exact (except_map_error.mp hx.symm).symm
      · cases x with
        | none => exact v.cold_returns hrest
        | some secret =>
          obtain h₀ | hx := hcached path coll item _ rfl hc
          · cases h₀
          · obtain ⟨secret', hlookup, hsome⟩ := except_map_ok.mp hx.symm
            cases hsome
            rw [hlookup]
            exact hrest

/-- The index of the payload answers as the scan does, or not at all. -/
theorem Vault.cached_returns (hP : P.Lawful) (hJ : J.Lawful) {path : Path} {coll item : String}
    (hfetch : ∀ c ∈ v.sync.ciphers, ∀ x, Returns R (getCipher J v.sess.accessToken c.id) x → x = .ok c)
    (howned : ∀ c ∈ v.sync.ciphers, c.organizationId = none → c.collectionIds.getD [] = [])
    (hfile : ∀ raw, R (.readToString path) (.ok raw) → CachedFrom P J path v.userKey v.bundle raw)
    {x : Except ProviderError (Option Secret)}
    (h : Returns R (getSecretCached P J path v.sess v.userKey coll item).run x) :
    x = .ok none ∨ x = (v.lookup coll item).map some := by
  unfold getSecretCached at h
  obtain ⟨cache, hload, h'⟩ := returns_lift_bind.mp h
  unfold loadCache at hload
  obtain ⟨file, hread, hcache⟩ := returns_bind.mp hload
  cases file with
  | error e =>
    obtain rfl : cache = none := hcache
    exact .inl h'
  | ok raw =>
    obtain ⟨sess, hopens⟩ := (hfile raw (returns_request.mp hread)).opens hP hJ
    rw [show cache = unsealLine P J v.userKey raw from hcache, hopens] at h'
    simp only [getSecretWarm, cacheData_collectionTuples] at h'
    unfold Vault.lookup
    cases hcoll : resolveCollection coll v.bundle.collections with
    | none =>
      rw [hcoll] at h'
      exact .inl h'
    | some collId =>
      rw [hcoll] at h'
      simp only [candidates_cacheData, v.bundle_sync] at h'
      exact (tryCandidates_scan sess v.opened hfetch howned h').imp_right (fun hscan => hscan 0)

end

/-- While the server serves the payload the cache was written from, a get with the
cache answers what a get without it answers. -/
theorem warm_path_agrees {s : Session} (v : Vault P J R s) (hP : P.Lawful) (hJ : J.Lawful)
    {path : Path} {r : Ref}
    (hfetch : ∀ c ∈ v.sync.ciphers, ∀ x, Returns R (getCipher J v.sess.accessToken c.id) x → x = .ok c)
    (howned : ∀ c ∈ v.sync.ciphers, c.organizationId = none → c.collectionIds.getD [] = [])
    (hfile : ∀ raw, R (.readToString path) (.ok raw) → CachedFrom P J path v.userKey v.bundle raw)
    {a b : Except ProviderError Secret}
    (hwarm : Returns R (getSecret P J (some path) s r).run a)
    (hcold : Returns R (getSecret P J none s r).run b) : a = b := by
  have ha := v.get_returns (fun p coll item x hp hx => by
    cases hp
    exact v.cached_returns hP hJ hfetch howned hfile hx) hwarm
  have hb := v.get_returns (fun p coll item x hp _ => by cases hp) hcold
  rw [ha, hb]

/-! ## Files that `write_cache` leaves -/

/-- A cache that is written without a failure leaves its line. -/
theorem cachedFrom_sealLine {sess : VwSession} {userKey : SymmetricKey} {b : SyncBundle} {salt iv : Block 16}
    {line : String} (hline : sealLine P J userKey (cacheData P sess userKey b) salt iv = .ok line) :
    CachedFrom P J ["cache"] userKey b line := by
  let tr : OsTrace := [⟨.random 16, .ok salt⟩, ⟨.random 16, .ok iv⟩,
    ⟨.createDirAll [], .ok ()⟩, ⟨.setMode [] 0o700, .ok ()⟩,
    ⟨.openTruncate ["cache.tmp"] (some 0o600), .ok ()⟩, ⟨.writeAll ["cache.tmp"] line, .ok ()⟩,
    ⟨.syncAll ["cache.tmp"], .ok ()⟩, ⟨.rename ["cache.tmp"] ["cache"], .ok ()⟩]
  have htmp : Path.withExtension ["cache"] "tmp" = ["cache.tmp"] := by decide
  have hstore : Runs (storeCache P J ["cache"] userKey (cacheData P sess userKey b)).run tr (.ok ()) := by
    unfold storeCache
    refine runs_except_bind.mpr (.inr ⟨tr.take 2, line, tr.drop 2, rfl, ?_, ?_⟩)
    · exact ⟨.ok salt, _, rfl, .ok iv, _, rfl, rfl, hline.symm⟩
    · rw [htmp]
      exact ⟨.ok (), _, rfl, .ok (), _, rfl, .ok (), _, rfl, .ok (), _, rfl, .ok (), _, rfl, .ok (), _,
        rfl, rfl, rfl⟩
  refine ⟨sess, tr, runs_bind.mpr ⟨tr, .ok (), [], by simp, hstore, rfl, rfl⟩, ?_, ?_⟩
  · rw [htmp]
    exact List.mem_of_getElem? (show tr[5]? = some _ from rfl)
  · rw [htmp]
    exact List.mem_of_getElem? (show tr[7]? = some _ from rfl)

/-- An index of one byte under its seal. -/
def oneLine : String :=
  cacheMagic ++ "." ++ Base64.encode (zeros 16).1 ++ "." ++ Base64.encode (zeros 16).1 ++ "." ++
    Base64.encode (pkcs7 [1]) ++ "." ++ Base64.encode (zeros 32).1

theorem sealLine_oneLine {J : Decoders} {data : CacheData} (h : J.encodeCacheData data = .ok [1]) :
    sealLine plainPrimitives J zeroKey data (zeros 16) (zeros 16) = .ok oneLine := by
  have hct : ∀ key iv pt, plainPrimitives.cbcEncrypt key iv pt = pkcs7 pt := fun _ _ _ => rfl
  have htag : ∀ key salt iv ct, cacheTag plainPrimitives key salt iv ct = zeros 32 := fun _ _ _ _ => rfl
  rw [sealLine, h]
  simp only [hct, htag, oneLine, bind, Except.bind, pure, Except.pure]

theorem sealLine_oneData :
    sealLine plainPrimitives oneDecoders zeroKey oneData (zeros 16) (zeros 16) = .ok oneLine :=
  sealLine_oneLine (by simp [oneDecoders])

theorem oneLine_cached : CachedFrom plainPrimitives oneDecoders ["cache"] zeroKey oneBundle oneLine :=
  cachedFrom_sealLine sealLine_oneData

/-! ## The crowded vault, with its cache -/

def crowdedData : CacheData := cacheData plainPrimitives oneSession zeroKey crowdedVault.bundle

/-- A body is the id of its cipher. -/
def crowdedDecoders : Decoders :=
  { itemsDecoders crowdedCiphers oneCollections with
    cipher := fun body => ((crowdedCiphers.find? (fun c => c.id == body)).map Except.ok).getD (.error "")
    cacheData := fun b => if b = [1] then some crowdedData else none
    encodeCacheData := fun d => if d = crowdedData then .ok [1] else .error "another index" }

theorem crowdedDecoders_lawful : crowdedDecoders.Lawful := by
  intro data bytes h
  simp only [crowdedDecoders] at h ⊢
  split at h
  · next hd => cases h; simp [hd]
  · cases h

/-- The server of the vault, beside a disk that holds the index. -/
def cachedServer : ∀ q, OsAns q → Prop
  | .readToString _, x => x = .ok oneLine
  | .http (.get (.cipher id) _), x => x = .ok ⟨200, id⟩
  | q, x => oneServer q x

theorem cachedServer_total : ∀ q, ∃ x, cachedServer q x
  | .readToString _ => ⟨.ok oneLine, rfl⟩
  | .http (.get (.cipher id) _) => ⟨.ok ⟨200, id⟩, rfl⟩
  | .http (.get .sync _) | .http (.get .collections _) | .http (.get .prelogin _) | .http (.get .token _) =>
    ⟨.ok ⟨200, ""⟩, rfl⟩
  | .http (.postJson _ _) | .http (.postForm _ _)
  | .systemTime | .random _ | .createDirAll _ | .setMode _ _ | .openTruncate _ _ | .writeAll _ _
  | .syncAll _ | .rename _ _ | .modeOf _ | .isFile _ | .fidohCeremony _ _ | .legacyCeremony _ =>
    oneServer_total _

def cachedVault : Vault plainPrimitives crowdedDecoders cachedServer ⟨"vw", "session"⟩ where
  __ := crowdedVault
  served := { sync := by rintro _ rfl; rfl
              collections := by rintro _ rfl; rfl }

theorem cachedVault_fetch : ∀ c ∈ cachedVault.sync.ciphers, ∀ x,
    Returns cachedServer (getCipher crowdedDecoders cachedVault.sess.accessToken c.id) x → x = .ok c := by
  intro c hc x hx
  obtain ⟨resp, rfl, rfl⟩ := call_returns.mp hx
  have hall : ∀ c ∈ crowdedCiphers,
      ((crowdedCiphers.find? (fun c' => c'.id == c.id)).map Except.ok).getD (.error "") =
        (.ok c : Except String Cipher) := by
    simp [crowdedCiphers, unnamedCipher, loginCipher]
  have hdecode : crowdedDecoders.cipher c.id = .ok c := hall c hc
  have hsuccess : isSuccess 200 = true := by decide
  simp [parseResponse, hsuccess, hdecode]

theorem cachedVault_owned : ∀ c ∈ cachedVault.sync.ciphers,
    c.organizationId = none → c.collectionIds.getD [] = [] := by
  have hall : ∀ c ∈ crowdedCiphers, c.organizationId = some "o1" := by
    simp [crowdedCiphers, unnamedCipher, loginCipher, oneCipher]
  intro c hc h
  rw [hall c hc] at h
  cases h

/-- A get of the vault is a scan of it. -/
theorem cachedVault_answer {locus item : String} (hsplit : splitOnce locus "/" = some ("infra", item)) :
    cachedVault.answer ⟨"vw", locus, "password", true⟩ =
      scanSecret plainPrimitives "c1" [("o1", zeroKey)] zeroKey "infra" item 0 crowdedCiphers := by
  have hscheme : ¬ ("vw" ≠ "vw") := by decide
  have hcoll : resolveCollection "infra" cachedVault.bundle.collections = some "c1" := by decide
  unfold Vault.answer
  rw [if_neg hscheme]
  simp only [hsplit]
  unfold Vault.lookup
  rw [hcoll]
  rfl

/-- Of a name that is there twice both answer with the first, and at an item that is half
corrupt both fail. -/
theorem warm_path_agrees_cachedVault : ∃ secret e,
    (Returns cachedServer (getSecret plainPrimitives crowdedDecoders (some ["cache"]) ⟨"vw", "session"⟩
      ⟨"vw", "infra/Web", "password", true⟩).run (.ok secret) ∧
    Returns cachedServer (getSecret plainPrimitives crowdedDecoders none ⟨"vw", "session"⟩
      ⟨"vw", "infra/Web", "password", true⟩).run (.ok secret) ∧ secret.info.id = "i1") ∧
    Returns cachedServer (getSecret plainPrimitives crowdedDecoders (some ["cache"]) ⟨"vw", "session"⟩
      ⟨"vw", "infra/db", "password", true⟩).run (.error e) ∧
    Returns cachedServer (getSecret plainPrimitives crowdedDecoders none ⟨"vw", "session"⟩
      ⟨"vw", "infra/db", "password", true⟩).run (.error e) := by
  have hline : sealLine plainPrimitives crowdedDecoders zeroKey crowdedData (zeros 16) (zeros 16) =
      .ok oneLine := sealLine_oneLine (by simp [crowdedDecoders])
  have hfile : ∀ raw, cachedServer (.readToString ["cache"]) (.ok raw) →
      CachedFrom plainPrimitives crowdedDecoders ["cache"] cachedVault.userKey cachedVault.bundle raw := by
    rintro raw ⟨⟩
    exact cachedFrom_sealLine hline
  have hboth : ∀ r, Returns cachedServer (getSecret plainPrimitives crowdedDecoders (some ["cache"])
        ⟨"vw", "session"⟩ r).run (cachedVault.answer r) ∧
      Returns cachedServer (getSecret plainPrimitives crowdedDecoders none ⟨"vw", "session"⟩ r).run
        (cachedVault.answer r) := by
    intro r
    obtain ⟨a, ha⟩ := returns_total cachedServer_total
      (getSecret plainPrimitives crowdedDecoders (some ["cache"]) ⟨"vw", "session"⟩ r).run
    obtain ⟨b, hb⟩ := returns_total cachedServer_total
      (getSecret plainPrimitives crowdedDecoders none ⟨"vw", "session"⟩ r).run
    obtain rfl : a = b := warm_path_agrees cachedVault plainPrimitives_lawful crowdedDecoders_lawful
      cachedVault_fetch cachedVault_owned hfile ha hb
    obtain rfl := cachedVault.get_returns (fun p _ _ _ hp => by cases hp) hb
    exact ⟨ha, hb⟩
  have hweb := hboth ⟨"vw", "infra/Web", "password", true⟩
  have hdb := hboth ⟨"vw", "infra/db", "password", true⟩
  have hsplit : splitOnce "infra/Web" "/" = some ("infra", "Web") := by decide
  have hsplit' : splitOnce "infra/db" "/" = some ("infra", "db") := by decide
  rw [cachedVault_answer hsplit, crowdedScan, if_pos (by decide)] at hweb
  rw [cachedVault_answer hsplit', crowdedScan, if_neg (by decide), if_neg (by decide), if_pos (by decide)] at hdb
  exact ⟨_, _, ⟨hweb.1, hweb.2, rfl⟩, hdb.1, hdb.2⟩

end Cryptile
