import Cryptile.Lib.Collect
import Cryptile.Vaultwarden.BulkPaths
import Cryptile.Vaultwarden.WarmPath

/-
  KeySeparation — under which key a cipher of an organization is read

  The one key such a cipher may be read under is its organization's own. The
  lookup of the full-sync paths falls back to the account's user key where the
  profile has no key of the organization; the lookup of the warm path does not.
  So the keys are kept apart exactly when no cipher of an organization without a
  key can be read under the user key.
-/

namespace Cryptile
open Text Interaction Collect

section
variable (P : Primitives) (collId : String) (orgKeys : List (String × SymmetricKey))
  (userKey : SymmetricKey)

/-- The key a cipher may be read under: the one of its organization, or the account's. -/
def ownKey (c : Cipher) : Option SymmetricKey :=
  match c.organizationId with
  | some org => (orgKeys.find? (fun p => p.1 == org)).map Prod.snd
  | none => some userKey

/-- The name can be read under the key, or under a key of the cipher that it opens. -/
def OpensUnder (c : Cipher) : Prop :=
  ∃ key name, effectiveKey P c.key userKey = .ok key ∧ decryptStr P c.name key = .ok name

variable {orgKeys userKey}

theorem keyFor_ownKey {c : Cipher} {k : SymmetricKey} (h : ownKey orgKeys userKey c = some k) :
    keyFor c.organizationId orgKeys userKey = k := by
  unfold ownKey at h
  unfold keyFor
  cases horg : c.organizationId with
  | none =>
    rw [horg] at h
    cases h
    rfl
  | some org =>
    rw [horg] at h
    simp only at h ⊢
    rw [h]
    rfl

/-- Without a key of its own the cipher is tried under the user key. -/
theorem keyFor_fallback {c : Cipher} (h : ownKey orgKeys userKey c = none) :
    keyFor c.organizationId orgKeys userKey = userKey := by
  unfold ownKey at h
  unfold keyFor
  cases horg : c.organizationId with
  | none => rfl
  | some org =>
    rw [horg] at h
    simp only at h ⊢
    rw [h]
    rfl

variable {P}

theorem cipherEntry_fallback {c : Cipher} (h : ownKey orgKeys userKey c = none) :
    cipherEntry P orgKeys userKey c = none ↔ ¬ OpensUnder P userKey c := by
  refine ⟨?_, ?_⟩
  · intro hnone hopens
    obtain ⟨key, name, hkey, hname⟩ := hopens
    have hentry := cipherEntry_eq_some_iff.mpr ⟨key, name, (keyFor_fallback h).symm ▸ hkey, hname, rfl⟩
    rw [hnone] at hentry
    cases hentry
  · intro hnot
    cases hentry : cipherEntry P orgKeys userKey c with
    | none => rfl
    | some e =>
      obtain ⟨key, name, hkey, hname, -⟩ := cipherEntry_eq_some_iff.mp hentry
      rw [keyFor_fallback h] at hkey
      exact absurd ⟨key, name, hkey, hname⟩ hnot

theorem memberSecret_fallback {c : Cipher} (h : ownKey orgKeys userKey c = none)
    (hnot : ¬ OpensUnder P userKey c) : memberSecret P collId orgKeys userKey c = none := by
  cases hs : memberSecret P collId orgKeys userKey c with
  | none => rfl
  | some secret =>
    obtain ⟨-, key, hkey, hmap⟩ := memberSecret_some.mp hs
    rw [keyFor_fallback h] at hkey
    exact absurd ⟨key, _, hkey, (mapCipher_ok P key hmap).1⟩ hnot

theorem memberSecret_indexed {c : Cipher} {secret : Secret}
    (h : memberSecret P collId orgKeys userKey c = some secret) :
    (cipherEntry P orgKeys userKey c).isSome = true := by
  obtain ⟨-, key, hkey, hmap⟩ := memberSecret_some.mp h
  have hentry := cipherEntry_eq_some_iff.mpr ⟨key, _, hkey, (mapCipher_ok P key hmap).1, rfl⟩
  rw [hentry]
  rfl

variable (orgKeys userKey)

/-- A scan past ciphers that cannot be read finds what it finds without them. -/
theorem scanSecret_filter {p : Cipher → Bool} {coll item : String} {ciphers : List Cipher}
    (hp : ∀ c ∈ ciphers, p c = false → cipherEntry P orgKeys userKey c = none) {failures failures' : Nat}
    {secret : Secret}
    (h : scanSecret P collId orgKeys userKey coll item failures ciphers = .ok secret) :
    scanSecret P collId orgKeys userKey coll item failures' (ciphers.filter p) = .ok secret := by
  obtain ⟨before, c, after, rfl, hmap, he, hbefore⟩ := scanSecret_ok_iff.mp h
  have hc : p c = true := by
    rw [← Bool.not_eq_false]
    intro hpc
    have hindexed := memberSecret_indexed collId hmap
    rw [hp c (by simp) hpc] at hindexed
    cases hindexed
  have hsplit : (before ++ c :: after).filter p = before.filter p ++ c :: after.filter p := by
    rw [List.filter_append, List.filter_cons_of_pos hc]
  exact scanSecret_ok_iff.mpr ⟨before.filter p, c, after.filter p, hsplit, hmap, he,
    fun c' hc' => hbefore c' (List.mem_filter.mp hc').1⟩

end

/-! ## The operations -/

section
variable {P : Primitives} {J : Decoders} {R : ∀ q, OsAns q → Prop} {s : Session} (v : Vault P J R s)

/-- The ciphers whose own key there is. -/
def Vault.owned : List Cipher :=
  v.sync.ciphers.filter (fun c => (ownKey v.bundle.orgKeys v.userKey c).isSome)

/-- Everything that is served is read under the cipher's own key: the loops give what
they give on the ciphers whose own key there is, and read these under it. -/
structure Vault.KeysSeparated : Prop where
  under : ∀ c ∈ v.owned, ∃ k, ownKey v.bundle.orgKeys v.userKey c = some k ∧
    keyFor c.organizationId v.bundle.orgKeys v.userKey = k
  index : ∀ sess, (cacheData P sess v.userKey v.bundle).ciphers =
    v.owned.filterMap (cipherEntry P v.bundle.orgKeys v.userKey)
  list : ∀ cachePath ns r, Returns R (listSecrets P J cachePath s ns).run r →
    r = (namespaceCollection ns v.bundle.collections).map
      (fun collId => listMetas P collId v.bundle.orgKeys v.userKey v.owned)
  bulk : ∀ cachePath ns r, Returns R (getNamespaceSecrets P J cachePath s ns).run r →
    r = (namespaceCollection ns v.bundle.collections).map
      (fun collId => namespaceSecrets P collId v.bundle.orgKeys v.userKey v.owned)
  get : ∀ cachePath coll item secret,
    Returns R (getSecretCold P J cachePath v.sess v.userKey coll item).run (.ok secret) →
      ∃ collId, resolveCollection coll v.bundle.collections = some collId ∧
        scanSecret P collId v.bundle.orgKeys v.userKey coll item 0 v.owned = .ok secret
  warm : ∀ sess sess' item c a org, c.organizationId = some org →
    warmVerdict P sess' (cacheData P sess v.userKey v.bundle) item c = .answer a →
      ∃ k key, ownKey v.bundle.orgKeys v.userKey c = some k ∧ effectiveKey P c.key k = .ok key ∧
        a = liftCrypto (mapCipher P key c)

theorem Vault.under_ownKey {c : Cipher} (hc : c ∈ v.owned) :
    ∃ k, ownKey v.bundle.orgKeys v.userKey c = some k ∧
      keyFor c.organizationId v.bundle.orgKeys v.userKey = k := by
  obtain ⟨k, hk⟩ := Option.isSome_iff_exists.mp (List.mem_filter.mp hc).2
  exact ⟨k, hk, keyFor_ownKey hk⟩

/-- The warm path answers under the key of the organization, or leaves it to the full sync. -/
theorem Vault.warm_ownKey {sess sess' : VwSession} {item org : String} {c : Cipher}
    {a : Except ProviderError Secret} (horg : c.organizationId = some org)
    (h : warmVerdict P sess' (cacheData P sess v.userKey v.bundle) item c = .answer a) :
    ∃ k key, ownKey v.bundle.orgKeys v.userKey c = some k ∧ effectiveKey P c.key k = .ok key ∧
      a = liftCrypto (mapCipher P key c) := by
  unfold warmVerdict cipherKey at h
  simp only [horg, cacheData_orgKey] at h
  cases hk : (v.bundle.orgKeys.find? (fun p => p.1 == org)).map Prod.snd with
  | none => rw [hk] at h; cases h
  | some k =>
    have hown : ownKey v.bundle.orgKeys v.userKey c = some k := by
      rw [ownKey, horg]
      exact hk
    rw [hk] at h
    simp only at h
    cases hkey : effectiveKey P c.key k with
    | error e => rw [hkey] at h; cases h
    | ok key =>
      rw [hkey] at h
      simp only at h
      split at h
      · cases h
      · split at h
        · cases h
        · cases h
          exact ⟨k, key, hown, hkey, rfl⟩

/-- The index leaves out exactly the ciphers that cannot be read. -/
theorem Vault.index_iff (sess : VwSession) : (cacheData P sess v.userKey v.bundle).ciphers =
      v.owned.filterMap (cipherEntry P v.bundle.orgKeys v.userKey) ↔
    ∀ c ∈ v.sync.ciphers, ownKey v.bundle.orgKeys v.userKey c = none → ¬ OpensUnder P v.userKey c := by
  have hciphers : (cacheData P sess v.userKey v.bundle).ciphers =
      v.sync.ciphers.filterMap (cipherEntry P v.bundle.orgKeys v.userKey) := by
    rw [← v.bundle_sync]
    rfl
  rw [hciphers, Vault.owned, filterMap_filter_iff]
  refine ⟨?_, ?_⟩
  · intro h c hc hnone
    exact (cipherEntry_fallback hnone).mp (h c hc (by rw [hnone]; rfl))
  · intro h c hc hsome
    have hnone := Option.isSome_eq_false_iff.mp hsome
    rw [Option.isNone_iff_eq_none] at hnone
    exact (cipherEntry_fallback hnone).mpr (h c hc hnone)

end

/-- The keys are kept apart exactly when no cipher of an organization without a key
can be read under the user key. -/
theorem keys_separated_iff {P : Primitives} {J : Decoders} {R : ∀ q, OsAns q → Prop} {s : Session}
    (v : Vault P J R s) : v.KeysSeparated ↔
      ∀ c ∈ v.sync.ciphers, ownKey v.bundle.orgKeys v.userKey c = none → ¬ OpensUnder P v.userKey c := by
  refine ⟨?_, ?_⟩
  · intro h
    exact (v.index_iff v.sess).mp (h.index v.sess)
  · intro h
    have hstray : ∀ c ∈ v.sync.ciphers, (ownKey v.bundle.orgKeys v.userKey c).isSome = false →
        ownKey v.bundle.orgKeys v.userKey c = none ∧ ¬ OpensUnder P v.userKey c := by
      intro c hc hsome
      have hnone := Option.isNone_iff_eq_none.mp (Option.isSome_eq_false_iff.mp hsome)
      exact ⟨hnone, h c hc hnone⟩
    have hsecrets : ∀ collId, namespaceSecrets P collId v.bundle.orgKeys v.userKey v.sync.ciphers =
        namespaceSecrets P collId v.bundle.orgKeys v.userKey v.owned := by
      intro collId
      rw [namespaceSecrets_eq, namespaceSecrets_eq, Vault.owned, filterMap_filter_iff]
      intro c hc hsome
      exact memberSecret_fallback collId (hstray c hc hsome).1 (hstray c hc hsome).2
    refine ⟨fun c hc => v.under_ownKey hc, fun sess => (v.index_iff sess).mpr h, ?_, ?_, ?_, ?_⟩
    · intro cachePath ns r hr
      rw [v.bulk_returns hr]
      congr 1
      funext collId
      rw [listMetas_eq, listMetas_eq, hsecrets collId]
    · intro cachePath ns r hr
      rw [v.bulk_returns hr]
      congr 1
      funext collId
      exact hsecrets collId
    · intro cachePath coll item secret hr
      have hscan := v.cold_returns hr
      cases hcoll : resolveCollection coll v.bundle.collections with
      | none => rw [hcoll] at hscan; cases hscan
      | some collId =>
        rw [hcoll] at hscan
        refine ⟨collId, rfl, scanSecret_filter collId _ _ ?_ hscan.symm⟩
        intro c hc hsome
        exact (cipherEntry_fallback (hstray c hc hsome).1).mpr (hstray c hc hsome).2
    · intro sess sess' item c a org horg ha
      exact v.warm_ownKey horg ha

/-! ## A personal item under another organization's id -/

/-- The item, labelled with an organization the account is not in. -/
def relabelledCipher : Cipher := { oneCipher with organizationId := some "o9" }

def relabelledVault : Vault plainPrimitives (itemsDecoders [relabelledCipher] oneCollections) oneServer
    ⟨"vw", "session"⟩ :=
  itemsVault [relabelledCipher] oneCollections [("c1", "o1", "infra")] oneCollections_named

theorem relabelledCipher_stray : ownKey relabelledVault.bundle.orgKeys zeroKey relabelledCipher = none := by
  simp [ownKey, relabelledCipher, relabelledVault, itemsVault]

theorem relabelledCipher_opens : OpensUnder plainPrimitives zeroKey relabelledCipher := by
  refine ⟨zeroKey, "web", rfl, ?_⟩
  rw [show relabelledCipher.name = plainString [0x77, 0x65, 0x62] from rfl, decryptStr_plainString]
  decide

theorem relabelled_item_is_served :
    ownKey relabelledVault.bundle.orgKeys relabelledVault.userKey relabelledCipher = none ∧
    (∃ secret, Returns oneServer (getNamespaceSecrets plainPrimitives
      (itemsDecoders [relabelledCipher] oneCollections) none ⟨"vw", "session"⟩ ⟨"c1", "infra"⟩).run
        (.ok [secret])) ∧
    ¬ relabelledVault.KeysSeparated := by
  refine ⟨relabelledCipher_stray, ?_, ?_⟩
  · -- read under the user key, it is exported from the collection it claims
    obtain ⟨key, name, hkey, hname⟩ := relabelledCipher_opens
    obtain ⟨secret, hmap⟩ := mapCipher_password hname
      (show relabelledCipher.login = some ⟨none, _, none, []⟩ from rfl) (by simp [plainString])
      (decryptStr_plainString _ key) rfl rfl rfl rfl rfl
    obtain ⟨r, hr⟩ := returns_total oneServer_total (getNamespaceSecrets plainPrimitives
      (itemsDecoders [relabelledCipher] oneCollections) none ⟨"vw", "session"⟩ ⟨"c1", "infra"⟩).run
    have hsecret : memberSecret plainPrimitives "c1" relabelledVault.bundle.orgKeys zeroKey
        relabelledCipher = some secret := by
      refine memberSecret_some.mpr ⟨by decide, key, ?_, hmap⟩
      rw [keyFor_fallback relabelledCipher_stray]
      exact hkey
    have hbulk := relabelledVault.bulk_returns hr
    rw [show namespaceCollection ⟨"c1", "infra"⟩ relabelledVault.bundle.collections = .ok "c1" by decide]
      at hbulk
    change r = .ok (namespaceSecrets plainPrimitives "c1" relabelledVault.bundle.orgKeys zeroKey
      [relabelledCipher]) at hbulk
    rw [namespaceSecrets_eq, List.filterMap_cons_some hsecret, List.filterMap_nil] at hbulk
    exact ⟨secret, hbulk ▸ hr⟩
  · intro hsep
    refine (relabelledVault.index_iff oneSession).mp (hsep.index oneSession) relabelledCipher ?_
      relabelledCipher_stray relabelledCipher_opens
    exact List.mem_singleton.mpr rfl

end Cryptile
