import Cryptile.Vaultwarden.Scan

/-
  BulkPaths — the full scan and the bulk operations see the same ciphers

  `list_secrets`, `get_namespace_secrets` and the full-sync path of `get_secret`
  are three loops over the ciphers that skip and fail at different steps. They
  agree on the ciphers that map: the list is the list of their metas, and a get
  answers with the first of them that has the name.
-/

namespace Cryptile
open Text Interaction

section
variable (P : Primitives) (collId : String) (orgKeys : List (String × SymmetricKey))
  (userKey : SymmetricKey)

theorem listMetas_eq (ciphers : List Cipher) : listMetas P collId orgKeys userKey ciphers =
    (namespaceSecrets P collId orgKeys userKey ciphers).map Secret.info := by
  induction ciphers with
  | nil => rfl
  | cons c rest ih =>
    unfold listMetas namespaceSecrets
    split
    · exact ih
    · split
      · exact ih
      · split
        · rw [ih, List.map_cons]
        · exact ih

/-- What the scan makes of the ciphers, told by the secrets of the namespace. -/
theorem scanSecret_spec (coll item : String) (ciphers : List Cipher) (failures : Nat) :
    (∀ secret, scanSecret P collId orgKeys userKey coll item failures ciphers = .ok secret →
      (namespaceSecrets P collId orgKeys userKey ciphers).find?
        (fun s => eqIgnoreAsciiCase s.info.name item) = some secret) ∧
    (∀ detail, scanSecret P collId orgKeys userKey coll item failures ciphers = .error (.notFound detail) →
      ∀ s ∈ namespaceSecrets P collId orgKeys userKey ciphers,
        eqIgnoreAsciiCase s.info.name item = false) := by
  -- a cipher that maps is read under the name of its secret
  have hmembers : ∀ l : List Cipher, (∀ c ∈ l, Unmatched P collId orgKeys userKey item c) →
      ∀ s ∈ l.filterMap (memberSecret P collId orgKeys userKey),
        eqIgnoreAsciiCase s.info.name item = false := by
    intro l hl s hs
    obtain ⟨c, hc, hmap⟩ := List.mem_filterMap.mp hs
    exact (hl c hc).member hmap
  rw [namespaceSecrets_eq]
  refine ⟨fun secret h => ?_, fun detail h => hmembers ciphers (scanSecret_not_found h)⟩
  obtain ⟨before, c, after, rfl, hmap, he, hbefore⟩ := scanSecret_ok_iff.mp h
  have hnone : (before.filterMap (memberSecret P collId orgKeys userKey)).find?
      (fun s => eqIgnoreAsciiCase s.info.name item) = none := by
    rw [List.find?_eq_none]
    intro s hs
    rw [hmembers before hbefore s hs]
    exact Bool.false_ne_true
  rw [List.filterMap_append, List.find?_append, hnone, Option.none_or, List.filterMap_cons_some hmap]
  exact List.find?_cons_of_pos (p := fun s : Secret => eqIgnoreAsciiCase s.info.name item) he

end

variable {P : Primitives} {J : Decoders} {R : ∀ q, OsAns q → Prop} {s : Session}

/-- On one payload the three operations agree about a collection, whatever is in it. -/
theorem full_sync_paths_agree (v : Vault P J R s) {ns : Namespace} {collId coll item : String}
    {listCache bulkCache getCache : Option Path} {metas : List SecretMeta} {secrets : List Secret}
    (hns : namespaceCollection ns v.bundle.collections = .ok collId)
    (hcoll : resolveCollection coll v.bundle.collections = some collId)
    (hlist : Returns R (listSecrets P J listCache s ns).run (.ok metas))
    (hbulk : Returns R (getNamespaceSecrets P J bulkCache s ns).run (.ok secrets)) :
    metas = secrets.map Secret.info ∧
    (∀ secret, Returns R (getSecretCold P J getCache v.sess v.userKey coll item).run (.ok secret) →
      secrets.find? (fun x => eqIgnoreAsciiCase x.info.name item) = some secret) ∧
    (∀ detail, Returns R (getSecretCold P J getCache v.sess v.userKey coll item).run
        (.error (.notFound detail)) →
      ∀ x ∈ secrets, eqIgnoreAsciiCase x.info.name item = false) := by
  have hmetas := v.bulk_returns hlist
  have hsecrets := v.bulk_returns hbulk
  rw [hns] at hmetas hsecrets
  cases hmetas
  cases hsecrets
  obtain ⟨hok, hnone⟩ := scanSecret_spec P collId v.bundle.orgKeys v.userKey coll item v.sync.ciphers 0
  refine ⟨listMetas_eq _ _ _ _ _, ?_, ?_⟩
  · intro secret hget
    have hscan := v.cold_returns hget
    rw [hcoll] at hscan
    exact hok secret hscan.symm
  · intro detail hget
    have hscan := v.cold_returns hget
    rw [hcoll] at hscan
    exact hnone detail hscan.symm

/-- A get of the crowded vault by the full sync is this scan of it. -/
theorem crowdedVault_get (item : String) :
    Returns oneServer (getSecretCold plainPrimitives (itemsDecoders crowdedCiphers oneCollections) none
      crowdedVault.sess crowdedVault.userKey "infra" item).run
      (scanSecret plainPrimitives "c1" [("o1", zeroKey)] zeroKey "infra" item 0 crowdedCiphers) := by
  obtain ⟨r, hr⟩ := returns_total oneServer_total (getSecretCold plainPrimitives
    (itemsDecoders crowdedCiphers oneCollections) none crowdedVault.sess crowdedVault.userKey "infra" item).run
  have hscan := crowdedVault.cold_returns hr
  have hcoll : resolveCollection "infra" crowdedVault.bundle.collections = some "c1" := by decide
  rw [hcoll] at hscan
  subst hscan
  exact hr

/-- A name that is there twice is answered with the first item, one that is half corrupt
with an error, and one that is not there is in no secret. -/
theorem full_sync_paths_agree_crowdedVault : ∃ metas secrets secret detail e,
    Returns oneServer (listSecrets plainPrimitives (itemsDecoders crowdedCiphers oneCollections) none
      ⟨"vw", "session"⟩ ⟨"c1", "infra"⟩).run (.ok metas) ∧
    Returns oneServer (getNamespaceSecrets plainPrimitives (itemsDecoders crowdedCiphers oneCollections) none
      ⟨"vw", "session"⟩ ⟨"c1", "infra"⟩).run (.ok secrets) ∧
    Returns oneServer (getSecretCold plainPrimitives (itemsDecoders crowdedCiphers oneCollections) none
      crowdedVault.sess crowdedVault.userKey "infra" "Web").run (.ok secret) ∧
    Returns oneServer (getSecretCold plainPrimitives (itemsDecoders crowdedCiphers oneCollections) none
      crowdedVault.sess crowdedVault.userKey "infra" "mail").run (.error (.notFound detail)) ∧
    Returns oneServer (getSecretCold plainPrimitives (itemsDecoders crowdedCiphers oneCollections) none
      crowdedVault.sess crowdedVault.userKey "infra" "db").run (.error (.crypto e)) ∧
    secrets = [loginSecret "i1" "web" "hi", loginSecret "i2" "WEB" "ho"] ∧
    metas = secrets.map Secret.info ∧ secret.info.id = "i1" ∧
    secrets.find? (fun x => eqIgnoreAsciiCase x.info.name "Web") = some secret ∧
    ∀ x ∈ secrets, eqIgnoreAsciiCase x.info.name "mail" = false := by
  have hns : namespaceCollection ⟨"c1", "infra"⟩ crowdedVault.bundle.collections = .ok "c1" := by decide
  have hcoll : resolveCollection "infra" crowdedVault.bundle.collections = some "c1" := by decide
  obtain ⟨r₁, h₁⟩ := returns_total oneServer_total (listSecrets plainPrimitives
    (itemsDecoders crowdedCiphers oneCollections) none ⟨"vw", "session"⟩ ⟨"c1", "infra"⟩).run
  obtain ⟨r₂, h₂⟩ := returns_total oneServer_total (getNamespaceSecrets plainPrimitives
    (itemsDecoders crowdedCiphers oneCollections) none ⟨"vw", "session"⟩ ⟨"c1", "infra"⟩).run
  have e₁ := crowdedVault.bulk_returns h₁
  have e₂ := crowdedVault.bulk_returns h₂
  rw [hns] at e₁ e₂
  have hsecrets : r₂ = .ok [loginSecret "i1" "web" "hi", loginSecret "i2" "WEB" "ho"] :=
    e₂.trans (congrArg Except.ok crowdedSecrets)
  subst e₁ hsecrets
  have hget := crowdedVault_get "Web"
  have hmissing := crowdedVault_get "mail"
  have hcorrupt := crowdedVault_get "db"
  rw [crowdedScan, if_pos (by decide)] at hget
  rw [crowdedScan, if_neg (by decide), if_neg (by decide), if_neg (by decide)] at hmissing
  rw [crowdedScan, if_neg (by decide), if_neg (by decide), if_pos (by decide)] at hcorrupt
  have hagree := fun item => @full_sync_paths_agree _ _ _ _ crowdedVault _ _ _ item none none none _ _
    hns hcoll h₁ h₂
  exact ⟨_, _, _, _, _, h₁, h₂, hget, hmissing, hcorrupt, rfl, (hagree "Web").1, rfl,
    (hagree "Web").2.1 _ hget, (hagree "mail").2.2 _ hmissing⟩

end Cryptile
