import Cryptile.Vaultwarden.OwnReference

/-
  NamespaceIds — whose id a listed secret carries

  The model calls the member the owning namespace. A namespace is a collection,
  or the personal vault with the empty id; what the mapping puts there is the
  organization. The two agree on the personal vault, and on an organization's
  item only if the organization has the id of a collection that holds the item.
-/

namespace Cryptile
open Text Interaction

section
variable {P : Primitives} {J : Decoders} {R : ∀ q, OsAns q → Prop} {s : Session} (v : Vault P J R s)

/-- An item of the id is in the namespace. -/
def Vault.Holds (ns : Namespace) (item : String) : Prop :=
  ∃ c ∈ v.sync.ciphers, c.id = item ∧ belongs ns.id c = true

/-- The member is the id of one of the namespaces, and the item is in it. -/
def Vault.Owned (names : List Namespace) (m : SecretMeta) : Prop :=
  ∃ ns ∈ names, ns.id = m.namespaceId ∧ v.Holds ns m.id

/-- Whatever is listed or exported from a listed namespace is owned by a listed namespace. -/
structure Vault.OwnersListed : Prop where
  metas : ∀ names, Returns R (listNamespaces P J s).run (.ok names) → ∀ ns ∈ names,
    ∀ cachePath metas, Returns R (listSecrets P J cachePath s ns).run (.ok metas) →
      ∀ m ∈ metas, v.Owned names m
  secrets : ∀ names, Returns R (listNamespaces P J s).run (.ok names) → ∀ ns ∈ names,
    ∀ cachePath secrets, Returns R (getNamespaceSecrets P J cachePath s ns).run (.ok secrets) →
      ∀ secret ∈ secrets, v.Owned names secret.info

/-- A listed namespace has the item, and it can be decrypted. -/
structure Vault.Shown (c : Cipher) (secret : Secret) : Prop where
  synced : c ∈ v.sync.ciphers
  listed : ∃ ns ∈ listedNamespaces v.bundle.collections, ∃ collId,
    namespaceCollection ns v.bundle.collections = .ok collId ∧
    memberSecret P collId v.bundle.orgKeys v.userKey c = some secret

/-- An organization whose items are shown has the id of a collection they are in. -/
def Vault.OrganizationsHold : Prop :=
  ∀ c secret, v.Shown c secret → ∀ org ∈ c.organizationId,
    ∃ ns ∈ listedNamespaces v.bundle.collections, ns.id = org ∧ v.Holds ns c.id

variable {v}

theorem Vault.Shown.info {c : Cipher} {secret : Secret} (h : v.Shown c secret) :
    secret.info.id = c.id ∧ secret.info.namespaceId = c.organizationId.getD "" := by
  obtain ⟨_, _, _, _, hmember⟩ := h.listed
  obtain ⟨-, key, -, hmap⟩ := memberSecret_some.mp hmember
  obtain ⟨_, _, -, -, hinfo⟩ := mapCipher_parts P _ hmap
  rw [hinfo]
  exact ⟨rfl, rfl⟩

/-- What an export of a listed namespace returns is shown. -/
theorem Vault.exported_shown {cachePath : Option Path} {ns : Namespace} {secrets : List Secret}
    (hns : ns ∈ listedNamespaces v.bundle.collections)
    (h : Returns R (getNamespaceSecrets P J cachePath s ns).run (.ok secrets)) :
    ∀ secret ∈ secrets, ∃ c, v.Shown c secret := by
  obtain ⟨collId, hcoll, rfl⟩ := v.bulk_ok h
  intro secret hmem
  rw [namespaceSecrets_eq] at hmem
  obtain ⟨c, hc, hmember⟩ := List.mem_filterMap.mp hmem
  exact ⟨c, hc, ns, hns, collId, hcoll, hmember⟩

/-- What a list of a listed namespace returns are the metas of what is shown. -/
theorem Vault.listed_shown {cachePath : Option Path} {ns : Namespace} {metas : List SecretMeta}
    (hns : ns ∈ listedNamespaces v.bundle.collections)
    (h : Returns R (listSecrets P J cachePath s ns).run (.ok metas)) :
    ∀ m ∈ metas, ∃ c secret, v.Shown c secret ∧ secret.info = m := by
  obtain ⟨collId, hcoll, rfl⟩ := v.bulk_ok h
  intro m hm
  rw [listMetas_eq, namespaceSecrets_eq] at hm
  obtain ⟨secret, hmem, hinfo⟩ := List.mem_map.mp hm
  obtain ⟨c, hc, hmember⟩ := List.mem_filterMap.mp hmem
  exact ⟨c, secret, ⟨hc, ns, hns, collId, hcoll, hmember⟩, hinfo⟩

/-- What is shown is exported. -/
theorem Vault.Shown.exported (hserver : ∀ q, ∃ x, R q x) {c : Cipher} {secret : Secret}
    (h : v.Shown c secret) : ∃ ns ∈ listedNamespaces v.bundle.collections, ∃ secrets,
      Returns R (getNamespaceSecrets P J none s ns).run (.ok secrets) ∧ secret ∈ secrets := by
  obtain ⟨ns, hns, collId, hcoll, hmember⟩ := h.listed
  obtain ⟨r, hr⟩ := returns_total hserver (getNamespaceSecrets P J none s ns).run
  have hbulk := v.bulk_returns hr
  rw [hcoll] at hbulk
  subst hbulk
  refine ⟨ns, hns, _, hr, ?_⟩
  simp only [namespaceSecrets_eq]
  exact List.mem_filterMap.mpr ⟨c, h.synced, hmember⟩

theorem Vault.OrganizationsHold.owned (h : v.OrganizationsHold) {c : Cipher} {secret : Secret}
    (hshown : v.Shown c secret) : v.Owned (listedNamespaces v.bundle.collections) secret.info := by
  obtain ⟨hid, hnamespace⟩ := hshown.info
  cases horg : c.organizationId with
  | none =>
    -- the personal vault is listed, and holds what no organization owns
    refine ⟨⟨"", "personal"⟩, by simp [listedNamespaces], ?_, c, hshown.synced, hid.symm, ?_⟩
    · rw [hnamespace, horg, Option.getD_none]
    · simp only [belongs, horg]
      rfl
  | some org =>
    obtain ⟨ns, hns, hnsid, hholds⟩ := h c secret hshown org horg
    refine ⟨ns, hns, ?_, ?_⟩
    · rw [hnsid, hnamespace, horg, Option.getD_some]
    · rwa [hid]

end

/-- The owning namespace of everything shown is listed exactly where the organizations
have the ids of collections that hold their items. -/
theorem owners_listed_iff {P : Primitives} {J : Decoders} {R : ∀ q, OsAns q → Prop} {s : Session}
    (v : Vault P J R s) (hserver : ∀ q, ∃ x, R q x) : v.OwnersListed ↔ v.OrganizationsHold := by
  refine ⟨?_, ?_⟩
  · intro h c secret hshown org horg
    obtain ⟨r, hr⟩ := returns_total hserver (listNamespaces P J s).run
    obtain rfl := v.namespaces_returns hr
    obtain ⟨ns, hns, secrets, hexport, hmem⟩ := hshown.exported hserver
    obtain ⟨ns', hns', hid, hholds⟩ := h.secrets _ hr ns hns none secrets hexport secret hmem
    obtain ⟨hitem, hnamespace⟩ := hshown.info
    refine ⟨ns', hns', ?_, ?_⟩
    · rw [hid, hnamespace, horg, Option.getD_some]
    · rwa [hitem] at hholds
  · intro h
    refine ⟨?_, ?_⟩
    · intro names hr ns hns cachePath metas hlist m hm
      obtain rfl := Except.ok.inj (v.namespaces_returns hr)
      obtain ⟨c, secret, hshown, rfl⟩ := v.listed_shown hns hlist m hm
      exact h.owned hshown
    · intro names hr ns hns cachePath secrets hexport secret hmem
      obtain rfl := Except.ok.inj (v.namespaces_returns hr)
      obtain ⟨c, hshown⟩ := v.exported_shown hns hexport secret hmem
      exact h.owned hshown

theorem owners_listed_iff_infra : infraVault.OwnersListed ↔ infraVault.OrganizationsHold :=
  owners_listed_iff infraVault oneServer_total

/-- The one item is in the collection `c1` and carries the id of the organization `o1`. -/
theorem organization_is_no_namespace :
    Returns oneServer (getNamespaceSecrets plainPrimitives (itemsDecoders [oneCipher] oneCollections)
      none ⟨"vw", "session"⟩ ⟨"c1", "infra"⟩).run (.ok [webSecret]) ∧
    webSecret.info.namespaceId = "o1" ∧
    (listedNamespaces infraVault.bundle.collections).map Namespace.id = ["c1", ""] ∧
    ¬ infraVault.OwnersListed := by
  have hexport := oneItem_exported oneCollections_named
  refine ⟨hexport, rfl, rfl, ?_⟩
  intro h
  obtain ⟨r, hr⟩ := returns_total oneServer_total (listNamespaces plainPrimitives
    (itemsDecoders [oneCipher] oneCollections) ⟨"vw", "session"⟩).run
  obtain rfl := infraVault.namespaces_returns hr
  obtain ⟨ns, hns, hid, -⟩ := h.secrets _ hr ⟨"c1", "infra"⟩ (List.mem_cons_self ..) none _ hexport
    webSecret (List.mem_singleton.mpr rfl)
  have hids : ns.id ∈ ["c1", ""] := List.mem_map_of_mem hns
  rw [hid] at hids
  exact absurd hids (by decide)

end Cryptile
