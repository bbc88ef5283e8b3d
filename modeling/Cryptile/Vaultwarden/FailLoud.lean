import Cryptile.Vaultwarden.WarmPath

/-
  FailLoud — what becomes of a cipher whose own key does not unwrap

  A cipher-level key that its container key does not open is a real error and no
  skip: the container key is the wrong one. The scan of a get keeps count of such
  ciphers and reports them where it finds nothing. The loops of list and export
  pass over them like over any cipher that does not decrypt, so these two return
  a result that omits the cipher whenever there is one.
-/

namespace Cryptile
open Text Interaction

/-! ## The three operations -/

section
variable {P : Primitives} {J : Decoders} {R : ∀ q, OsAns q → Prop} {s : Session} (v : Vault P J R s)

def Vault.Locked (collId : String) : Prop :=
  ∃ c ∈ v.sync.ciphers, Cryptile.Locked P collId v.bundle.orgKeys v.userKey c

/-- What is cached answers as the full scan does, or not at all. -/
def Vault.CacheAgrees (cachePath : Option Path) : Prop :=
  ∀ path coll item x, cachePath = some path →
    Returns R (getSecretCached P J path v.sess v.userKey coll item).run x →
      x = .ok none ∨ x = (v.lookup coll item).map some

/-- A get of an item that no cipher has, in a namespace with a locked cipher. -/
def Vault.GetLoud (collId : String) : Prop :=
  ∀ cachePath, v.CacheAgrees cachePath → ∀ (r : Ref) (coll item : String), r.scheme = "vw" →
    splitOnce r.locus "/" = some (coll, item) →
    resolveCollection coll v.bundle.collections = some collId →
    (∀ c ∈ v.sync.ciphers, Unmatched P collId v.bundle.orgKeys v.userKey item c) →
    ∀ a, Returns R (getSecret P J cachePath s r).run a → ∃ d, a = .error (.crypto d)

/-- All three operations on the namespace end in a crypto error. -/
structure Vault.FailsLoud (ns : Namespace) (collId : String) : Prop where
  list : ∀ cachePath r, Returns R (listSecrets P J cachePath s ns).run r → ∃ d, r = .error (.crypto d)
  bulk : ∀ cachePath r, Returns R (getNamespaceSecrets P J cachePath s ns).run r →
    ∃ d, r = .error (.crypto d)
  get : v.GetLoud collId

theorem Vault.getLoud {collId : String} (h : v.Locked collId) : v.GetLoud collId := by
  intro cachePath hcache r coll item hscheme hsplit hcoll hun a ha
  have ha := v.get_returns hcache ha
  obtain ⟨n, hscan⟩ : ∃ n, scanSecret P collId v.bundle.orgKeys v.userKey coll item 0 v.sync.ciphers =
      .error (unwrapFailed n coll) := scanSecret_locked hun (.inr h)
  have hanswer : a = .error (unwrapFailed n coll) :=
    calc a = v.lookup coll item := by
          rw [ha, Vault.answer, if_neg (by simp [hscheme]), hsplit]
      _ = .error (unwrapFailed n coll) := by rw [Vault.lookup, hcoll]; exact hscan
  exact ⟨_, hanswer⟩

end

/-- The rule is kept exactly where it has nothing to say: with a locked cipher in the
namespace, list and export omit it, and only the get reports it. -/
theorem unwrap_failure_is_loud_iff {P : Primitives} {J : Decoders} {R : ∀ q, OsAns q → Prop}
    {s : Session} (v : Vault P J R s) (hserver : ∀ q, ∃ x, R q x) {ns : Namespace} {collId : String}
    (hns : namespaceCollection ns v.bundle.collections = .ok collId) :
    ((v.Locked collId → v.FailsLoud ns collId) ↔ ¬ v.Locked collId) ∧
    (v.Locked collId → v.GetLoud collId) := by
  refine ⟨⟨?_, fun hnot hl => absurd hl hnot⟩, v.getLoud⟩
  intro hloud hlocked
  obtain ⟨r, hr⟩ := returns_total hserver (listSecrets P J none s ns).run
  obtain ⟨d, hd⟩ := (hloud hlocked).list none r hr
  -- the loop has a result whatever the ciphers are
  have hok := v.bulk_returns hr
  rw [hns, hd] at hok
  cases hok

/-- The one item beside one whose own key is no encrypted string. -/
def brokenKeyCiphers : List Cipher := [{ oneCipher with id := "i2", key := some "broken" }, oneCipher]

def brokenKeyVault : Vault plainPrimitives (itemsDecoders brokenKeyCiphers oneCollections) oneServer
    ⟨"vw", "session"⟩ :=
  itemsVault brokenKeyCiphers oneCollections [("c1", "o1", "infra")] oneCollections_named

theorem brokenKeyVault_locked : brokenKeyVault.Locked "c1" :=
  ⟨{ oneCipher with id := "i2", key := some "broken" }, List.mem_cons_self .., by decide,
    ⟨"broken", rfl, by decide⟩, ⟨_, rfl⟩⟩

theorem unwrap_failure_is_loud_iff_brokenKey :
    ((brokenKeyVault.Locked "c1" → brokenKeyVault.FailsLoud ⟨"c1", "infra"⟩ "c1") ↔
      ¬ brokenKeyVault.Locked "c1") ∧ (brokenKeyVault.Locked "c1" → brokenKeyVault.GetLoud "c1") :=
  unwrap_failure_is_loud_iff brokenKeyVault oneServer_total (by decide)

theorem broken_key_is_omitted : brokenKeyVault.Locked "c1" ∧
    ¬ brokenKeyVault.FailsLoud ⟨"c1", "infra"⟩ "c1" := by
  refine ⟨brokenKeyVault_locked, ?_⟩
  intro hloud
  obtain ⟨r, hr⟩ := returns_total oneServer_total (getNamespaceSecrets plainPrimitives
    (itemsDecoders brokenKeyCiphers oneCollections) none ⟨"vw", "session"⟩ ⟨"c1", "infra"⟩).run
  obtain ⟨d, rfl⟩ := hloud.bulk none r hr
  have hok := brokenKeyVault.bulk_returns hr
  cases hok

end Cryptile
