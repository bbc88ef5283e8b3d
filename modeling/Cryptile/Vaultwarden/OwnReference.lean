import Cryptile.Vaultwarden.Addressing
import Cryptile.Vaultwarden.FieldBag
import Cryptile.Vaultwarden.KeySeparation

/-
  OwnReference — whether an exported secret is fetched by its own reference

  A secret is named by its namespace, its item name and a field. The reference
  written from the three is cut at the first `#` and the first `/`, and names are
  compared ignoring case. So it comes back to the secret exactly when the names
  hold no separator before the right one, and nothing that reads alike is found
  first.
-/

namespace Cryptile
open Text Interaction

/-! ## Cutting a reference -/

/-- A separator in the text before moves the cut to the front. -/
theorem splitOnce_char {x : Char} {sep : String} (hsep : sep.toList = [x]) (a b : String) :
    ∃ front back, splitOnce (a ++ sep ++ b) sep = some (front, back) ∧
      ((x ∉ a.toList ∧ front = a ∧ back = b) ∨ (x ∈ a.toList ∧ b.length < back.length)) := by
  by_cases hx : x ∈ a.toList
  · obtain ⟨l, m, he, hl⟩ := List.eq_append_cons_of_mem hx
    have hfront : a ++ sep ++ b = String.ofList l ++ sep ++ (String.ofList m ++ sep ++ b) := by
      apply String.toList_injective
      simp [String.toList_append, he, hsep]
    have hlength : sep.length = 1 := by rw [← String.length_toList, hsep, List.length_singleton]
    refine ⟨String.ofList l, String.ofList m ++ sep ++ b, ?_, .inr ⟨hx, ?_⟩⟩
    · exact (splitOnce_char_eq_some hsep).mpr ⟨hfront, by rwa [String.toList_ofList]⟩
    · rw [String.length_append, String.length_append]
      omega
  · exact ⟨a, b, (splitOnce_char_eq_some hsep).mpr ⟨rfl, hx⟩, .inl ⟨hx, rfl, rfl⟩⟩

/-- The reference to a locus and a field. -/
def vwRef (locus field : String) : String := "vw://" ++ locus ++ "#" ++ field

theorem parse_vwRef {locus field : String} (hlocus : locus ≠ "") (hfield : field ≠ "") :
    ('#' ∉ locus.toList ∧ Ref.parse (vwRef locus field) = .ok ⟨"vw", locus, field, true⟩) ∨
    ('#' ∈ locus.toList ∧ ∀ r, Ref.parse (vwRef locus field) = .ok r → r.field ≠ field) := by
  have hscheme : splitOnce (vwRef locus field) "://" = some ("vw", locus ++ "#" ++ field) := by
    simp [splitOnce, splitOnceList, vwRef, String.toList_append, String.append_assoc]
  have hparse : ∀ {front back : String}, splitOnce (locus ++ "#" ++ field) "#" = some (front, back) →
      Ref.parse (vwRef locus field) =
        if front.isEmpty then .error .emptyLocus
        else if back.isEmpty then .error .emptyField else .ok ⟨"vw", front, back, true⟩ := by
    intro front back hcut
    have hlower : toAsciiLowercase "vw" = "vw" := by decide
    have hknown : knownSchemes.contains "vw" = true := by decide
    simp only [Ref.parse, hscheme, hcut, hlower, hknown, Bool.not_true, Bool.false_eq_true, if_false]
    cases front.isEmpty <;> cases back.isEmpty <;> rfl
  obtain ⟨front, back, hcut, ⟨hno, rfl, rfl⟩ | ⟨hin, hlen⟩⟩ :=
    splitOnce_char (show "#".toList = ['#'] from rfl) locus field
  · left
    refine ⟨hno, ?_⟩
    rw [hparse hcut, if_neg (by simpa using hlocus), if_neg (by simpa using hfield)]
  · right
    refine ⟨hin, ?_⟩
    intro r hr he
    rw [hparse hcut] at hr
    split at hr
    · cases hr
    · split at hr
      · cases hr
      · cases hr
        simp only at he
        rw [he] at hlen
        omega

/-! ## The fields of an export have names -/

section
variable {P : Primitives} {key : SymmetricKey}

/-- No field of the bag has the empty name. -/
def NamedFields (fields : FieldBag) : Prop := "" ∉ fields

/-- Every field of a mapped cipher has a name. -/
theorem mapCipher_named {cipher : Cipher} {secret : Secret} (h : mapCipher P key cipher = .ok secret) :
    NamedFields secret.fields := by
  intro hmem
  rw [Std.ExtTreeMap.mem_iff_isSome_getElem?, mapCipher_unnamed h] at hmem
  cases hmem

end

/-! ## The round trip -/

section
variable {P : Primitives} {J : Decoders} {R : ∀ q, OsAns q → Prop} {s : Session} (v : Vault P J R s)

/-- The reference to a field of a secret in a namespace. -/
def ownRef (ns : Namespace) (secret : Secret) (field : String) : String :=
  vwRef (ns.name ++ "/" ++ secret.info.name) field

/-- The secret's own reference selects the field, and a get of it answers with the secret. -/
def Vault.Fetched (ns : Namespace) (secret : Secret) (field : String) : Prop :=
  ∃ r, Ref.parse (ownRef ns secret field) = .ok r ∧ r.field = field ∧ r.fieldExplicit = true ∧
    ∀ cachePath, v.CacheAgrees cachePath → ∀ a, Returns R (getSecret P J cachePath s r).run a →
      a = .ok secret

/-- No separator cuts the names early, and the first that reads alike is the secret. -/
structure Vault.Addressable (ns : Namespace) (secret : Secret) : Prop where
  noHash : '#' ∉ ns.name.toList ∧ '#' ∉ secret.info.name.toList
  noSlash : '/' ∉ ns.name.toList
  first : ∃ collId, resolveCollection ns.name v.bundle.collections = some collId ∧
    ∃ before c after, v.sync.ciphers = before ++ c :: after ∧
      memberSecret P collId v.bundle.orgKeys v.userKey c = some secret ∧
      ∀ c' ∈ before, Unmatched P collId v.bundle.orgKeys v.userKey secret.info.name c'

theorem Vault.lookup_ok_iff {coll item : String} {secret : Secret} : v.lookup coll item = .ok secret ↔
    ∃ collId, resolveCollection coll v.bundle.collections = some collId ∧
      ∃ before c after, v.sync.ciphers = before ++ c :: after ∧
        memberSecret P collId v.bundle.orgKeys v.userKey c = some secret ∧
        eqIgnoreAsciiCase secret.info.name item = true ∧
        ∀ c' ∈ before, Unmatched P collId v.bundle.orgKeys v.userKey item c' := by
  unfold Vault.lookup
  cases hcoll : resolveCollection coll v.bundle.collections with
  | none => simp
  | some collId =>
    simp only [scanSecret_ok_iff, Option.some.injEq, exists_eq_left']

/-- What a get of a `vw` reference with a slash in its locus answers. -/
theorem Vault.answer_vw {locus field coll item : String} (h : splitOnce locus "/" = some (coll, item)) :
    v.answer ⟨"vw", locus, field, true⟩ = v.lookup coll item := by
  simp [Vault.answer, h]

/-- The secrets of an export are mapped from ciphers of the payload. -/
theorem Vault.exported_named (v : Vault P J R s) {cachePath : Option Path} {ns : Namespace} {secrets : List Secret}
    (h : Returns R (getNamespaceSecrets P J cachePath s ns).run (.ok secrets)) :
    ∀ secret ∈ secrets, NamedFields secret.fields := by
  obtain ⟨collId, -, rfl⟩ := v.bulk_ok h
  intro secret hmem
  simp only [namespaceSecrets_eq, List.mem_filterMap] at hmem
  obtain ⟨c, _, hc⟩ := hmem
  obtain ⟨-, key, -, hm⟩ := memberSecret_some.mp hc
  exact mapCipher_named hm

variable {v}

theorem ownRef_hash {ns : Namespace} {secret : Secret} :
    '#' ∉ (ns.name ++ "/" ++ secret.info.name).toList ↔
      '#' ∉ ns.name.toList ∧ '#' ∉ secret.info.name.toList := by
  simp [String.toList_append]

theorem Vault.Fetched.addressable (hserver : ∀ q, ∃ x, R q x) {ns : Namespace} {secret : Secret}
    {field : String} (hne : field ≠ "") (h : v.Fetched ns secret field) : v.Addressable ns secret := by
  obtain ⟨r, hparse, hrfield, -, hget⟩ := h
  obtain ⟨coll, item, hsplit, hcut⟩ :=
    splitOnce_char (show "/".toList = ['/'] from rfl) ns.name secret.info.name
  have hnocache : v.CacheAgrees none := by
    intro path coll item x hp
    cases hp
  obtain ⟨hno, hparse'⟩ | ⟨-, hlong⟩ :=
    parse_vwRef (show ns.name ++ "/" ++ secret.info.name ≠ "" by simp) hne
  · rw [ownRef, hparse'] at hparse
    cases hparse
    obtain ⟨a, ha⟩ := returns_total hserver (getSecret P J none s ⟨"vw", _, field, true⟩).run
    have hanswer := v.get_returns hnocache ha
    rw [hget none hnocache a ha, v.answer_vw hsplit] at hanswer
    obtain ⟨collId, hcoll, before, c, after, hciphers, hmap, he, hbefore⟩ :=
      v.lookup_ok_iff.mp hanswer.symm
    obtain ⟨hslash, rfl, rfl⟩ | ⟨-, hlen⟩ := hcut
    · exact ⟨ownRef_hash.mp hno, hslash, collId, hcoll, before, c, after, hciphers, hmap, hbefore⟩
    · -- cut in the namespace, the item is longer than the name it would have to be
      rw [eqIgnoreAsciiCase_length he] at hlen
      exact absurd hlen (Nat.lt_irrefl _)
  · exact absurd hrfield (hlong r hparse)

theorem Vault.Addressable.fetched {ns : Namespace} {secret : Secret} {field : String}
    (hne : field ≠ "") (h : v.Addressable ns secret) : v.Fetched ns secret field := by
  obtain ⟨hno, hslash, collId, hcoll, before, c, after, hciphers, hmap, hbefore⟩ := h
  obtain ⟨coll, item, hsplit, ⟨-, rfl, rfl⟩ | ⟨hin, -⟩⟩ :=
    splitOnce_char (show "/".toList = ['/'] from rfl) ns.name secret.info.name
  · obtain ⟨-, hparse⟩ | ⟨hin, -⟩ :=
      parse_vwRef (show ns.name ++ "/" ++ secret.info.name ≠ "" by simp) hne
    · refine ⟨_, hparse, rfl, rfl, ?_⟩
      intro path hcache a ha
      calc a = v.answer ⟨"vw", _, field, true⟩ := v.get_returns hcache ha
        _ = v.lookup ns.name secret.info.name := v.answer_vw hsplit
        _ = .ok secret := v.lookup_ok_iff.mpr ⟨collId, hcoll, before, c, after, hciphers, hmap,
          eqIgnoreAsciiCase_refl _, hbefore⟩
    · exact absurd hin (ownRef_hash.mpr hno)
  · exact absurd hin hslash

end

/-- An exported secret is fetched by its own reference exactly when its names are
addressable. -/
theorem own_reference_iff {P : Primitives} {J : Decoders} {R : ∀ q, OsAns q → Prop} {s : Session}
    (v : Vault P J R s) (hserver : ∀ q, ∃ x, R q x) {cachePath : Option Path} {ns : Namespace}
    {secrets : List Secret}
    (hexport : Returns R (getNamespaceSecrets P J cachePath s ns).run (.ok secrets))
    {secret : Secret} (hsecret : secret ∈ secrets) {field : String} (hfield : field ∈ secret.fields) :
    v.Fetched ns secret field ↔ v.Addressable ns secret := by
  have hne : field ≠ "" := by
    intro he
    exact v.exported_named hexport secret hsecret (he ▸ hfield)
  refine ⟨?_, ?_⟩
  · intro h
    exact h.addressable hserver hne
  · intro h
    exact h.fetched hne

/-! ## The one item, and the one item of a nested collection -/

/-- What the one item maps to. -/
def webSecret : Secret where
  info := { id := "i1", name := "web", namespaceId := "o1", fields := ["password"] }
  fields := Std.ExtTreeMap.insert ∅ "password" "hi"

theorem oneCipher_maps : mapCipher plainPrimitives zeroKey oneCipher = .ok webSecret := by
  have hname : decryptStr plainPrimitives oneCipher.name zeroKey = .ok "web" := by
    rw [show oneCipher.name = plainString [0x77, 0x65, 0x62] from rfl, decryptStr_plainString]
    decide
  have hvalue : decryptStr plainPrimitives (plainString [0x68, 0x69]) zeroKey = .ok "hi" := by
    rw [decryptStr_plainString]
    decide
  have hne := plainString_nonempty [0x68, 0x69]
  have hfields : mapFields plainPrimitives zeroKey oneCipher =
      .ok (Std.ExtTreeMap.insert ∅ "password" "hi") := by
    simp [mapFields, mapBlock, mapLogin, mapUris, insertEach, insertIf, oneCipher, hne, hvalue, bind,
      Except.bind, pure, Except.pure]
  rw [mapCipher, hname, hfields]
  rfl

theorem oneCipher_member :
    memberSecret plainPrimitives "c1" [("o1", zeroKey)] zeroKey oneCipher = some webSecret :=
  memberSecret_some.mpr ⟨by decide, zeroKey, by simp [keyFor, oneCipher, effectiveKey], oneCipher_maps⟩

/-- The one item is exported from its collection, whatever the collection is called. -/
theorem oneItem_exported {cs : List ApiCollection} {name : String}
    (h : namedCollections plainPrimitives [("o1", zeroKey)] cs = [("c1", "o1", name)]) :
    Returns oneServer (getNamespaceSecrets plainPrimitives (itemsDecoders [oneCipher] cs) none
      ⟨"vw", "session"⟩ ⟨"c1", name⟩).run (.ok [webSecret]) := by
  obtain ⟨r, hr⟩ := returns_total oneServer_total (getNamespaceSecrets plainPrimitives
    (itemsDecoders [oneCipher] cs) none ⟨"vw", "session"⟩ ⟨"c1", name⟩).run
  have hbulk := (itemsVault [oneCipher] cs [("c1", "o1", name)] h).bulk_returns hr
  have hns : namespaceCollection ⟨"c1", name⟩ [("c1", "o1", name)] = .ok "c1" := by
    refine (namespaceCollection_back (c := ("c1", "o1", name)) (List.mem_singleton.mpr rfl)).mpr ?_
    intro _
    refine ⟨show eqIgnoreAsciiCase "c1" "personal" = false by decide, ?_⟩
    intro first hfirst
    rw [List.mem_singleton.mp (List.mem_of_find?_eq_some hfirst)]
  change r = (namespaceCollection ⟨"c1", name⟩ [("c1", "o1", name)]).map
    (fun collId => namespaceSecrets plainPrimitives collId [("o1", zeroKey)] zeroKey [oneCipher]) at hbulk
  rw [hns] at hbulk
  simp only [Except.map, namespaceSecrets_eq, List.filterMap_cons_some oneCipher_member,
    List.filterMap_nil] at hbulk
  exact hbulk ▸ hr

def infraVault : Vault plainPrimitives (itemsDecoders [oneCipher] oneCollections) oneServer
    ⟨"vw", "session"⟩ :=
  itemsVault [oneCipher] oneCollections [("c1", "o1", "infra")] oneCollections_named

theorem own_reference_iff_infra : infraVault.Fetched ⟨"c1", "infra"⟩ webSecret "password" ↔
    infraVault.Addressable ⟨"c1", "infra"⟩ webSecret :=
  own_reference_iff infraVault oneServer_total (oneItem_exported oneCollections_named)
    (List.mem_singleton.mpr rfl) (by decide)

/-- A collection under another one: its name has a slash. -/
def nestedCollections : List ApiCollection :=
  [{ id := "c1", organizationId := "o1", name := plainString [0x61, 0x2f, 0x62] }]

theorem nestedCollections_named : namedCollections plainPrimitives [("o1", zeroKey)] nestedCollections =
    [("c1", "o1", "a/b")] := by
  have hname : decryptStr plainPrimitives (plainString [0x61, 0x2f, 0x62]) zeroKey = .ok "a/b" := by
    rw [decryptStr_plainString]
    decide
  exact namedCollections_single rfl hname

def nestedVault : Vault plainPrimitives (itemsDecoders [oneCipher] nestedCollections) oneServer
    ⟨"vw", "session"⟩ :=
  itemsVault [oneCipher] nestedCollections [("c1", "o1", "a/b")] nestedCollections_named

theorem nested_collection_is_unreachable :
    Returns oneServer (getNamespaceSecrets plainPrimitives (itemsDecoders [oneCipher] nestedCollections)
      none ⟨"vw", "session"⟩ ⟨"c1", "a/b"⟩).run (.ok [webSecret]) ∧
    "password" ∈ webSecret.fields ∧
    ¬ nestedVault.Fetched ⟨"c1", "a/b"⟩ webSecret "password" := by
  refine ⟨oneItem_exported nestedCollections_named, by decide, ?_⟩
  intro h
  exact (h.addressable oneServer_total (by decide)).noSlash (by decide)

end Cryptile
