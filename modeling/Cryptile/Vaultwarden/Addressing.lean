import Cryptile.Ops
import Cryptile.Vaultwarden.FailLoud

/-
  Addressing — which container a name means, to each of the commands

  `list` and `export` look the name up among the namespaces, the personal vault
  last, and then resolve the id they found by name or id once more. `get`
  resolves the name itself, `personal` first. Both searches take the first hit, so
  they part where the names and ids of the collections cross.
-/

namespace Cryptile
open Text Interaction

/-! ## Names that read alike -/

theorem eqIgnoreAsciiCase_iff {a b : String} : eqIgnoreAsciiCase a b = true ↔
    a.toList.map Char.toLower = b.toList.map Char.toLower := beq_iff_eq

theorem eqIgnoreAsciiCase_refl (a : String) : eqIgnoreAsciiCase a a = true :=
  eqIgnoreAsciiCase_iff.mpr rfl

theorem eqIgnoreAsciiCase_length {a b : String} (h : eqIgnoreAsciiCase a b = true) :
    a.length = b.length := by
  have hlen := congrArg List.length (eqIgnoreAsciiCase_iff.mp h)
  rwa [List.length_map, List.length_map, String.length_toList, String.length_toList] at hlen

/-- Names that read alike are found alike. -/
theorem eqIgnoreAsciiCase_congr {a b : String} (h : eqIgnoreAsciiCase a b = true) (c : String) :
    eqIgnoreAsciiCase c a = eqIgnoreAsciiCase c b := by
  simp only [eqIgnoreAsciiCase, eqIgnoreAsciiCase_iff.mp h]

/-! ## The two searches -/

abbrev CollectionTuple := String × String × String

def named (name : String) (c : CollectionTuple) : Bool := eqIgnoreAsciiCase c.2.2 name

def answersTo (name : String) (c : CollectionTuple) : Bool :=
  eqIgnoreAsciiCase c.2.2 name || eqIgnoreAsciiCase c.1 name

theorem resolveCollection_named {name : String} {cs : List CollectionTuple}
    (h : eqIgnoreAsciiCase name "personal" = false) :
    resolveCollection name cs = (cs.find? (answersTo name)).map Prod.fst := by
  rw [resolveCollection, h]
  rfl

theorem resolveCollection_personal {name : String} {cs : List CollectionTuple}
    (h : eqIgnoreAsciiCase name "personal" = true) : resolveCollection name cs = some "" := by
  rw [resolveCollection, if_pos h]

def listedNamespaces (cs : List CollectionTuple) : List Namespace :=
  cs.map (fun c => { id := c.1, name := c.2.2 }) ++ [{ id := "", name := "personal" }]

/-- The names and ids of the collections do not cross. -/
structure Unambiguous (cs : List CollectionTuple) : Prop where
  ids : ∀ c ∈ cs, c.1 ≠ "" → eqIgnoreAsciiCase c.1 "personal" = false ∧
    ∀ first, cs.find? (answersTo c.1) = some first → first.1 = c.1
  personal : ∀ first, cs.find? (named "personal") = some first → first.1 = ""
  names : ∀ c ∈ cs, eqIgnoreAsciiCase c.2.2 "personal" = false → ∀ first byName,
    cs.find? (answersTo c.2.2) = some first → cs.find? (named c.2.2) = some byName → first.1 = byName.1

section
variable {cs : List CollectionTuple}

theorem unambiguous_iff : Unambiguous cs ↔
    (∀ c ∈ cs, c.1 ≠ "" → eqIgnoreAsciiCase c.1 "personal" = false ∧
      ∀ first ∈ cs.find? (answersTo c.1), first.1 = c.1) ∧
    (∀ first ∈ cs.find? (named "personal"), first.1 = "") ∧
    ∀ c ∈ cs, eqIgnoreAsciiCase c.2.2 "personal" = false → ∀ first ∈ cs.find? (answersTo c.2.2),
      ∀ byName ∈ cs.find? (named c.2.2), first.1 = byName.1 :=
  ⟨fun h => ⟨h.ids, h.personal, fun c hc hp first hfirst byName hby => h.names c hc hp first byName hfirst hby⟩,
    fun h => ⟨h.1, h.2.1, fun c hc hp first byName hfirst hby => h.2.2 c hc hp first hfirst byName hby⟩⟩

instance : Decidable (Unambiguous cs) := decidable_of_iff _ unambiguous_iff.symm

/-- The namespace found first: the first collection of the name, or the personal vault. -/
theorem findNamespace_listed {name : String} {target : Namespace} :
    findNamespace name (listedNamespaces cs) = .ok target ↔
      (∃ c, cs.find? (named name) = some c ∧ target = { id := c.1, name := c.2.2 }) ∨
      (cs.find? (named name) = none ∧ eqIgnoreAsciiCase "personal" name = true ∧
        target = { id := "", name := "personal" }) := by
  have hfind : (listedNamespaces cs).find? (fun n => eqIgnoreAsciiCase n.name name) =
      ((cs.find? (named name)).map (fun c => ({ id := c.1, name := c.2.2 } : Namespace))).or
        (if eqIgnoreAsciiCase "personal" name then some { id := "", name := "personal" } else none) := by
    rw [listedNamespaces, List.find?_append, List.find?_map]
    congr 1
    cases h : eqIgnoreAsciiCase "personal" name <;> simp [h]
  rw [findNamespace, hfind]
  cases hc : cs.find? (named name) with
  | some c => simp [eq_comm (a := target)]
  | none => cases hp : eqIgnoreAsciiCase "personal" name <;> simp [eq_comm (a := target)]

theorem namespaceCollection_ok {ns : Namespace} {collId : String} :
    namespaceCollection ns cs = .ok collId ↔
      (ns.id = "" ∧ collId = "") ∨ (ns.id ≠ "" ∧ resolveCollection ns.id cs = some collId) := by
  unfold namespaceCollection
  by_cases hid : ns.id = ""
  · rw [if_pos (by simp [hid])]
    simp [hid, eq_comm]
  · have hne : ns.id.isEmpty = false := by simpa using hid
    rw [hne]
    cases hr : resolveCollection ns.id cs <;> simp [hid]

/-- A listed namespace resolves back to its id exactly when the search by its id
comes to it, or to one of the same id. -/
theorem namespaceCollection_back {c : CollectionTuple} (hc : c ∈ cs) :
    namespaceCollection { id := c.1, name := c.2.2 } cs = .ok c.1 ↔
      (c.1 ≠ "" → eqIgnoreAsciiCase c.1 "personal" = false ∧
        ∀ first, cs.find? (answersTo c.1) = some first → first.1 = c.1) := by
  rw [namespaceCollection_ok]
  by_cases hid : c.1 = ""
  · simp [hid]
  · simp only [hid, false_and, false_or, ne_eq, not_false_eq_true, true_and, forall_const]
    have hfound : ∃ first, cs.find? (answersTo c.1) = some first := by
      have hself : answersTo c.1 c = true := by
        rw [answersTo, eqIgnoreAsciiCase_refl, Bool.or_true]
      exact Option.isSome_iff_exists.mp (List.find?_isSome.mpr ⟨c, hc, hself⟩)
    obtain ⟨first, hfirst⟩ := hfound
    cases hp : eqIgnoreAsciiCase c.1 "personal" with
    | true =>
      rw [resolveCollection_personal hp]
      simp [Ne.symm hid]
    | false =>
      rw [resolveCollection_named hp, hfirst]
      simp

end

/-! ## The three commands -/

section
variable {P : Primitives} {J : Decoders} {R : ∀ q, OsAns q → Prop} {s : Session} (v : Vault P J R s)

theorem Vault.namespaces_returns {r : Except ProviderError (List Namespace)}
    (hr : Returns R (listNamespaces P J s).run r) : r = .ok (listedNamespaces v.bundle.collections) := by
  unfold listNamespaces at hr
  rw [v.session_returns] at hr
  obtain ⟨_, rfl, hs⟩ | ⟨b, hs, hr⟩ := returns_except_bind.mp hr
  · cases v.sync_returns hs
  · cases v.sync_returns hs
    exact hr

/-- The container whose ciphers `list` and `export` of a name return is the one `get`
resolves the name to, and every listed namespace resolves back to its own id. -/
structure Vault.AddressesAgree : Prop where
  commands : ∀ names name target collId, Returns R (listNamespaces P J s).run (.ok names) →
    findNamespace name names = .ok target →
    namespaceCollection target v.bundle.collections = .ok collId →
      resolveCollection name v.bundle.collections = some collId
  back : ∀ names, Returns R (listNamespaces P J s).run (.ok names) → ∀ ns ∈ names,
    namespaceCollection ns v.bundle.collections = .ok ns.id

end

section
variable {cs : List CollectionTuple}

theorem Unambiguous.back (h : Unambiguous cs) : ∀ ns ∈ listedNamespaces cs,
    namespaceCollection ns cs = .ok ns.id := by
  intro ns hns
  obtain hns | hns := List.mem_append.mp hns
  · obtain ⟨c, hc, rfl⟩ := List.mem_map.mp hns
    exact (namespaceCollection_back hc).mpr (h.ids c hc)
  · obtain rfl := List.mem_singleton.mp hns
    rfl

theorem Unambiguous.commands (h : Unambiguous cs) {name collId : String} {target : Namespace}
    (hfind : findNamespace name (listedNamespaces cs) = .ok target)
    (hcoll : namespaceCollection target cs = .ok collId) : resolveCollection name cs = some collId := by
  have hmem : target ∈ listedNamespaces cs := by
    unfold findNamespace at hfind
    split at hfind
    · next n hn => cases hfind; exact List.mem_of_find?_eq_some hn
    · cases hfind
  rw [h.back target hmem] at hcoll
  cases hcoll
  obtain ⟨c, hc, rfl⟩ | ⟨-, hp, rfl⟩ := findNamespace_listed.mp hfind
  · cases hp : eqIgnoreAsciiCase name "personal" with
    | true =>
      have hnamed : named name = named "personal" := funext (fun c => eqIgnoreAsciiCase_congr hp c.2.2)
      rw [hnamed] at hc
      rw [resolveCollection_personal hp, h.personal c hc]
    | false =>
      -- the collection found by its name stands for the name itself
      have hcn : named name c = true := List.find?_some hc
      have hcn : eqIgnoreAsciiCase c.2.2 name = true := hcn
      have hnamed : named c.2.2 = named name := funext (fun d => eqIgnoreAsciiCase_congr hcn d.2.2)
      have hanswers : answersTo c.2.2 = answersTo name := by
        funext d
        rw [answersTo, answersTo, eqIgnoreAsciiCase_congr hcn, eqIgnoreAsciiCase_congr hcn]
      have hcp : eqIgnoreAsciiCase c.2.2 "personal" = false := by
        rw [← hp, eqIgnoreAsciiCase, eqIgnoreAsciiCase, eqIgnoreAsciiCase_iff.mp hcn]
      have hself : answersTo name c = true := by rw [answersTo, hcn, Bool.true_or]
      have hmemc : c ∈ cs := List.mem_of_find?_eq_some hc
      obtain ⟨first, hfirst⟩ := Option.isSome_iff_exists.mp (List.find?_isSome.mpr ⟨c, hmemc, hself⟩)
      have heq : first.1 = c.1 :=
        h.names c hmemc hcp first c (by rw [hanswers]; exact hfirst) (by rw [hnamed]; exact hc)
      rw [resolveCollection_named hp, hfirst, Option.map_some, heq]
  · apply resolveCollection_personal
    rw [eqIgnoreAsciiCase_iff] at hp ⊢
    exact hp.symm

end

/-- The commands agree on every name exactly when the names and ids do not cross. -/
theorem addresses_agree_iff {P : Primitives} {J : Decoders} {R : ∀ q, OsAns q → Prop} {s : Session}
    (v : Vault P J R s) (hserver : ∀ q, ∃ x, R q x) :
    v.AddressesAgree ↔ Unambiguous v.bundle.collections := by
  refine ⟨?_, ?_⟩
  · intro h
    obtain ⟨r, hr⟩ := returns_total hserver (listNamespaces P J s).run
    obtain rfl := v.namespaces_returns hr
    have hback : ∀ c ∈ v.bundle.collections,
        namespaceCollection { id := c.1, name := c.2.2 } v.bundle.collections = .ok c.1 := by
      intro c hc
      exact h.back _ hr _ (List.mem_append_left _ (List.mem_map_of_mem hc))
    have hnamed : ∀ {name c}, v.bundle.collections.find? (named name) = some c →
        resolveCollection name v.bundle.collections = some c.1 := by
      intro name c hc
      exact h.commands _ name _ c.1 hr (findNamespace_listed.mpr (.inl ⟨c, hc, rfl⟩))
        (hback c (List.mem_of_find?_eq_some hc))
    refine ⟨fun c hc => (namespaceCollection_back hc).mp (hback c hc), ?_, ?_⟩
    · intro first hfirst
      have hget := hnamed hfirst
      rw [resolveCollection_personal (eqIgnoreAsciiCase_refl "personal")] at hget
      exact (Option.some.inj hget).symm
    · intro c hc hp first byName hfirst hby
      have hget := hnamed hby
      rw [resolveCollection_named hp, hfirst] at hget
      exact Option.some.inj hget
  · intro h
    refine ⟨?_, ?_⟩
    · intro names name target collId hr hfind hcoll
      cases v.namespaces_returns hr
      exact h.commands hfind hcoll
    · intro names hr ns hns
      cases v.namespaces_returns hr
      exact h.back ns hns

/-- Collections of the one organization, by their ids and names. -/
def plainCollections (l : List (String × Bytes)) : List ApiCollection :=
  l.map (fun p => { id := p.1, organizationId := "o1", name := plainString p.2 })

theorem plainCollections_named (l : List (String × Bytes)) :
    namedCollections plainPrimitives [("o1", zeroKey)] (plainCollections l) =
      l.map (fun p => (p.1, "o1", fromUtf8Lossy p.2)) := by
  induction l with
  | nil => rfl
  | cons p rest ih =>
    rw [plainCollections, List.map_cons, List.map_cons, ← plainCollections, ← ih]
    simp [namedCollections, decryptStr_plainString, Except.toOption]

def collectionsVault (l : List (String × Bytes)) :
    Vault plainPrimitives (itemsDecoders [oneCipher] (plainCollections l)) oneServer ⟨"vw", "session"⟩ :=
  itemsVault [oneCipher] (plainCollections l) _ (plainCollections_named l)

/-- Two of one name, one whose name is its own id, and one whose name and id begin as the
personal vault's. -/
def nearCollections : List (String × Bytes) :=
  [("c1", [0x69, 0x6e, 0x66, 0x72, 0x61]), ("c2", [0x49, 0x6e, 0x66, 0x72, 0x61]), ("ops", [0x4f, 0x50, 0x53]),
   ("personal2", [0x70, 0x65, 0x72, 0x73, 0x6f, 0x6e, 0x61, 0x6c, 0x73])]

/-- The id of the second is the name of the first. -/
def crossedCollections : List (String × Bytes) :=
  [("c1", [0x69, 0x6e, 0x66, 0x72, 0x61]), ("infra", [0x64, 0x62])]

theorem addresses_agree_iff_nearVault :
    (collectionsVault nearCollections).AddressesAgree ∧
    ¬ (collectionsVault crossedCollections).AddressesAgree := by
  have hnear : Unambiguous (collectionsVault nearCollections).bundle.collections := by decide
  have hcrossed : ¬ Unambiguous (collectionsVault crossedCollections).bundle.collections := by decide
  exact ⟨(addresses_agree_iff _ oneServer_total).mpr hnear,
    fun h => hcrossed ((addresses_agree_iff _ oneServer_total).mp h)⟩

/-- A collection with the name of the personal vault. -/
def personalCollections : List ApiCollection :=
  [{ id := "c2", organizationId := "o1",
     name := plainString [0x70, 0x65, 0x72, 0x73, 0x6f, 0x6e, 0x61, 0x6c] }]

theorem personalCollections_named : namedCollections plainPrimitives [("o1", zeroKey)]
    personalCollections = [("c2", "o1", "personal")] := by
  have hname : decryptStr plainPrimitives
      (plainString [0x70, 0x65, 0x72, 0x73, 0x6f, 0x6e, 0x61, 0x6c]) zeroKey = .ok "personal" := by
    rw [decryptStr_plainString]
    decide
  exact namedCollections_single rfl hname

def personalVault : Vault plainPrimitives (itemsDecoders [oneCipher] personalCollections) oneServer
    ⟨"vw", "session"⟩ :=
  itemsVault [oneCipher] personalCollections [("c2", "o1", "personal")] personalCollections_named

/-- `list` and `export` read the collection, `get` the personal vault. -/
theorem personal_is_two_containers :
    findNamespace "personal" (listedNamespaces personalVault.bundle.collections) =
      .ok ⟨"c2", "personal"⟩ ∧
    namespaceCollection ⟨"c2", "personal"⟩ personalVault.bundle.collections = .ok "c2" ∧
    resolveCollection "personal" personalVault.bundle.collections = some "" ∧
    ¬ personalVault.AddressesAgree := by
  refine ⟨by decide, by decide, by decide, ?_⟩
  intro h
  obtain ⟨r, hr⟩ := returns_total oneServer_total (listNamespaces plainPrimitives
    (itemsDecoders [oneCipher] personalCollections) ⟨"vw", "session"⟩).run
  obtain rfl := personalVault.namespaces_returns hr
  have hget := h.commands _ "personal" ⟨"c2", "personal"⟩ "c2" hr (by decide) (by decide)
  exact absurd hget (by decide)

end Cryptile
