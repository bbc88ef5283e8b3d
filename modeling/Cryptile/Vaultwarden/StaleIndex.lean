import Cryptile.Vaultwarden.WarmPath

/-
  StaleIndex — what the warm path serves when the vault has changed since the sync

  The index says which ciphers were in a collection when it was written. The warm
  path fetches their bodies of now and checks that the keys open and that the name
  is still the one asked for; whether the cipher is still in the collection it does
  not look at. So it serves a member exactly when the first candidate that is still
  there under its name has not been moved.
-/

namespace Cryptile
open Text Interaction

/-! ## The server of now -/

/-- What each cipher id is answered with: the body of now, or an error. -/
def Answers (reply : String → Except String HttpResp) : ∀ q, OsAns q → Prop
  | .http (.get (.cipher id) _), x => x = reply id
  | _, _ => True

section
variable (J : Decoders)

def bodyOf (reply : String → Except String HttpResp) (id : String) : Except ApiError Cipher :=
  parseResponse J.cipher "get_cipher" (reply id)

/-- The cipher a request was answered with. -/
def fetched : Sigma OsAns → Option Cipher
  | ⟨.http (.get (.cipher _) _), resp⟩ => (parseResponse J.cipher "get_cipher" resp).toOption
  | _ => none

end

section
variable (P : Primitives) (sess : VwSession) (cache : CacheData) (item : String)

/-- The body opens under the keys of the index, to this name and these fields. -/
def OpensTo (c : Cipher) (key : SymmetricKey) (name : String) : Prop :=
  ∃ container, cipherKey cache c sess = .ok container ∧ effectiveKey P c.key container = .ok key ∧
    decryptStr P c.name key = .ok name

/-- The search goes on past this candidate: it is gone, or has another name. -/
def PassedOver : Except ApiError Cipher → Prop
  | .error _ => True
  | .ok c => ∃ key name, OpensTo P sess cache c key name ∧ eqIgnoreAsciiCase name item = false

/-- The body still has the name, and every field of it opens. -/
def ReadsAs (c : Cipher) (secret : Secret) : Prop :=
  ∃ key name, OpensTo P sess cache c key name ∧ eqIgnoreAsciiCase name item = true ∧
    mapCipher P key c = .ok secret

end

section
variable {P : Primitives} {J : Decoders} {sess : VwSession} {cache : CacheData} {item : String}

theorem fetchVerdict_opens {c : Cipher} {key : SymmetricKey} {name : String}
    (h : OpensTo P sess cache c key name) : fetchVerdict P sess cache item (.ok c) =
      if eqIgnoreAsciiCase name item then .answer (liftCrypto (mapCipher P key c)) else .next := by
  obtain ⟨container, hcontainer, hkey, hname⟩ := h
  simp only [fetchVerdict, warmVerdict, hcontainer, hkey, hname]
  cases eqIgnoreAsciiCase name item <;> rfl

theorem fetchVerdict_miss_or_opens (c : Cipher) : fetchVerdict P sess cache item (.ok c) = .miss ∨
    ∃ key name, OpensTo P sess cache c key name := by
  cases hcontainer : cipherKey cache c sess with
  | error _ => exact .inl (by simp [fetchVerdict, warmVerdict, hcontainer])
  | ok container =>
    cases hkey : effectiveKey P c.key container with
    | error _ => exact .inl (by simp [fetchVerdict, warmVerdict, hcontainer, hkey])
    | ok key =>
      cases hname : decryptStr P c.name key with
      | error _ => exact .inl (by simp [fetchVerdict, warmVerdict, hcontainer, hkey, hname])
      | ok name => exact .inr ⟨key, name, container, hcontainer, hkey, hname⟩

theorem fetchVerdict_next_iff {x : Except ApiError Cipher} :
    fetchVerdict P sess cache item x = .next ↔ PassedOver P sess cache item x := by
  cases x with
  | error _ => exact ⟨fun _ => trivial, fun _ => rfl⟩
  | ok c =>
    refine ⟨?_, ?_⟩
    · intro h
      rcases fetchVerdict_miss_or_opens c with hmiss | ⟨key, name, hopens⟩
      · rw [h] at hmiss
        cases hmiss
      · rw [fetchVerdict_opens hopens] at h
        cases hname : eqIgnoreAsciiCase name item with
        | true => rw [hname] at h; cases h
        | false => exact ⟨key, name, hopens, hname⟩
    · intro h
      obtain ⟨key, name, hopens, hname⟩ := h
      rw [fetchVerdict_opens hopens, hname]
      rfl

theorem fetchVerdict_answer_iff {x : Except ApiError Cipher} {secret : Secret} :
    fetchVerdict P sess cache item x = .answer (.ok secret) ↔
      ∃ c, x = .ok c ∧ ReadsAs P sess cache item c secret := by
  cases x with
  | error _ =>
    refine ⟨?_, ?_⟩
    · rintro ⟨⟩
    · intro h
      obtain ⟨c, h, -⟩ := h
      cases h
  | ok c =>
    refine ⟨?_, ?_⟩
    · intro h
      rcases fetchVerdict_miss_or_opens c with hmiss | ⟨key, name, hopens⟩
      · rw [h] at hmiss
        cases hmiss
      · rw [fetchVerdict_opens hopens] at h
        cases hname : eqIgnoreAsciiCase name item with
        | false => rw [hname] at h; cases h
        | true =>
          rw [hname] at h
          cases hmap : mapCipher P key c with
          | error _ => rw [hmap] at h; cases h
          | ok s =>
            rw [hmap] at h
            cases h
            exact ⟨c, rfl, key, name, hopens, hname, hmap⟩
    · intro h
      obtain ⟨_, h, key, name, hopens, hname, hmap⟩ := h
      cases h
      rw [fetchVerdict_opens hopens, hname, hmap]
      rfl

/-! ## The candidate that decides -/

/-- The first candidate that is not passed over has this body, and reads as this secret. -/
def Decides (P : Primitives) (J : Decoders) (sess : VwSession) (cache : CacheData) (item : String)
    (reply : String → Except String HttpResp) (entries : List CipherIndexEntry) (c : Cipher)
    (secret : Secret) : Prop :=
  ∃ before e after, entries = before ++ e :: after ∧
    (∀ e' ∈ before, PassedOver P sess cache item (bodyOf J reply e'.id)) ∧
    bodyOf J reply e.id = .ok c ∧ ReadsAs P sess cache item c secret

variable {reply : String → Except String HttpResp} {e : CipherIndexEntry}
  {entries : List CipherIndexEntry} {c : Cipher} {secret : Secret}

theorem decides_cons : Decides P J sess cache item reply (e :: entries) c secret ↔
    (bodyOf J reply e.id = .ok c ∧ ReadsAs P sess cache item c secret) ∨
    (PassedOver P sess cache item (bodyOf J reply e.id) ∧
      Decides P J sess cache item reply entries c secret) := by
  have hfirst : ∀ l, Decides P J sess cache item reply l c secret ↔
      ∃ before e after, l = before ++ e :: after ∧
        (bodyOf J reply e.id = .ok c ∧ ReadsAs P sess cache item c secret) ∧
        ∀ e' ∈ before, PassedOver P sess cache item (bodyOf J reply e'.id) :=
    fun l => exists₃_congr (fun _ _ _ => and_congr_right (fun _ => and_comm))
  rw [hfirst, hfirst, FirstSeen.first_cons]

/-- How the search goes on after a verdict. -/
def afterVerdict (rest : Os (Except ProviderError (Option Secret))) :
    Verdict → Os (Except ProviderError (Option Secret))
  | .next => rest
  | .miss => pure (.ok none)
  | .answer r => pure (r.map some)

/-- One candidate: its body is fetched, and the verdict on it decides how to go on. -/
theorem tryCandidates_cons {tr : OsTrace} {x : Except ProviderError (Option Secret)} :
    Runs (tryCandidates P J sess cache item (e :: entries)).run tr x ↔
      ∃ resp t, tr = ⟨.http (.get (.cipher e.id) sess.accessToken), resp⟩ :: t ∧
        Runs (afterVerdict (tryCandidates P J sess cache item entries).run
          (fetchVerdict P sess cache item (parseResponse J.cipher "get_cipher" resp))) t x := by
  refine ⟨?_, ?_⟩
  · intro h
    obtain ⟨resp, t, rfl, h⟩ := h
    exact ⟨resp, t, rfl, h⟩
  · intro h
    obtain ⟨resp, t, rfl, h⟩ := h
    exact ⟨resp, t, rfl, h⟩

/-- A search that finds a secret has last fetched the body that decides. -/
theorem tryCandidates_decides {tr : OsTrace}
    (h : Runs (tryCandidates P J sess cache item entries).run tr (.ok (some secret)))
    (hserver : ∀ e ∈ tr, Answers reply e.1 e.2) :
    ∃ c, lastSeen (fetched J) tr = some c ∧ Decides P J sess cache item reply entries c secret := by
  induction entries generalizing tr with
  | nil => cases h.2
  | cons e rest ih =>
    obtain ⟨resp, t, rfl, hrest⟩ := tryCandidates_cons.mp h
    obtain rfl : resp = reply e.id := hserver ⟨.http (.get (.cipher e.id) sess.accessToken), resp⟩ (by simp)
    rw [← bodyOf] at hrest
    cases hv : fetchVerdict P sess cache item (bodyOf J reply e.id) with
    | next =>
      -- the body that is fetched last is fetched by the rest of the search
      rw [hv] at hrest
      obtain ⟨c, hlast, hdecides⟩ := ih hrest (fun e' he => hserver e' (by simp [he]))
      refine ⟨c, ?_, decides_cons.mpr (.inr ⟨fetchVerdict_next_iff.mp hv, hdecides⟩)⟩
      rw [lastSeen_cons, hlast, Option.some_or]
    | miss =>
      rw [hv] at hrest
      cases hrest.2
    | answer r =>
      rw [hv] at hrest
      obtain ⟨rfl, hr⟩ := hrest
      cases r with
      | error _ => cases hr
      | ok s =>
        cases hr
        obtain ⟨c, hbody, hreads⟩ := fetchVerdict_answer_iff.mp hv
        refine ⟨c, ?_, decides_cons.mpr (.inl ⟨hbody, hreads⟩)⟩
        rw [lastSeen_cons, fetched]
        change (none : Option Cipher).or (bodyOf J reply e.id).toOption = some c
        rw [hbody]
        rfl

/-- The candidate that decides is found. -/
theorem Decides.found (h : Decides P J sess cache item reply entries c secret) :
    ∃ tr, Runs (tryCandidates P J sess cache item entries).run tr (.ok (some secret)) ∧
      (∀ e ∈ tr, Answers reply e.1 e.2) ∧ lastSeen (fetched J) tr = some c := by
  induction entries with
  | nil =>
    obtain ⟨before, e, after, hsplit, -⟩ := h
    cases before <;> cases hsplit
  | cons e rest ih =>
    rcases decides_cons.mp h with ⟨hbody, hreads⟩ | ⟨hpass, hdecides⟩
    · refine ⟨[⟨.http (.get (.cipher e.id) sess.accessToken), reply e.id⟩],
        tryCandidates_cons.mpr ⟨reply e.id, [], rfl, ?_⟩, ?_, ?_⟩
      · rw [← bodyOf, fetchVerdict_answer_iff.mpr ⟨c, hbody, hreads⟩]
        exact ⟨rfl, rfl⟩
      · intro e' he
        cases List.mem_singleton.mp he
        rfl
      · rw [lastSeen_cons, fetched]
        change (none : Option Cipher).or (bodyOf J reply e.id).toOption = some c
        rw [hbody]
        rfl
    · obtain ⟨tr, hruns, hserver, hlast⟩ := ih hdecides
      refine ⟨_, tryCandidates_cons.mpr ⟨reply e.id, tr, rfl, ?_⟩, ?_, ?_⟩
      · rw [← bodyOf, fetchVerdict_next_iff.mpr hpass]
        exact hruns
      · intro e' he
        rcases List.mem_cons.mp he with rfl | he
        · rfl
        · exact hserver e' he
      · rw [lastSeen_cons, hlast, Option.some_or]

end

/-- The warm path serves members of the collection exactly when the candidate that
decides is still one. -/
theorem warm_serves_members_iff (P : Primitives) (J : Decoders) (sess : VwSession) (cache : CacheData)
    (coll item : String) (reply : String → Except String HttpResp) :
    (∀ collId tr secret, resolveCollection coll cache.collectionTuples = some collId →
      Runs (getSecretWarm P J sess cache coll item).run tr (.ok (some secret)) →
      (∀ e ∈ tr, Answers reply e.1 e.2) →
        ∃ c, lastSeen (fetched J) tr = some c ∧ belongs collId c = true) ↔
    ∀ collId c secret, resolveCollection coll cache.collectionTuples = some collId →
      Decides P J sess cache item reply (candidates cache collId item) c secret →
        belongs collId c = true := by
  have hwarm : ∀ {collId}, resolveCollection coll cache.collectionTuples = some collId →
      getSecretWarm P J sess cache coll item =
        tryCandidates P J sess cache item (candidates cache collId item) := by
    intro collId hcoll
    simp only [getSecretWarm, hcoll]
  refine ⟨?_, ?_⟩
  · intro hmember collId c secret hcoll hdecides
    obtain ⟨tr, hruns, hserver, hlast⟩ := hdecides.found
    obtain ⟨c', hlast', hbelongs⟩ := hmember collId tr secret hcoll (by rw [hwarm hcoll]; exact hruns) hserver
    rw [hlast] at hlast'
    cases hlast'
    exact hbelongs
  · intro hmember collId tr secret hcoll hruns hserver
    rw [hwarm hcoll] at hruns
    obtain ⟨c, hlast, hdecides⟩ := tryCandidates_decides hruns hserver
    exact ⟨c, hlast, hmember collId c secret hcoll hdecides⟩

/-! ## A cipher moved after the sync -/

/-- The one cipher, moved to another collection of its organization. -/
def movedCipher : Cipher := { oneCipher with collectionIds := some ["c2"] }

def movedDecoders : Decoders := { oneDecoders with cipher := fun _ => .ok movedCipher }

theorem oneCipher_name : decryptStr plainPrimitives oneCipher.name zeroKey = .ok "web" := by
  rw [show oneCipher.name = plainString [0x77, 0x65, 0x62] from rfl, decryptStr_plainString]
  decide

theorem candidates_oneData : candidates oneData "c1" "web" =
    [{ id := "i1", orgId := some "o1", name := "web", collectionIds := ["c1"] }] := by
  have hkey : keyFor oneCipher.organizationId oneBundle.orgKeys zeroKey = zeroKey := by
    simp [oneCipher, oneBundle, keyFor]
  have hentry : cipherEntry plainPrimitives oneBundle.orgKeys zeroKey oneCipher =
      some { id := "i1", orgId := some "o1", name := "web", collectionIds := ["c1"] } :=
    cipherEntry_eq_some_iff.mpr ⟨zeroKey, "web", by rw [hkey]; rfl, oneCipher_name, rfl⟩
  rw [oneData, candidates_cacheData, show oneBundle.sync.ciphers = [oneCipher] from rfl,
    List.filterMap_cons_some hentry]
  decide

theorem movedCipher_reads :
    ∃ secret, ReadsAs plainPrimitives oneSession oneData "web" movedCipher secret := by
  have horg : oneData.orgKey "o1" = some zeroKey := by
    simp [oneData, cacheData_orgKey, oneBundle]
  have hkey : cipherKey oneData movedCipher oneSession = .ok zeroKey := by
    simp only [cipherKey, movedCipher, oneCipher, horg]
  have hname : decryptStr plainPrimitives movedCipher.name zeroKey = .ok "web" := oneCipher_name
  obtain ⟨secret, hmap⟩ := mapCipher_password hname (show movedCipher.login = some ⟨none, _, none, []⟩ from rfl)
    (by simp [plainString]) (decryptStr_plainString _ zeroKey) rfl rfl rfl rfl rfl
  exact ⟨secret, zeroKey, "web", ⟨zeroKey, hkey, rfl, hname⟩, by decide, hmap⟩

/-- The index of the sync before the move still serves the cipher under the old collection. -/
theorem moved_cipher_served : ∃ tr secret,
    CachedFrom plainPrimitives oneDecoders ["cache"] zeroKey oneBundle oneLine ∧
    unsealLine plainPrimitives oneDecoders zeroKey oneLine = some oneData ∧
    resolveCollection "infra" oneData.collectionTuples = some "c1" ∧
    Runs (getSecretWarm plainPrimitives movedDecoders oneSession oneData "infra" "web").run tr
      (.ok (some secret)) ∧
    (∀ e ∈ tr, Answers (fun _ => .ok ⟨200, ""⟩) e.1 e.2) ∧
    lastSeen (fetched movedDecoders) tr = some movedCipher ∧
    belongs "c1" movedCipher = false := by
  have hopens := unsealLine_sealLine plainPrimitives_lawful oneDecoders_lawful sealLine_oneData
  have hcoll : resolveCollection "infra" oneData.collectionTuples = some "c1" := by
    rw [oneData, cacheData_collectionTuples]
    decide
  obtain ⟨secret, hreads⟩ := movedCipher_reads
  have hdecides : Decides plainPrimitives movedDecoders oneSession oneData "web"
      (fun _ => .ok ⟨200, ""⟩) (candidates oneData "c1" "web") movedCipher secret := by
    rw [candidates_oneData]
    exact decides_cons.mpr (.inl ⟨rfl, hreads⟩)
  obtain ⟨tr, hruns, hserver, hlast⟩ := hdecides.found
  refine ⟨tr, secret, oneLine_cached, hopens, hcoll, ?_, hserver, hlast, by decide⟩
  simp only [getSecretWarm, hcoll]
  exact hruns

end Cryptile
