import Cryptile.Lib.FirstSeen
import Cryptile.Vaultwarden.TwoFactor
import Cryptile.Vaultwarden.Payload

/-
  ChallengeBody — the two readers of a challenge body

  One lists the factors a body offers, from arrays and maps in either casing; the
  other takes the entry of the security key from a map. What the first lists is
  told here by the ids that occur in the body, without an order of reading, and
  the two are compared on the entry a key of a map stands for.
-/

namespace Cryptile
open Text FirstSeen

/-! ## The ids of a body -/

def arrayKeys : List String := ["TwoFactorProviders", "twoFactorProviders"]

def mapKeys : List String := ["TwoFactorProviders2", "twoFactorProviders2"]

/-- A number, or a string that parses as one. -/
def ReadsAsId (item : Json) (n : Nat) : Prop :=
  (∃ m : UInt64, item = .number (some m) ∧ m.toNat = n) ∨
  ∃ s, item = .str s ∧ parseUint u64Max s = some n

def InArrays (v : Json) (n : Nat) : Prop :=
  ∃ key ∈ arrayKeys, ∃ items, v.get key = some (.array items) ∧ ∃ item ∈ items, ReadsAsId item n

/-- The entry of a map whose key reads as the id, however it is written. -/
def MapEntry (v : Json) (n : Nat) (entry : Json) : Prop :=
  ∃ key ∈ mapKeys, ∃ members, v.get key = some (.object members) ∧
    ∃ k, (k, entry) ∈ members ∧ parseUint u64Max k = some n

def InMaps (v : Json) (n : Nat) : Prop := ∃ entry, MapEntry v n entry

/-- The entries of an array that read as ids. -/
def readableItems (v : Json) (key : String) : List Json :=
  (((v.get key).bind Json.asArray).getD []).filter (fun item => (itemId item).isSome)

/-- The keys of a map that read as ids. -/
def readableKeys (v : Json) (key : String) : List String :=
  ((((v.get key).bind Json.asObject).getD []).map Prod.fst).filter
    (fun k => (parseUint u64Max k).isSome)

/-- Two bodies that differ in unreadable entries only. -/
def SameReadable (v w : Json) : Prop :=
  (∀ key ∈ arrayKeys, readableItems v key = readableItems w key) ∧
  (∀ key ∈ mapKeys, readableKeys v key = readableKeys w key)

def arrayIds (v : Json) : List Nat :=
  arrayKeys.flatMap (fun key => (((v.get key).bind Json.asArray).getD []).filterMap itemId)

def mapIds (v : Json) : List Nat :=
  mapKeys.flatMap (fun key =>
    (((v.get key).bind Json.asObject).getD []).filterMap (fun m => parseUint u64Max m.1))

theorem offeredIds_eq (v : Json) : offeredIds v = arrayIds v ++ mapIds v := rfl

theorem itemId_eq_some {item : Json} {n : Nat} : itemId item = some n ↔ ReadsAsId item n := by
  unfold itemId ReadsAsId
  cases item with
  | number m =>
    cases m with
    | none => simp [Json.asU64, Json.asStr]
    | some m => simp [Json.asU64]
  | str s => simp [Json.asU64, Json.asStr]
  | _ => simp [Json.asU64, Json.asStr]

theorem mem_getD_asArray {v : Json} {key : String} {item : Json} :
    item ∈ ((v.get key).bind Json.asArray).getD [] ↔
      ∃ items, v.get key = some (.array items) ∧ item ∈ items := by
  cases v.get key with
  | none => simp
  | some x => cases x <;> simp [Json.asArray]

theorem mem_getD_asObject {v : Json} {key : String} {m : String × Json} :
    m ∈ ((v.get key).bind Json.asObject).getD [] ↔
      ∃ members, v.get key = some (.object members) ∧ m ∈ members := by
  cases v.get key with
  | none => simp
  | some x => cases x <;> simp [Json.asObject]

theorem mem_arrayIds {v : Json} {n : Nat} : n ∈ arrayIds v ↔ InArrays v n := by
  unfold arrayIds InArrays
  simp only [List.mem_flatMap, List.mem_filterMap, mem_getD_asArray, itemId_eq_some]
  refine ⟨?_, ?_⟩
  · intro h
    obtain ⟨key, hkey, item, ⟨items, hv, hi⟩, hr⟩ := h
    exact ⟨key, hkey, items, hv, item, hi, hr⟩
  · intro h
    obtain ⟨key, hkey, items, hv, item, hi, hr⟩ := h
    exact ⟨key, hkey, item, ⟨items, hv, hi⟩, hr⟩

theorem mem_mapIds {v : Json} {n : Nat} : n ∈ mapIds v ↔ InMaps v n := by
  unfold mapIds InMaps MapEntry
  simp only [List.mem_flatMap, List.mem_filterMap, mem_getD_asObject]
  refine ⟨?_, ?_⟩
  · intro h
    obtain ⟨key, hkey, ⟨k, entry⟩, ⟨members, hv, hm⟩, hr⟩ := h
    exact ⟨entry, key, hkey, members, hv, k, hm, hr⟩
  · intro h
    obtain ⟨entry, key, hkey, members, hv, k, hm, hr⟩ := h
    exact ⟨key, hkey, (k, entry), ⟨members, hv, hm⟩, hr⟩

/-! ## Tags -/

theorem unknownTag_ne {n : Nat} {tag : String} (ht : tag.toList.head? ≠ some 'u') :
    "unknown(" ++ toString n ++ ")" ≠ tag := by
  intro h
  apply ht
  rw [← h, String.toList_append, String.toList_append]
  rfl

theorem unknownTag_injective {m n : Nat}
    (h : "unknown(" ++ toString m ++ ")" = "unknown(" ++ toString n ++ ")") : m = n := by
  have hl := congrArg String.toList h
  simp only [String.toList_append, List.append_assoc] at hl
  apply toString_injective
  exact String.toList_injective (List.append_inj_left' (List.append_cancel_left hl) rfl)

theorem idToTag_injective {m n : Nat} (h : idToTag m = idToTag n) : m = n := by
  unfold idToTag at h
  split at h <;> split at h
  all_goals first
    | rfl
    | exact absurd h (by decide)
    | exact absurd h (unknownTag_ne (by decide))
    | exact absurd h.symm (unknownTag_ne (by decide))
    | exact unknownTag_injective h

theorem mem_map_idToTag {ids : List Nat} {n : Nat} : idToTag n ∈ ids.map idToTag ↔ n ∈ ids := by
  refine ⟨?_, ?_⟩
  · intro h
    obtain ⟨m, hm, he⟩ := List.mem_map.mp h
    rwa [← idToTag_injective he]
  · exact List.mem_map_of_mem

/-! ## What is listed -/

section
variable {J : Decoders} {body : String} {v : Json}

theorem decodeTwoFactorProviders_eq (h : J.value body = .ok v) :
    decodeTwoFactorProviders J body = gather [] ((offeredIds v).map idToTag) := by
  rw [decodeTwoFactorProviders, h, gather, List.foldl_map]
  rfl

theorem filterMap_readable {α β : Type} {f : α → Option β} {l : List α} :
    (l.filter (fun a => (f a).isSome)).filterMap f = l.filterMap f := by
  induction l with
  | nil => rfl
  | cons a l ih => cases hf : f a <;> simp [hf, ih]

theorem offeredIds_of_sameReadable {w : Json} (h : SameReadable v w) : offeredIds v = offeredIds w := by
  have harray : ∀ u : Json, arrayIds u = arrayKeys.flatMap (fun key =>
      (readableItems u key).filterMap itemId) := by
    intro u
    simp only [arrayIds, readableItems, filterMap_readable]
  have hmap : ∀ u : Json, mapIds u = mapKeys.flatMap (fun key =>
      (readableKeys u key).filterMap (parseUint u64Max)) := by
    intro u
    simp only [mapIds, readableKeys, filterMap_readable, List.filterMap_map]
    rfl
  rw [offeredIds_eq, offeredIds_eq, harray, harray, hmap, hmap]
  congr 1
  · exact List.flatMap_congr (fun key hkey => by rw [h.1 key hkey])
  · exact List.flatMap_congr (fun key hkey => by rw [h.2 key hkey])

/-- What the list of a body is: its ids, each once, those of the arrays first. -/
structure ListsOffer (J : Decoders) (body : String) (v : Json) : Prop where
  nodup : (decodeTwoFactorProviders J body).Nodup
  mem : ∀ n, idToTag n ∈ decodeTwoFactorProviders J body ↔ InArrays v n ∨ InMaps v n
  tags : ∀ tag ∈ decodeTwoFactorProviders J body, ∃ n, tag = idToTag n
  arraysFirst : ∃ arrays maps, decodeTwoFactorProviders J body = arrays ++ maps ∧
    (∀ n, idToTag n ∈ arrays ↔ InArrays v n) ∧
    (∀ n, idToTag n ∈ maps ↔ InMaps v n ∧ ¬ InArrays v n)
  unreadable : ∀ body' w, J.value body' = .ok w → SameReadable v w →
    decodeTwoFactorProviders J body' = decodeTwoFactorProviders J body

/-- Every list is that of the ids in its body, whatever else the body holds. -/
theorem decodeTwoFactorProviders_lists (h : J.value body = .ok v) : ListsOffer J body v := by
  have heq := decodeTwoFactorProviders_eq h
  have hmem : ∀ tag, tag ∈ decodeTwoFactorProviders J body ↔ tag ∈ (offeredIds v).map idToTag := by
    intro tag
    rw [heq, mem_gather]
    simp
  exact
    { nodup := by
        rw [heq]
        exact nodup_gather List.nodup_nil
      mem := fun n => by
        rw [hmem, mem_map_idToTag, offeredIds_eq, List.mem_append, mem_arrayIds, mem_mapIds]
      tags := fun tag htag => by
        obtain ⟨n, -, hn⟩ := List.mem_map.mp ((hmem tag).mp htag)
        exact ⟨n, hn.symm⟩
      arraysFirst := by
        have harrays : ∀ n, idToTag n ∈ gather [] ((arrayIds v).map idToTag) ↔ InArrays v n := by
          intro n
          rw [mem_gather, mem_map_idToTag, mem_arrayIds]
          simp
        obtain ⟨maps, hmaps, hnew⟩ := gather_eq_append
          (gather [] ((arrayIds v).map idToTag)) ((mapIds v).map idToTag)
        refine ⟨_, maps, ?_, harrays, fun n => ?_⟩
        · rw [heq, offeredIds_eq, List.map_append, gather_append, hmaps]
        · rw [hnew, mem_map_idToTag, mem_mapIds, harrays]
      unreadable := fun body' w hw hsame => by
        rw [heq, decodeTwoFactorProviders_eq hw, offeredIds_of_sameReadable hsame] }

end

/-- A decoder that knows the text of one value. -/
def valueDecoders (v : Json) : Decoders := { oneDecoders with value := fun _ => .ok v }

/-- Ids as strings and numbers, in both casings, beside entries that are none. -/
def mixedOffer : Json := .object
  [("TwoFactorProviders", .array [.str "x", .str "0", .number none, .number (some 9)]),
    ("TwoFactorProviders2", .object [("7", .null), ("none", .null)]),
    ("twoFactorProviders2", .object [("+1", .null), ("0", .null)])]

def mixedBody : String :=
  "\x7b\"TwoFactorProviders\":[\"x\",\"0\",-1,9],\"TwoFactorProviders2\":\x7b\"7\":null,\"none\":null\x7d," ++
  "\"twoFactorProviders2\":\x7b\"0\":null,\"+1\":null\x7d\x7d"

theorem mixedOffer_lists : ListsOffer (valueDecoders mixedOffer) mixedBody mixedOffer :=
  decodeTwoFactorProviders_lists rfl

example : decodeTwoFactorProviders (valueDecoders mixedOffer) mixedBody =
    ["totp", "unknown(9)", "webauthn", "email"] := by decide

/-! ## The entry of the security key -/

/-- The challenge an entry holds. -/
def entryChallenge (entry : Json) : Except WebauthnError WebauthnChallenge := do
  let challengeB64 ← memberOf entry "challenge"
  let rpId ← memberOf entry "rpId"
  let allowCredentialIds ← allowedIds entry
  let uv ← userVerification entry
  return { challengeB64 := challengeB64, rpId := rpId,
           allowCredentialIds := allowCredentialIds, uv := uv }

def lacksMap : WebauthnError := .challenge "body lacks TwoFactorProviders2"

def offersNone : WebauthnError :=
  .challenge "server challenge offers no provider-7 (webauthn) entry"

/-- The map the entry is taken from: the first casing there is. -/
def firstMap (v : Json) : Option Json := mapKeys.findSome? v.get

section
variable {J : Decoders} {body : String} {v : Json}

theorem challengeFromBody_eq (h : J.value body = .ok v) : challengeFromBody J body =
    match firstMap v with
    | none => .error lacksMap
    | some providers2 =>
      match providers2.get "7" with
      | none => .error offersNone
      | some entry => entryChallenge entry := by
  rw [challengeFromBody, h]
  rfl

/-- The errors of an entry all begin with its name. -/
def namesEntry : WebauthnError → Bool
  | .challenge msg => msg.toList.take 10 == "provider-7".toList
  | _ => false

theorem memberOf_names {entry : Json} {key : String} {e : WebauthnError}
    (h : memberOf entry key = .error e) : namesEntry e = true := by
  unfold memberOf at h
  split at h
  · cases h
  · cases h
    simp [namesEntry, String.toList_append]

theorem allowedIds_names {entry : Json} {e : WebauthnError} (h : allowedIds entry = .error e) :
    namesEntry e = true := by
  unfold allowedIds at h
  split at h
  · cases h
    decide
  · dsimp only at h
    split at h
    · cases h
      decide
    · cases h

theorem userVerification_names {entry : Json} {e : WebauthnError}
    (h : userVerification entry = .error e) : namesEntry e = true := by
  unfold userVerification at h
  split at h
  · split at h
    · cases h
    · cases h
      simp [namesEntry, String.toList_append]
  · cases h
    decide
  · cases h

theorem entryChallenge_names {entry : Json} {e : WebauthnError}
    (h : entryChallenge entry = .error e) : namesEntry e = true := by
  unfold entryChallenge at h
  rcases except_bind_error h with h | ⟨_, -, h⟩
  · exact memberOf_names h
  rcases except_bind_error h with h | ⟨_, -, h⟩
  · exact memberOf_names h
  rcases except_bind_error h with h | ⟨_, -, h⟩
  · exact allowedIds_names h
  rcases except_bind_error h with h | ⟨_, -, h⟩
  · exact userVerification_names h
  cases h

theorem entryChallenge_ne {entry : Json} {e : WebauthnError} (he : namesEntry e = false) :
    entryChallenge entry ≠ .error e :=
  fun h => Bool.false_ne_true (he.symm.trans (entryChallenge_names h))

theorem get_eq_some {members : List (String × Json)} {key : String} {entry : Json}
    (h : (Json.object members).get key = some entry) : (key, entry) ∈ members := by
  rw [Json.get, Option.map_eq_some_iff] at h
  obtain ⟨m, hm, rfl⟩ := h
  have hkey : m.1 = key := by simpa using List.find?_some hm
  rw [← hkey]
  exact List.mem_of_find?_eq_some hm

theorem get_eq_none {members : List (String × Json)} {key : String}
    (h : (Json.object members).get key = none) : key ∉ members.map Prod.fst := by
  rw [Json.get, Option.map_eq_none_iff, List.find?_eq_none] at h
  intro hk
  obtain ⟨m, hm, rfl⟩ := List.mem_map.mp hk
  exact h m hm (by simp)

/-- The security key that a map offers is found there: the challenge is that of an
entry whose key reads as 7, and fails on the content of that entry only. -/
def FindsEntry (J : Decoders) (body : String) (v : Json) : Prop :=
  (∃ entry, MapEntry v 7 entry ∧ challengeFromBody J body = entryChallenge entry) ∧
  challengeFromBody J body ≠ .error lacksMap ∧ challengeFromBody J body ≠ .error offersNone

/-- The two readers agree on the entry exactly when the first map there is has the
key "7" as it stands. -/
theorem findsEntry_iff (h : J.value body = .ok v) : (InMaps v 7 → FindsEntry J body v) ↔
    (InMaps v 7 → ∃ members, firstMap v = some (.object members) ∧ "7" ∈ members.map Prod.fst) := by
  apply forall_congr'
  intro _
  have hbody := challengeFromBody_eq h
  cases hm : firstMap v with
  | none =>
    simp only [hm] at hbody
    simp [FindsEntry, hbody]
  | some providers2 =>
    cases hg : providers2.get "7" with
    | none =>
      simp only [hm, hg] at hbody
      refine ⟨?_, ?_⟩
      · intro hfinds
        exact absurd hbody hfinds.2.2
      · intro hkey
        obtain ⟨members, hp, hmem⟩ := hkey
        cases hp
        exact absurd hmem (get_eq_none hg)
    | some entry =>
      simp only [hm, hg] at hbody
      cases providers2 with
      | object members =>
        have hmem := get_eq_some hg
        obtain ⟨key, hkey, hv⟩ := List.exists_of_findSome?_eq_some hm
        have hentry : MapEntry v 7 entry := ⟨key, hkey, members, hv, "7", hmem, by decide⟩
        refine ⟨?_, ?_⟩
        · intro _
          exact ⟨members, rfl, List.mem_map_of_mem hmem⟩
        · intro _
          rw [FindsEntry, hbody]
          exact ⟨⟨entry, hentry, rfl⟩, entryChallenge_ne (by decide), entryChallenge_ne (by decide)⟩
      | _ => cases hg

end

/-- The key in the second casing of the map only, and a key written another way. -/
def splitOffer : Json := .object
  [("TwoFactorProviders2", .object [("0", .null)]),
    ("twoFactorProviders2", .object [("7", .object
      [("allowCredentials", .array [.object [("id", .str "AAAA")]]), ("challenge", .str "AAAA"),
        ("rpId", .str "localhost")])])]

def splitBody : String :=
  "\x7b\"TwoFactorProviders2\":\x7b\"0\":null\x7d,\"twoFactorProviders2\":\x7b\"7\":" ++
  "\x7b\"challenge\":\"AAAA\",\"rpId\":\"localhost\"," ++
  "\"allowCredentials\":[\x7b\"id\":\"AAAA\"\x7d]\x7d\x7d\x7d"

def plusSeven : Json := .object [("TwoFactorProviders2", .object [("+7", .null)])]

def plusSevenBody : String := "\x7b\"TwoFactorProviders2\":\x7b\"+7\":null\x7d\x7d"

theorem splitOffer_inMaps : InMaps splitOffer 7 :=
  ⟨_, "twoFactorProviders2", by decide, _, rfl, "7", List.mem_singleton.mpr rfl, by decide⟩

theorem plusSeven_inMaps : InMaps plusSeven 7 :=
  ⟨_, "TwoFactorProviders2", by decide, _, rfl, "+7", List.mem_singleton.mpr rfl, by decide⟩

/-- Both bodies list the security key, and neither gives up its entry. -/
theorem offered_key_not_found :
    (decodeTwoFactorProviders (valueDecoders splitOffer) splitBody = ["totp", "webauthn"] ∧
      challengeFromBody (valueDecoders splitOffer) splitBody = .error offersNone ∧
      ¬ (InMaps splitOffer 7 → FindsEntry (valueDecoders splitOffer) splitBody splitOffer)) ∧
    (decodeTwoFactorProviders (valueDecoders plusSeven) plusSevenBody = ["webauthn"] ∧
      challengeFromBody (valueDecoders plusSeven) plusSevenBody = .error offersNone ∧
      ¬ (InMaps plusSeven 7 → FindsEntry (valueDecoders plusSeven) plusSevenBody plusSeven)) := by
  refine ⟨⟨by decide, rfl, fun h => ?_⟩, ⟨by decide, rfl, fun h => ?_⟩⟩
  · exact (h splitOffer_inMaps).2.2 rfl
  · exact (h plusSeven_inMaps).2.2 rfl

theorem findsEntry_splitOffer :
    (InMaps splitOffer 7 → FindsEntry (valueDecoders splitOffer) splitBody splitOffer) ↔
    (InMaps splitOffer 7 →
      ∃ members, firstMap splitOffer = some (.object members) ∧ "7" ∈ members.map Prod.fst) :=
  findsEntry_iff rfl

end Cryptile
