import Cryptile.Lib.FirstSeen
import Cryptile.Vaultwarden.Payload

/-
  Scan — what the loops over the ciphers make of one cipher

  The scan of a get stops at the first cipher of the collection whose name can be
  read and is the one asked for; it passes over every other, and counts those
  whose key does not open. The bulk loop keeps the ciphers that map. What a scan
  answers is told by these two, so that the modules after this one do not look
  into the loop again.
-/

namespace Cryptile
open Text Interaction FirstSeen

section
variable (P : Primitives) (collId : String) (orgKeys : List (String × SymmetricKey))
  (userKey : SymmetricKey)

/-- A cipher of the collection that carries a key its container key does not open. -/
structure Locked (c : Cipher) : Prop where
  member : belongs collId c = true
  carries : ∃ k, c.key = some k ∧ k ≠ ""
  fails : ∃ e, effectiveKey P c.key (keyFor c.organizationId orgKeys userKey) = .error e

/-- No cipher of the collection whose name can be read has the name. -/
def Unmatched (item : String) (c : Cipher) : Prop :=
  ∀ key name, belongs collId c = true →
    effectiveKey P c.key (keyFor c.organizationId orgKeys userKey) = .ok key →
    decryptStr P c.name key = .ok name → eqIgnoreAsciiCase name item = false

/-- The secret a bulk loop makes of one cipher. -/
def memberSecret (c : Cipher) : Option Secret :=
  if belongs collId c then do
    let key ← (effectiveKey P c.key (keyFor c.organizationId orgKeys userKey)).toOption
    (mapCipher P key c).toOption
  else none

end

section
variable {P : Primitives} {collId : String} {orgKeys : List (String × SymmetricKey)}
  {userKey : SymmetricKey} {coll item : String} {c : Cipher} {ciphers rest : List Cipher} {secret : Secret}

theorem memberSecret_some : memberSecret P collId orgKeys userKey c = some secret ↔
    belongs collId c = true ∧
      ∃ key, effectiveKey P c.key (keyFor c.organizationId orgKeys userKey) = .ok key ∧
        mapCipher P key c = .ok secret := by
  unfold memberSecret
  cases hb : belongs collId c with
  | false => simp
  | true =>
    cases hk : effectiveKey P c.key (keyFor c.organizationId orgKeys userKey) with
    | error e => simp [Except.toOption]
    | ok key => cases hm : mapCipher P key c <;> simp [hm, Except.toOption]

theorem namespaceSecrets_eq (ciphers : List Cipher) : namespaceSecrets P collId orgKeys userKey ciphers =
    ciphers.filterMap (memberSecret P collId orgKeys userKey) := by
  induction ciphers with
  | nil => rfl
  | cons c rest ih =>
    rw [namespaceSecrets, List.filterMap_cons, memberSecret, ih]
    cases hb : belongs collId c with
    | false => simp
    | true =>
      cases hk : effectiveKey P c.key (keyFor c.organizationId orgKeys userKey) with
      | error e => simp [Except.toOption]
      | ok key => cases hm : mapCipher P key c <;> simp [hm, Except.toOption]

/-- A secret has the name its cipher is read under. -/
theorem Unmatched.member (h : Unmatched P collId orgKeys userKey item c)
    (hmap : memberSecret P collId orgKeys userKey c = some secret) :
    eqIgnoreAsciiCase secret.info.name item = false := by
  obtain ⟨hb, key, hk, hm⟩ := memberSecret_some.mp hmap
  exact h key _ hb hk (mapCipher_ok P key hm).1

theorem matched (h : ¬ Unmatched P collId orgKeys userKey item c) : ∃ key name, belongs collId c = true ∧
    effectiveKey P c.key (keyFor c.organizationId orgKeys userKey) = .ok key ∧
    decryptStr P c.name key = .ok name ∧ eqIgnoreAsciiCase name item = true := by
  simp only [Unmatched, not_forall, Bool.not_eq_false] at h
  obtain ⟨key, name, hb, hk, hn, he⟩ := h
  exact ⟨key, name, hb, hk, hn, he⟩

/-! ## One cipher of a scan -/

/-- The scan passes over it, and counts it when it is locked. -/
theorem scanSecret_pass (h : Unmatched P collId orgKeys userKey item c) (coll : String)
    (rest : List Cipher) (failures : Nat) :
    ∃ failures', failures ≤ failures' ∧ (Locked P collId orgKeys userKey c → failures < failures') ∧
      scanSecret P collId orgKeys userKey coll item failures (c :: rest) =
        scanSecret P collId orgKeys userKey coll item failures' rest := by
  rw [scanSecret]
  cases hb : belongs collId c with
  | false =>
    refine ⟨failures, le_refl _, fun hl => ?_, by simp⟩
    cases hb.symm.trans hl.member
  | true =>
    cases hk : effectiveKey P c.key (keyFor c.organizationId orgKeys userKey) with
    | error e => exact ⟨failures + 1, Nat.le_succ _, fun _ => Nat.lt_succ_self _, by simp⟩
    | ok key =>
      refine ⟨failures, le_refl _, fun hl => ?_, ?_⟩
      · obtain ⟨e, he⟩ := hl.fails
        cases hk.symm.trans he
      · cases hn : decryptStr P c.name key with
        | error e => simp [hn]
        | ok name => simp [hn, h key name hb hk hn]

/-- The scan stops at it. -/
theorem scanSecret_hit {key : SymmetricKey} {name : String} (hb : belongs collId c = true)
    (hk : effectiveKey P c.key (keyFor c.organizationId orgKeys userKey) = .ok key)
    (hn : decryptStr P c.name key = .ok name) (he : eqIgnoreAsciiCase name item = true)
    (failures : Nat) : scanSecret P collId orgKeys userKey coll item failures (c :: rest) =
      liftCrypto (mapCipher P key c) := by
  simp [scanSecret, hb, hk, hn, he]

theorem scanSecret_nil {failures : Nat} : scanSecret P collId orgKeys userKey coll item failures [] =
    .error (if failures > 0 then unwrapFailed failures coll
      else .notFound ("vw://" ++ coll ++ "/" ++ item)) := by
  rw [scanSecret]
  split <;> rfl

/-! ## A whole scan -/

/-- Where the scan stops, it answers with the cipher there, if that one maps. -/
theorem scanSecret_stops (h : ¬ Unmatched P collId orgKeys userKey item c) {failures : Nat} :
    scanSecret P collId orgKeys userKey coll item failures (c :: rest) = .ok secret ↔
      memberSecret P collId orgKeys userKey c = some secret ∧
      eqIgnoreAsciiCase secret.info.name item = true := by
  obtain ⟨key, name, hb, hk, hn, he⟩ := matched h
  rw [scanSecret_hit hb hk hn he, memberSecret_some]
  refine ⟨?_, ?_⟩
  · intro hmap
    cases hm : mapCipher P key c with
    | error e =>
      rw [hm] at hmap
      cases hmap
    | ok mapped =>
      rw [hm] at hmap
      cases hmap
      have hname := (mapCipher_ok P key hm).1
      rw [hn] at hname
      cases hname
      exact ⟨⟨hb, key, hk, hm⟩, he⟩
  · intro hmap
    obtain ⟨⟨-, key', hk', hm⟩, -⟩ := hmap
    rw [hk] at hk'
    cases hk'
    rw [hm]
    rfl

/-- The scan answers with the first cipher of the name, if that one maps. -/
theorem scanSecret_ok_iff {failures : Nat} :
    scanSecret P collId orgKeys userKey coll item failures ciphers = .ok secret ↔
      ∃ before c after, ciphers = before ++ c :: after ∧
        memberSecret P collId orgKeys userKey c = some secret ∧
        eqIgnoreAsciiCase secret.info.name item = true ∧
        ∀ c' ∈ before, Unmatched P collId orgKeys userKey item c' := by
  simp only [← and_assoc (a := memberSecret .. = _)]
  induction ciphers generalizing failures with
  | nil =>
    refine ⟨?_, ?_⟩
    · intro h
      rw [scanSecret_nil] at h
      cases h
    · intro h
      obtain ⟨before, c, after, he, -⟩ := h
      cases before <;> cases he
  | cons d rest ih =>
    rw [first_cons]
    by_cases hun : Unmatched P collId orgKeys userKey item d
    · obtain ⟨failures', -, -, hpass⟩ := scanSecret_pass hun coll rest failures
      rw [hpass, ih]
      refine ⟨?_, ?_⟩
      · intro h
        exact Or.inr ⟨hun, h⟩
      · intro h
        rcases h with ⟨hmap, he⟩ | ⟨-, h⟩
        · rw [hun.member hmap] at he
          cases he
        · exact h
    · rw [scanSecret_stops hun]
      refine ⟨?_, ?_⟩
      · exact Or.inl
      · intro h
        rcases h with h | ⟨h, -⟩
        · exact h
        · exact absurd h hun

/-- A search in vain has passed over every cipher; a field that does not decrypt is an
error, not a miss. -/
theorem scanSecret_not_found {failures : Nat} {detail : String}
    (h : scanSecret P collId orgKeys userKey coll item failures ciphers = .error (.notFound detail)) :
    ∀ c ∈ ciphers, Unmatched P collId orgKeys userKey item c := by
  induction ciphers generalizing failures with
  | nil => exact fun c hc => by cases hc
  | cons d rest ih =>
    by_cases hun : Unmatched P collId orgKeys userKey item d
    · obtain ⟨failures', -, -, hpass⟩ := scanSecret_pass hun coll rest failures
      rw [hpass] at h
      exact List.forall_mem_cons.mpr ⟨hun, ih h⟩
    · obtain ⟨key, name, hb, hk, hn, he⟩ := matched hun
      rw [scanSecret_hit hb hk hn he] at h
      cases hm : mapCipher P key d with
      | error e => rw [hm] at h; cases h
      | ok mapped => rw [hm] at h; cases h

/-- A search in vain reports the locked ciphers, wherever they stand. -/
theorem scanSecret_locked {failures : Nat} (hun : ∀ c ∈ ciphers, Unmatched P collId orgKeys userKey item c)
    (h : 0 < failures ∨ ∃ c ∈ ciphers, Locked P collId orgKeys userKey c) :
    ∃ n, scanSecret P collId orgKeys userKey coll item failures ciphers =
      .error (unwrapFailed n coll) := by
  induction ciphers generalizing failures with
  | nil =>
    obtain h | ⟨c, hc, -⟩ := h
    · exact ⟨failures, by rw [scanSecret_nil, if_pos h]⟩
    · cases hc
  | cons c rest ih =>
    obtain ⟨hc, hrest⟩ := List.forall_mem_cons.mp hun
    obtain ⟨failures', hle, hcounted, hpass⟩ := scanSecret_pass hc coll rest failures
    rw [hpass]
    apply ih hrest
    obtain h | ⟨d, hd, hlocked⟩ := h
    · exact .inl (lt_of_lt_of_le h hle)
    · obtain rfl | hd := List.mem_cons.mp hd
      · exact .inl (Nat.zero_lt_of_lt (hcounted hlocked))
      · exact .inr ⟨d, hd, hlocked⟩

end

/-! ## The crowded vault -/

theorem memberSecret_loginCipher (id : String) (name password : Bytes) :
    memberSecret plainPrimitives "c1" [("o1", zeroKey)] zeroKey (loginCipher id name (plainString password)) =
      some (loginSecret id (fromUtf8Lossy name) (fromUtf8Lossy password)) :=
  memberSecret_some.mpr ⟨rfl, zeroKey, rfl, mapCipher_loginCipher id name password zeroKey⟩

theorem scanSecret_loginCipher {coll item : String} {failures : Nat} {rest : List Cipher} (id : String)
    (name : Bytes) (password : String) :
    scanSecret plainPrimitives "c1" [("o1", zeroKey)] zeroKey coll item failures
        (loginCipher id name password :: rest) =
      if eqIgnoreAsciiCase (fromUtf8Lossy name) item then
        liftCrypto (mapCipher plainPrimitives zeroKey (loginCipher id name password))
      else scanSecret plainPrimitives "c1" [("o1", zeroKey)] zeroKey coll item failures rest := by
  have hmember : belongs "c1" (loginCipher id name password) = true := rfl
  have hkey : effectiveKey plainPrimitives (loginCipher id name password).key
      (keyFor (loginCipher id name password).organizationId [("o1", zeroKey)] zeroKey) = .ok zeroKey := rfl
  have hname : decryptStr plainPrimitives (loginCipher id name password).name zeroKey =
      .ok (fromUtf8Lossy name) := decryptStr_plainString name zeroKey
  cases heq : eqIgnoreAsciiCase (fromUtf8Lossy name) item <;>
    simp [scanSecret, hmember, hkey, hname, heq]

theorem crowdedNames : fromUtf8Lossy [0x77, 0x65, 0x62] = "web" ∧ fromUtf8Lossy [0x57, 0x45, 0x42] = "WEB" ∧
    fromUtf8Lossy [0x64, 0x62] = "db" ∧ fromUtf8Lossy [0x68, 0x69] = "hi" ∧
    fromUtf8Lossy [0x68, 0x6f] = "ho" := by decide

/-- Two of its ciphers map. -/
theorem crowdedSecrets : namespaceSecrets plainPrimitives "c1" [("o1", zeroKey)] zeroKey crowdedCiphers =
    [loginSecret "i1" "web" "hi", loginSecret "i2" "WEB" "ho"] := by
  obtain ⟨hweb, hWEB, -, hi, ho⟩ := crowdedNames
  have hfirst : memberSecret plainPrimitives "c1" [("o1", zeroKey)] zeroKey unnamedCipher = none := rfl
  have hlast : memberSecret plainPrimitives "c1" [("o1", zeroKey)] zeroKey (loginCipher "i3" [0x64, 0x62] "x") =
      none := by
    rw [Option.eq_none_iff_forall_ne_some]
    intro secret hs
    obtain ⟨-, key, -, hmap⟩ := memberSecret_some.mp hs
    rw [mapCipher_halfCorrupt] at hmap
    cases hmap
  rw [namespaceSecrets_eq, crowdedCiphers, List.filterMap_cons_none hfirst,
    List.filterMap_cons_some (memberSecret_loginCipher _ _ _),
    List.filterMap_cons_some (memberSecret_loginCipher _ _ _), List.filterMap_cons_none hlast,
    List.filterMap_nil, hweb, hWEB, hi, ho]

/-- A scan finds the first of the two, and fails at the one that is half corrupt. -/
theorem crowdedScan (item : String) :
    scanSecret plainPrimitives "c1" [("o1", zeroKey)] zeroKey "infra" item 0 crowdedCiphers =
      if eqIgnoreAsciiCase "web" item then .ok (loginSecret "i1" "web" "hi")
      else if eqIgnoreAsciiCase "WEB" item then .ok (loginSecret "i2" "WEB" "ho")
      else if eqIgnoreAsciiCase "db" item then .error (cryptoErr .malformedEncString)
      else .error (.notFound ("vw://infra/" ++ item)) := by
  obtain ⟨hweb, hWEB, hdb, hi, ho⟩ := crowdedNames
  have hmember : belongs "c1" unnamedCipher = true := rfl
  have hkey : effectiveKey plainPrimitives unnamedCipher.key
      (keyFor unnamedCipher.organizationId [("o1", zeroKey)] zeroKey) = .ok zeroKey := rfl
  have hunnamed : decryptStr plainPrimitives unnamedCipher.name zeroKey = .error .malformedEncString := rfl
  rw [crowdedCiphers, scanSecret]
  simp only [hmember, hkey, hunnamed, Bool.not_true, Bool.false_eq_true, if_false]
  rw [scanSecret_loginCipher, scanSecret_loginCipher, scanSecret_loginCipher, mapCipher_loginCipher,
    mapCipher_loginCipher, mapCipher_halfCorrupt, scanSecret_nil, hweb, hWEB, hdb, hi, ho]
  rfl

end Cryptile
