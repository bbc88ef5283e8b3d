import Cryptile.Vaultwarden.Api

/-
  Cache — the sealed index of the sync cache

  The index is one line of five parts: a magic word, and a salt, an IV, the
  ciphertext and its tag in base64. The keys come from the user key and the salt;
  the tag covers all of it and is checked before anything is decrypted. A line
  that was sealed under a key opens under that key to what was sealed
  (`unsealLine_sealLine`).

  Correspondence (Rust ↔ Lean):
    `CacheData::collection_tuples`, `org_key` ↔ `CacheData.collectionTuples`, `CacheData.orgKey`
    `derive_keys`, `tag`                      ↔ `deriveKeys`, `cacheTag`
    `seal`                                    ↔ `sealCache`, with `sealLine` after its randomness
    `unseal`                                  ↔ `unsealLine`
    `SyncCache::load`, `store`                ↔ `loadCache`, `storeCache`
-/

namespace Cryptile
open Text Interaction

/-! ## The format -/

def cacheMagic : String := "crc1"

def cacheLabel : Bytes := utf8 "cryptile-sync-cache-v1"

def CacheData.collectionTuples (d : CacheData) : List (String × String × String) :=
  d.collections.map (fun c => (c.id, c.orgId, c.name))

def CacheData.orgKey (d : CacheData) (orgId : String) : Option SymmetricKey := do
  let o ← d.orgKeys.find? (fun o => o.orgId == orgId)
  let b ← Base64.decode o.keyB64
  (SymmetricKey.from64 b).toOption

section
variable (P : Primitives) (J : Decoders)

def deriveKeys (userKey : SymmetricKey) (salt : Bytes) : Block 32 × Block 32 :=
  let okm := P.hkdfSha256 salt userKey.bytes cacheLabel
  (⟨okm.1.take 32, by simp [okm.2]⟩, ⟨okm.1.drop 32, by simp [okm.2]⟩)

def cacheTag (macKey : Block 32) (salt iv ct : Bytes) : Block 32 :=
  P.hmacSha256 macKey.1 (cacheLabel ++ salt ++ iv ++ ct)

def sealLine (userKey : SymmetricKey) (data : CacheData) (salt iv : Block 16) : Except String String := do
  let keys := deriveKeys P userKey salt.1
  let pt ← J.encodeCacheData data
  let ct := P.cbcEncrypt keys.1 iv pt
  let t := cacheTag P keys.2 salt.1 iv.1 ct
  return cacheMagic ++ "." ++ Base64.encode salt.1 ++ "." ++ Base64.encode iv.1 ++ "." ++
    Base64.encode ct ++ "." ++ Base64.encode t.1

def sealCache (userKey : SymmetricKey) (data : CacheData) : ExceptT String Os String := do
  let salt ← ExceptT.mk (os (.random 16))
  let iv ← ExceptT.mk (os (.random 16))
  ExceptT.mk (pure (sealLine P J userKey data salt iv))

def unsealLine (userKey : SymmetricKey) (line : String) : Option CacheData :=
  match split (trim line) '.' with
  | [magic, salt, iv, ct, t] => do
    if magic ≠ cacheMagic then none
    let salt ← Base64.decode salt
    let iv ← (Base64.decode iv).bind (toBlock 16)
    let ct ← Base64.decode ct
    let t ← (Base64.decode t).bind (toBlock 32)
    let keys := deriveKeys P userKey salt
    if cacheTag P keys.2 salt iv.1 ct ≠ t then none
    let pt ← P.cbcDecrypt keys.1 iv ct
    J.cacheData pt
  | _ => none

/-! ## The file -/

def loadCache (path : Path) (userKey : SymmetricKey) : Os (Option CacheData) := do
  match ← os (.readToString path) with
  | .ok raw => return unsealLine P J userKey raw
  | .error _ => return none

/-- Seal, then replace the file: a temporary one, written, synced, renamed. -/
def storeCache (path : Path) (userKey : SymmetricKey) (data : CacheData) : ExceptT String Os Unit := do
  let line ← sealCache P J userKey data
  if let some parent := path.parent then
    ExceptT.mk (os (.createDirAll parent))
    let _ ← ExceptT.lift (os (.setMode parent 0o700))
  let tmp := path.withExtension "tmp"
  ExceptT.mk (os (.openTruncate tmp (some 0o600)))
  ExceptT.mk (os (.writeAll tmp line))
  ExceptT.mk (os (.syncAll tmp))
  ExceptT.mk (os (.rename tmp path))

end

/-! ## Round trip -/

/-- The index decodes to what was encoded. -/
def Decoders.Lawful (J : Decoders) : Prop :=
  ∀ data bytes, J.encodeCacheData data = .ok bytes → J.cacheData bytes = some data

section
variable {P : Primitives} {J : Decoders}

theorem cacheMagic_no_blank : ∀ x ∈ cacheMagic.toList, isWhitespace x = false := by
  have hall : cacheMagic.toList.all (fun x => !isWhitespace x) = true := by decide
  intro x hx
  simpa using List.all_eq_true.mp hall x hx

/-- What was sealed under a key is what the line opens to under it. -/
theorem unsealLine_sealLine (hP : P.Lawful) (hJ : J.Lawful) {userKey : SymmetricKey}
    {data : CacheData} {salt iv : Block 16} {line : String}
    (h : sealLine P J userKey data salt iv = .ok line) : unsealLine P J userKey line = some data := by
  unfold sealLine at h
  cases hpt : J.encodeCacheData data with
  | error e => rw [hpt] at h; cases h
  | ok pt =>
    rw [hpt] at h
    cases h
    unfold unsealLine
    rw [split_dotted]
    · simp [Base64.decode_encode, hP (deriveKeys P userKey salt.1).1 iv pt, hJ _ _ hpt]
    · intro s hs
      simp only [List.mem_cons, List.not_mem_nil, or_false] at hs
      rcases hs with rfl | rfl | rfl | rfl | rfl
      · decide
      all_goals exact Base64.encode_no_dot _
    · intro s hs
      simp only [List.mem_cons, List.not_mem_nil, or_false] at hs
      rcases hs with rfl | rfl | rfl | rfl | rfl
      · exact cacheMagic_no_blank
      all_goals exact Base64.encode_no_blank _

end

/-! ## Strings under plain primitives -/

/-- The encrypted string of a text under the plain primitives. -/
def plainString (text : Bytes) : String :=
  "2." ++ Base64.encode (zeros 16).1 ++ "|" ++ Base64.encode (pkcs7 text) ++ "|" ++
    Base64.encode (zeros 32).1

theorem parse_plainString (text : Bytes) : EncString.parse (plainString text) =
    .ok ⟨.aesCbc256HmacSha256B64, (zeros 16).1, pkcs7 text, some (zeros 32).1⟩ := by
  have hlist : (plainString text).toList = ['2'] ++ '.' ::
      ((Base64.encode (zeros 16).1).toList ++ '|' :: ((Base64.encode (pkcs7 text)).toList ++
        '|' :: (Base64.encode (zeros 32).1).toList)) := by
    simp [plainString]
  have hone : splitOnceList ['.'] (plainString text).toList = some (['2'],
      (Base64.encode (zeros 16).1).toList ++ '|' :: ((Base64.encode (pkcs7 text)).toList ++
        '|' :: (Base64.encode (zeros 32).1).toList)) := by
    rw [hlist]
    exact splitOnceList_single (by decide)
  have hbars : splitList '|' ((Base64.encode (zeros 16).1).toList ++ '|' ::
      ((Base64.encode (pkcs7 text)).toList ++ '|' :: (Base64.encode (zeros 32).1).toList)) =
      [(Base64.encode (zeros 16).1).toList, (Base64.encode (pkcs7 text)).toList,
        (Base64.encode (zeros 32).1).toList] := by
    rw [splitList_cons (Base64.encode_no_bar _), splitList_cons (Base64.encode_no_bar _),
      splitList_none (Base64.encode_no_bar _)]
  have hty : parseUint 255 "2" = some 2 := by decide
  have honce : splitOnce (plainString text) "." = some ("2", String.ofList
      ((Base64.encode (zeros 16).1).toList ++ '|' :: ((Base64.encode (pkcs7 text)).toList ++
        '|' :: (Base64.encode (zeros 32).1).toList))) := by
    rw [splitOnce]
    change (splitOnceList ['.'] _).map _ = _
    rw [hone]
    rfl
  simp [EncString.parse, honce, hty, EncStringType.ofWire, split, hbars, decPart,
    Base64.decode_encode, bind, Except.bind, pure, Except.pure]

theorem decryptSymmetric_plain (text : Bytes) (key : SymmetricKey) : EncString.decryptSymmetric
    plainPrimitives ⟨.aesCbc256HmacSha256B64, (zeros 16).1, pkcs7 text, some (zeros 32).1⟩ key =
      .ok text := by
  have hdec := plainPrimitives_lawful key.enc (zeros 16) text
  have hlen : (pkcs7 text).length % 16 = 0 := by
    simp [pkcs7]
    omega
  have hne : (pkcs7 text).isEmpty = false := by
    have hpos : 0 < (pkcs7 text).length := by simp [pkcs7]; omega
    cases h : pkcs7 text with
    | nil => rw [h] at hpos; simp at hpos
    | cons => rfl
  have hcbc : plainPrimitives.cbcDecrypt key.enc (zeros 16) (pkcs7 text) = some text := hdec
  simp [EncString.decryptSymmetric, decryptCbc, toBlock_val, hne, hlen, hcbc]
  rfl

theorem plainString_nonempty (text : Bytes) : (plainString text).isEmpty = false := by
  simp [plainString]

theorem decryptStr_plainString (text : Bytes) (key : SymmetricKey) :
    decryptStr plainPrimitives (plainString text) key = .ok (fromUtf8Lossy text) := by
  simp [decryptStr, plainString_nonempty, parse_plainString, decryptSymmetric_plain, bind, Except.bind, pure, Except.pure]

/-- A key wrapped for an organization, under the plain primitives. -/
def plainOrgKey (key : SymmetricKey) : String := "4." ++ Base64.encode key.bytes

theorem parse_plainOrgKey (key : SymmetricKey) : EncString.parse (plainOrgKey key) =
    .ok ⟨.rsa2048OaepSha1B64, [], key.bytes, none⟩ := by
  have hlist : (plainOrgKey key).toList = ['4'] ++ '.' :: (Base64.encode key.bytes).toList := by
    simp [plainOrgKey]
  have honce : splitOnce (plainOrgKey key) "." = some ("4", Base64.encode key.bytes) := by
    rw [splitOnce]
    change (splitOnceList ['.'] _).map _ = _
    rw [hlist, splitOnceList_single (by decide)]
    simp
  have hty : parseUint 255 "4" = some 4 := by decide
  have hbars := splitList_none (Base64.encode_no_bar key.bytes)
  simp [EncString.parse, honce, hty, EncStringType.ofWire, split, hbars, decPart,
    Base64.decode_encode, bind, Except.bind, pure, Except.pure]

end Cryptile
