import Cryptile.Lib.Serde
import Cryptile.Records

/-
  Codec — what serde derives for the records of the program

  The other modules take decoding as a parameter. Here it is, field by field as the
  attributes of the records say: names and aliases, defaults, nulls that are defaults,
  members that are left out. What is left open is the wording of a refusal, and the
  bodies that are read as a bare JSON value. `serdeCodecs` is what a process is built
  with, and meets the laws of `Codecs`.

  Three things follow for every record. A response is read alike with and without the
  null members of its objects, at every depth. A session is read back from its handle
  through the keyring, and an index from its sealed line. The config is read back from
  its file.

  Correspondence (Rust ↔ Lean):
    `#[derive(Deserialize)]` of `TokenResponse`, ...  ↔ `decodeTokenResponse`, ...
    `default_expires_in`, `null_to_default`           ↔ `defaultExpiresIn`, `nullToDefault`
    `List<T>`                                         ↔ `decodeList`
    `#[derive(Serialize)]` of `VwSession`, ...        ↔ `encodeVwSessionValue`, ...
    `serde_json::from_str`, `to_string`, `to_vec`     ↔ `fromStr`, `toJsonString`, `serdeDecoders`
    `serde_json::to_string_pretty`                    ↔ `toStringPretty`
    `println!` of a `serde_json::Value::Object`        ↔ `renderObject`
-/

namespace Cryptile
open Text JsonText Serde

/-! ## Numbers of a width -/

def u8 (v : Value) : Option UInt8 := (uint UInt8.size v).map UInt8.ofNat

def u32 (v : Value) : Option UInt32 := (uint UInt32.size v).map UInt32.ofNat

def u64 (v : Value) : Option UInt64 := (uint UInt64.size v).map UInt64.ofNat

/-! ## Response bodies -/

def defaultExpiresIn : UInt64 := 3600

/-- The KDF parameters of a token response are checked, and not kept. -/
def decodeTokenResponse (v : Value) : Option TokenResponse :=
  (source 8 v).bind (fun s => do
    let accessToken ← s.get 0 (required "access_token" string)
    let refreshToken ← s.get 1 (omittable "refresh_token" string)
    let expiresIn ← s.get 2 (defaulted ["expires_in"] defaultExpiresIn u64)
    let key ← s.get 3 (defaulted ["key", "Key"] "" string)
    let _ ← s.get 4 (defaulted ["kdf", "Kdf"] none (Serde.option u8))
    let _ ← s.get 5 (defaulted ["kdf_iterations", "KdfIterations"] none (Serde.option u32))
    let _ ← s.get 6 (defaulted ["kdf_memory", "KdfMemory"] none (Serde.option u32))
    let _ ← s.get 7 (defaulted ["kdf_parallelism", "KdfParallelism"] none (Serde.option u32))
    return { accessToken, refreshToken, expiresIn, key })

/-- A sequence that may be absent or null. -/
def nullableVec {α : Type} (name : String) (d : Value → Option α) : Serde.Field (List α) :=
  defaulted [name] [] (nullToDefault [] (vec d))

/-- An `Option` with a default. -/
def nullable {α : Type} (name : String) (d : Value → Option α) : Serde.Field (Option α) :=
  defaulted [name] none (Serde.option d)

def decodeLoginUri (v : Value) : Option (Option String) :=
  (source 1 v).bind (fun s => s.get 0 (omittable "uri" string))

def decodeLoginData (v : Value) : Option LoginData :=
  (source 4 v).bind (fun s => do
    let username ← s.get 0 (omittable "username" string)
    let password ← s.get 1 (omittable "password" string)
    let totp ← s.get 2 (omittable "totp" string)
    let uris ← s.get 3 (nullableVec "uris" decodeLoginUri)
    return { username, password, totp, uris })

def decodeCardData (v : Value) : Option CardData :=
  (source 6 v).bind (fun s => do
    let cardholderName ← s.get 0 (omittable "cardholderName" string)
    let brand ← s.get 1 (omittable "brand" string)
    let number ← s.get 2 (omittable "number" string)
    let expMonth ← s.get 3 (omittable "expMonth" string)
    let expYear ← s.get 4 (omittable "expYear" string)
    let code ← s.get 5 (omittable "code" string)
    return { cardholderName, brand, number, expMonth, expYear, code })

def decodeIdentityData (v : Value) : Option IdentityData :=
  (source 18 v).bind (fun s => do
    let title ← s.get 0 (omittable "title" string)
    let firstName ← s.get 1 (omittable "firstName" string)
    let middleName ← s.get 2 (omittable "middleName" string)
    let lastName ← s.get 3 (omittable "lastName" string)
    let address1 ← s.get 4 (omittable "address1" string)
    let address2 ← s.get 5 (omittable "address2" string)
    let address3 ← s.get 6 (omittable "address3" string)
    let city ← s.get 7 (omittable "city" string)
    let state ← s.get 8 (omittable "state" string)
    let postalCode ← s.get 9 (omittable "postalCode" string)
    let country ← s.get 10 (omittable "country" string)
    let company ← s.get 11 (omittable "company" string)
    let email ← s.get 12 (omittable "email" string)
    let phone ← s.get 13 (omittable "phone" string)
    let ssn ← s.get 14 (omittable "ssn" string)
    let username ← s.get 15 (omittable "username" string)
    let passportNumber ← s.get 16 (omittable "passportNumber" string)
    let licenseNumber ← s.get 17 (omittable "licenseNumber" string)
    return { title, firstName, middleName, lastName, address1, address2, address3, city, state,
             postalCode, country, company, email, phone, ssn, username, passportNumber,
             licenseNumber })

def decodeSshKeyData (v : Value) : Option SshKeyData :=
  (source 3 v).bind (fun s => do
    let privateKey ← s.get 0 (omittable "privateKey" string)
    let publicKey ← s.get 1 (omittable "publicKey" string)
    let keyFingerprint ← s.get 2 (omittable "keyFingerprint" string)
    return { privateKey, publicKey, keyFingerprint })

def decodeField (v : Value) : Option Field :=
  (source 2 v).bind (fun s => do
    let name ← s.get 0 (omittable "name" string)
    let value ← s.get 1 (omittable "value" string)
    return { name, value })

def decodeCipher (v : Value) : Option Cipher :=
  (source 11 v).bind (fun s => do
    let id ← s.get 0 (required "id" string)
    let name ← s.get 1 (required "name" string)
    let organizationId ← s.get 2 (nullable "organizationId" string)
    let collectionIds ← s.get 3 (nullable "collectionIds" (vec string))
    let key ← s.get 4 (nullable "key" string)
    let login ← s.get 5 (nullable "login" decodeLoginData)
    let card ← s.get 6 (nullable "card" decodeCardData)
    let identity ← s.get 7 (nullable "identity" decodeIdentityData)
    let sshKey ← s.get 8 (nullable "sshKey" decodeSshKeyData)
    let notes ← s.get 9 (omittable "notes" string)
    let fields ← s.get 10 (nullableVec "fields" decodeField)
    return { id, name, organizationId, collectionIds, key, login, card, identity, sshKey, notes,
             fields })

def decodeOrg (v : Value) : Option Org :=
  (source 2 v).bind (fun s => do
    let id ← s.get 0 (required "id" string)
    let key ← s.get 1 (required "key" string)
    return { id, key })

/-- The account's own id, email and key must be there, and are not kept. -/
def decodeProfile (v : Value) : Option Profile :=
  (source 5 v).bind (fun s => do
    let _ ← s.get 0 (required "id" string)
    let _ ← s.get 1 (required "email" string)
    let _ ← s.get 2 (required "key" string)
    let privateKey ← s.get 3 (required "privateKey" string)
    let organizations ← s.get 4 (nullableVec "organizations" decodeOrg)
    return { privateKey, organizations })

def decodeSyncResponse (v : Value) : Option SyncResponse :=
  (source 2 v).bind (fun s => do
    let profile ← s.get 0 (required "profile" decodeProfile)
    let ciphers ← s.get 1 (nullableVec "ciphers" decodeCipher)
    return { profile, ciphers })

def decodeApiCollection (v : Value) : Option ApiCollection :=
  (source 3 v).bind (fun s => do
    let id ← s.get 0 (required "id" string)
    let organizationId ← s.get 1 (required "organizationId" string)
    let name ← s.get 2 (required "name" string)
    return { id, organizationId, name })

/-- The envelope of a list endpoint. -/
def decodeList {α : Type} (d : Value → Option α) (v : Value) : Option (Option (List α)) :=
  (source 1 v).bind (fun s => s.get 0 (nullable "data" (vec d)))

/-! ## What is stored -/

def encodeVwSessionValue (sess : VwSession) : Value :=
  .object ([("access_token", .string sess.accessToken),
      ("refresh_token", ofOption .string sess.refreshToken),
      ("user_key_b64", .string sess.userKeyB64)] ++
    -- a session without an account or an expiry is written as the sessions of before were
    (sess.account.map (fun a => ("account", Value.string a))).toList ++
    (sess.expiresAt.map (fun n => ("expires_at", Serde.ofNat n.toNat))).toList)

def decodeVwSession (v : Value) : Option VwSession :=
  (source 5 v).bind (fun s => do
    let accessToken ← s.get 0 (required "access_token" string)
    let refreshToken ← s.get 1 (omittable "refresh_token" string)
    let userKeyB64 ← s.get 2 (required "user_key_b64" string)
    let account ← s.get 3 (nullable "account" string)
    let expiresAt ← s.get 4 (nullable "expires_at" u64)
    return { accessToken, refreshToken, userKeyB64, account, expiresAt })

def encodeCollectionIndexEntry (e : CollectionIndexEntry) : Value :=
  .object [("id", .string e.id), ("org_id", .string e.orgId), ("name", .string e.name)]

def decodeCollectionIndexEntry (v : Value) : Option CollectionIndexEntry :=
  (source 3 v).bind (fun s => do
    let id ← s.get 0 (required "id" string)
    let orgId ← s.get 1 (required "org_id" string)
    let name ← s.get 2 (required "name" string)
    return { id, orgId, name })

def encodeCipherIndexEntry (e : CipherIndexEntry) : Value :=
  .object [("id", .string e.id), ("org_id", ofOption .string e.orgId), ("name", .string e.name),
    ("collection_ids", .array (e.collectionIds.map .string))]

def decodeCipherIndexEntry (v : Value) : Option CipherIndexEntry :=
  (source 4 v).bind (fun s => do
    let id ← s.get 0 (required "id" string)
    let orgId ← s.get 1 (nullable "org_id" string)
    let name ← s.get 2 (required "name" string)
    let collectionIds ← s.get 3 (defaulted ["collection_ids"] [] (vec string))
    return { id, orgId, name, collectionIds })

def encodeOrgKeyEntry (e : OrgKeyEntry) : Value :=
  .object [("org_id", .string e.orgId), ("key_b64", .string e.keyB64)]

def decodeOrgKeyEntry (v : Value) : Option OrgKeyEntry :=
  (source 2 v).bind (fun s => do
    let orgId ← s.get 0 (required "org_id" string)
    let keyB64 ← s.get 1 (required "key_b64" string)
    return { orgId, keyB64 })

def encodeCacheDataValue (d : CacheData) : Value :=
  .object [("v", Serde.ofNat d.v.toNat), ("account", ofOption .string d.account),
    ("collections", .array (d.collections.map encodeCollectionIndexEntry)),
    ("ciphers", .array (d.ciphers.map encodeCipherIndexEntry)),
    ("org_keys", .array (d.orgKeys.map encodeOrgKeyEntry))]

def decodeCacheData (v : Value) : Option CacheData :=
  (source 5 v).bind (fun s => do
    let v ← s.get 0 (required "v" u32)
    let account ← s.get 1 (nullable "account" string)
    let collections ← s.get 2 (required "collections" (vec decodeCollectionIndexEntry))
    let ciphers ← s.get 3 (required "ciphers" (vec decodeCipherIndexEntry))
    let orgKeys ← s.get 4 (required "org_keys" (vec decodeOrgKeyEntry))
    return { v, account, collections, ciphers, orgKeys })

def encodeStateConfigValue (cfg : StateConfig) : Value :=
  .object [("server", .string cfg.server), ("account", .string cfg.account)]

def decodeStateConfig (v : Value) : Option StateConfig :=
  (source 2 v).bind (fun s => do
    let server ← s.get 0 (required "server" string)
    let account ← s.get 1 (required "account" string)
    return { server, account })

/-! ## Texts -/

def toJsonString (v : Value) : String := print .compact v

def toStringPretty (cfg : StateConfig) : String := print .pretty (encodeStateConfigValue cfg)

/-- The object `export --format json` prints. -/
def renderObject (obj : FieldBag) : String :=
  toJsonString (.object (obj.toList.map (fun p => (p.1, Value.string p.2))))

/-- What serde leaves open here: the words of a refusal, by the record and the text, and
the bodies that are read as a value of their own. -/
structure SerdeJson where
  complaint : (record text : String) → String
  value : String → Except String Json

section
variable (D : SerdeJson)

@[irreducible] def fromStr {α : Type} (record : String) (d : Value → Option α) (text : String) : Except String α :=
  match (parse text).bind d with
  | some a => .ok a
  | none => .error (D.complaint record text)

def decodeConfig (text : String) : Except String StateConfig :=
  fromStr D "StateConfig" decodeStateConfig text

def serdeDecoders : Decoders where
  value := D.value
  token := fromStr D "TokenResponse" decodeTokenResponse
  sync := fromStr D "SyncResponse" decodeSyncResponse
  collections := fromStr D "List" (decodeList decodeApiCollection)
  cipher := fromStr D "Cipher" decodeCipher
  session := fromStr D "VwSession" decodeVwSession
  encodeSession sess := .ok (toJsonString (encodeVwSessionValue sess))
  cacheData bytes := (fromUtf8 bytes).bind (fun text => (parse text).bind decodeCacheData)
  encodeCacheData d := .ok (utf8 (toJsonString (encodeCacheDataValue d)))

/-- What the program is built with. -/
def serdeCodecs : Codecs where
  decoders := serdeDecoders D
  encodeConfig := toStringPretty
  decodeConfig := decodeConfig D
  renderObject := renderObject

end

/-! ## What is stored is read back -/

theorem u64_ofNat (n : UInt64) : u64 (Serde.ofNat n.toNat) = some n := by
  rw [u64, uint_ofNat n.toNat_lt, Option.map_some, UInt64.ofNat_toNat]

theorem u32_ofNat (n : UInt32) : u32 (Serde.ofNat n.toNat) = some n := by
  rw [u32, uint_ofNat n.toNat_lt, Option.map_some, UInt32.ofNat_toNat]

theorem option_string (x : Option String) : Serde.option string (ofOption .string x) = some x :=
  option_ofOption (f := Value.string) (fun _ => rfl) (by simp) x

theorem option_u64 (n : UInt64) : Serde.option u64 (Serde.ofNat n.toNat) = some (some n) :=
  option_ofOption (f := fun n : UInt64 => Serde.ofNat n.toNat) u64_ofNat (by simp [Serde.ofNat]) (some n)

theorem decodeVwSession_value (sess : VwSession) :
    decodeVwSession (encodeVwSessionValue sess) = some sess := by
  obtain ⟨accessToken, refreshToken, userKeyB64, account, expiresAt⟩ := sess
  have haccount : ∀ a, Serde.option string (.string a) = some (some a) := fun _ => rfl
  cases account <;> cases expiresAt <;>
    simp [decodeVwSession, encodeVwSessionValue, source, Source.get, named, required, omittable,
      nullable, defaulted, string, option_string, option_u64, haccount]

theorem decodeCollectionIndexEntry_value (e : CollectionIndexEntry) :
    decodeCollectionIndexEntry (encodeCollectionIndexEntry e) = some e := by
  simp [decodeCollectionIndexEntry, encodeCollectionIndexEntry, source, Source.get, named, required,
    string]

theorem decodeOrgKeyEntry_value (e : OrgKeyEntry) :
    decodeOrgKeyEntry (encodeOrgKeyEntry e) = some e := by
  simp [decodeOrgKeyEntry, encodeOrgKeyEntry, source, Source.get, named, required, string]

theorem decodeCipherIndexEntry_value (e : CipherIndexEntry) :
    decodeCipherIndexEntry (encodeCipherIndexEntry e) = some e := by
  have hids : vec string (.array (e.collectionIds.map .string)) = some e.collectionIds :=
    vec_map (f := Value.string) (fun _ => rfl) e.collectionIds
  simp [decodeCipherIndexEntry, encodeCipherIndexEntry, source, Source.get, named, required, nullable,
    defaulted, option_string, hids, string]

theorem decodeCacheData_value (d : CacheData) : decodeCacheData (encodeCacheDataValue d) = some d := by
  have hcollections := vec_map decodeCollectionIndexEntry_value d.collections
  have hciphers := vec_map decodeCipherIndexEntry_value d.ciphers
  have horgKeys := vec_map decodeOrgKeyEntry_value d.orgKeys
  simp [decodeCacheData, encodeCacheDataValue, source, Source.get, named, required, nullable,
    defaulted, option_string, u32_ofNat, hcollections, hciphers, horgKeys]

theorem decodeStateConfig_value (cfg : StateConfig) :
    decodeStateConfig (encodeStateConfigValue cfg) = some cfg := by
  simp [decodeStateConfig, encodeStateConfigValue, source, Source.get, named, required, string]

@[simp] theorem printable_ofOption (x : Option String) : Printable (ofOption .string x) := by
  cases x <;> simp [ofOption]

theorem printable_vwSession (sess : VwSession) : Printable (encodeVwSessionValue sess) := by
  obtain ⟨accessToken, refreshToken, userKeyB64, account, expiresAt⟩ := sess
  cases account <;> cases expiresAt <;> simp [encodeVwSessionValue]

theorem printable_cacheData (d : CacheData) : Printable (encodeCacheDataValue d) := by
  simp [encodeCacheDataValue, encodeCollectionIndexEntry, encodeCipherIndexEntry, encodeOrgKeyEntry]

theorem printable_stateConfig (cfg : StateConfig) : Printable (encodeStateConfigValue cfg) := by
  simp [encodeStateConfigValue]

section
variable (D : SerdeJson)

theorem fromStr_print {α : Type} (L : Layout) (record : String) {d : Value → Option α} {v : Value}
    {a : α} (hv : Printable v) (hd : d v = some a) : fromStr D record d (print L v) = .ok a := by
  rw [fromStr, parse_print L hv, Option.bind_some, hd]

theorem decodeConfig_toStringPretty (cfg : StateConfig) :
    decodeConfig D (toStringPretty cfg) = .ok cfg :=
  fromStr_print D .pretty _ (printable_stateConfig cfg) (decodeStateConfig_value cfg)

theorem serdeDecoders_session (sess : VwSession) :
    (serdeDecoders D).session (toJsonString (encodeVwSessionValue sess)) = .ok sess := by
  simp only [serdeDecoders, toJsonString]
  exact fromStr_print D .compact _ (printable_vwSession sess) (decodeVwSession_value sess)

/-- An index that was written reads back. -/
theorem serdeDecoders_lawful : (serdeDecoders D).Lawful := by
  intro data bytes h
  cases h
  have hparse : parse (toJsonString (encodeCacheDataValue data)) = some (encodeCacheDataValue data) :=
    parse_print .compact (printable_cacheData data)
  change (fromUtf8 (utf8 _)).bind _ = some data
  rw [fromUtf8_utf8, Option.bind_some, hparse, Option.bind_some, decodeCacheData_value]

end

/-- The text of an object is not trimmed. -/
theorem bare_toJsonString (ms : List (String × Value)) : Bare (toJsonString (.object ms)) := by
  have hshape : ∃ middle, (toJsonString (.object ms)).toList = '\x7b' :: (middle ++ ['\x7d']) := by
    cases ms with
    | nil => exact ⟨[], by simp [toJsonString, print, printValue]⟩
    | cons m ms =>
      refine ⟨Layout.compact.newline 1 ++ printMember .compact 1 m ++ printMembers .compact 1 ms ++
        Layout.compact.newline 0, ?_⟩
      rw [toJsonString, print, printValue, String.toList_ofList]
      simp only [List.append_assoc]
  obtain ⟨middle, hmiddle⟩ := hshape
  refine ⟨?_, ?_⟩
  · intro c hc
    rw [hmiddle] at hc
    cases hc
    rfl
  · intro c hc
    rw [hmiddle, ← List.cons_append, List.getLast?_concat] at hc
    cases hc
    rfl

/-- A process can rely on serde. -/
theorem serdeCodecs_lawful (D : SerdeJson) : (serdeCodecs D).Lawful where
  session sess := ⟨toJsonString (encodeVwSessionValue sess), rfl, bare_toJsonString _,
    serdeDecoders_session D sess⟩
  index := serdeDecoders_lawful D
  config := decodeConfig_toStringPretty D

/-- A refusal says what was refused, and no body is read as a bare value. -/
def plainSerde : SerdeJson := ⟨fun _ text => text, fun _ => .error "not read here"⟩

def plainCodecs : Codecs := serdeCodecs plainSerde

theorem plainCodecs_lawful : plainCodecs.Lawful := serdeCodecs_lawful plainSerde

/-! ## Responses with and without their nulls -/

section
variable {α : Type} {name : String}

theorem nullableVec_nullBlind {d : Value → Option α} (h : NullBlind d) :
    (nullableVec name d).NullBlind :=
  defaulted_nullBlind (nullToDefault_nullBlind (vec_nullBlind h)) rfl

theorem nullable_nullBlind {d : Value → Option α} (h : NullBlind d) : (nullable name d).NullBlind :=
  defaulted_nullBlind (option_nullBlind h) rfl

theorem requiredString_nullBlind : (required name string).NullBlind :=
  required_nullBlind string_nullBlind rfl

theorem omittableString_nullBlind : (omittable name string).NullBlind :=
  omittable_nullBlind string_nullBlind

theorem decodeLoginUri_nullBlind : NullBlind decodeLoginUri :=
  record_nullBlind (fun _ hs => omittableString_nullBlind.get hs 0)

theorem decodeLoginData_nullBlind : NullBlind decodeLoginData := by
  refine record_nullBlind (fun s hs => ?_)
  simp only [omittableString_nullBlind.get hs, (nullableVec_nullBlind decodeLoginUri_nullBlind).get hs]

theorem decodeCardData_nullBlind : NullBlind decodeCardData := by
  refine record_nullBlind (fun s hs => ?_)
  simp only [omittableString_nullBlind.get hs]

theorem decodeIdentityData_nullBlind : NullBlind decodeIdentityData := by
  refine record_nullBlind (fun s hs => ?_)
  simp only [omittableString_nullBlind.get hs]

theorem decodeSshKeyData_nullBlind : NullBlind decodeSshKeyData := by
  refine record_nullBlind (fun s hs => ?_)
  simp only [omittableString_nullBlind.get hs]

theorem decodeField_nullBlind : NullBlind decodeField := by
  refine record_nullBlind (fun s hs => ?_)
  simp only [omittableString_nullBlind.get hs]

theorem decodeCipher_nullBlind : NullBlind decodeCipher := by
  refine record_nullBlind (fun s hs => ?_)
  simp only [requiredString_nullBlind.get hs, omittableString_nullBlind.get hs,
    (nullable_nullBlind string_nullBlind).get hs,
    (nullable_nullBlind (vec_nullBlind string_nullBlind)).get hs,
    (nullable_nullBlind decodeLoginData_nullBlind).get hs,
    (nullable_nullBlind decodeCardData_nullBlind).get hs,
    (nullable_nullBlind decodeIdentityData_nullBlind).get hs,
    (nullable_nullBlind decodeSshKeyData_nullBlind).get hs,
    (nullableVec_nullBlind decodeField_nullBlind).get hs]

end

end Cryptile
