import Cryptile.Os

/-
  Api — the HTTP client of the backend: requests, response bodies, errors

  A response is judged by its status and its body: a success is decoded, a 400
  that says so is a two-factor challenge, anything else is a status error with a
  sanitized excerpt. Decoding itself is the `Decoders` of the types below.

  Correspondence (Rust ↔ Lean):
    `ApiError`, `sanitize`               ↔ `ApiError`, `sanitize`
    `Client::parse`                      ↔ `parseResponse`
    `Client::prelogin`, `token_password` ↔ `apiPrelogin`, `tokenPassword`
    `token_refresh`, `get_cipher`, ...   ↔ `tokenRefresh`, `getCipher`, `apiSync`, `apiCollections`
    `serde_json::from_str`, `to_string`  ↔ `Decoders`
    `SyncResponse`, `Cipher`, ...        ↔ the structures of the same name
-/

namespace Cryptile
open Text Interaction

/-! ## Response bodies -/

/-- A JSON value; a number by its reading as a `u64`, an object in key order. -/
inductive Json where
  | null
  | bool (b : Bool)
  | number (asU64 : Option UInt64)
  | str (s : String)
  | array (items : List Json)
  | object (members : List (String × Json))

def Json.get : Json → String → Option Json
  | .object members, key => (members.find? (fun m => m.1 == key)).map Prod.snd
  | _, _ => none

def Json.asU64 : Json → Option UInt64
  | .number n => n
  | _ => none

def Json.asStr : Json → Option String
  | .str s => some s
  | _ => none

def Json.asArray : Json → Option (List Json)
  | .array items => some items
  | _ => none

def Json.asObject : Json → Option (List (String × Json))
  | .object members => some members
  | _ => none

structure TokenResponse where
  accessToken : String
  refreshToken : Option String
  expiresIn : UInt64
  key : String
  deriving DecidableEq, Repr

structure LoginData where
  username : Option String
  password : Option String
  totp : Option String
  uris : List (Option String)
  deriving DecidableEq, Repr

structure CardData where
  cardholderName : Option String
  brand : Option String
  number : Option String
  expMonth : Option String
  expYear : Option String
  code : Option String
  deriving DecidableEq, Repr

structure IdentityData where
  title : Option String
  firstName : Option String
  middleName : Option String
  lastName : Option String
  address1 : Option String
  address2 : Option String
  address3 : Option String
  city : Option String
  state : Option String
  postalCode : Option String
  country : Option String
  company : Option String
  email : Option String
  phone : Option String
  ssn : Option String
  username : Option String
  passportNumber : Option String
  licenseNumber : Option String
  deriving DecidableEq, Repr

structure SshKeyData where
  privateKey : Option String
  publicKey : Option String
  keyFingerprint : Option String
  deriving DecidableEq, Repr

structure Field where
  name : Option String
  value : Option String
  deriving DecidableEq, Repr

structure Cipher where
  id : String
  name : String
  organizationId : Option String
  collectionIds : Option (List String)
  key : Option String
  login : Option LoginData
  card : Option CardData
  identity : Option IdentityData
  sshKey : Option SshKeyData
  notes : Option String
  fields : List Field
  deriving DecidableEq, Repr

structure Org where
  id : String
  key : String
  deriving DecidableEq, Repr

structure Profile where
  privateKey : String
  organizations : List Org
  deriving DecidableEq, Repr

structure SyncResponse where
  profile : Profile
  ciphers : List Cipher
  deriving DecidableEq, Repr

structure ApiCollection where
  id : String
  organizationId : String
  name : String
  deriving DecidableEq, Repr

/-- The session state inside a `Session`'s handle. -/
structure VwSession where
  accessToken : String
  refreshToken : Option String
  userKeyB64 : String
  account : Option String
  expiresAt : Option UInt64
  deriving DecidableEq, Repr

structure CollectionIndexEntry where
  id : String
  orgId : String
  name : String
  deriving DecidableEq, Repr

structure CipherIndexEntry where
  id : String
  orgId : Option String
  name : String
  collectionIds : List String
  deriving DecidableEq, Repr

structure OrgKeyEntry where
  orgId : String
  keyB64 : String
  deriving DecidableEq, Repr

/-- The sealed index of the sync cache. -/
structure CacheData where
  v : UInt32
  account : Option String
  collections : List CollectionIndexEntry
  ciphers : List CipherIndexEntry
  orgKeys : List OrgKeyEntry
  deriving DecidableEq, Repr

/-- The decoders and encoders serde derives for the types above. -/
structure Decoders where
  value : String → Except String Json
  token : String → Except String TokenResponse
  sync : String → Except String SyncResponse
  collections : String → Except String (Option (List ApiCollection))
  cipher : String → Except String Cipher
  session : String → Except String VwSession
  encodeSession : VwSession → Except String String
  cacheData : Bytes → Option CacheData
  encodeCacheData : CacheData → Except String Bytes

/-! ## Errors -/

inductive ApiError where
  | transport (msg : String)
  | status (op : String) (code : UInt16) (detail : String)
  | malformed (msg : String)
  | twoFactorChallenge (body : String)
  deriving DecidableEq, Repr

def ApiError.display : ApiError → String
  | .transport msg => "transport: " ++ msg
  | .status op code detail => "server returned " ++ toString code ++ " for " ++ op ++ ": " ++ detail
  | .malformed msg => "malformed response: " ++ msg
  | .twoFactorChallenge body => "two-factor challenge: " ++ body

/-- A control character: U+0000 to U+001F and U+007F to U+009F. -/
def isControl (c : Char) : Bool := c.toNat < 0x20 || (0x7F ≤ c.toNat && c.toNat ≤ 0x9F)

def sanitize (body : String) : String :=
  String.ofList ((body.toList.take 512).map (fun c => if isControl c then '?' else c))

/-! ## The client -/

def isSuccess (status : UInt16) : Bool := 200 ≤ status && status < 300

def isChallenge (resp : HttpResp) : Bool :=
  resp.status == 400 && contains resp.body "Two factor required."

/-- What a response is, by its status and its body. -/
def parseResponse {α : Type} (decode : String → Except String α) (op : String) :
    Except String HttpResp → Except ApiError α
  | .error e => .error (.transport e)
  | .ok resp =>
    if !isSuccess resp.status then
      if isChallenge resp then .error (.twoFactorChallenge resp.body)
      else .error (.status op resp.status (sanitize resp.body))
    else match decode resp.body with
      | .ok a => .ok a
      | .error e => .error (.malformed e)

def call {α : Type} (r : HttpReq) (decode : String → Except String α) (op : String) :
    Os (Except ApiError α) := do
  return parseResponse decode op (← os (.http r))

section
variable (J : Decoders)

def apiPrelogin (email : String) : Os (Except ApiError Json) :=
  call (.postJson .prelogin email) J.value "prelogin"

/-- The form of a password grant; a second factor is its wire id and its token. -/
def tokenPasswordForm (deviceId email authHashB64 : String) (secondFactor : Option (UInt8 × String)) :
    List (String × String) :=
  [("grant_type", "password"), ("username", email), ("password", authHashB64),
    ("scope", "api offline_access"), ("client_id", "web"), ("deviceType", "14"),
    ("deviceIdentifier", deviceId), ("deviceName", "cryptile")] ++
  match secondFactor with
  | some (provider, token) =>
    [("twoFactorProvider", toString provider), ("twoFactorToken", token)]
  | none => []

def tokenPassword (deviceId email authHashB64 : String) (secondFactor : Option (UInt8 × String)) :
    Os (Except ApiError TokenResponse) :=
  call (.postForm .token (tokenPasswordForm deviceId email authHashB64 secondFactor)) J.token "login"

def tokenRefreshForm (refreshToken : String) : List (String × String) :=
  [("grant_type", "refresh_token"), ("refresh_token", refreshToken), ("client_id", "web")]

def tokenRefresh (refreshToken : String) : Os (Except ApiError TokenResponse) :=
  call (.postForm .token (tokenRefreshForm refreshToken)) J.token "refresh"

def getCipher (accessToken uuid : String) : Os (Except ApiError Cipher) :=
  call (.get (.cipher uuid) accessToken) J.cipher "get_cipher"

def apiSync (accessToken : String) : Os (Except ApiError SyncResponse) :=
  call (.get .sync accessToken) J.sync "sync"

def apiCollections (accessToken : String) : Os (Except ApiError (List ApiCollection)) :=
  call (.get .collections accessToken) (fun body => (J.collections body).map (fun d => d.getD []))
    "collections"

end

theorem call_runs {α : Type} {r : HttpReq} {decode : String → Except String α} {op : String}
    {tr : OsTrace} {x : Except ApiError α} :
    Runs (call r decode op) tr x ↔ ∃ resp, tr = [⟨.http r, resp⟩] ∧ x = parseResponse decode op resp := by
  unfold call os
  rw [runs_request_bind]
  refine ⟨?_, ?_⟩
  · rintro ⟨resp, rest, rfl, rfl, rfl⟩; exact ⟨resp, rfl, rfl⟩
  · rintro ⟨resp, rfl, rfl⟩; exact ⟨resp, [], rfl, rfl, rfl⟩

theorem call_returns {α : Type} {R : ∀ q, OsAns q → Prop} {r : HttpReq}
    {decode : String → Except String α} {op : String} {x : Except ApiError α} :
    Returns R (call r decode op) x ↔ ∃ resp, R (.http r) resp ∧ x = parseResponse decode op resp :=
  Iff.rfl

end Cryptile
