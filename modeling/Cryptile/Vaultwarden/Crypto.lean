import Cryptile.Core
import Cryptile.Lib.Base64

/-
  Crypto — keys, encrypted strings and the key derivation of the backend

  A key is 32 bytes by its type, so that no length is checked twice. `Primitives`
  is what the crates do: HMAC, AES-CBC, RSA-OAEP and the derivations. All
  that is decided above them, which kinds are accepted, what is checked before a
  decryption, in what order, is here.

  Correspondence (Rust ↔ Lean):
    `crypto::SymmetricKey`, `from_64`      ↔ `SymmetricKey`, `SymmetricKey.from64`
    `EncString::parse`                     ↔ `EncString.parse`
    `EncString::decrypt_symmetric`         ↔ `EncString.decryptSymmetric`
    `decrypt_cbc`, `unwrap_org_key`        ↔ `decryptCbc`, `unwrapOrgKey`
    `derive_master_key`, `auth_hash`, ...  ↔ `deriveMasterKey`, `authHash`, `stretchMasterKey`
-/

namespace Cryptile
open Text

/-- A byte string of a fixed length. -/
abbrev Block (n : Nat) := { b : Bytes // b.length = n }

def toBlock (n : Nat) (b : Bytes) : Option (Block n) :=
  if h : b.length = n then some ⟨b, h⟩ else none

@[simp] theorem toBlock_val {n : Nat} (b : Block n) : toBlock n b.1 = some b := by
  simp [toBlock, b.2]

/-- What the cryptographic crates compute. A private key is its decryption. -/
structure Primitives where
  sha256 : Bytes → Block 32
  hmacSha256 : Bytes → Bytes → Block 32
  cbcEncrypt : Block 32 → Block 16 → Bytes → Bytes
  cbcDecrypt : Block 32 → Block 16 → Bytes → Option Bytes
  hkdfSha256 : (salt ikm info : Bytes) → Block 64
  hkdfExpand : (prk : Block 32) → (info : Bytes) → Block 32
  pbkdf2Sha256 : (password salt : Bytes) → (iterations : UInt32) → Block 32
  argon2id : (memoryKib iterations parallelism : UInt32) → (password salt : Bytes) → Option (Block 32)
  argon2id64 : (memoryKib iterations parallelism : UInt32) → (password salt : Bytes) →
    Except String (Block 64)
  rsaFromPkcs8 : Bytes → Option (Bytes → Option Bytes)

inductive CryptoError where
  | unsupportedKdf (kind : UInt8)
  | unsupportedEncString (kind : UInt8)
  | malformedEncString
  | macMismatch
  | badPadding
  | invalidKeyLength
  | asymmetricDecrypt
  | invalidPrivateKey
  | argon2
  deriving DecidableEq, Repr

def CryptoError.display : CryptoError → String
  | .unsupportedKdf kind => "unsupported KDF type " ++ toString kind
  | .unsupportedEncString kind => "unsupported EncString type " ++ toString kind
  | .malformedEncString => "malformed EncString"
  | .macMismatch => "message authentication failed"
  | .badPadding => "invalid padding"
  | .invalidKeyLength => "invalid key length"
  | .asymmetricDecrypt => "asymmetric decrypt failed"
  | .invalidPrivateKey => "private key not valid PKCS8"
  | .argon2 => "argon2 failure"

def cryptoErr (e : CryptoError) : ProviderError := .crypto e.display

/-- A step that succeeds, and what follows it. -/
theorem except_bind_ok {ε α β : Type} {x : Except ε α} {f : α → Except ε β} {b : β}
    (h : (x >>= f) = .ok b) : ∃ a, x = .ok a ∧ f a = .ok b := by
  cases x with
  | error e => cases h
  | ok a => exact ⟨a, rfl, h⟩

theorem except_bind_error {ε α β : Type} {x : Except ε α} {f : α → Except ε β} {e : ε}
    (h : (x >>= f) = .error e) : x = .error e ∨ ∃ a, x = .ok a ∧ f a = .error e := by
  cases x with
  | error e' =>
    cases h
    exact Or.inl rfl
  | ok a => exact Or.inr ⟨a, rfl, h⟩

theorem mapError_ok {ε ε' α : Type} {x : Except ε α} {f : ε → ε'} {a : α} :
    x.mapError f = .ok a ↔ x = .ok a := by
  cases x <;> simp [Except.mapError]

theorem except_map_ok {ε α β : Type} {x : Except ε α} {f : α → β} {b : β} :
    x.map f = .ok b ↔ ∃ a, x = .ok a ∧ f a = b := by
  cases x <;> simp [Except.map]

theorem except_map_error {ε α β : Type} {x : Except ε α} {f : α → β} {e : ε} :
    x.map f = .error e ↔ x = .error e := by
  cases x <;> simp [Except.map]

/-- A list of steps succeeds where each of them does. -/
theorem mapM_ok_iff {ε α β : Type} {f : α → Except ε β} {l : List α} :
    (∃ ys, l.mapM f = .ok ys) ↔ ∀ a ∈ l, ∃ y, f a = .ok y := by
  induction l with
  | nil => simp [pure, Except.pure]
  | cons a l ih =>
    rw [List.mapM_cons, List.forall_mem_cons, ← ih]
    cases f a with
    | error e => simp [bind, Except.bind]
    | ok y => cases l.mapM f <;> simp [bind, Except.bind, pure, Except.pure]

/-- A list of steps fails as one of them does. -/
theorem mapM_error {ε α β : Type} {f : α → Except ε β} {e : ε} : ∀ {l : List α},
    l.mapM f = .error e → ∃ a ∈ l, f a = .error e
  | [], h => by cases h
  | a :: l, h => by
    rw [List.mapM_cons] at h
    rcases except_bind_error h with ha | ⟨b, -, h⟩
    · exact ⟨a, List.mem_cons_self, ha⟩
    · rcases except_bind_error h with hl | ⟨bs, -, h⟩
      · obtain ⟨a', hmem, ha'⟩ := mapM_error hl
        exact ⟨a', List.mem_cons_of_mem a hmem, ha'⟩
      · cases h

/-! ## Keys -/

structure SymmetricKey where
  enc : Block 32
  mac : Block 32
  deriving DecidableEq

def SymmetricKey.from64 (blob : Bytes) : Except CryptoError SymmetricKey :=
  if h : blob.length = 64 then
    .ok ⟨⟨blob.take 32, by simp [h]⟩, ⟨blob.drop 32, by simp [h]⟩⟩
  else .error .invalidKeyLength

/-- The 64 bytes of a key: its encryption half, then its MAC half. -/
def SymmetricKey.bytes (k : SymmetricKey) : Bytes := k.enc.1 ++ k.mac.1

theorem SymmetricKey.bytes_length (k : SymmetricKey) : k.bytes.length = 64 := by
  simp [SymmetricKey.bytes, k.enc.2, k.mac.2]

@[simp] theorem SymmetricKey.from64_bytes (k : SymmetricKey) : SymmetricKey.from64 k.bytes = .ok k := by
  obtain ⟨⟨enc, henc⟩, ⟨mac, hmac⟩⟩ := k
  simp [SymmetricKey.from64, SymmetricKey.bytes, henc, hmac]

/-! ## Encrypted strings -/

inductive EncStringType where
  | aesCbc256B64
  | aesCbc128HmacSha256B64
  | aesCbc256HmacSha256B64
  | rsa2048OaepSha256B64
  | rsa2048OaepSha1B64
  deriving DecidableEq, Repr

def EncStringType.ofWire : Nat → Except CryptoError EncStringType
  | 0 => .ok .aesCbc256B64
  | 1 => .ok .aesCbc128HmacSha256B64
  | 2 => .ok .aesCbc256HmacSha256B64
  | 3 => .ok .rsa2048OaepSha256B64
  | 4 => .ok .rsa2048OaepSha1B64
  | other => .error (.unsupportedEncString (UInt8.ofNat other))

def EncStringType.toU8 : EncStringType → UInt8
  | .aesCbc256B64 => 0
  | .aesCbc128HmacSha256B64 => 1
  | .aesCbc256HmacSha256B64 => 2
  | .rsa2048OaepSha256B64 => 3
  | .rsa2048OaepSha1B64 => 4

structure EncString where
  kind : EncStringType
  iv : Bytes
  ct : Bytes
  mac : Option Bytes
  deriving DecidableEq, Repr

def decPart (p : String) : Except CryptoError Bytes :=
  match Base64.decode p with
  | some b => .ok b
  | none => .error .malformedEncString

/-- `type.part|part|...`, the parts by the type. -/
def EncString.parse (s : String) : Except CryptoError EncString := do
  let some (ty, rest) := splitOnce s "." | throw .malformedEncString
  let some ty := parseUint 255 ty | throw .malformedEncString
  let kind ← EncStringType.ofWire ty
  match kind, split rest '|' with
  | .aesCbc256B64, [iv, ct] =>
    return { kind := kind, iv := ← decPart iv, ct := ← decPart ct, mac := none }
  | .aesCbc128HmacSha256B64, [iv, ct, mac] | .aesCbc256HmacSha256B64, [iv, ct, mac] =>
    return { kind := kind, iv := ← decPart iv, ct := ← decPart ct, mac := some (← decPart mac) }
  | .rsa2048OaepSha256B64, [ct] | .rsa2048OaepSha1B64, [ct] =>
    return { kind := kind, iv := [], ct := ← decPart ct, mac := none }
  | _, _ => throw .malformedEncString

section
variable (P : Primitives)

def decryptCbc (iv ct : Bytes) (key : Block 32) : Except CryptoError Bytes :=
  match toBlock 16 iv with
  | none => .error .malformedEncString
  | some iv =>
    if ct.isEmpty || ct.length % 16 ≠ 0 then .error .malformedEncString
    else match P.cbcDecrypt key iv ct with
      | some pt => .ok pt
      | none => .error .badPadding

/-- Check the MAC, then decrypt. -/
def EncString.decryptSymmetric (es : EncString) (key : SymmetricKey) : Except CryptoError Bytes :=
  match es.kind with
  | .aesCbc128HmacSha256B64 | .aesCbc256HmacSha256B64 =>
    match es.mac with
    | none => .error .malformedEncString
    | some mac =>
      if (P.hmacSha256 key.mac.1 (es.iv ++ es.ct)).1 ≠ mac then .error .macMismatch
      else decryptCbc P es.iv es.ct key.enc
  | other => .error (.unsupportedEncString other.toU8)

def unwrapOrgKey (es : EncString) (privateKeyPkcs8 : Bytes) : Except CryptoError SymmetricKey :=
  match P.rsaFromPkcs8 privateKeyPkcs8 with
  | none => .error .invalidPrivateKey
  | some decrypt =>
    match es.kind with
    | .rsa2048OaepSha1B64 =>
      match decrypt es.ct with
      | none => .error .asymmetricDecrypt
      | some pt => SymmetricKey.from64 pt
    | .rsa2048OaepSha256B64 => .error (.unsupportedEncString 3)
    | other => .error (.unsupportedEncString other.toU8)

/-- The text an encrypted string holds; the empty string holds the empty text. -/
def decryptStr (enc : String) (key : SymmetricKey) : Except CryptoError String := do
  if enc.isEmpty then return ""
  let es ← EncString.parse enc
  return fromUtf8Lossy (← es.decryptSymmetric P key)

/-! ## Key derivation -/

structure KdfParams where
  kind : UInt8
  iterations : UInt32
  argonMemoryKib : Option UInt32
  argonParallelism : Option UInt32
  deriving DecidableEq, Repr

def KdfParams.pbkdf2 (iterations : UInt32) : KdfParams := ⟨0, iterations, none, none⟩

def KdfParams.argon2id (iterations memoryKib parallelism : UInt32) : KdfParams :=
  ⟨1, iterations, some memoryKib, some parallelism⟩

def normalizeIdentity (email : String) : String := toAsciiLowercase (trim email)

def deriveMasterKey (password identity : String) (params : KdfParams) : Except CryptoError (Block 32) :=
  let identity := normalizeIdentity identity
  match params.kind with
  | 0 => .ok (P.pbkdf2Sha256 (utf8 password) (utf8 identity) params.iterations)
  | 1 =>
    match params.argonMemoryKib, params.argonParallelism with
    | some memoryKib, some parallelism =>
      match P.argon2id memoryKib params.iterations parallelism (utf8 password)
          (P.sha256 (utf8 identity)).1 with
      | some key => .ok key
      | none => .error .argon2
    | _, _ => .error (.unsupportedKdf params.kind)
  | other => .error (.unsupportedKdf other)

def authHash (password : String) (masterKey : Block 32) : String :=
  Base64.encode (P.pbkdf2Sha256 masterKey.1 (utf8 password) 1).1

def stretchMasterKey (masterKey : Block 32) : SymmetricKey :=
  ⟨P.hkdfExpand masterKey (utf8 "enc"), P.hkdfExpand masterKey (utf8 "mac")⟩

end

/-! ## Crates that hide nothing -/

/-- What the crates promise: AES-CBC decrypts what it encrypted. -/
def Primitives.Lawful (P : Primitives) : Prop :=
  ∀ key iv pt, P.cbcDecrypt key iv (P.cbcEncrypt key iv pt) = some pt

def zeros (n : Nat) : Block n := ⟨List.replicate n 0, List.length_replicate⟩

/-- Pad to whole blocks of 16, each padding byte the length of the padding. -/
def pkcs7 (b : Bytes) : Bytes :=
  b ++ List.replicate (16 - b.length % 16) (UInt8.ofNat (16 - b.length % 16))

/-- Primitives that keep the promise without encrypting: tags and keys are zero. -/
def plainPrimitives : Primitives where
  sha256 _ := zeros 32
  hmacSha256 _ _ := zeros 32
  cbcEncrypt _ _ pt := pkcs7 pt
  cbcDecrypt _ _ ct := ct.getLast?.map (fun n => ct.take (ct.length - n.toNat))
  hkdfSha256 _ _ _ := zeros 64
  hkdfExpand _ _ := zeros 32
  pbkdf2Sha256 _ _ _ := zeros 32
  argon2id _ _ _ _ _ := some (zeros 32)
  argon2id64 _ _ _ _ _ := .ok (zeros 64)
  rsaFromPkcs8 _ := some some

theorem plainPrimitives_lawful : plainPrimitives.Lawful := by
  intro key iv pt
  have hn : 16 - pt.length % 16 = (15 - pt.length % 16) + 1 := by omega
  have hlast : (pkcs7 pt).getLast? = some (UInt8.ofNat (16 - pt.length % 16)) := by
    rw [pkcs7, hn, List.replicate_succ', ← List.append_assoc, List.getLast?_append]
    rfl
  have hval : (UInt8.ofNat (16 - pt.length % 16)).toNat = 16 - pt.length % 16 := by
    rw [UInt8.toNat_ofNat']
    omega
  have hlen : (pkcs7 pt).length - (16 - pt.length % 16) = pt.length := by simp [pkcs7]
  simp only [plainPrimitives, hlast, Option.map_some, hval, hlen]
  simp [pkcs7]

end Cryptile
