import Cryptile.Vaultwarden.Api

/-
  Mapping — a decrypted cipher as a field bag, and the collection a name means

  Every block of a cipher adds its fields to the bag; a value that does not
  decrypt fails the cipher. Custom fields come last and replace what has their
  name.

  Correspondence (Rust ↔ Lean):
    `mapping::dec`, `provider::decrypt_str` ↔ `decryptStr`
    `insert_if`                             ↔ `insertIf`
    `map_cipher`                            ↔ `mapCipher`, one definition for each block
    `resolve_collection`                    ↔ `resolveCollection`
-/

namespace Cryptile
open Text

section
variable (P : Primitives) (key : SymmetricKey)

def insertIf (fields : FieldBag) (p : String × Option String) : Except CryptoError FieldBag :=
  match p.2 with
  | some enc =>
    if enc.isEmpty then .ok fields
    else do return fields.insert p.1 (← decryptStr P enc key)
  | none => .ok fields

def insertEach (members : List (String × Option String)) (fields : FieldBag) :
    Except CryptoError FieldBag :=
  members.foldlM (insertIf P key) fields

/-- The first address as `uri`; all of them, if there are more, as `uris`. -/
def mapUris (uris : List (Option String)) (fields : FieldBag) : Except CryptoError FieldBag := do
  match (uris.filterMap id).filter (fun u => !u.isEmpty) with
  | [] => return fields
  | [first] => return fields.insert "uri" (← decryptStr P first key)
  | first :: rest =>
    let fields := fields.insert "uri" (← decryptStr P first key)
    let joined ← (first :: rest).mapM (fun u => decryptStr P u key)
    return fields.insert "uris" ("\n".intercalate joined)

def mapLogin (login : LoginData) (fields : FieldBag) : Except CryptoError FieldBag := do
  let fields ← insertEach P key
    [("username", login.username), ("password", login.password), ("totp", login.totp)] fields
  mapUris P key login.uris fields

def mapCard (card : CardData) : FieldBag → Except CryptoError FieldBag :=
  insertEach P key
    [("cardholder_name", card.cardholderName), ("brand", card.brand), ("number", card.number),
      ("exp_month", card.expMonth), ("exp_year", card.expYear), ("code", card.code)]

def mapIdentity (i : IdentityData) : FieldBag → Except CryptoError FieldBag :=
  insertEach P key
    [("title", i.title), ("first_name", i.firstName), ("middle_name", i.middleName),
      ("last_name", i.lastName), ("address1", i.address1), ("address2", i.address2),
      ("address3", i.address3), ("city", i.city), ("state", i.state),
      ("postal_code", i.postalCode), ("country", i.country), ("company", i.company),
      ("email", i.email), ("phone", i.phone), ("ssn", i.ssn), ("username", i.username),
      ("passport_number", i.passportNumber), ("license_number", i.licenseNumber)]

def mapSshKey (ssh : SshKeyData) : FieldBag → Except CryptoError FieldBag :=
  insertEach P key
    [("private_key", ssh.privateKey), ("public_key", ssh.publicKey),
      ("key_fingerprint", ssh.keyFingerprint)]

/-- A custom field, under its own decrypted name. -/
def mapField (fields : FieldBag) (f : Field) : Except CryptoError FieldBag :=
  match f.name, f.value with
  | some n, some v =>
    if n.isEmpty || v.isEmpty then .ok fields
    else do
      let fname ← decryptStr P n key
      if fname.isEmpty then return fields
      return fields.insert fname (← decryptStr P v key)
  | _, _ => .ok fields

/-- A block that is absent adds nothing. -/
def mapBlock {β : Type} (f : β → FieldBag → Except CryptoError FieldBag) (block : Option β)
    (fields : FieldBag) : Except CryptoError FieldBag :=
  match block with
  | some b => f b fields
  | none => .ok fields

def mapFields (cipher : Cipher) : Except CryptoError FieldBag := do
  let fields ← mapBlock (mapLogin P key) cipher.login ∅
  let fields ← mapBlock (mapCard P key) cipher.card fields
  let fields ← mapBlock (mapIdentity P key) cipher.identity fields
  let fields ← mapBlock (mapSshKey P key) cipher.sshKey fields
  let fields ← insertIf P key fields ("notes", cipher.notes)
  cipher.fields.foldlM (mapField P key) fields

def mapCipher (cipher : Cipher) : Except CryptoError Secret := do
  let name ← decryptStr P cipher.name key
  let fields ← mapFields P key cipher
  return { info := { id := cipher.id, name := name,
                     namespaceId := cipher.organizationId.getD "",
                     fields := fields.keys },
           fields := fields }

/-- A mapped cipher is its name and its fields, under its own id and its organization's. -/
theorem mapCipher_parts {cipher : Cipher} {secret : Secret} (h : mapCipher P key cipher = .ok secret) :
    ∃ name fields, decryptStr P cipher.name key = .ok name ∧ secret.fields = fields ∧
      secret.info = { id := cipher.id, name := name, namespaceId := cipher.organizationId.getD "",
                      fields := fields.keys } := by
  unfold mapCipher at h
  cases hn : decryptStr P cipher.name key with
  | error e => rw [hn] at h; cases h
  | ok name =>
    rw [hn] at h
    cases hf : mapFields P key cipher with
    | error e => simp only [hf] at h; cases h
    | ok fields =>
      simp only [hf] at h
      cases h
      exact ⟨name, fields, rfl, rfl, rfl⟩

/-- A mapped cipher carries the name its encrypted name holds. -/
theorem mapCipher_ok {cipher : Cipher} {secret : Secret} (h : mapCipher P key cipher = .ok secret) :
    decryptStr P cipher.name key = .ok secret.info.name ∧ secret.info.id = cipher.id := by
  obtain ⟨name, fields, hname, -, hinfo⟩ := mapCipher_parts P key h
  rw [hinfo]
  exact ⟨hname, rfl⟩

end

/-- The collection a name or an id means; `personal` is the empty id. -/
def resolveCollection (coll : String) (collections : List (String × String × String)) :
    Option String :=
  if eqIgnoreAsciiCase coll "personal" then some ""
  else (collections.find? (fun c => eqIgnoreAsciiCase c.2.2 coll || eqIgnoreAsciiCase c.1 coll)).map
    Prod.fst

end Cryptile
