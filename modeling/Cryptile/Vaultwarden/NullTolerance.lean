import Cryptile.Codec
import Cryptile.Vaultwarden.WarmPath

/-
  NullTolerance — two servers that differ in null members

  One server writes the members of an item that are empty as nulls, another leaves
  them out. `UpToNulls` is all that may be different between two servers, at any depth
  of a body. What the one serves, the other serves: a vault is the same vault behind
  both, and so are the answers of the operations that read it. The token endpoint is not
  meant: there a null key is refused, and a key that is absent is empty.
-/

namespace Cryptile
open Text JsonText Serde Interaction

/-- The two texts are one value, but for the null members of its objects. -/
def SameUpToNulls (body body' : String) : Prop :=
  ∃ v v', parse body = some v ∧ parse body' = some v' ∧ KeysDistinct v ∧ KeysDistinct v' ∧
    dropNulls v = dropNulls v'

/-- The second server answers a fetch as the first can, or with a body that is the same
up to nulls. -/
def UpToNulls (R R' : ∀ q, OsAns q → Prop) : Prop :=
  ∀ endpoint bearer resp', R' (.http (.get endpoint bearer)) resp' →
    ∃ resp, R (.http (.get endpoint bearer)) resp ∧ (resp' = resp ∨
      ∃ status body body', isSuccess status = true ∧ resp = .ok ⟨status, body⟩ ∧
        resp' = .ok ⟨status, body'⟩ ∧ SameUpToNulls body body')

section
variable {D : SerdeJson} {α : Type}

/-- A decoder that does not see nulls reads both texts, and reads them alike. -/
theorem fromStr_sameUpToNulls {d : Value → Option α} (hd : NullBlind d) {record body body' : String}
    (h : SameUpToNulls body body') {a : α} (ha : fromStr D record d body = .ok a) :
    fromStr D record d body' = .ok a := by
  obtain ⟨v, v', hv, hv', hdistinct, hdistinct', hsame⟩ := h
  have hdecode : d v = d v' := by rw [← hd v hdistinct, ← hd v' hdistinct', hsame]
  rw [fromStr, hv, Option.bind_some, hdecode] at ha
  rw [fromStr, hv', Option.bind_some]
  cases hread : d v' with
  | none =>
    rw [hread] at ha
    cases ha
  | some b =>
    rw [hread] at ha
    exact ha

/-- What every answer of the one server decodes to, every answer of the other does. -/
theorem UpToNulls.decodes {R R' : ∀ q, OsAns q → Prop} (hR : UpToNulls R R') {endpoint : Endpoint}
    {bearer op : String} {decode : String → Except String α} {a : α}
    (hdecode : ∀ body body', SameUpToNulls body body' → decode body = .ok a → decode body' = .ok a)
    (h : ∀ resp, R (.http (.get endpoint bearer)) resp → parseResponse decode op resp = .ok a) :
    ∀ resp, R' (.http (.get endpoint bearer)) resp → parseResponse decode op resp = .ok a := by
  intro resp' hresp'
  obtain ⟨resp, hresp, rfl | ⟨status, body, body', hstatus, rfl, rfl, hsame⟩⟩ :=
    hR endpoint bearer resp' hresp'
  · exact h _ hresp
  · have hok := h _ hresp
    simp only [parseResponse, hstatus, Bool.not_true, Bool.false_eq_true, if_false] at hok ⊢
    cases hbody : decode body with
    | error e =>
      rw [hbody] at hok
      cases hok
    | ok b =>
      rw [hbody] at hok
      cases hok
      rw [hdecode body body' hsame hbody]

end

section
variable {P : Primitives} {D : SerdeJson} {R R' : ∀ q, OsAns q → Prop}

/-- A cipher that is fetched from the one server is fetched from the other. -/
theorem UpToNulls.fetches (hR : UpToNulls R R') {accessToken uuid : String} {c : Cipher}
    (h : ∀ x, Returns R (getCipher (serdeDecoders D) accessToken uuid) x → x = .ok c) :
    ∀ x, Returns R' (getCipher (serdeDecoders D) accessToken uuid) x → x = .ok c := by
  have hdecodes : ∀ resp, R' (.http (.get (.cipher uuid) accessToken)) resp →
      parseResponse (serdeDecoders D).cipher "get_cipher" resp = .ok c :=
    hR.decodes (fun _ _ hsame => fromStr_sameUpToNulls decodeCipher_nullBlind hsame)
      (fun resp hresp => h _ (call_returns.mpr ⟨resp, hresp, rfl⟩))
  intro x hx
  obtain ⟨resp, hresp, rfl⟩ := call_returns.mp hx
  exact hdecodes resp hresp

end

/-! ## The vault of one item, as JSON -/

/-- The item, with the nulls that a server may add to it. -/
def oneCipherValue (nulls : List (String × Value)) : Value :=
  .object ([("id", .string "i1"), ("name", .string (plainString [0x77, 0x65, 0x62])),
    ("organizationId", .string "o1"), ("collectionIds", .array [.string "c1"]),
    ("login", .object [("password", .string (plainString [0x68, 0x69]))])] ++ nulls)

def oneOrgValue : Value := .object [("id", .string "o1"), ("key", .string (plainOrgKey zeroKey))]

def oneSyncValue (nulls : List (String × Value)) : Value :=
  .object [("profile", .object [("id", .string "u1"), ("email", .string "a@b"), ("key", .string "k"),
      ("privateKey", .string (plainString [])), ("organizations", .array [oneOrgValue])]),
    ("ciphers", .array [oneCipherValue nulls])]

def oneCollectionsValue : Value :=
  .object [("data", .array [.object [("id", .string "c1"), ("organizationId", .string "o1"),
    ("name", .string (plainString [0x69, 0x6e, 0x66, 0x72, 0x61]))]])]

/-- A server of the vault. -/
def jsonServer (nulls : List (String × Value)) : ∀ q, OsAns q → Prop
  | .http (.get .sync _), x => x = .ok ⟨200, toJsonString (oneSyncValue nulls)⟩
  | .http (.get .collections _), x => x = .ok ⟨200, toJsonString oneCollectionsValue⟩
  | .http (.get (.cipher _) _), x => x = .ok ⟨200, toJsonString (oneCipherValue nulls)⟩
  | .http (.get _ _), x => x = .error "not fetched"
  | _, _ => True

def cipherNulls : List (String × Value) := [("key", .null), ("notes", .null), ("fields", .null)]

theorem jsonServer_total (nulls : List (String × Value)) : ∀ q, ∃ x, jsonServer nulls q x
  | .http (.get .sync _) | .http (.get .collections _) | .http (.get (.cipher _) _)
  | .http (.get .prelogin _) | .http (.get .token _) => ⟨_, rfl⟩
  | .http (.postJson _ _) | .http (.postForm _ _) => ⟨.error "", trivial⟩
  | .systemTime => ⟨none, trivial⟩
  | .random _ => ⟨.error "", trivial⟩
  | .createDirAll _ | .setMode _ _ | .openTruncate _ _ | .writeAll _ _ | .syncAll _
  | .rename _ _ => ⟨.ok (), trivial⟩
  | .modeOf _ => ⟨.error "", trivial⟩
  | .isFile _ => ⟨true, trivial⟩
  | .readToString _ => ⟨.error "", trivial⟩
  | .fidohCeremony _ _ | .legacyCeremony _ => ⟨none, trivial⟩

section
variable {nulls : List (String × Value)} (hnulls : nulls = [] ∨ nulls = cipherNulls)
include hnulls

theorem oneCipherValue_printable : Printable (oneCipherValue nulls) := by
  rcases hnulls with rfl | rfl <;> simp [oneCipherValue, cipherNulls]

theorem oneCipherValue_distinct : KeysDistinct (oneCipherValue nulls) := by
  rcases hnulls with rfl | rfl <;> simp [oneCipherValue, cipherNulls]

theorem oneCipherValue_dropNulls : dropNulls (oneCipherValue nulls) = oneCipherValue [] := by
  rcases hnulls with rfl | rfl <;> rfl

theorem decodeCipher_oneCipherValue : decodeCipher (oneCipherValue nulls) = some oneCipher := by
  rw [← decodeCipher_nullBlind _ (oneCipherValue_distinct hnulls), oneCipherValue_dropNulls hnulls]
  rfl

theorem oneSyncValue_printable : Printable (oneSyncValue nulls) := by
  simp [oneSyncValue, oneOrgValue, oneCipherValue_printable hnulls]

end

theorem decodeSyncResponse_oneSyncValue : decodeSyncResponse (oneSyncValue []) = some oneSync := rfl

theorem decodeList_oneCollectionsValue :
    decodeList decodeApiCollection oneCollectionsValue = some (some oneCollections) := rfl

theorem oneCollectionsValue_printable : Printable oneCollectionsValue := by
  simp [oneCollectionsValue]

theorem parseResponse_plain {α : Type} {decode : String → Except String α} {op body : String} {a : α}
    (h : decode body = .ok a) : parseResponse decode op (.ok ⟨200, body⟩) = .ok a := by
  have hsuccess : isSuccess 200 = true := by decide
  simp [parseResponse, hsuccess, h]

theorem jsonServer_sync (D : SerdeJson) :
    (serdeDecoders D).sync (toJsonString (oneSyncValue [])) = .ok oneSync := by
  simp only [serdeDecoders, toJsonString]
  exact fromStr_print D .compact _ (oneSyncValue_printable (.inl rfl)) decodeSyncResponse_oneSyncValue

theorem jsonServer_collections (D : SerdeJson) :
    (serdeDecoders D).collections (toJsonString oneCollectionsValue) = .ok (some oneCollections) := by
  simp only [serdeDecoders, toJsonString]
  exact fromStr_print D .compact _ oneCollectionsValue_printable decodeList_oneCollectionsValue

theorem jsonServer_serves (D : SerdeJson) (token : String) :
    Serves (serdeDecoders D) (jsonServer []) token oneSync oneCollections where
  sync := by
    rintro _ rfl
    exact parseResponse_plain (jsonServer_sync D)
  collections := by
    rintro _ rfl
    exact parseResponse_plain (by rw [jsonServer_collections]; rfl)

theorem oneBundle_decrypted : bundleOf plainPrimitives zeroKey oneSync oneCollections = .ok oneBundle :=
  bundleOf_ok syncKeys_oneSync oneCollections_named

theorem jsonServer_cipher (D : SerdeJson) :
    (serdeDecoders D).cipher (toJsonString (oneCipherValue [])) = .ok oneCipher := by
  simp only [serdeDecoders, toJsonString]
  exact fromStr_print D .compact _ (oneCipherValue_printable (.inl rfl)) (decodeCipher_oneCipherValue (.inl rfl))

end Cryptile
