import Cryptile.Lib.JsonText
import Cryptile.Vaultwarden.Cache
import Cryptile.Vaultwarden.ChallengeBody

/-
  Webauthn — what a security key is asked to sign

  The key signs the hash of the client data: a JSON object of the ceremony's type, the
  challenge, the origin and an absent token binding. Its text is put together around
  the origin, and the origin around the RP ID that the server sent. So the document
  is the one that is meant exactly where the RP ID can stand in a JSON string as it is.

  Correspondence (Rust ↔ Lean):
    `origin_for_rp_id`          ↔ `originForRpId`
    `b64url_nopad`              ↔ `b64urlNopad`
    `b64url_decode`             ↔ `b64urlDecode`
    `assertion_request`         ↔ `assertionRequest`
    `client_data_json`          ↔ `clientDataJson`
    `exchange`                  ↔ `exchange`
    `fidoh_perform_assertion`   ↔ `prepareAssertion`, up to the device
-/

namespace Cryptile
open Text JsonText

/-! ## The origin -/

def startsWith (s pre : String) : Bool := pre.toList.isPrefixOf s.toList

def originForRpId (rpId : String) : Option String :=
  let host := trim rpId
  if host.isEmpty || host.toList.contains '/' then none
  else
    let loopback := host == "localhost" || startsWith host "127." || startsWith host "[::1]" ||
      host == "::1"
    let scheme := if loopback then "http" else "https"
    some (scheme ++ "://" ++ host)

/-! ## The request -/

inductive CredentialType where
  | publicKey
  deriving DecidableEq, Repr

structure PublicKeyCredentialDescriptor where
  typeField : CredentialType
  id : Bytes
  deriving DecidableEq, Repr

inductive UvPolicy where
  | discouraged
  | preferred
  deriving DecidableEq, Repr

structure GetAssertionExchange where
  rpId : String
  clientDataHash : Block 32
  allowCredentials : Option (List PublicKeyCredentialDescriptor)
  userVerification : UvPolicy
  pinProvider : Option PinSource

def exchange (rpId : String) (clientDataHash : Block 32) (allow : List PublicKeyCredentialDescriptor)
    (uv : UvPosture) (pinProvider : Option PinSource) : GetAssertionExchange :=
  { rpId := rpId
    clientDataHash := clientDataHash
    allowCredentials := some allow
    userVerification := match uv with
      | .discouraged => .discouraged
      | .preferred => .preferred
    pinProvider := pinProvider }

def b64urlNopad (bytes : Bytes) : String := Base64.encodeUrl bytes

def trimEndMatches (s : String) (c : Char) : String :=
  String.ofList (s.toList.reverse.dropWhile (· == c)).reverse

section
-- the decoder's words for a text that it refuses
variable (decodeError : String → String)

/-- Padding is tolerated. -/
def b64urlDecode (s : String) : Except String Bytes :=
  let unpadded := trimEndMatches s '='
  match Base64.decodeUrl unpadded with
  | some bytes => .ok bytes
  | none => .error (decodeError unpadded)

def credentialDescriptor (id : String) :
    Except FidohCeremonyError PublicKeyCredentialDescriptor := do
  let id ← (b64urlDecode decodeError id).mapError
    (fun e => FidohCeremonyError.assembly ("allow-list credential id is not base64url: " ++ e))
  return { typeField := .publicKey, id := id }

def assertionRequest (ch : WebauthnChallenge) :
    Except FidohCeremonyError (Bytes × List PublicKeyCredentialDescriptor) := do
  let challengeBytes ← (b64urlDecode decodeError ch.challengeB64).mapError
    (fun e => FidohCeremonyError.assembly ("challenge is not base64url: " ++ e))
  let allow ← ch.allowCredentialIds.mapM (credentialDescriptor decodeError)
  return (challengeBytes, allow)

/-- What stands around the challenge and the origin. -/
def clientDataText (origin challengeB64 : String) : String :=
  "\x7b\"type\":\"webauthn.get\",\"challenge\":\"" ++ challengeB64 ++ "\",\"origin\":\"" ++ origin ++
    "\",\"tokenBinding\":null\x7d"

/-- The hash of the client data, and the client data. -/
def clientDataJson (P : Primitives) (origin challengeB64 : String) : Block 32 × Bytes :=
  let json := utf8 (clientDataText origin challengeB64)
  (P.sha256 json, json)

def ceremonyOrigin (rpId : String) : Except FidohCeremonyError String :=
  match originForRpId rpId with
  | some origin => .ok origin
  | none => .error (.assembly ("unusable rpId '" ++ rpId ++ "'"))

/-- What a ceremony asks of the device, and the client data it sends with the answer. -/
def prepareAssertion (P : Primitives) (ch : WebauthnChallenge) (pin : Option PinSource) :
    Except FidohCeremonyError (GetAssertionExchange × Bytes) := do
  let origin ← ceremonyOrigin ch.rpId
  let (challengeBytes, allow) ← assertionRequest decodeError ch
  let clientData := clientDataJson P origin (b64urlNopad challengeBytes)
  return (exchange ch.rpId clientData.1 allow ch.uv pin, clientData.2)

/-! ## The document that is meant -/

def clientDataMembers (origin challengeB64 : String) : List (String × Value) :=
  [("type", .string "webauthn.get"), ("challenge", .string challengeB64),
    ("origin", .string origin), ("tokenBinding", .null)]

/-- The text is an object of these members and no others. -/
def IsClientData (origin challengeB64 text : String) : Prop :=
  ∃ members, parse text = some (.object members) ∧
    members.Perm (clientDataMembers origin challengeB64)

/-- The key signs the client data of the challenge. -/
structure SignsClientData (P : Primitives) (ch : WebauthnChallenge) (xch : GetAssertionExchange)
    (json : Bytes) : Prop where
  hash : xch.clientDataHash = P.sha256 json
  document : ∃ text origin bytes, fromUtf8 json = some text ∧ originForRpId ch.rpId = some origin ∧
    b64urlDecode decodeError ch.challengeB64 = .ok bytes ∧
    IsClientData origin (b64urlNopad bytes) text

end

/-- The text can stand in a JSON string as it is. -/
def PlainText (s : String) : Prop := ∀ c ∈ s.toList, isUnescaped c = true

instance (s : String) : Decidable (PlainText s) :=
  decidable_of_iff (s.toList.all isUnescaped = true) List.all_eq_true

theorem plainText_append {a b : String} : PlainText (a ++ b) ↔ PlainText a ∧ PlainText b := by
  rw [PlainText, String.toList_append, List.forall_mem_append]
  rfl

theorem isUnescaped_of_isUrlDigit {c : Char} (h : Base64.isUrlDigit c = true) :
    isUnescaped c = true := by
  have hquote : c ≠ '"' := by
    intro he
    rw [he] at h
    contradiction
  have hback : c ≠ '\\' := by
    intro he
    rw [he] at h
    contradiction
  have hlow : ∀ n < 0x20, Base64.isUrlDigit (Char.ofNat n) = false := by decide
  refine isUnescaped_iff.mpr ⟨hquote, hback, fun hcontrol => ?_⟩
  have hnot := hlow c.toNat hcontrol
  rw [Char.ofNat_toNat, h] at hnot
  contradiction

theorem b64urlNopad_plain (bytes : Bytes) : PlainText (b64urlNopad bytes) :=
  fun c hc => isUnescaped_of_isUrlDigit (Base64.encodeUrl_digits bytes c hc)

/-- The parser where the origin begins. -/
def atOrigin (challengeB64 : String) : State :=
  .value [.object [("type", .string "webauthn.get"), ("challenge", .string challengeB64)] "origin"]

/-- The parser where the value that stands for the origin has been read. -/
def afterOrigin (challengeB64 : String) (v : Value) : State :=
  .after [.object [("type", .string "webauthn.get"), ("challenge", .string challengeB64)] "origin"] v

theorem step_atOrigin (challengeB64 : String) (v : Value) :
    step (atOrigin challengeB64) (.scalar v) = some (afterOrigin challengeB64 v) := rfl

/-- What stands after the origin. -/
def clientDataTail : List Char := "\",\"tokenBinding\":null\x7d".toList

/-- What stands before the origin is read as it is meant. -/
theorem run_clientDataText (origin : String) {challengeB64 : String} (h : PlainText challengeB64) :
    run (.between, .value []) (clientDataText origin challengeB64).toList =
      run (.string [], atOrigin challengeB64) (origin.toList ++ clientDataTail) := by
  have htext : (clientDataText origin challengeB64).toList =
      '\x7b' :: '"' :: ("type".toList ++ '"' :: ':' :: '"' :: ("webauthn.get".toList ++ '"' :: ',' ::
        '"' :: ("challenge".toList ++ '"' :: ':' :: '"' :: (challengeB64.toList ++ '"' :: ',' ::
        '"' :: ("origin".toList ++ '"' :: ':' :: '"' :: (origin.toList ++ clientDataTail)))))) := by
    have hhead : "\x7b\"type\":\"webauthn.get\",\"challenge\":\"".toList =
        '\x7b' :: '"' :: ("type".toList ++ '"' :: ':' :: '"' :: ("webauthn.get".toList ++ '"' ::
          ',' :: '"' :: ("challenge".toList ++ ['"', ':', '"']))) := by decide
    have hmiddle : "\",\"origin\":\"".toList =
        '"' :: ',' :: '"' :: ("origin".toList ++ ['"', ':', '"']) := by decide
    unfold clientDataText
    simp only [String.toList_append, hhead, hmiddle, List.append_assoc, List.cons_append,
      List.nil_append]
    rfl
  have hchallenge : String.ofList challengeB64.toList = challengeB64 := String.ofList_toList
  have htype : PlainText "type" := by decide
  have hget : PlainText "webauthn.get" := by decide
  have hkey : PlainText "challenge" := by decide
  have horigin : PlainText "origin" := by decide
  rw [htext]
  calc run (.between, .value []) _
      = run (.between, .firstKey []) _ := run_token rfl rfl
    _ = run (.between, .colon [] [] "type") _ := run_quoted htype rfl
    _ = run (.between, .value [.object [] "type"]) _ := run_token rfl rfl
    _ = run (.between, .after [.object [] "type"] (.string "webauthn.get")) _ :=
      run_quoted hget rfl
    _ = run (.between, .key [] [("type", .string "webauthn.get")]) _ :=
      run_token rfl rfl
    _ = run (.between, .colon [] [("type", .string "webauthn.get")] "challenge") _ :=
      run_quoted hkey rfl
    _ = run (.between, .value [.object [("type", .string "webauthn.get")] "challenge"]) _ :=
      run_token rfl rfl
    _ = run (.between, .after [.object [("type", .string "webauthn.get")] "challenge"]
          (.string challengeB64)) _ := by
      apply run_quoted h
      rw [hchallenge]
      rfl
    _ = run (.between, .key [] [("type", .string "webauthn.get"),
          ("challenge", .string challengeB64)]) _ := run_token rfl rfl
    _ = run (.between, .colon [] [("type", .string "webauthn.get"),
          ("challenge", .string challengeB64)] "origin") _ := run_quoted horigin rfl
    _ = run (.between, atOrigin challengeB64) _ := run_token rfl rfl
    _ = run (.string [], atOrigin challengeB64) (origin.toList ++ clientDataTail) := rfl

/-- What stands after the origin ends the object that is open, with one member more. -/
theorem run_clientDataTail (done : List (String × Value)) (key : String)
    (v : Value) :
    (run (.between, .after [.object done key] v) clientDataTail.tail).bind
      result = some (.object (done ++ [(key, v)] ++ [("tokenBinding", .null)])) := by
  have htail : clientDataTail.tail =
      ',' :: '"' :: ("tokenBinding".toList ++ '"' :: ':' :: ['n', 'u', 'l', 'l', '\x7d']) := by decide
  have hrun : run (.between, .after [.object done key] v) clientDataTail.tail =
      run (.between, .value [.object (done ++ [(key, v)]) "tokenBinding"])
        ['n', 'u', 'l', 'l', '\x7d'] := by
    have hbinding : PlainText "tokenBinding" := by decide
    rw [htail]
    calc run (.between, .after [.object done key] v) _
        = run (.between, .key [] (done ++ [(key, v)])) _ := run_token rfl rfl
      _ = run (.between, .colon [] (done ++ [(key, v)]) "tokenBinding") _ :=
        run_quoted hbinding rfl
      _ = _ := run_token rfl rfl
  rw [hrun]
  rfl

section
variable {challengeB64 origin : String} {members : List (String × Value)}
  {m : Reader}

/-- Where the string of the origin closes, its value is the origin of the object. -/
theorem closed_origin {v : Value} {s : State} {rest : List Char}
    (hstep : step (atOrigin challengeB64) (.scalar v) = some s)
    (hrun : run (.between, s) rest = some m)
    (hresult : result m = some (.object members))
    (hperm : members.Perm (clientDataMembers origin challengeB64)) : v = .string origin := by
  cases hstep
  obtain ⟨known, hknown, hgrown⟩ := (run_outermost hrun).trans (result_outermost hresult) members rfl
  obtain rfl : [("type", Value.string "webauthn.get"), ("challenge", .string challengeB64),
      ("origin", v)] = known := Option.some.inj hknown
  have hmem : ("origin", v) ∈ clientDataMembers origin challengeB64 :=
    hperm.mem_iff.mp (hgrown.subset (by simp))
  simpa [clientDataMembers] using hmem

/-- A quote that was escaped leaves the rest outside every string. -/
theorem run_escaped_quote {text : List Char} {l : Lexeme} (h : Inside text l) :
    run (l, atOrigin challengeB64) clientDataTail.tail = none := by
  have htail : clientDataTail.tail = ',' :: '"' :: "tokenBinding\":null\x7d".toList := by decide
  have hword : ∀ s, run (.between, s) "tokenBinding\":null\x7d".toList = none := by
    intro s
    rfl
  rw [htail]
  cases l with
  | between => cases h
  | word letters => cases h
  | escape units => rfl
  | hex units digits => rfl
  | string units =>
    have hcomma : isUnescaped ',' = true := by decide
    rw [run_cons, read_plain hcomma, Option.bind_some, run_cons, read_quote, step_atOrigin,
      Option.map_some, Option.bind_some]
    exact hword _

/-- The client data is the object that is meant exactly where its origin can stand in a
string as it is. -/
theorem isClientData_iff (h : PlainText challengeB64) :
    IsClientData origin challengeB64 (clientDataText origin challengeB64) ↔ PlainText origin := by
  have htail : clientDataTail = '"' :: clientDataTail.tail := by decide
  unfold IsClientData parse
  rw [run_clientDataText origin h]
  refine ⟨?_, ?_⟩
  · intro hdata
    obtain ⟨members, hparse, hperm⟩ := hdata
    obtain ⟨m, hrun, hresult⟩ := Option.bind_eq_some_iff.mp hparse
    rw [run_append] at hrun
    obtain ⟨m₁, horigin, hrest⟩ := Option.bind_eq_some_iff.mp hrun
    have hstart : Inside [] (.string []) := ⟨Nat.le_refl 0, fun _ c hc => by cases hc⟩
    rcases inside_run hstart horigin with ⟨l, rfl, hin⟩ | ⟨a, rest, v, s, ha, hr, hv, hs⟩
    · -- the string is open where the origin ends: the next quote closes it
      rw [htail, run_cons] at hrest
      obtain ⟨m₂, hquote, hrest⟩ := Option.bind_eq_some_iff.mp hrest
      rcases inside_step hin hquote with ⟨l', rfl, hin'⟩ | ⟨v, s, -, rfl, hv, hs⟩
      · rw [run_escaped_quote hin'] at hrest
        cases hrest
      · have hstr := hv origin (closed_origin hs hrest hresult hperm)
        exact hstr.plain (by rw [List.nil_append, String.length_toList])
    · -- the string closed before: its value is too short to be the origin
      have hall : run (.between, s) (rest ++ clientDataTail) = some m := by
        rw [run_append, hr]
        exact hrest
      have hle := (hv origin (closed_origin hs hall hresult hperm)).le
      have hlen := congrArg List.length ha
      rw [List.nil_append] at hle
      rw [String.length_toList, List.length_append, List.length_cons] at hlen
      omega
  · intro hplain
    refine ⟨_, ?_, List.Perm.refl _⟩
    have hstep : step (atOrigin challengeB64) (.scalar (.string
        (String.ofList origin.toList))) = some (afterOrigin challengeB64 (.string origin)) := by
      rw [String.ofList_toList, step_atOrigin]
    rw [htail, run_string hplain hstep]
    exact run_clientDataTail _ "origin" (.string origin)

end

theorem originForRpId_plain {rpId origin : String} (h : originForRpId rpId = some origin) :
    PlainText origin ↔ PlainText (trim rpId) := by
  have hhttp : PlainText "http" := by decide
  have hhttps : PlainText "https" := by decide
  have hcolon : PlainText "://" := by decide
  unfold originForRpId at h
  simp only at h
  split at h
  · cases h
  · obtain rfl := Option.some.inj h
    rw [plainText_append, plainText_append]
    split
    · simp [hhttp, hcolon]
    · simp [hhttps, hcolon]

section
variable {P : Primitives} {decodeError : String → String} {ch : WebauthnChallenge}
  {pin : Option PinSource} {xch : GetAssertionExchange} {json : Bytes}

theorem prepareAssertion_ok (h : prepareAssertion decodeError P ch pin = .ok (xch, json)) :
    ∃ origin bytes, originForRpId ch.rpId = some origin ∧
      b64urlDecode decodeError ch.challengeB64 = .ok bytes ∧
      xch.clientDataHash = P.sha256 json ∧
      json = utf8 (clientDataText origin (b64urlNopad bytes)) := by
  obtain ⟨origin, horigin, h⟩ := except_bind_ok h
  obtain ⟨⟨bytes, allow⟩, hrequest, h⟩ := except_bind_ok h
  obtain ⟨bytes', hbytes, hrequest⟩ := except_bind_ok hrequest
  obtain ⟨allow', -, hrequest⟩ := except_bind_ok hrequest
  cases hrequest
  obtain ⟨rfl, rfl⟩ := Prod.mk.inj (Except.ok.inj h)
  refine ⟨origin, bytes, ?_, ?_, rfl, rfl⟩
  · unfold ceremonyOrigin at horigin
    split at horigin
    · next o ho =>
      cases horigin
      exact ho
    · cases horigin
  · exact mapError_ok.mp hbytes

/-- The key signs the client data that is meant exactly where the RP ID can stand in a
string as it is. -/
theorem signsClientData_iff (h : prepareAssertion decodeError P ch pin = .ok (xch, json)) :
    SignsClientData decodeError P ch xch json ↔ PlainText (trim ch.rpId) := by
  obtain ⟨origin, bytes, horigin, hbytes, hhash, rfl⟩ := prepareAssertion_ok h
  rw [← originForRpId_plain horigin, ← isClientData_iff (b64urlNopad_plain bytes)]
  refine ⟨?_, ?_⟩
  · intro hsigns
    obtain ⟨text, origin', bytes', htext, horigin', hbytes', hdata⟩ := hsigns.document
    rw [fromUtf8_utf8] at htext
    rw [horigin] at horigin'
    rw [hbytes] at hbytes'
    obtain rfl := Option.some.inj htext
    obtain rfl := Option.some.inj horigin'
    obtain rfl := Except.ok.inj hbytes'
    exact hdata
  · intro hdata
    exact ⟨hhash, _, origin, bytes, fromUtf8_utf8 _, horigin, hbytes, hdata⟩

end

/-- A challenge that leaves the client data as it is meant. -/
def localChallenge : WebauthnChallenge := ⟨"Rk9PQmFy", "localhost", ["Y3JlZC1pZA=="], .preferred⟩

theorem signsClientData_localChallenge : ∃ xch json,
    prepareAssertion id plainPrimitives localChallenge none = .ok (xch, json) ∧
    (SignsClientData id plainPrimitives localChallenge xch json ↔
      PlainText (trim localChallenge.rpId)) :=
  ⟨_, _, rfl, signsClientData_iff rfl⟩

example : (assertionRequest id localChallenge).toOption.map (fun r => r.2.map (·.id)) =
    some [[0x63, 0x72, 0x65, 0x64, 0x2D, 0x69, 0x64]] := by decide

/-- A challenge whose RP ID closes the string it is put in, and opens a member of its own. -/
def injectedOffer : Json := .object [("TwoFactorProviders2", .object [("7", .object
  [("allowCredentials", .array [.object [("id", .str "AAAA")]]), ("challenge", .str "AAAA"),
    ("rpId", .str "a\",\"x\":\"b")])])]

def injectedBody : String :=
  "\x7b\"TwoFactorProviders2\":\x7b\"7\":\x7b\"allowCredentials\":[\x7b\"id\":\"AAAA\"\x7d]," ++
  "\"challenge\":\"AAAA\",\"rpId\":\"a\\\",\\\"x\\\":\\\"b\"\x7d\x7d\x7d"

def injectedChallenge : WebauthnChallenge := ⟨"AAAA", "a\",\"x\":\"b", ["AAAA"], .discouraged⟩

def injectedMembers : List (String × Value) :=
  [("type", .string "webauthn.get"), ("challenge", .string "AAAA"), ("origin", .string "https://a"),
    ("x", .string "b"), ("tokenBinding", .null)]

theorem parse_injected :
    parse (clientDataText "https://a\",\"x\":\"b" "AAAA") = some (.object injectedMembers) := by
  have horigin : "https://a\",\"x\":\"b".toList ++ clientDataTail =
      "https://a".toList ++ '"' :: ',' :: '"' :: ("x".toList ++ '"' :: ':' :: '"' ::
        ("b".toList ++ '"' :: clientDataTail.tail)) := by decide
  have hrun : run (.string [], atOrigin "AAAA")
      ("https://a\",\"x\":\"b".toList ++ clientDataTail) =
      run (.between, .after [.object [("type", .string "webauthn.get"),
        ("challenge", .string "AAAA"), ("origin", .string "https://a")] "x"] (.string "b"))
        clientDataTail.tail := by
    have hsite : PlainText "https://a" := by decide
    have hx : PlainText "x" := by decide
    have hb : PlainText "b" := by decide
    rw [horigin]
    calc run (.string [], atOrigin "AAAA") _
        = run (.between, afterOrigin "AAAA" (.string "https://a")) _ :=
        run_string hsite rfl
      _ = run (.between, .key [] [("type", .string "webauthn.get"),
            ("challenge", .string "AAAA"), ("origin", .string "https://a")]) _ :=
        run_token rfl rfl
      _ = run (.between, .colon [] [("type", .string "webauthn.get"),
            ("challenge", .string "AAAA"), ("origin", .string "https://a")] "x") _ :=
        run_quoted hx rfl
      _ = run (.between, .value [.object [("type", .string "webauthn.get"),
            ("challenge", .string "AAAA"), ("origin", .string "https://a")] "x"]) _ :=
        run_token rfl rfl
      _ = _ := run_quoted hb rfl
  have hplain : PlainText "AAAA" := by decide
  rw [parse, run_clientDataText _ hplain, hrun]
  exact run_clientDataTail _ "x" (.string "b")

/-- The challenge is accepted, and the key signs an object with a member of the server's. -/
theorem injected_member_signed :
    challengeFromBody (valueDecoders injectedOffer) injectedBody = .ok injectedChallenge ∧
    ∃ xch, prepareAssertion id plainPrimitives injectedChallenge none =
        .ok (xch, utf8 (clientDataText "https://a\",\"x\":\"b" "AAAA")) ∧
      parse (clientDataText "https://a\",\"x\":\"b" "AAAA") =
        some (.object injectedMembers) ∧
      ¬ SignsClientData id plainPrimitives injectedChallenge xch
        (utf8 (clientDataText "https://a\",\"x\":\"b" "AAAA")) := by
  have hprepare : prepareAssertion id plainPrimitives injectedChallenge none =
      .ok (exchange injectedChallenge.rpId
        (plainPrimitives.sha256 (utf8 (clientDataText "https://a\",\"x\":\"b" "AAAA")))
        [⟨.publicKey, [0, 0, 0]⟩] .discouraged none,
        utf8 (clientDataText "https://a\",\"x\":\"b" "AAAA")) := rfl
  refine ⟨rfl, _, hprepare, parse_injected, fun h => ?_⟩
  obtain ⟨text, origin, bytes, htext, -, -, members, hparse, hperm⟩ := h.document
  rw [fromUtf8_utf8] at htext
  obtain rfl := Option.some.inj htext
  rw [parse_injected] at hparse
  cases hparse
  have hlength := hperm.length_eq
  simp [injectedMembers, clientDataMembers] at hlength

end Cryptile
