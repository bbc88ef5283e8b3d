import Cryptile.Vaultwarden.Provider

/-
  TwoFactor — the answer to a two-factor challenge

  A code factor carries its answer; a security key makes one from the challenge,
  in a ceremony on its own thread. A factor of any other kind has no answer.

  Correspondence (Rust ↔ Lean):
    `tag_to_wire_id`                          ↔ `tagToWireId`
    `UvPosture::from_wire`                    ↔ `UvPosture.fromWire`
    `challenge_from_body`                     ↔ `challengeFromBody`
    `WebauthnError`, `FidohCeremonyError`     ↔ the types of `Os`, with their texts here
    `FidohCeremonyError::exit_class`          ↔ `FidohCeremonyError.exitClass`
    `VaultwardenProvider::answer_two_factor`  ↔ `answerTwoFactor`, with `hardwareAnswer`
    `VaultwardenProvider::answers_two_factor` ↔ `answersTwoFactor`
-/

namespace Cryptile
open Text Interaction

/-! ## Factors on the wire -/

def tagToWireId (tag : String) : Option UInt8 :=
  if tag = "totp" then some 0
  else if tag = "email" then some 1
  else if tag = "webauthn" then some 7
  else do
    let rest ← stripPrefix tag "unknown("
    let n ← stripSuffix rest ")"
    (parseUint 255 n).map UInt8.ofNat

/-! ## The challenge of a security key -/

def UvPosture.fromWire (spelling : String) : Option UvPosture :=
  let lower := toAsciiLowercase spelling
  if lower = "discouraged" then some .discouraged
  else if lower = "preferred" ∨ lower = "required" then some .preferred
  else none

def WebauthnError.display : WebauthnError → String
  | .noDevice => "no USB/NFC security key found; connect a CTAP2 hardware key and retry"
  | .device msg => "security key ceremony failed or timed out: " ++ msg
  | .challenge msg => "webauthn challenge malformed: " ++ msg

def FidohCeremonyError.display : FidohCeremonyError → String
  | .declined msg => "security-key ceremony was declined on the device: " ++ msg
  | .wrongCredential =>
    "plugged key holds no credential this account registered (allow-list mismatch)"
  | .noDevice msg =>
    "no USB/CCID security key found; connect a CTAP2 hardware key and retry: " ++ msg
  | .transport msg => "security key transport failed: " ++ msg
  | .budgetExpired phase budget =>
    "security key ceremony budget expired during the " ++ phase ++ " phase; give the key a " ++
      "fresh budget (at least " ++ toString budget ++ "s) and touch it when it blinks"
  | .assembly msg => "security key assertion failed internally: " ++ msg

/-- The class of a ceremony's failure, as the error it surfaces as. -/
def FidohCeremonyError.exitClass (e : FidohCeremonyError) : ProviderError :=
  match e with
  | .declined _ | .wrongCredential => .auth e.display
  | .noDevice _ | .transport _ | .budgetExpired _ _ => .transport e.display
  | .assembly _ => .server e.display

def memberOf (entry : Json) (key : String) : Except WebauthnError String :=
  match (entry.get key).bind Json.asStr with
  | some s => .ok s
  | none => .error (.challenge ("provider-7 entry lacks '" ++ key ++ "'"))

def allowedIds (entry : Json) : Except WebauthnError (List String) :=
  match (entry.get "allowCredentials").bind Json.asArray with
  | none => .error (.challenge "provider-7 entry lacks 'allowCredentials'")
  | some list =>
    let ids := list.filterMap (fun c => (c.get "id").bind Json.asStr)
    if ids.isEmpty then
      .error (.challenge "provider-7 allowCredentials is empty; no credential can answer")
    else .ok ids

def userVerification (entry : Json) : Except WebauthnError UvPosture :=
  match (entry.get "userVerification").map Json.asStr with
  | some (some spelling) =>
    match UvPosture.fromWire spelling with
    | some uv => .ok uv
    | none => .error (.challenge ("provider-7 userVerification '" ++ spelling ++
        "' is not one of discouraged|preferred|required"))
  | some none => .error (.challenge "provider-7 userVerification is not a string")
  | none => .ok .discouraged

/-- The provider-7 entry of a challenge body, either casing. -/
def challengeFromBody (J : Decoders) (body : String) : Except WebauthnError WebauthnChallenge := do
  let v ← (J.value body).mapError (fun e => WebauthnError.challenge ("body is not JSON: " ++ e))
  match ["TwoFactorProviders2", "twoFactorProviders2"].findSome? v.get with
  | none => .error (.challenge "body lacks TwoFactorProviders2")
  | some providers2 =>
    match providers2.get "7" with
    | none => .error (.challenge "server challenge offers no provider-7 (webauthn) entry")
    | some entry =>
      let challengeB64 ← memberOf entry "challenge"
      let rpId ← memberOf entry "rpId"
      let allowCredentialIds ← allowedIds entry
      let uv ← userVerification entry
      return { challengeB64 := challengeB64, rpId := rpId,
               allowCredentialIds := allowCredentialIds, uv := uv }

/-! ## The answer -/

def ceremonyBudgetSecs : Nat := 60

/-- A ceremony that does not report within the budget has run out of it. -/
def fidohOutcome : Option (Except FidohCeremonyError String) → Except ProviderError String
  | some r => r.mapError FidohCeremonyError.exitClass
  | none => .error (FidohCeremonyError.exitClass (.budgetExpired "ceremony-thread" ceremonyBudgetSecs))

def legacyOutcome : Option (Except WebauthnError String) → Except ProviderError String
  | some r => r.mapError (fun e => .auth e.display)
  | none => .error (.server "webauthn thread panicked")

/-- Decode the challenge, then run the ceremony of the backend the build has. -/
def hardwareAnswer (J : Decoders) (backend : Option CeremonyBackend) (body : String)
    (pin : Option PinSource) : ExceptT ProviderError Os String :=
  match backend with
  | none => throw (.auth ("server demanded webauthn (security-key) two-factor but this build " ++
      "lacks hardware-key support; rebuild with --features webauthn"))
  | some b => do
    let ch ← ExceptT.mk (pure ((challengeFromBody J body).mapError
      (fun e => ProviderError.auth e.display)))
    match b with
    | .fidoh => ExceptT.mk (fidohOutcome <$> os (.fidohCeremony ch pin))
    | .webauthn => ExceptT.mk (legacyOutcome <$> os (.legacyCeremony ch))

def answerTwoFactor (J : Decoders) (backend : Option CeremonyBackend) (body : String)
    (second : Option (UInt8 × String)) (pin : Option PinSource) :
    ExceptT ProviderError Os (Option (UInt8 × String)) :=
  match second with
  | none => return none
  | some (n, code) =>
    if n = 0 ∨ n = 1 then return some (n, code)
    else if n = 7 then do
      let token ← hardwareAnswer J backend body pin
      return some (7, token)
    else throw (.auth ("no answerable code for two-factor provider " ++ toString n))

def answersTwoFactor (backend : Option CeremonyBackend) (tag : String) : Bool :=
  tag == "webauthn" && backend.isSome

/-! ## Every run of it -/

/-- A ceremony: what answering asks of the machine. -/
def isCeremony : OsReq → Prop
  | .fidohCeremony _ _ | .legacyCeremony _ => True
  | _ => False

section
variable {J : Decoders} {backend : Option CeremonyBackend} {body : String} {pin : Option PinSource}
  {second : Option (UInt8 × String)} {tr : OsTrace}

theorem exitClass_ne_challenge (e : FidohCeremonyError) (providers : List String) :
    e.exitClass ≠ .twoFactorRequired providers := by
  cases e <;> simp [FidohCeremonyError.exitClass]

theorem hardwareAnswer_asks : Asks isCeremony (hardwareAnswer J backend body pin).run := by
  unfold hardwareAnswer
  cases backend with
  | none => trivial
  | some b =>
    refine asks_except_bind (asks_pure _) (fun ch => ?_)
    cases b with
    | fidoh => exact asks_bind (asks_request trivial) (fun _ => asks_pure _)
    | webauthn => exact asks_bind (asks_request trivial) (fun _ => asks_pure _)

theorem hardwareAnswer_ne_challenge {x : Except ProviderError String} {providers : List String}
    (h : Runs (hardwareAnswer J backend body pin).run tr x) :
    x ≠ .error (.twoFactorRequired providers) := by
  unfold hardwareAnswer at h
  cases backend with
  | none =>
    obtain ⟨-, rfl⟩ := h
    simp
  | some b =>
    rcases runs_settled_bind.mp h with ⟨e, hch, -, rfl⟩ | ⟨ch, -, h'⟩
    · cases hc : challengeFromBody J body with
      | ok ch => rw [hc] at hch; cases hch
      | error e' => rw [hc] at hch; cases hch; simp
    · cases b with
      | fidoh =>
        obtain ⟨r, -, rfl⟩ := runs_map.mp h'
        cases r with
        | none => simp [fidohOutcome, exitClass_ne_challenge]
        | some r => cases r <;> simp [fidohOutcome, Except.mapError, exitClass_ne_challenge]
      | webauthn =>
        obtain ⟨r, -, rfl⟩ := runs_map.mp h'
        cases r with
        | none => simp [legacyOutcome]
        | some r => cases r <;> simp [legacyOutcome, Except.mapError]

/-- What an answer can be: the code of a code factor, the ceremony of a key, or none
where no factor was given. -/
theorem answerTwoFactor_runs {x : Except ProviderError (Option (UInt8 × String))}
    (h : Runs (answerTwoFactor J backend body second pin).run tr x) :
    (second = none ∧ tr = [] ∧ x = .ok none) ∨
    (∃ n code, second = some (n, code) ∧ (n = 0 ∨ n = 1) ∧ tr = [] ∧ x = .ok (some (n, code))) ∨
    (∃ n code, second = some (n, code) ∧ n ≠ 0 ∧ n ≠ 1 ∧ (∀ e ∈ tr, isCeremony e.1) ∧
      ((n = 7 ∧ ∃ token, x = .ok (some (7, token))) ∨
       ∃ e, x = .error e ∧ ∀ providers, e ≠ .twoFactorRequired providers)) := by
  unfold answerTwoFactor at h
  cases second with
  | none => exact .inl ⟨rfl, h⟩
  | some p =>
    obtain ⟨n, code⟩ := p
    by_cases hcode : n = 0 ∨ n = 1
    · simp only [hcode, if_true] at h
      exact .inr (.inl ⟨n, code, rfl, hcode, h⟩)
    · simp only [hcode, if_false] at h
      rw [not_or] at hcode
      refine .inr (.inr ⟨n, code, rfl, hcode.1, hcode.2, ?_⟩)
      by_cases h7 : n = 7
      · simp only [h7, if_true] at h
        rcases runs_except_bind.mp h with ⟨e, rfl, ht⟩ | ⟨t₁, token, _, rfl, ht, rfl, rfl⟩
        · refine ⟨hardwareAnswer_asks.runs ht, .inr ⟨e, rfl, fun providers hp => ?_⟩⟩
          exact hardwareAnswer_ne_challenge ht (by rw [hp])
        · rw [List.append_nil]
          exact ⟨hardwareAnswer_asks.runs ht, .inl ⟨h7, token, rfl⟩⟩
      · simp only [h7, if_false] at h
        obtain ⟨rfl, rfl⟩ := h
        exact ⟨by simp, .inr ⟨_, rfl, by simp⟩⟩

end

end Cryptile
