import Cryptile.Vaultwarden.Webauthn

/-
  Ceremony — the thread that asks a security key, and the channel it reports on

  The thread prepares what the key is asked, asks it, and puts the key's answer
  into the token of the web vault. Its caller waits on a channel for as long as
  the ceremony may take. The wait ends with a report, with the time, or with a
  channel that nobody is left to write to.

  Correspondence (Rust ↔ Lean):
    `CeremonyError`, `StatusCode` of fidoh    ↔ `CeremonyError`, `StatusCode`
    `map_ceremony_error`, `render_diags`      ↔ `mapCeremonyError` with `mapStatus`, `renderDiags`
    `fido2_response_json`                     ↔ `fido2ResponseJson`
    `fidoh_perform_assertion`                 ↔ `fidohPerformAssertion`, given the device's end
    `mpsc::RecvTimeoutError`, `recv_timeout`  ↔ `RecvTimeoutError`, `recvTimeout`
-/

namespace Cryptile
open Text

/-! ## How a device fails -/

/-- The statuses that have a meaning of their own here, and the rest. -/
inductive StatusCode where
  | noCredentials
  | invalidCredential
  | userActionTimeout
  | operationDenied
  | upRequired
  | pinAuthInvalid
  | pinAuthBlocked
  | puatRequired
  | pinPolicyViolation
  | uvBlocked
  | other (code : UInt8)
  deriving DecidableEq, Repr

/-- A value of another crate stands as its text. -/
inductive CeremonyError where
  | noDevice (diags : List String)
  | ambiguousDevice (candidates : String)
  | userActionTimeout
  | upRejected
  | userCancelled
  | noCredentials
  | timeout (phase : String)
  | transport (text : String)
  | ctap (status : StatusCode)
  | credentialMismatch
  | pinRequired
  | pinNotSet
  | pinTooLong
  | incorrectPin (remainingRetries : Option Nat)
  | pinBlocked
  | pinAuthBlocked
  | pinProviderFailed
  deriving DecidableEq, Repr

/-- The words of the crates that a ceremony uses, and the JSON writer. -/
structure CeremonyCrates where
  ceremonyText : CeremonyError → String
  statusText : StatusCode → String
  decodeError : String → String
  encodeValue : Json → Except String String

def renderDiags (diags : List String) : String :=
  if diags.isEmpty then "no authenticator answered on any transport" else "; ".intercalate diags

section
variable (C : CeremonyCrates)

def mapStatus (status : StatusCode) : FidohCeremonyError :=
  match status with
  | .noCredentials | .invalidCredential => .wrongCredential
  | .userActionTimeout | .operationDenied | .upRequired | .pinAuthInvalid | .pinAuthBlocked
  | .puatRequired | .pinPolicyViolation | .uvBlocked => .declined (C.statusText status)
  | .other _ => .transport ("device rejected the request: " ++ C.statusText status)

def mapCeremonyError (e : CeremonyError) : FidohCeremonyError :=
  match e with
  | .noDevice diags => .noDevice (renderDiags diags)
  | .ambiguousDevice candidates =>
    .transport ("several security keys are present (" ++ candidates ++
      "); remove all but one and retry")
  | .userActionTimeout | .upRejected | .userCancelled => .declined (C.ceremonyText e)
  | .noCredentials => .wrongCredential
  | .timeout phase => .budgetExpired phase ceremonyBudgetSecs
  | .transport text => .transport text
  | .ctap status => mapStatus C status
  | .credentialMismatch => .wrongCredential
  | .pinRequired =>
    .declined ("the key requires its PIN to verify (PinRequired): set a key PIN or run " ++
      "interactively")
  | .pinNotSet =>
    .declined ("verification requires a PIN but the key has none set (PinNotSet): set a PIN " ++
      "on the key")
  | .pinTooLong => .declined "the provided PIN exceeds the authenticator's limit (PinTooLong)"
  | .incorrectPin (some n) => .declined ("wrong key PIN: " ++ toString n ++ " attempt(s) remaining")
  | .incorrectPin none => .declined ("wrong key PIN: " ++ C.ceremonyText e)
  | .pinBlocked =>
    .declined ("key PIN retry counter exhausted (PinBlocked): unplug and replug the key to " ++
      "reset, then use the correct PIN")
  | .pinAuthBlocked =>
    .declined ("authenticator PIN is locked after repeated failures (PinAuthBlocked): reset " ++
      "the key before retrying")
  | .pinProviderFailed =>
    .transport "the PIN source failed before the key could be asked (PinProviderFailed)"

/-! ## The thread -/

/-- The token of the web vault, its members in the order they are written in. -/
def fido2ResponseJson (rawId authData clientDataJson signature : Bytes) :
    Except WebauthnError String :=
  let id := b64urlNopad rawId
  (C.encodeValue (.object [
    ("extensions", .object []),
    ("id", .str id),
    ("rawId", .str id),
    ("response", .object [
      ("authenticatorData", .str (b64urlNopad authData)),
      ("clientDataJson", .str (b64urlNopad clientDataJson)),
      ("signature", .str (b64urlNopad signature))]),
    ("type", .str "public-key")])).mapError
    (fun e => .challenge ("assertion serialization: " ++ e))

/-- What asking the device comes to. -/
inductive DeviceEnd where
  | runtimeFailed (text : String)
  | failed (e : CeremonyError)
  | asserted (credentialId authData signature : Bytes)

/-- The token of an assertion. -/
def deviceToken (clientData : Bytes) (dev : DeviceEnd) : Except FidohCeremonyError String :=
  match dev with
  | .runtimeFailed text => .error (.transport ("device runtime: " ++ text))
  | .failed e => .error (mapCeremonyError C e)
  | .asserted credentialId authData signature =>
    (fido2ResponseJson C credentialId authData clientData signature).mapError
      (fun e => .assembly e.display)

def fidohPerformAssertion (P : Primitives) (ch : WebauthnChallenge) (pin : Option PinSource)
    (dev : DeviceEnd) : Except FidohCeremonyError String := do
  let (_, clientData) ← prepareAssertion C.decodeError P ch pin
  deviceToken C clientData dev

/-! ## The channel -/

/-- How the thread of a ceremony can end while its caller waits. -/
inductive CeremonyEnd where
  | panicked
  | silent
  | reported (dev : DeviceEnd)

inductive RecvTimeoutError where
  | timeout
  | disconnected
  deriving DecidableEq, Repr

/-- A thread that panics drops the sender. -/
def recvTimeout (P : Primitives) (ch : WebauthnChallenge) (pin : Option PinSource)
    (ending : CeremonyEnd) : Except RecvTimeoutError (Except FidohCeremonyError String) :=
  match ending with
  | .panicked => .error .disconnected
  | .silent => .error .timeout
  | .reported dev => .ok (fidohPerformAssertion C P ch pin dev)

/-- The caller drops what `recv_timeout` says of a wait without a report. -/
def ceremonyAnswer (P : Primitives) (ending : CeremonyEnd) : ∀ q, OsAns q → Prop
  | .fidohCeremony ch pin, x => x = (recvTimeout C P ch pin ending).toOption
  | _, _ => True

end

end Cryptile
