import Cryptile.Vaultwarden.Ceremony

/-
  CeremonyClasses — the class of error that each end of a ceremony comes out as

  Errors pass the decoder of the challenge, the table of the ceremony and the
  channel. The first two keep every case in its class. The channel does not: a wait
  that ends because the thread panicked comes out as one that ran out of time.
-/

namespace Cryptile
open Text Interaction

/-! ## The specified classes -/

inductive ExitClass where
  | auth
  | transport
  | server
  deriving DecidableEq, Repr

def ProviderError.ceremonyClass : ProviderError → Option ExitClass
  | .auth _ => some .auth
  | .transport _ => some .transport
  | .server _ => some .server
  | _ => none

/-- What a key refuses in consent or credentials is the user's; the rest is the device's. -/
def StatusCode.specified : StatusCode → ExitClass
  | .other _ => .transport
  | _ => .auth

def CeremonyError.specified : CeremonyError → ExitClass
  | .userActionTimeout | .upRejected | .userCancelled => .auth
  | .noCredentials | .credentialMismatch => .auth
  | .pinRequired | .pinNotSet | .pinTooLong | .incorrectPin _ | .pinBlocked | .pinAuthBlocked => .auth
  | .noDevice _ | .ambiguousDevice _ | .transport _ | .pinProviderFailed | .timeout _ => .transport
  | .ctap status => status.specified

/-- The challenge names a site, and its binary members are base64url. -/
structure Assembles (ch : WebauthnChallenge) : Prop where
  site : trim ch.rpId ≠ "" ∧ '/' ∉ (trim ch.rpId).toList
  challenge : ∃ bytes, Base64.decodeUrl (trimEndMatches ch.challengeB64 '=') = some bytes
  allowed : ∀ id ∈ ch.allowCredentialIds, ∃ bytes, Base64.decodeUrl (trimEndMatches id '=') = some bytes

/-- The time ran out, for the caller or for the ceremony itself. -/
def CeremonyEnd.Elapsed (ending : CeremonyEnd) : Prop :=
  ending = .silent ∨ ∃ phase, ending = .reported (.failed (.timeout phase))

/-- What a call answers to the challenge. -/
abbrev Answered := Except ProviderError (Option (UInt8 × String))

def FailsAs (r : Answered) (c : ExitClass) : Prop := ∃ e, r = .error e ∧ e.ceremonyClass = some c

def BudgetExpired (r : Answered) : Prop :=
  ∃ phase budget, r = .error (FidohCeremonyError.exitClass (.budgetExpired phase budget))

section
variable (J : Decoders) (C : CeremonyCrates) (P : Primitives) (body : String) (pin : Option PinSource)

/-- A report of the thread, by what the device came to. -/
structure ReportClasses (ch : WebauthnChallenge) (dev : DeviceEnd) (r : Answered) : Prop where
  assembly : ¬ Assembles ch → FailsAs r .server
  runtime : ∀ text, Assembles ch → dev = .runtimeFailed text → FailsAs r .transport
  ceremony : ∀ e, Assembles ch → dev = .failed e → FailsAs r e.specified
  asserted : ∀ id authData signature xch json, dev = .asserted id authData signature →
    prepareAssertion C.decodeError P ch pin = .ok (xch, json) →
    (∀ token, fido2ResponseJson C id authData json signature = .ok token → r = .ok (some (7, token))) ∧
    ∀ e, fido2ResponseJson C id authData json signature = .error e → FailsAs r .server

/-- Every end of a ceremony has its class, and the budget is only blamed when it is spent. -/
structure CeremonyClasses (ending : CeremonyEnd) (r : Answered) : Prop where
  undecodable : ∀ e, challengeFromBody J body = .error e → FailsAs r .auth
  panicked : ∀ ch, challengeFromBody J body = .ok ch → ending = .panicked → FailsAs r .server
  silent : ∀ ch, challengeFromBody J body = .ok ch → ending = .silent → FailsAs r .transport
  reported : ∀ ch dev, challengeFromBody J body = .ok ch → ending = .reported dev →
    ReportClasses C P pin ch dev r
  budget : BudgetExpired r → ending.Elapsed

/-- The token or the error, as a function of how the ceremony ends. -/
def ceremonyToken (ending : CeremonyEnd) : Except ProviderError String :=
  match challengeFromBody J body with
  | .error e => .error (.auth e.display)
  | .ok ch => fidohOutcome (recvTimeout C P ch pin ending).toOption

/-- What the call returns on it. -/
def tokenAnswer (x : Except ProviderError String) : Answered := x.map (fun token => some (7, token))

end

/-! ## The table of the ceremony -/

theorem mapStatus_class (C : CeremonyCrates) (status : StatusCode) :
    (mapStatus C status).exitClass.ceremonyClass = some status.specified := by
  cases status <;> rfl

theorem mapCeremonyError_class (C : CeremonyCrates) (e : CeremonyError) :
    (mapCeremonyError C e).exitClass.ceremonyClass = some e.specified := by
  cases e with
  | ctap status => exact mapStatus_class C status
  | incorrectPin remaining => cases remaining <;> rfl
  | _ => rfl

/-! ## Assembly -/

section
variable {P : Primitives} {decodeError : String → String} {ch : WebauthnChallenge}
  {pin : Option PinSource}

theorem ceremonyOrigin_ok_iff {rpId : String} : (∃ origin, ceremonyOrigin rpId = .ok origin) ↔
    trim rpId ≠ "" ∧ '/' ∉ (trim rpId).toList := by
  unfold ceremonyOrigin originForRpId
  by_cases hempty : trim rpId = ""
  · simp [hempty]
  · by_cases hslash : '/' ∈ (trim rpId).toList
    · simp [hslash]
    · simp [hempty, hslash]

theorem b64urlDecode_ok_iff {s : String} : (∃ bytes, b64urlDecode decodeError s = .ok bytes) ↔
    ∃ bytes, Base64.decodeUrl (trimEndMatches s '=') = some bytes := by
  unfold b64urlDecode
  cases h : Base64.decodeUrl (trimEndMatches s '=') <;> simp [h]

theorem credentialDescriptor_ok_iff {id : String} :
    (∃ d, credentialDescriptor decodeError id = .ok d) ↔
      ∃ bytes, Base64.decodeUrl (trimEndMatches id '=') = some bytes := by
  have hdecode : (∃ bytes, b64urlDecode decodeError id = .ok bytes) ↔ _ := b64urlDecode_ok_iff
  rw [← hdecode]
  unfold credentialDescriptor
  cases b64urlDecode decodeError id <;>
    simp [Except.mapError, bind, Except.bind, pure, Except.pure]

/-- The request is made exactly where the challenge can be assembled. -/
theorem prepareAssertion_ok_iff :
    (∃ p, prepareAssertion decodeError P ch pin = .ok p) ↔ Assembles ch := by
  refine ⟨?_, ?_⟩
  · intro h
    obtain ⟨p, h⟩ := h
    obtain ⟨origin, horigin, h⟩ := except_bind_ok h
    obtain ⟨_, hrequest, -⟩ := except_bind_ok h
    obtain ⟨bytes, hbytes, hrequest⟩ := except_bind_ok hrequest
    obtain ⟨allow, hallow, -⟩ := except_bind_ok hrequest
    refine ⟨ceremonyOrigin_ok_iff.mp ⟨origin, horigin⟩, ?_, ?_⟩
    · exact b64urlDecode_ok_iff.mp ⟨bytes, mapError_ok.mp hbytes⟩
    · intro id hid
      exact credentialDescriptor_ok_iff.mp (mapM_ok_iff.mp ⟨allow, hallow⟩ id hid)
  · intro h
    obtain ⟨origin, horigin⟩ := ceremonyOrigin_ok_iff.mpr h.site
    obtain ⟨bytes, hbytes⟩ : ∃ bytes, b64urlDecode decodeError ch.challengeB64 = .ok bytes :=
      b64urlDecode_ok_iff.mpr h.challenge
    obtain ⟨allow, hallow⟩ : ∃ allow,
        ch.allowCredentialIds.mapM (credentialDescriptor decodeError) = .ok allow :=
      mapM_ok_iff.mpr (fun id hid => credentialDescriptor_ok_iff.mpr (h.allowed id hid))
    unfold prepareAssertion assertionRequest
    rw [horigin, hbytes, hallow]
    exact ⟨_, rfl⟩

theorem mapError_assembly {α ε : Type} {x : Except ε α} {f : ε → String} {e : FidohCeremonyError}
    (h : x.mapError (fun e => .assembly (f e)) = .error e) : ∃ msg, e = .assembly msg := by
  cases x with
  | error e' =>
    cases h
    exact ⟨_, rfl⟩
  | ok a => cases h

/-- What keeps a request from being made is an error of assembly. -/
theorem prepareAssertion_error {e : FidohCeremonyError}
    (h : prepareAssertion decodeError P ch pin = .error e) : ∃ msg, e = .assembly msg := by
  rcases except_bind_error h with horigin | ⟨origin, -, h⟩
  · unfold ceremonyOrigin at horigin
    split at horigin
    · cases horigin
    · cases horigin
      exact ⟨_, rfl⟩
  · rcases except_bind_error h with hrequest | ⟨_, -, h⟩
    · rcases except_bind_error hrequest with hbytes | ⟨bytes, -, hrequest⟩
      · exact mapError_assembly hbytes
      · rcases except_bind_error hrequest with hallow | ⟨allow, -, hrequest⟩
        · obtain ⟨id, -, hid⟩ := mapM_error hallow
          rcases except_bind_error hid with hid | ⟨_, -, hid⟩
          · exact mapError_assembly hid
          · cases hid
        · cases hrequest
    · cases h

end

/-! ## A report -/

section
variable {C : CeremonyCrates} {P : Primitives} {ch : WebauthnChallenge} {pin : Option PinSource}
  {dev : DeviceEnd}

/-- What the call returns on a report. -/
def reportResult (x : Except FidohCeremonyError String) : Answered :=
  tokenAnswer (fidohOutcome (some x))

theorem fidohPerformAssertion_prepared {xch : GetAssertionExchange} {json : Bytes}
    (h : prepareAssertion C.decodeError P ch pin = .ok (xch, json)) :
    fidohPerformAssertion C P ch pin dev = deviceToken C json dev := by
  rw [fidohPerformAssertion, h]
  rfl

theorem fidohPerformAssertion_unprepared {e : FidohCeremonyError}
    (h : prepareAssertion C.decodeError P ch pin = .error e) :
    fidohPerformAssertion C P ch pin dev = .error e := by
  rw [fidohPerformAssertion, h]
  rfl

theorem reportResult_class : ReportClasses C P pin ch dev
    (reportResult (fidohPerformAssertion C P ch pin dev)) := by
  refine ⟨?_, ?_, ?_, ?_⟩
  · intro hnot
    cases hprep : prepareAssertion C.decodeError P ch pin with
    | ok p => exact absurd (prepareAssertion_ok_iff.mp ⟨p, hprep⟩) hnot
    | error e =>
      obtain ⟨msg, rfl⟩ := prepareAssertion_error hprep
      rw [fidohPerformAssertion_unprepared hprep]
      exact ⟨_, rfl, rfl⟩
  · intro text h hdev
    obtain ⟨⟨xch, json⟩, hprep⟩ := prepareAssertion_ok_iff.mpr h
    rw [fidohPerformAssertion_prepared hprep, hdev]
    exact ⟨_, rfl, rfl⟩
  · intro e h hdev
    obtain ⟨⟨xch, json⟩, hprep⟩ := prepareAssertion_ok_iff.mpr h
    rw [fidohPerformAssertion_prepared hprep, hdev]
    exact ⟨_, rfl, mapCeremonyError_class C e⟩
  · intro id authData signature xch json hdev hprep
    rw [fidohPerformAssertion_prepared hprep, hdev]
    refine ⟨?_, ?_⟩
    · intro token htoken
      rw [deviceToken, htoken]
      rfl
    · intro e he
      rw [deviceToken, he]
      exact ⟨_, rfl, rfl⟩

/-! ## The budget -/

/-- The table speaks of the budget where the ceremony did. -/
theorem mapCeremonyError_budget {e : CeremonyError} {phase : String} {budget : Nat}
    (h : mapCeremonyError C e = .budgetExpired phase budget) : e = .timeout phase := by
  cases e with
  | timeout phase' =>
    cases h
    rfl
  | ctap status => cases status <;> cases h
  | incorrectPin remaining => cases remaining <;> cases h
  | _ => cases h

theorem fidohPerformAssertion_budget {phase : String} {budget : Nat}
    (h : fidohPerformAssertion C P ch pin dev = .error (.budgetExpired phase budget)) :
    dev = .failed (.timeout phase) := by
  rcases except_bind_error h with hprep | ⟨⟨xch, json⟩, -, htoken⟩
  · obtain ⟨msg, hmsg⟩ := prepareAssertion_error hprep
    cases hmsg
  · cases dev with
    | runtimeFailed text => cases htoken
    | failed e => rw [mapCeremonyError_budget (Except.error.inj htoken)]
    | asserted id authData signature =>
      obtain ⟨msg, hmsg⟩ := mapError_assembly htoken
      cases hmsg

/-- Texts that differ in one character before the end of both are two texts. -/
theorem append_ne {a b x y : String} (i : Nat) (ha : i < a.toList.length) (hb : i < b.toList.length)
    (h : a.toList[i]? ≠ b.toList[i]?) : a ++ x ≠ b ++ y := by
  intro heq
  apply h
  have hat := congrArg (fun s => s.toList[i]?) heq
  simp only [String.toList_append] at hat
  rwa [List.getElem?_append_left ha, List.getElem?_append_left hb] at hat

theorem exitClass_transport {e : FidohCeremonyError}
    (h : e.exitClass.ceremonyClass = some .transport) : e.exitClass = .transport e.display := by
  cases e with
  | declined msg => cases h
  | wrongCredential => cases h
  | noDevice msg => rfl
  | transport msg => rfl
  | budgetExpired phase budget => rfl
  | assembly msg => cases h

/-- No other error reads as that of the budget. -/
theorem exitClass_budget {e : FidohCeremonyError} {phase : String} {budget : Nat}
    (h : e.exitClass = (FidohCeremonyError.budgetExpired phase budget).exitClass) :
    ∃ phase budget, e = .budgetExpired phase budget := by
  have hclass : e.exitClass.ceremonyClass = some .transport := by
    rw [h]
    rfl
  have htext : e.display = (FidohCeremonyError.budgetExpired phase budget).display := by
    rw [exitClass_transport hclass, exitClass_transport rfl] at h
    exact ProviderError.transport.inj h
  cases e with
  | budgetExpired phase' budget' => exact ⟨phase', budget', rfl⟩
  | noDevice msg =>
    unfold FidohCeremonyError.display at htext
    simp only [String.append_assoc] at htext
    exact absurd htext (append_ne 0 (by decide) (by decide) (by decide))
  | transport msg =>
    unfold FidohCeremonyError.display at htext
    simp only [String.append_assoc] at htext
    exact absurd htext (append_ne 13 (by decide) (by decide) (by decide))
  | declined msg => cases hclass
  | wrongCredential => cases hclass
  | assembly msg => cases hclass

theorem reportResult_budget (h : BudgetExpired (reportResult (fidohPerformAssertion C P ch pin dev))) :
    ∃ phase, dev = .failed (.timeout phase) := by
  obtain ⟨phase, budget, h⟩ := h
  cases hx : fidohPerformAssertion C P ch pin dev with
  | ok token =>
    rw [hx] at h
    cases h
  | error e =>
    rw [hx] at h
    obtain ⟨phase', budget', rfl⟩ := exitClass_budget (Except.error.inj h)
    exact ⟨phase', fidohPerformAssertion_budget hx⟩

end

/-! ## Every end of a ceremony -/

section
variable {J : Decoders} {C : CeremonyCrates} {P : Primitives} {body code : String}
  {pin : Option PinSource} {ending : CeremonyEnd}

theorem hardwareAnswer_returns {x : Except ProviderError String} :
    Returns (ceremonyAnswer C P ending) (hardwareAnswer J (some .fidoh) body pin).run x ↔
      x = ceremonyToken J C P body pin ending := by
  unfold hardwareAnswer ceremonyToken
  cases hch : challengeFromBody J body with
  | error e => exact Iff.rfl
  | ok ch =>
    refine ⟨?_, ?_⟩
    · intro h
      obtain ⟨answer, hanswer, hx⟩ := returns_map.mp h
      rw [hx, returns_request.mp hanswer]
    · intro h
      exact returns_map.mpr ⟨_, returns_request.mpr rfl, h⟩

theorem answerTwoFactor_returns {r : Answered} :
    Returns (ceremonyAnswer C P ending) (answerTwoFactor J (some .fidoh) body (some (7, code)) pin).run r ↔
      r = tokenAnswer (ceremonyToken J C P body pin ending) := by
  have hseven : answerTwoFactor J (some .fidoh) body (some (7, code)) pin =
      (do let token ← hardwareAnswer J (some .fidoh) body pin; return some (7, token)) := rfl
  rw [hseven, returns_except_bind]
  simp only [hardwareAnswer_returns]
  refine ⟨?_, ?_⟩
  · intro h
    obtain ⟨e, rfl, he⟩ | ⟨token, ht, hr⟩ := h
    · rw [← he]
      rfl
    · rw [← ht]
      exact hr
  · intro h
    cases hx : ceremonyToken J C P body pin ending with
    | error e => exact .inl ⟨e, by rw [h, hx]; rfl, rfl⟩
    | ok token => exact .inr ⟨token, rfl, by rw [h, hx]; rfl⟩

/-- A challenge that does not decode is the user's. -/
theorem classes_of_undecodable {e : WebauthnError} (h : challengeFromBody J body = .error e) :
    CeremonyClasses J C P body pin ending (tokenAnswer (ceremonyToken J C P body pin ending)) := by
  have hfails : ∀ {p : Prop} {ch : WebauthnChallenge}, challengeFromBody J body = .ok ch → p := by
    intro p ch hch
    rw [h] at hch
    cases hch
  unfold ceremonyToken
  rw [h]
  refine ⟨?_, ?_, ?_, ?_, ?_⟩
  · intro _ _
    exact ⟨_, rfl, rfl⟩
  · intro _ hch
    exact hfails hch
  · intro _ hch
    exact hfails hch
  · intro _ _ hch
    exact hfails hch
  · intro hbudget
    obtain ⟨phase, budget, hbudget⟩ := hbudget
    cases hbudget

/-- A wait that ends in time, or with the time, comes out in its class. -/
theorem classes_of_ended {ch : WebauthnChallenge} (h : challengeFromBody J body = .ok ch)
    (hend : ending ≠ .panicked) :
    CeremonyClasses J C P body pin ending (tokenAnswer (ceremonyToken J C P body pin ending)) := by
  have hdecodes : ∀ {p : Prop} {e : WebauthnError}, challengeFromBody J body = .error e → p := by
    intro p e he
    rw [h] at he
    cases he
  unfold ceremonyToken
  rw [h]
  cases ending with
  | panicked => exact absurd rfl hend
  | silent =>
    refine ⟨?_, ?_, ?_, ?_, ?_⟩
    · intro e he
      exact hdecodes he
    · intro _ _ hp
      cases hp
    · intro _ _ _
      exact ⟨_, rfl, rfl⟩
    · intro _ _ _ hr
      cases hr
    · intro _
      exact .inl rfl
  | reported dev =>
    refine ⟨?_, ?_, ?_, ?_, ?_⟩
    · intro e he
      exact hdecodes he
    · intro _ _ hp
      cases hp
    · intro _ _ hs
      cases hs
    · intro ch' dev' hch hr
      rw [h] at hch
      cases hch
      cases hr
      exact reportResult_class
    · intro hbudget
      obtain ⟨phase, hdev⟩ := reportResult_budget hbudget
      exact .inr ⟨phase, by rw [hdev]⟩

/-- Every end of a ceremony comes out in its class, but for a thread that panics. -/
theorem ceremony_classes_iff :
    ∃ r, (∀ r', Returns (ceremonyAnswer C P ending)
        (answerTwoFactor J (some .fidoh) body (some (7, code)) pin).run r' ↔ r' = r) ∧
      (CeremonyClasses J C P body pin ending r ↔
        ∀ ch, challengeFromBody J body = .ok ch → ending ≠ .panicked) := by
  refine ⟨_, fun r' => answerTwoFactor_returns, ?_⟩
  refine ⟨?_, ?_⟩
  · intro hclasses ch hch hpanic
    obtain ⟨e, he, hserver⟩ := hclasses.panicked ch hch hpanic
    rw [ceremonyToken, hch, hpanic] at he
    cases he
    cases hserver
  · intro hends
    cases hch : challengeFromBody J body with
    | error e => exact classes_of_undecodable hch
    | ok ch => exact classes_of_ended hch (hends ch hch)

end

/-- An offer of a security key, and crates of few words. -/
def localOffer : Json := .object [("TwoFactorProviders2", .object [("7", .object
  [("allowCredentials", .array [.object [("id", .str "Y3JlZC1pZA==")]]), ("challenge", .str "Rk9PQmFy"),
    ("rpId", .str "localhost"), ("userVerification", .str "preferred")])])]

def localBody : String :=
  "\x7b\"TwoFactorProviders2\":\x7b\"7\":\x7b\"allowCredentials\":[\x7b\"id\":\"Y3JlZC1pZA==\"\x7d]," ++
  "\"challenge\":\"Rk9PQmFy\",\"rpId\":\"localhost\",\"userVerification\":\"preferred\"\x7d\x7d\x7d"

def plainCrates : CeremonyCrates where
  ceremonyText _ := "the ceremony failed"
  statusText _ := "the device refused"
  decodeError _ := "invalid input"
  encodeValue _ := .ok "\x7b\x7d"

/-- The thread panics at once, and the caller is told that its time ran out. -/
theorem panic_blames_budget :
    challengeFromBody (valueDecoders localOffer) localBody = .ok localChallenge ∧
    Returns (ceremonyAnswer plainCrates plainPrimitives .panicked)
      (answerTwoFactor (valueDecoders localOffer) (some .fidoh) localBody (some (7, "")) none).run
      (.error (FidohCeremonyError.exitClass (.budgetExpired "ceremony-thread" 60))) ∧
    ∀ r, Returns (ceremonyAnswer plainCrates plainPrimitives .panicked)
      (answerTwoFactor (valueDecoders localOffer) (some .fidoh) localBody (some (7, "")) none).run r →
      ¬ CeremonyClasses (valueDecoders localOffer) plainCrates plainPrimitives localBody none .panicked r := by
  refine ⟨rfl, answerTwoFactor_returns.mpr rfl, ?_⟩
  intro r hr hclasses
  obtain ⟨e, he, hserver⟩ := hclasses.panicked localChallenge rfl rfl
  rw [answerTwoFactor_returns.mp hr] at he
  cases he
  cases hserver

end Cryptile
