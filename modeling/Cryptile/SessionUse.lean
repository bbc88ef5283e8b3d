import Cryptile.LoginCommand
import Cryptile.Lib.Safety

/-
  SessionUse — what the commands ask for, in the light of what they were answered

  A command presents the session that it has loaded, and those that were granted to a
  refresh of one that it had. So what holds of the session that is loaded, and of each
  that is granted to one of which it holds, holds of every session that is presented, and
  of the one that is sealed at the end. A login presents the master password that it was
  given, and a second factor that it has resolved.

  Correspondence (Rust ↔ Lean):
    `ops::map_retry`, `ensure_fresh`        ↔ `withRetry_within`, `FreshRun.keeps`
    `ops::get`, `list`, `export`            ↔ `Op.run_within`, `Op.run_session`
    `load_state_for`, `reseal`              ↔ `sessionCommand_within`
    `Command::Get`, `List`, `Export`        ↔ `command_within`
    `Command::Login`                        ↔ `loginCommand_within`
-/

namespace Cryptile
open Interaction

/-! ## What is given by the user -/

/-- A text from the variable that is named, or typed in at a prompt. -/
def Supplied (W : ∀ q, CliAns q → Prop) (var : Option String) (prompt text : String) : Prop :=
  match var with
  | some name => W (.envVar name) (some text)
  | none => W (.promptPassword prompt) (.ok text)

section
variable {W : ∀ q, CliAns q → Prop} {args : LoginArgs} {p secret prompt text : String}

theorem passphraseFor_returns {passphraseEnv : Option String}
    (h : Returns W (passphraseFor passphraseEnv).run (.ok p)) :
    Supplied W passphraseEnv "keyring passphrase: " p := by
  cases passphraseEnv with
  | some var =>
    obtain ⟨v, hv, hend⟩ := returns_bind.mp h
    cases v with
    | none => cases hend
    | some v =>
      cases hend
      exact returns_request.mp hv
  | none =>
    obtain ⟨tty, -, hprompt⟩ := returns_bind.mp h
    cases tty with
    | false => cases hprompt
    | true => exact returns_request.mp hprompt

theorem envOr_returns {var : Option String} {what : String} {read : ExceptT String Cli String}
    (hread : ∀ text, Returns W read.run (.ok text) → W (.promptPassword prompt) (.ok text))
    (h : Returns W (envOr var what read).run (.ok text)) : Supplied W var prompt text := by
  unfold envOr at h
  cases var with
  | none => exact hread text h
  | some var =>
    obtain ⟨v, hv, hend⟩ := returns_lift_bind.mp h
    cases v with
    | none => cases hend
    | some v =>
      cases hend
      exact returns_request.mp hv

theorem readSecret_returns (h : Returns W (readSecret prompt).run (.ok text)) :
    W (.promptPassword prompt) (.ok text) := by
  unfold readSecret at h
  obtain ⟨tty, -, hprompt⟩ := returns_lift_bind.mp h
  cases tty with
  | false => cases hprompt
  | true => exact returns_request.mp hprompt

theorem readPassphrase_returns (h : Returns W (readPassphrase prompt).run (.ok text)) :
    W (.promptPassword prompt) (.ok text) := by
  unfold readPassphrase at h
  obtain ⟨tty, -, h⟩ := returns_lift_bind.mp h
  cases tty with
  | false => cases h
  | true =>
    obtain ⟨p₁, hfirst, h⟩ := returns_ok_bind.mp h
    obtain ⟨p₂, -, h⟩ := returns_ok_bind.mp h
    split at h
    · cases h
    · cases h
      exact returns_request.mp hfirst

/-- A login goes on with a passphrase and a master password that it was given. -/
theorem loginSetup_returns (h : Returns W (loginSetup args).run (.ok (p, secret))) :
    Supplied W args.passphraseEnv "keyring passphrase: " p ∧
      Supplied W args.masterPasswordEnv "master password: " secret := by
  unfold loginSetup at h
  obtain ⟨_, -, h⟩ := returns_ok_bind.mp h
  obtain ⟨p', hp, h⟩ := returns_ok_bind.mp h
  obtain ⟨secret', hsecret, h⟩ := returns_ok_bind.mp h
  obtain ⟨_, -, h⟩ := returns_ok_bind.mp h
  cases h
  exact ⟨envOr_returns (fun _ => readPassphrase_returns) hp, envOr_returns (fun _ => readSecret_returns) hsecret⟩

end

/-! ## The sessions of a command -/

section
variable (W : ∀ q, CliAns q → Prop) (S : CliReq → Prop) (good : Session → Prop)

/-- A command that is answered within `W` may ask for what is in `S`: everything that is
no call of the provider, and the calls with a good session. A session that is granted to
a good one is good. -/
structure SessionUse : Prop where
  renewed : ∀ s s', good s → W (.provider (.refreshSession s)) (.ok s') → good s'
  upkeep : ∀ s, good s → S (.provider (.sessionExpiry s)) ∧ S (.provider (.refreshSession s))
  names : ∀ s, good s → S (.provider (.listNamespaces s))
  get : ∀ s r, good s → S (.provider (.getSecret s r))
  bulk : ∀ s ns, good s → S (.provider (.listSecrets s ns)) ∧ S (.provider (.getNamespaceSecrets s ns))
  clock : S .systemTime
  found : S .loggedIn
  load : ∀ passphrase, S (.loadSession passphrase)
  setup : ∀ q, isSetup q → S q
  output : ∀ q, isOutput q → S q

end

section
variable {W : ∀ q, CliAns q → Prop} {S : CliReq → Prop} {good : Session → Prop} {β γ : Type}
  {once : Attempt β} {s s' : Session}

theorem FreshRun.keeps {tr : CliTrace} (h : FreshRun s tr s') (hs : good s)
    (hrefresh : ∀ s', W (.provider (.refreshSession s)) (.ok s') → good s') (hW : Within W tr) : good s' := by
  cases h with
  | unknown => exact hs
  | fresh _ _ _ => exact hs
  | refused _ _ _ _ => exact hs
  | rotated exp t _ _ =>
    have hevent : refreshEvent s (.ok s') ∈ ([⟨.provider (.sessionExpiry s), some exp⟩, ⟨.systemTime, t⟩,
        refreshEvent s (.ok s')] : CliTrace) := by simp
    exact hrefresh s' (hW _ hevent)

/-- An operation ends with a good session if it starts with one. -/
theorem Op.run_session (hrefresh : ∀ s s', good s → W (.provider (.refreshSession s)) (.ok s') → good s')
    {o : Op} (hs : good s) {out : o.Out} (h : Returns W (o.run s).run (.ok (s', out))) : good s' := by
  obtain ⟨tr, hrun, hW⟩ := returns_iff.mp h
  obtain ⟨β, once, finish, hsteady, he⟩ := o.steady
  rw [he] at hrun
  obtain ⟨r, hretry, hr⟩ := retried_runs.mp hrun
  have hend : ∃ b, r = .ok (s', b) := by
    rcases r with e | ⟨s₁, b⟩
    · cases hr
    · obtain ⟨v, -, hv⟩ := except_map_ok.mp hr.symm
      cases hv
      exact ⟨b, rfl⟩
  obtain ⟨b, rfl⟩ := hend
  generalize hx : (Except.ok (s', b) : Except ProviderError (Session × β)) = x at hretry
  cases hretry with
  | settled h₀ h₁ _ =>
    -- the first attempt: it ends with the session that it was started with
    subst hx
    rw [hsteady.returns h₁]
    exact h₀.keeps hs (fun s' => hrefresh s s' hs) (within_append.mp hW).1
  | refused _ h₀ h₁ => cases hx
  | @retried t₀ s₀ t₁ s₂ t₂ r₂ h₀ h₁ h₂ =>
    -- the second attempt: it ends with the session that the refresh was granted
    obtain ⟨-, hrest⟩ := within_append.mp hW
    obtain ⟨-, hW₂⟩ := within_append.mp hrest
    cases r₂ with
    | error e => cases hx
    | ok p =>
      cases hx
      rw [hsteady.returns h₂]
      exact hrefresh s s₂ hs (within_cons.mp hW₂).1

section
variable (h : SessionUse W S good)
include h

theorem withRetry_within (honce : ∀ s, good s → AsksWithin W S (once s).run) (hs : good s) :
    AsksWithin W S (withRetry once s).run := by
  have hstale : Asks S (ensureFresh s) := ensureFresh_asks (h.upkeep s hs).1 (h.upkeep s hs).2 h.clock
  have hfresh : ∀ s₀, Returns W (ensureFresh s) s₀ → good s₀ := by
    intro s₀ hreturns
    obtain ⟨tr, hrun, hW⟩ := returns_iff.mp hreturns
    exact (ensureFresh_runs.mp hrun).keeps hs (fun s' => h.renewed s s' hs) hW
  unfold withRetry
  refine asksWithin_bind hstale.asksWithin (fun s₀ h₀ => ?_)
  refine asksWithin_bind (honce s₀ (hfresh s₀ h₀)) (fun x _ => ?_)
  split
  · exact asksWithin_pure _
  · -- after `AuthExpired` it is the session that came in that is refreshed
    refine asksWithin_bind (asksWithin_request (h.upkeep s hs).2) (fun y hy => ?_)
    cases y with
    | error e => exact asksWithin_pure _
    | ok fresh =>
      have hgood := h.renewed s fresh hs (returns_request.mp hy)
      exact asksWithin_bind (honce fresh hgood) (fun _ _ => asksWithin_pure _)
  · exact asksWithin_pure _

/-- An operation asks the backend with good sessions only. -/
theorem Op.run_within (o : Op) (hs : good s) : AsksWithin W S (o.run s).run := by
  have hretried : ∀ {β γ : Type} {once : Attempt β} {finish : β → Except ProviderError γ},
      (∀ s, good s → AsksWithin W S (once s).run) → AsksWithin W S (retried once finish s).run := by
    intro β γ once finish honce
    refine asksWithin_except_bind (withRetry_within h honce hs) (fun p _ => ?_)
    exact asksWithin_except_bind (asksWithin_pure _) (fun _ _ => asksWithin_pure _)
  have hdirect : ∀ {β : Type} {call : Session → Cli (Except ProviderError β)},
      (∀ s, good s → AsksWithin W S (call s)) → ∀ s, good s → AsksWithin W S (directly call s).run :=
    fun hcall s hs => asksWithin_except_bind (hcall s hs) (fun _ _ => asksWithin_pure _)
  have hnamed : ∀ {β : Type} {ns : String} {call : Session → Namespace → Cli (Except ProviderError β)},
      (∀ s, good s → ∀ target, AsksWithin W S (call s target)) →
        ∀ s, good s → AsksWithin W S (inNamespace ns call s).run := by
    intro β ns call hcall s hs
    refine asksWithin_except_bind (asksWithin_request (h.names s hs)) (fun names _ => ?_)
    refine asksWithin_except_bind (asksWithin_pure _) (fun target _ => ?_)
    exact asksWithin_except_bind (hcall s hs target) (fun _ _ => asksWithin_pure _)
  cases o with
  | get r => exact hretried (hdirect (fun s hs => asksWithin_request (h.get s r hs)))
  | list ns =>
    cases ns with
    | none => exact hretried (hdirect (fun s hs => asksWithin_request (h.names s hs)))
    | some ns => exact hretried (hnamed (fun s hs target => asksWithin_request (h.bulk s target hs).1))
  | exportNamespace ns =>
    exact hretried (hnamed (fun s hs target => asksWithin_request (h.bulk s target hs).2))

end

/-! ## The commands -/

theorem passphraseFor_asks (passphraseEnv : Option String) :
    Asks isSetup (passphraseFor passphraseEnv).run := by
  cases passphraseEnv with
  | some var => exact asks_bind (asks_request trivial) (fun v => by cases v <;> exact asks_pure _)
  | none =>
    refine asks_bind (asks_request trivial) (fun tty => ?_)
    cases tty
    · exact asks_pure _
    · exact asks_request trivial

theorem loadStateFor_asks (hsetup : ∀ q, isSetup q → S q) (hfound : S .loggedIn)
    (hload : ∀ passphrase, S (.loadSession passphrase)) (passphraseEnv : Option String) :
    Asks S (loadStateFor passphraseEnv).run := by
  refine asks_bind (asks_request hfound) (fun present => ?_)
  cases present with
  | false => exact asks_pure _
  | true =>
    refine asks_except_bind (asks_bind (asks_request (hsetup _ trivial)) (fun _ => asks_pure _)) (fun cfg => ?_)
    exact asks_except_bind ((passphraseFor_asks passphraseEnv).mono hsetup) (fun passphrase =>
      asks_except_bind (asks_request (hload passphrase)) (fun _ => asks_pure _))

/-- The passphrase is given, and the session is loaded under it. -/
theorem loadStateFor_returns {passphraseEnv : Option String} {cfg : StateConfig} {p : String}
    (h : Returns W (loadStateFor passphraseEnv).run (.ok (cfg, p, s))) :
    Supplied W passphraseEnv "keyring passphrase: " p ∧ W (.loadSession p) (.ok s) := by
  obtain ⟨found, -, h⟩ := returns_bind.mp h
  cases found with
  | false => cases h
  | true =>
    obtain ⟨_, -, h⟩ := returns_ok_bind.mp h
    obtain ⟨p', hp, h⟩ := returns_ok_bind.mp h
    obtain ⟨s', hs, h⟩ := returns_ok_bind.mp h
    cases h
    exact ⟨passphraseFor_returns hp, returns_request.mp hs⟩

section
variable (h : SessionUse W S good) {passphraseEnv : Option String}
  (hload : ∀ p s, Supplied W passphraseEnv "keyring passphrase: " p → W (.loadSession p) (.ok s) → good s)
  (hseal : ∀ p s, Supplied W passphraseEnv "keyring passphrase: " p → good s → S (.saveKeyring s.handle p))
include h hload hseal

/-- A command fetches for the session that it has loaded, and seals what it has refreshed. -/
theorem sessionCommand_within {o : Op} {scheme : Session → String} {emit : o.Out → Cli ExitCode}
    (hemit : ∀ out, Asks S (emit out)) : AsksWithin W S (sessionCommand o passphraseEnv scheme emit) := by
  have hdie : ∀ msg code, AsksWithin W S (die msg code) :=
    fun msg code => ((die_outputs msg code).mono h.output).asksWithin
  have hreseal : ∀ s p before, Supplied W passphraseEnv "keyring passphrase: " p → good s →
      Asks S (reseal s p before) :=
    fun s p before hp hs => reseal_asks (hseal p s hp hs) (fun note => h.output (.eprintln note) trivial)
  refine asksWithin_bind (loadStateFor_asks h.setup h.found h.load passphraseEnv).asksWithin (fun x hx => ?_)
  rcases x with msg | ⟨cfg, p, s⟩
  · exact hdie _ _
  obtain ⟨hp, hloaded⟩ := loadStateFor_returns hx
  have hs : good s := hload p s hp hloaded
  refine asksWithin_bind (openBackend_asks (h.setup _ trivial)).asksWithin (fun opened _ => ?_)
  cases opened with
  | error e => exact hdie _ _
  | ok u =>
    refine asksWithin_bind (Op.run_within h o hs) (fun r hr => ?_)
    rcases r with e | ⟨s', out⟩
    · exact hdie _ _
    -- what is sealed is the session that the operation ended with
    have hs' : good s' := Op.run_session h.renewed hs hr
    exact asksWithin_bind (hreseal s' p _ hp hs').asksWithin (fun _ _ => (hemit out).asksWithin)

end

theorem command_within (h : SessionUse W S good) {cmd : Command}
    (hload : ∀ p s, Supplied W cmd.passphraseEnv "keyring passphrase: " p → W (.loadSession p) (.ok s) → good s)
    (hseal : ∀ p s, Supplied W cmd.passphraseEnv "keyring passphrase: " p → good s →
      S (.saveKeyring s.handle p))
    (hhand : ∀ value label, cmd.handsOff = true → S (.addToAgent value label))
    (renderJson : FieldBag → String) : AsksWithin W S (cmd.run renderJson) := by
  have hdie : ∀ msg code, AsksWithin W S (die msg code) :=
    fun msg code => ((die_outputs msg code).mono h.output).asksWithin
  cases cmd with
  | get ref passphraseEnv refreshCache agent =>
    change AsksWithin W S (getCommand ref passphraseEnv refreshCache agent)
    have hemit : ∀ label value, Asks S (emitValue agent label value) := by
      intro label value
      have hprint : Asks S (do println value; return ExitCode.success) :=
        asks_bind (asks_request (h.output _ trivial)) (fun _ => asks_pure _)
      cases agent
      · exact hprint
      · exact asks_bind (asks_request (hhand value label rfl)) (fun _ => hprint)
    unfold getCommand
    cases Ref.parse ref with
    | error e => exact hdie _ _
    | ok r =>
      cases refreshCache with
      | false => exact sessionCommand_within h hload hseal (hemit _)
      | true =>
        -- the cache is removed before anything is loaded
        exact asksWithin_bind (asksWithin_request (h.setup _ trivial))
          (fun _ _ => sessionCommand_within h hload hseal (hemit _))
  | list ns passphraseEnv =>
    exact sessionCommand_within (o := .list ns) h hload hseal
      (fun names => (emitNames_outputs names).mono h.output)
  | exportNamespace ns format passphraseEnv =>
    change AsksWithin W S (exportCommand renderJson ns format passphraseEnv)
    unfold exportCommand
    split
    · exact hdie _ _
    · exact sessionCommand_within (o := .exportNamespace ns) h hload hseal
        (fun secrets => (emitExport_outputs _ _ secrets).mono h.output)

end

/-! ## The login -/

section
variable {W : ∀ q, CliAns q → Prop} {S : CliReq → Prop} {args : LoginArgs} {secret : String}

/-- A session is obtained from a login to the account that is named. -/
theorem obtainSession_returns {s : Session} (h : Returns W (obtainSession args secret).run (.ok s)) :
    ∃ params, params.account = args.account ∧ W (.provider (.login params)) (.ok s) := by
  have honce : ∀ second x, Returns W (loginOnce args secret second) x →
      ∃ params, params.account = args.account ∧ W (.provider (.login params)) x := by
    intro second x h
    obtain ⟨pin, -, hlogin⟩ := returns_bind.mp h
    exact ⟨_, rfl, returns_request.mp hlogin⟩
  unfold obtainSession at h
  obtain ⟨x, hfirst, h⟩ := returns_bind.mp h
  split at h
  · cases h
    exact honce none _ hfirst
  · -- the server wants a second factor: one more login, with the one that is resolved
    obtain ⟨hardware, -, h⟩ := returns_bind.mp h
    obtain ⟨r, -, h⟩ := returns_bind.mp h
    cases r with
    | error msg => cases h
    | ok second =>
      obtain ⟨x, hsecond, h⟩ := returns_bind.mp h
      split at h
      · cases h
        exact honce (some second) _ hsecond
      · cases h
      · cases h
  · cases h

variable (W S args) in
/-- A login may ask for logins to its account, with the master password and, where a
second factor was resolved, with that; and it may save what it was granted. -/
structure LoginUse : Prop where
  plain : ∀ secret pin, Supplied W args.masterPasswordEnv "master password: " secret →
    S (.provider (.login ⟨args.account, secret, none, pin⟩))
  second : ∀ secret pin offered hardware second,
    Supplied W args.masterPasswordEnv "master password: " secret →
    W (.provider (.answersTwoFactor "webauthn")) hardware →
    Returns W (resolveSecondFactor offered args hardware).run (.ok second) →
    S (.provider (.login ⟨args.account, secret, some second, pin⟩))
  save : ∀ p s params, Supplied W args.passphraseEnv "keyring passphrase: " p →
    params.account = args.account → W (.provider (.login params)) (.ok s) →
    S (.saveLogin ⟨args.server, args.account⟩ s.handle p)
  capable : S (.provider (.answersTwoFactor "webauthn"))
  setup : ∀ q, isSetup q → S q
  output : ∀ q, isOutput q → S q

variable (h : LoginUse W S args)
include h

theorem obtainSession_within (hsecret : Supplied W args.masterPasswordEnv "master password: " secret) :
    AsksWithin W S (obtainSession args secret).run := by
  have honce : ∀ second, (∀ pin, S (.provider (.login ⟨args.account, secret, second, pin⟩))) →
      AsksWithin W S (loginOnce args secret second) := by
    intro second hlogin
    have hpin : Asks S pinSourceForLogin :=
      asks_bind (asks_request (h.setup _ trivial)) (fun b => by cases b <;> exact asks_pure _)
    exact asksWithin_bind hpin.asksWithin (fun pin _ => asksWithin_request (hlogin pin))
  unfold obtainSession
  refine asksWithin_bind (honce none (fun pin => h.plain secret pin hsecret)) (fun x _ => ?_)
  split
  · exact asksWithin_pure _
  · refine asksWithin_bind (asksWithin_request h.capable) (fun hardware hhardware => ?_)
    refine asksWithin_bind ((resolveSecondFactor_asks _ args hardware).mono h.setup).asksWithin (fun r hr => ?_)
    cases r with
    | error msg => exact asksWithin_pure _
    | ok second =>
      refine asksWithin_bind (honce (some second) (fun pin => ?_)) (fun x _ => ?_)
      · exact h.second secret pin _ hardware second hsecret (returns_request.mp hhardware) hr
      · split <;> exact asksWithin_pure _
  · exact asksWithin_pure _

theorem loginCommand_within (dir : String) : AsksWithin W S (loginCommand dir args) := by
  have hdie : ∀ msg code, AsksWithin W S (die msg code) :=
    fun msg code => ((die_outputs msg code).mono h.output).asksWithin
  refine asksWithin_bind ((loginSetup_asks args).mono h.setup).asksWithin (fun x hx => ?_)
  rcases x with msg | ⟨p, secret⟩
  · exact hdie _ _
  obtain ⟨hp, hsecret⟩ := loginSetup_returns hx
  refine asksWithin_bind (obtainSession_within h hsecret) (fun r hr => ?_)
  rcases r with e | s
  · exact hdie _ _
  obtain ⟨params, haccount, hlogin⟩ := obtainSession_returns hr
  refine asksWithin_bind ((rotateCache_asks args.account).mono h.setup).asksWithin (fun _ _ => ?_)
  refine asksWithin_bind (asksWithin_request (h.save p s params hp haccount hlogin)) (fun saved _ => ?_)
  cases saved with
  | error e => exact hdie _ _
  | ok u => exact asksWithin_bind (asksWithin_request (h.output _ trivial)) (fun _ _ => asksWithin_pure _)

end

end Cryptile
