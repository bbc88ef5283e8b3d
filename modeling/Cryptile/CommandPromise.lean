import Cryptile.StatePromise

/-
  CommandPromise — a login and a command on one state directory at the same time

  Two parties run over one disk: `cryptile login` and one of the commands that load the
  session. Each saves as `SavePromise` says, the login after it has written its config;
  what a party seals is a session that its own calls have been answered with. The lines
  are told apart by that: `SealedByLogin` of the login, `Refreshed` of the command.
-/

namespace Cryptile
open Text Interaction Inodes

inductive Party where
  | login
  | command
  deriving DecidableEq

abbrev RaceLog := List (Party × SysEvent)

/-! ## Whose session it is -/

def keyringRead (dir : Path) (raw : String) : SysEvent :=
  ⟨.file (.readToString (keyringPath dir)), .ok raw⟩

section
variable (P : Primitives) (dir : Path) (args : LoginArgs) (log : RaceLog)

/-- The backend of the arguments has granted the login a session for their account. -/
def Granted (s : Session) : Prop :=
  (.login, ⟨.cli (.newProvider args.server false), .ok ()⟩) ∈ log ∧
  ∃ params, params.account = args.account ∧ (.login, ⟨.cli (.provider (.login params)), .ok s⟩) ∈ log

/-- The line seals a session that the login was granted. -/
def SealedByLogin (line : String) : Prop :=
  ∃ s passphrase, Granted args log s ∧ SealedAs P s.handle passphrase line

/-- The command has loaded its session from this line. -/
def Loaded (raw passphrase : String) (s : Session) : Prop :=
  (.command, keyringRead dir raw) ∈ log ∧
  ∃ handle, openKeyring P raw passphrase = .ok handle ∧ s = ⟨"vw", handle⟩

/-- It has loaded its session from the first line and refreshed it to what the second seals. -/
def Refreshed (raw line : String) : Prop :=
  ∃ passphrase s s', Loaded P dir log raw passphrase s ∧
    (.command, ⟨.cli (.provider (.refreshSession s)), .ok s'⟩) ∈ log ∧ SealedAs P s'.handle passphrase line

/-- What the party puts into the keyring. -/
def OwnLine : Party → RaceLog → String → Prop
  | .login => SealedByLogin P args
  | .command => fun log line => ∃ raw, Refreshed P dir log raw line

end

section
variable {P : Primitives} {dir : Path} {args : LoginArgs} {log log' : RaceLog} {raw line : String}
  {s : Session}

theorem Granted.mono (hlog : log ⊆ log') (h : Granted args log s) : Granted args log' s := by
  obtain ⟨hopen, params, haccount, hlogin⟩ := h
  exact ⟨hlog hopen, params, haccount, hlog hlogin⟩

theorem Loaded.mono (hlog : log ⊆ log') {passphrase : String} (h : Loaded P dir log raw passphrase s) :
    Loaded P dir log' raw passphrase s := ⟨hlog h.1, h.2⟩

theorem SealedByLogin.mono (hlog : log ⊆ log') (h : SealedByLogin P args log line) :
    SealedByLogin P args log' line := by
  obtain ⟨s, passphrase, hgranted, hsealed⟩ := h
  exact ⟨s, passphrase, hgranted.mono hlog, hsealed⟩

theorem Refreshed.mono (hlog : log ⊆ log') (h : Refreshed P dir log raw line) :
    Refreshed P dir log' raw line := by
  obtain ⟨passphrase, s, s', hloaded, hrefresh, hsealed⟩ := h
  exact ⟨passphrase, s, s', hloaded.mono hlog, hlog hrefresh, hsealed⟩

theorem OwnLine.mono (hlog : log ⊆ log') : ∀ {i : Party}, OwnLine P dir args i log line →
    OwnLine P dir args i log' line
  | .login, h => SealedByLogin.mono hlog h
  | .command, ⟨raw, h⟩ => ⟨raw, h.mono hlog⟩

end

/-! ## The promise of a party -/

/-- A save of a line of its own; the login may be about its config. -/
def RacePromise (P : Primitives) (dir : Path) (args : LoginArgs) (config : String) (i : Party)
    (w : World Party) (e : SysEvent) : Prop :=
  SavePromise (keyringPath dir) (OwnLine P dir args) i w e ∨ i = .login ∧ ConfigPromise dir config i w e

section
variable {P : Primitives} {encodeConfig : StateConfig → String}
  {decodeConfig : String → Except String StateConfig} {dir : Path} {args : LoginArgs} {config : String}
  {i : Party} {w : World Party} {L : World Party → Prop}

theorem savePromise_idle {ι : Type} {path : Path} {Mine : ι → List (ι × SysEvent) → String → Prop} {i : ι}
    {w : World ι} {e : SysEvent} (h : isIdle e.1 = true) : SavePromise path Mine i w e := by
  obtain ⟨q, x⟩ := e
  cases q with
  | write _ _ => cases h
  | cli _ => trivial
  | file q => cases q <;> trivial

theorem race_undisturbed {prom : Party → World Party → SysEvent → Prop} : Undisturbed ownStep prom i :=
  undisturbed_of_own (fun _ _ _ _ h => h.2) (fun _ _ _ _ _ _ h => h.1)

/-- A command leaves the login's temporary config alone. -/
theorem race_keepsName :
    KeepsName ownStep (RacePromise P dir args config) .login (configTmp dir) := by
  have htmp : configTmp dir ≠ (keyringPath dir).withExtension "tmp" := keyringTmp_ne_configTmp.symm
  have hkeyring : configTmp dir ≠ keyringPath dir := configTmp_eq ▸ join_ne (by decide)
  intro j hj w e w' hstep hprom
  obtain hprom | ⟨rfl, -⟩ := hprom
  · have hchange := diskChange hstep.2.1
    generalize w'.disk = d' at hchange
    cases hchange with
    | idle _ => rfl
    | opened =>
      obtain rfl := hprom
      exact Shared.openTruncate_names htmp
    | wrote _ _ => rfl
    | synced _ => rfl
    | renamed _ =>
      obtain ⟨rfl, rfl, -⟩ := hprom
      exact FileTree.rename_names htmp hkeyring
  · exact absurd rfl hj

/-- What the trace's requests were carried out by is in the log. -/
def Witnessed (P : Primitives) (encodeConfig : StateConfig → String)
    (decodeConfig : String → Except String StateConfig) (dir : Path) (i : Party) (tr : CliTrace)
    (log : RaceLog) : Prop :=
  ∃ t, CarriedOut (stateCalls P encodeConfig decodeConfig dir) tr t ∧ ∀ e ∈ t, (i, e) ∈ log

theorem Witnessed.mem {tr : CliTrace} {log : RaceLog} {e : Sigma CliAns}
    (h : Witnessed P encodeConfig decodeConfig dir i tr log) (he : e ∈ tr) :
    ∃ t, Runs (stateCalls P encodeConfig decodeConfig dir e.1) t e.2 ∧ ∀ e ∈ t, (i, e) ∈ log := by
  obtain ⟨t, hcarried, hlogged⟩ := h
  obtain ⟨t', hruns, hsub⟩ := hcarried.mem he
  exact ⟨t', hruns, fun e he => hlogged e (hsub he)⟩

/-- A request that is not for the state directory is in the log itself. -/
theorem Witnessed.asked {tr : CliTrace} {log : RaceLog} {q : CliReq} {x : CliAns q}
    (h : Witnessed P encodeConfig decodeConfig dir i tr log)
    (hq : stateCalls P encodeConfig decodeConfig dir q = request (A := SysAns) (.cli q))
    (he : ⟨q, x⟩ ∈ tr) : (i, ⟨.cli q, x⟩) ∈ log := by
  obtain ⟨t, hruns, hlogged⟩ := h.mem he
  rw [hq] at hruns
  obtain rfl := runs_request.mp hruns
  exact hlogged _ (List.mem_singleton.mpr rfl)

/-- A program that stores nothing, by its runs and what they leave in the log. -/
theorem aside_promises {α : Type} {p : Cli α} (hL : Durable i L) (hp : Asks (fun q => storesNothing q = true) p)
    (hw : L w) : Promises ownStep (RacePromise P dir args config) i
      (fun a w' => L w' ∧ ∃ tr, Runs p tr a ∧ Witnessed P encodeConfig decodeConfig dir i tr w'.log)
      (lower (stateCalls P encodeConfig decodeConfig dir) p) w := by
  refine (idle_run_promises race_undisturbed (fun w e he => .inl (savePromise_idle he)) hL
    (asks_lower stateCalls_idle hp) hw).mono (fun a w' h => ?_)
  obtain ⟨hLw, t, hruns, hlogged⟩ := h
  obtain ⟨tr, hrun, hcarried⟩ := runs_lower.mp hruns
  exact ⟨hLw, tr, hrun, t, hcarried, hlogged⟩

/-! ## The command -/

theorem plain_storesNothing : ∀ q, isPlain q = true → storesNothing q = true := by
  intro q h
  cases q <;> first | rfl | cases h

theorem output_storesNothing (q : CliReq) (h : isOutput q) : storesNothing q = true :=
  plain_storesNothing q (output_plain q h)

theorem loadStateFor_storesNothing (passphraseEnv : Option String) :
    Asks (fun q => storesNothing q = true) (loadStateFor passphraseEnv).run := by
  refine asks_bind (asks_request rfl) (fun b => ?_)
  cases b with
  | false => exact asks_pure _
  | true =>
    refine asks_except_bind (asks_bind (asks_request rfl) (fun _ => asks_pure _)) (fun cfg => ?_)
    refine asks_except_bind ((passphraseFor_quiet passphraseEnv).mono
      (fun q h => plain_storesNothing q h.1)) (fun passphrase => ?_)
    exact asks_except_bind (asks_request rfl) (fun _ => asks_pure _)

theorem cliAns_nonempty : ∀ q, Nonempty (CliAns q)
  | .provider (.login _) => ⟨.error .noSession⟩
  | .provider (.refreshSession _) => ⟨.error .noSession⟩
  | .provider (.sessionExpiry _) => ⟨none⟩
  | .provider (.listNamespaces _) => ⟨.error .noSession⟩
  | .provider (.listSecrets _ _) => ⟨.error .noSession⟩
  | .provider (.getNamespaceSecrets _ _) => ⟨.error .noSession⟩
  | .provider (.getSecret _ _) => ⟨.error .noSession⟩
  | .provider (.answersTwoFactor _) => ⟨false⟩
  | .systemTime => ⟨none⟩
  | .loggedIn => ⟨false⟩
  | .loadConfig => ⟨.error ""⟩
  | .loadSession _ => ⟨.error ""⟩
  | .saveLogin _ _ _ => ⟨.error ""⟩
  | .saveKeyring _ _ => ⟨.error ""⟩
  | .removeCache => ⟨()⟩
  | .envVar _ => ⟨none⟩
  | .stdinIsTerminal => ⟨false⟩
  | .promptPassword _ => ⟨.error ""⟩
  | .newProvider _ _ => ⟨.error ""⟩
  | .addToAgent _ _ => ⟨()⟩
  | .println _ => ⟨()⟩
  | .eprintln _ => ⟨()⟩

theorem op_storesNothing (o : Op) (s : Session) :
    Asks (fun q => storesNothing q = true) (o.run s).run := by
  refine asks_of_runs cliAns_nonempty (fun tr r h e he => ?_)
  have hop := Op.requests h e he
  revert hop
  cases e.1 <;> first | exact fun _ => rfl | exact fun h => by cases h

/-- What a command knows once it has loaded its session and, where its handle is new,
refreshed it. -/
def Renewed (P : Primitives) (dir : Path) (passphrase : String) (s s' : Session) (w : World Party) : Prop :=
  ∃ raw, Loaded P dir w.log raw passphrase s ∧ (s'.handle = s.handle ∨
    (.command, ⟨.cli (.provider (.refreshSession s)), .ok s'⟩) ∈ w.log)

theorem renewed_recorded {passphrase : String} {s s' : Session} :
    Recorded (Renewed P dir passphrase s s') := by
  intro w w' h hlog
  obtain ⟨raw, hloaded, hsame | hrefresh⟩ := h
  · exact ⟨raw, hloaded.mono hlog, .inl hsame⟩
  · exact ⟨raw, hloaded.mono hlog, .inr (hlog hrefresh)⟩

/-- A re-seal saves a refreshed session, if it saves. -/
theorem reseal_promises {passphrase : String} {s s' : Session}
    (hw : Pending dir .command (Renewed P dir passphrase s s') w) :
    Promises ownStep (RacePromise P dir args config) .command (fun _ _ => True)
      (lower (stateCalls P encodeConfig decodeConfig dir) (reseal s' passphrase s.handle)) w := by
  unfold reseal
  by_cases hsame : s'.handle = s.handle
  · rw [if_pos hsame]
    exact promises_pure (fun _ _ _ _ _ _ _ h => h) trivial
  · rw [if_neg hsame, lower_bind, lower_request]
    have hmine : ∀ w line, Renewed P dir passphrase s s' w → SealedAs P s'.handle passphrase line →
        OwnLine P dir args .command w.log line := by
      intro w line h hsealed
      obtain ⟨raw, hloaded, hsame' | hrefresh⟩ := h
      · exact absurd hsame' hsame
      · exact ⟨raw, passphrase, s, s', hloaded, hrefresh, hsealed⟩
    have hsave : Promises ownStep (RacePromise P dir args config) .command
        (fun r w' => Renewed P dir passphrase s s' w' ∧
          (r = .ok () → (.command, keyringInstalled dir) ∈ w'.log))
        (lower syscalls (saveKeyring P (keyringPath dir) s'.handle passphrase).run) w :=
      saveKeyring_promises race_undisturbed (fun w e h => .inl h) renewed_recorded hmine hw
    have hcall : Promises ownStep (RacePromise P dir args config) .command (fun _ _ => True)
        (stateCalls P encodeConfig decodeConfig dir (.saveKeyring s'.handle passphrase)) w :=
      promises_map (hsave.mono (fun _ _ _ => trivial))
    refine promises_bind hcall (fun r w _ => ?_)
    cases r with
    | ok u => exact promises_pure (fun _ _ _ _ _ _ _ h => h) trivial
    | error e =>
      refine (aside_promises (L := fun _ => True) (fun _ _ _ _ _ => trivial) ?_ trivial).mono
        (fun _ _ _ => trivial)
      exact asks_request rfl

/-- Loading the state: what the session was loaded from is in the log. -/
theorem loadStateFor_loads {passphraseEnv : Option String} {tr : CliTrace} {cfg : StateConfig}
    {passphrase : String} {s : Session} {log : RaceLog}
    (h : Runs (loadStateFor passphraseEnv).run tr (.ok (cfg, passphrase, s)))
    (hlog : Witnessed P encodeConfig decodeConfig dir .command tr log) :
    ∃ raw, Loaded P dir log raw passphrase s := by
  obtain ⟨_, he, -⟩ | ⟨_, _, _, t, he, rfl, -⟩ := loadStateFor_runs h
  · cases he
  · cases he
    obtain ⟨tr, hruns, hlogged⟩ := hlog.mem (e := ⟨.loadSession passphrase, .ok s⟩) (by simp)
    obtain ⟨raw, handle, hread, hopen, rfl⟩ := loadSession_reads hruns
    exact ⟨raw, hlogged _ hread, handle, hopen, rfl⟩

/-- A command that loads a session re-seals only what it has refreshed that session to. -/
theorem sessionCommand_promises {o : Op} {passphraseEnv : Option String} {backend : Session → String}
    {emit : o.Out → Cli ExitCode} (hemit : ∀ out, Asks (fun q => isPlain q = true) (emit out))
    (hw : NotOpened .command ((keyringPath dir).withExtension "tmp") w) :
    Promises ownStep (RacePromise P dir args config) .command (fun _ _ => True)
      (lower (stateCalls P encodeConfig decodeConfig dir) (sessionCommand o passphraseEnv backend emit)) w := by
  have haside : ∀ {α : Type} {p : Cli α} {w : World Party}, Asks (fun q => storesNothing q = true) p →
      Promises ownStep (RacePromise P dir args config) .command (fun _ _ => True)
        (lower (stateCalls P encodeConfig decodeConfig dir) p) w :=
    fun hp => (aside_promises (L := fun _ => True) (fun _ _ _ _ _ => trivial) hp trivial).mono
      (fun _ _ _ => trivial)
  have hdie : ∀ msg code, Asks (fun q => storesNothing q = true) (die msg code) :=
    fun msg code => (die_outputs msg code).mono output_storesNothing
  unfold sessionCommand
  rw [lower_bind]
  refine promises_bind (aside_promises notOpened_durable (loadStateFor_storesNothing passphraseEnv) hw) ?_
  intro r w hr
  obtain ⟨hw, tr, hload, hlog⟩ := hr w .refl
  cases r with
  | error msg => exact haside (hdie _ _)
  | ok v =>
    obtain ⟨cfg, passphrase, s⟩ := v
    obtain ⟨raw, hloaded⟩ := loadStateFor_loads hload hlog
    have hheld : Durable .command (fun w => NotOpened .command ((keyringPath dir).withExtension "tmp") w ∧
        Loaded P dir w.log raw passphrase s) :=
      notOpened_durable.and (Recorded.durable (fun w w' h hlog => h.mono hlog))
    simp only [lower_bind]
    refine promises_bind (aside_promises hheld (openBackend_asks rfl) ⟨hw, hloaded⟩) ?_
    intro r w hr
    obtain ⟨hw, -⟩ := hr w .refl
    cases r with
    | error e => exact haside (hdie _ _)
    | ok u =>
      simp only [lower_bind]
      refine promises_bind (aside_promises hheld (op_storesNothing o s) hw) ?_
      intro r w hr
      obtain ⟨⟨hw, hloaded⟩, tr, hrun, hlog⟩ := hr w .refl
      cases r with
      | error e => exact haside (hdie _ _)
      | ok v =>
        obtain ⟨s', out⟩ := v
        have hrenewed : Renewed P dir passphrase s s' w := by
          by_cases hsame : s'.handle = s.handle
          · exact ⟨raw, hloaded, .inl hsame⟩
          · exact ⟨raw, hloaded, .inr (hlog.asked rfl (Op.refreshed hrun hsame))⟩
        simp only [lower_bind]
        refine promises_bind (reseal_promises ⟨hw, hrenewed⟩) (fun _ w _ => ?_)
        exact haside ((hemit out).mono plain_storesNothing)

theorem command_promises {renderJson : FieldBag → String} (cmd : Command)
    (hw : NotOpened .command ((keyringPath dir).withExtension "tmp") w) :
    Promises ownStep (RacePromise P dir args config) .command (fun _ _ => True)
      (lower (stateCalls P encodeConfig decodeConfig dir) (cmd.run renderJson)) w := by
  have hdie : ∀ msg code, Promises ownStep (RacePromise P dir args config) .command (fun _ _ => True)
      (lower (stateCalls P encodeConfig decodeConfig dir) (die msg code)) w := by
    intro msg code
    exact (aside_promises notOpened_durable ((die_outputs msg code).mono output_storesNothing) hw).mono
      (fun _ _ _ => trivial)
  cases cmd with
  | get ref passphraseEnv refreshCache agent =>
    change Promises _ _ _ _ (lower _ (getCommand ref passphraseEnv refreshCache agent)) w
    unfold getCommand
    cases Ref.parse ref with
    | error e => exact hdie _ _
    | ok r =>
      cases refreshCache with
      | false => exact sessionCommand_promises (emitValue_plain _ _) hw
      | true =>
        simp only [if_true, lower_bind]
        refine promises_bind (aside_promises notOpened_durable (asks_request rfl) hw) (fun _ w hr => ?_)
        exact sessionCommand_promises (emitValue_plain _ _) (hr w .refl).1
  | list ns passphraseEnv =>
    exact sessionCommand_promises (fun names => (emitNames_outputs names).mono output_plain) hw
  | exportNamespace ns format passphraseEnv =>
    change Promises _ _ _ _ (lower _ (exportCommand renderJson ns format passphraseEnv)) w
    unfold exportCommand
    split
    · exact hdie _ _
    · exact sessionCommand_promises (fun secrets => (emitExport_outputs _ _ secrets).mono output_plain) hw

/-! ## The login -/

theorem setup_storesNothing : ∀ q, isSetup q → storesNothing q = true := by
  intro q h
  cases q <;> first | rfl | exact h.elim

/-- The backend is the one that the arguments name. -/
theorem loginSetup_opens {tr : CliTrace} {p : String × String} (h : Runs (loginSetup args).run tr (.ok p)) :
    ⟨.newProvider args.server false, .ok ()⟩ ∈ tr := by
  unfold loginSetup at h
  obtain ⟨_, he, -⟩ | ⟨t₁, _, t₂, rfl, -, h⟩ := runs_except_bind.mp h
  · cases he
  obtain ⟨_, he, -⟩ | ⟨t₃, _, t₄, rfl, -, h⟩ := runs_except_bind.mp h
  · cases he
  obtain ⟨_, he, -⟩ | ⟨t₅, _, t₆, rfl, -, h⟩ := runs_except_bind.mp h
  · cases he
  obtain ⟨_, he, -⟩ | ⟨t₇, u, t₈, rfl, hopen, -⟩ := runs_except_bind.mp h
  · cases he
  obtain rfl := runs_request.mp hopen
  simp

theorem loginOnce_storesNothing (secret : String) (second : Option SecondFactor) :
    Asks (fun q => storesNothing q = true) (loginOnce args secret second) := by
  refine asks_bind (asks_bind (isTerminal_asks.mono setup_storesNothing) (fun b => ?_))
    (fun _ => asks_request rfl)
  cases b <;> exact asks_pure _

theorem obtainSession_storesNothing (secret : String) :
    Asks (fun q => storesNothing q = true) (obtainSession args secret).run := by
  unfold obtainSession
  refine asks_bind (loginOnce_storesNothing secret none) (fun x => ?_)
  split
  · exact asks_pure _
  · refine asks_bind (asks_request rfl) (fun hardware => ?_)
    refine asks_bind ((resolveSecondFactor_asks _ args hardware).mono setup_storesNothing) (fun r => ?_)
    cases r with
    | error msg => exact asks_pure _
    | ok second =>
      refine asks_bind (loginOnce_storesNothing secret (some second)) (fun x => ?_)
      split <;> exact asks_pure _
  · exact asks_pure _

/-- The session that is saved was granted by a login call for the account. -/
theorem obtainSession_granted {secret : String} {tr : CliTrace} {s : Session}
    (h : Runs (obtainSession args secret).run tr (.ok s)) :
    ∃ params, params.account = args.account ∧ ⟨.provider (.login params), .ok s⟩ ∈ tr := by
  have hlogin : ∀ {params}, (params, .ok s) ∈ logins tr → ⟨.provider (.login params), .ok s⟩ ∈ tr := by
    intro params hmem
    obtain ⟨⟨q, x⟩, he, hseen⟩ := List.mem_filterMap.mp hmem
    unfold loginOf at hseen
    split at hseen
    · next heq =>
      cases heq
      cases hseen
      exact he
    · cases hseen
  have hrun := (obtainSession_runs h).1
  generalize hr : (Except.ok s : Except Failure Session) = r at hrun
  generalize hcalls : logins tr = calls at hrun
  cases hrun with
  | once pin x _ =>
    cases x with
    | error e => cases hr
    | ok s' =>
      cases hr
      exact ⟨_, rfl, hlogin (by rw [hcalls]; exact List.mem_singleton.mpr rfl)⟩
  | unresolved pin providers e => cases hr
  | twice pin providers second pin' x r hx =>
    obtain rfl := (hx s).mp hr.symm
    exact ⟨⟨args.account, secret, some second, pin'⟩, rfl, hlogin (by rw [hcalls]; simp)⟩

/-- A login without a session does not end with success. -/
theorem obtainSession_fails {secret : String} {tr : CliTrace} {msg : Diag} {code : ExitCode}
    (h : Runs (obtainSession args secret).run tr (.error (msg, code))) : code ≠ 0 := by
  have hfailed : ∀ e : ProviderError, exitCode e ≠ 0 := by
    intro e
    cases e <;> simp [exitCode]
  unfold obtainSession at h
  obtain ⟨t₁, x, t₂, -, -, h⟩ := runs_bind.mp h
  split at h
  · cases h.2
  · obtain ⟨hardware, rest, -, h⟩ := runs_request_bind.mp h
    obtain ⟨t₃, second, t₄, -, -, h⟩ := runs_bind.mp h
    cases second with
    | error msg =>
      cases h.2
      decide
    | ok second =>
      obtain ⟨t₅, y, t₆, -, -, h⟩ := runs_bind.mp h
      split at h
      · cases h.2
      · cases h.2
        decide
      · cases h.2
        exact hfailed _
  · cases h.2
    exact hfailed _

/-- The login has put its config and its keyring into place. -/
def InPlace (dir : Path) (w : World Party) : Prop :=
  (.login, configInstalled dir) ∈ w.log ∧ (.login, keyringInstalled dir) ∈ w.log

/-- The login has opened neither of its temporary files. -/
def Unopened (dir : Path) (w : World Party) : Prop :=
  NotOpened .login (configTmp dir) w ∧ NotOpened .login ((keyringPath dir).withExtension "tmp") w

theorem inPlace_recorded : Recorded (InPlace dir) := fun _ _ h hlog => ⟨hlog h.1, hlog h.2⟩

theorem unopened_durable : Durable .login (Unopened dir) := notOpened_durable.and notOpened_durable

theorem die_fails {msg : Diag} {code : ExitCode} (hcode : code ≠ 0) :
    Promises ownStep (RacePromise P dir args config) .login (fun code w => code = 0 → InPlace dir w)
      (lower (stateCalls P encodeConfig decodeConfig dir) (die msg code)) w := by
  refine (aside_promises (L := fun _ => True) (fun _ _ _ _ _ => trivial)
    ((die_outputs msg code).mono output_storesNothing) trivial).mono (fun code' w h hzero => ?_)
  obtain ⟨-, tr, hrun, -⟩ := h
  obtain ⟨_, _, -, -, rfl⟩ := hrun
  exact absurd hzero hcode

theorem saveState_promises {text passphrase : String} {s : Session}
    (hw : Unopened dir w ∧ Granted args w.log s) :
    Promises ownStep (RacePromise P dir args (encodeConfig ⟨args.server, args.account⟩)) .login
      (fun code w => code = 0 → InPlace dir w)
      (lower (stateCalls P encodeConfig decodeConfig dir) (saveState text args passphrase s)) w := by
  have hrecorded : Recorded (fun w : World Party => Granted args w.log s) := fun w w' h hlog => h.mono hlog
  unfold saveState
  rw [lower_bind]
  refine promises_bind (aside_promises (unopened_durable.and hrecorded.durable)
    ((rotateCache_asks args.account).mono setup_storesNothing) hw) ?_
  intro _ w hr
  obtain ⟨⟨hw, hgranted⟩, -⟩ := hr w .refl
  rw [lower_bind, lower_request]
  have hsave : Promises ownStep (RacePromise P dir args (encodeConfig ⟨args.server, args.account⟩)) .login
      (fun r w => r = .ok () → InPlace dir w)
      (stateCalls P encodeConfig decodeConfig dir
        (.saveLogin ⟨args.server, args.account⟩ s.handle passphrase)) w :=
    saveLogin_promises race_undisturbed race_keepsName
      (fun w e h => .inr ⟨rfl, h⟩) (fun w e h => .inl h) hrecorded
      (fun w line h hsealed => ⟨s, passphrase, h, hsealed⟩) ⟨hw.1, hw.2, hgranted⟩
  refine promises_bind hsave (fun r w hr => ?_)
  cases r with
  | error e => exact die_fails (by decide)
  | ok u =>
    refine (aside_promises inPlace_recorded.durable ?_ (hr w .refl rfl)).mono (fun _ _ h _ => h.1)
    exact asks_bind (asks_request rfl) (fun _ => asks_pure _)

/-- A login that ends with success has put a session it was granted into place. -/
theorem login_promises {text : String} (hw : Unopened dir w) :
    Promises ownStep (RacePromise P dir args (encodeConfig ⟨args.server, args.account⟩)) .login
      (fun code w => code = 0 → InPlace dir w)
      (lower (stateCalls P encodeConfig decodeConfig dir) (loginCommand text args)) w := by
  unfold loginCommand
  rw [lower_bind]
  refine promises_bind (aside_promises unopened_durable
    ((loginSetup_asks args).mono setup_storesNothing) hw) ?_
  intro r w hr
  obtain ⟨hw, tr, hsetup, hlog⟩ := hr w .refl
  cases r with
  | error msg => exact die_fails (by decide)
  | ok v =>
    obtain ⟨passphrase, secret⟩ := v
    have hopened := hlog.asked rfl (loginSetup_opens hsetup)
    simp only [lower_bind]
    refine promises_bind (aside_promises (unopened_durable.and recorded_event.durable)
      (obtainSession_storesNothing secret) ⟨hw, hopened⟩) ?_
    intro r w hr
    obtain ⟨⟨hw, hopened⟩, tr, hobtain, hlog⟩ := hr w .refl
    cases r with
    | error e =>
      obtain ⟨msg, code⟩ := e
      exact die_fails (obtainSession_fails hobtain)
    | ok s =>
      obtain ⟨params, haccount, hlogin⟩ := obtainSession_granted hobtain
      exact saveState_promises ⟨hw, hopened, params, haccount, hlog.asked rfl hlogin⟩

end

end Cryptile
