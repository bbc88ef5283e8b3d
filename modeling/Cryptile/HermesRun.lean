import Cryptile.Hermes
import Cryptile.LongRun

/-
  HermesRun — the plugin over the processes that it starts

  Every binding is a process of `cryptile get` on the directory of a login, and all that
  the plugin learns of it is how it ended and what it wrote. After any history in which
  a login has succeeded, what the plugin stores is what the account holds, up to the white
  space around it, and why it stops is what the account says (`servedBy`); a value of
  nothing but white space counts as empty. Its processes are part of the history.

  Correspondence (Python ↔ Lean):
    `run_secret_cli` where the binary is `cryptile` ↔ `childStep`
    `CryptileSource.fetch`                          ↔ `fetch`, against `servedBy`
-/

namespace Cryptile
open Text Interaction Files

/-! ## What the account gives to bindings -/

/-- The text that lines make. -/
def linesText (lines : List String) : String :=
  String.ofList (lines.flatMap (fun line => line.toList ++ ['\n']))

section
variable {P : Primitives} {D : Codecs} {cfg : StateConfig}

/-- What the account gives for a reference: a value without white space around it. -/
def Service.resolve (svc : Service P D cfg) (tokenEnv ref : String) : Except ErrorKind String :=
  match svc.prints (.get ref (some tokenEnv) false false) with
  | (lines, code) =>
    if code = .success then
      if pyStrip (linesText lines) = "" then .error .emptyValue else .ok (pyStrip (linesText lines))
    else .error (exitKind code.toNat)

end

/-- The bindings in turn, up to the first that is given nothing. -/
def servedBy (resolve : String → Except ErrorKind String) :
    List (String × String) → FieldBag → FieldBag × Option ErrorKind
  | [], secrets => (secrets, none)
  | (var, ref) :: rest, secrets =>
    match resolve ref with
    | .error kind => (secrets, some kind)
    | .ok value => servedBy resolve rest (secrets.insert var value)

/-! ## The processes of the plugin -/

/-- A `cryptile get` that is started with these arguments. -/
def Process.StartedBy (p : Process) (argv : List String) : Prop :=
  ∃ binary stateDir tokenEnv ref, argv = getArgv binary stateDir tokenEnv ref ∧
    p.flag = (if stateDir ≠ "" then some stateDir else none) ∧
    p.inv = .command (.get ref (some tokenEnv) false false)

section
variable (P : Primitives) (D : Codecs) (deviceId : String) (backend : Option CeremonyBackend)
  {cfg : StateConfig} (svc : Service P D cfg) (dir : Path) (passphrase : String)

/-- It has ended as the answer tells, if the answer tells an end. -/
def Process.EndedAs (p : Process) (answer : Answer) : Prop :=
  ∀ proc, answer = .ok proc → ∃ code, Runs (cryptile P D deviceId backend p.flag p.inv) p.trace code ∧
    proc.returncode = code.toNat ∧ proc.stdout = some (linesText (stdout p.trace))

/-- The processes so far and the files: a child is one more process. -/
def childStep (w : List Process × Disk Path StateConfig) :
    Sigma HermesAns → List Process × Disk Path StateConfig → Prop
  | ⟨.runSecretCli argv _ _, answer⟩, w' => ∃ p : Process, p.StartedBy argv ∧
      p.Uses (svc.answers w.1.length) dir cfg passphrase ∧
      Reaches (cryptile P D deviceId backend p.flag p.inv) p.trace ∧
      Steps (hostStep (svc.answers w.1.length) cfg) w.2 p.trace w'.2 ∧ w'.1 = p :: w.1 ∧
      p.EndedAs P D deviceId backend answer
  | _, w' => w' = w

end

/-- Every child ended by itself. -/
def Uncut (tr : HermesTrace) : Prop := ∀ answer ∈ tr.filterMap answerOf, ∃ proc, answer = .ok proc

section
variable {P : Primitives} {D : Codecs} {deviceId : String} {backend : Option CeremonyBackend}
  {cfg : StateConfig} {svc : Service P D cfg} {dir : Path} {passphrase : String}
  {w w' : List Process × Disk Path StateConfig}

/-- A history in which a login has succeeded. -/
def LoggedHistory (P : Primitives) (D : Codecs) (deviceId : String) (backend : Option CeremonyBackend)
    (svc : Service P D cfg) (dir : Path) (passphrase : String)
    (w : List Process × Disk Path StateConfig) : Prop :=
  History P D deviceId backend svc dir passphrase w.1 w.2 ∧ ∃ p ∈ w.1, p.LoggedIn P D deviceId backend

/-- A child that ends is read as the account says. -/
theorem child_resolves (hP : P.Lawful) (hD : D.Lawful) (h : LoggedHistory P D deviceId backend svc dir passphrase w)
    {binary stateDir tokenEnv ref : String} {allowEnv : List String} {timeout : Nat} {answer : Answer}
    (hstep : childStep P D deviceId backend svc dir passphrase w
      ⟨.runSecretCli (getArgv binary stateDir tokenEnv ref) allowEnv timeout, answer⟩ w') :
    LoggedHistory P D deviceId backend svc dir passphrase w' ∧
    ∀ proc, answer = .ok proc → ∀ var,
      (readAnswer var answer).mapError Prod.snd = svc.resolve tokenEnv ref := by
  obtain ⟨hhistory, hlogged⟩ := h
  obtain ⟨p, hstarted, huses, hreach, hsteps, hw, hended⟩ := hstep
  obtain ⟨binary', stateDir', tokenEnv', ref', hargv, -, hinv⟩ := hstarted
  obtain ⟨rfl, rfl⟩ := getArgv_inj hargv
  refine ⟨⟨?_, ?_⟩, ?_⟩
  · rw [hw]
    exact .process hhistory huses hreach hsteps
  · obtain ⟨login, hmem, hlogin⟩ := hlogged
    exact ⟨login, by rw [hw]; exact List.mem_cons_of_mem p hmem, hlogin⟩
  · rintro proc rfl var
    obtain ⟨code, hrun, hcode, hout⟩ := hended proc rfl
    obtain ⟨flag, inv, trace⟩ := p
    simp only at hinv hrun hout huses hsteps
    subst hinv
    have hthere : Kept P D (svc.at dir passphrase w.1.length) True w.2 :=
      (hhistory.kept hP hD).relied (fun _ => .inl hlogged)
    have hprints : (stdout trace, code) = svc.prints (.get ref (some tokenEnv) false false) :=
      present_prints hP hD huses hthere hrun hsteps
    have hzero : proc.returncode = 0 ↔ code = .success := by
      rw [hcode]
      refine ⟨fun h => UInt8.toNat_inj.mp (Int.ofNat.inj h), fun h => ?_⟩
      rw [h]
      rfl
    unfold Service.resolve
    rw [← hprints]
    simp only [readAnswer, hout, Option.getD_some, ne_eq, ite_not, hzero]
    by_cases hsuccess : code = .success
    · rw [if_pos hsuccess, if_pos hsuccess]
      by_cases hempty : pyStrip (linesText (stdout trace)) = ""
      · rw [if_pos hempty, if_pos hempty]
        rfl
      · rw [if_neg hempty, if_neg hempty]
        rfl
    · rw [if_neg hsuccess, if_neg hsuccess, hcode]
      rfl

/-! ## Every fetch after a login -/

/-- The loop keeps the history, stores nothing but what the account gives, and all of it
up to the first binding that is given nothing. -/
theorem fetchBindings_serves (hP : P.Lawful) (hD : D.Lawful) {R : HermesRuntime} {binary stateDir tokenEnv : String}
    {bindings : List (String × String)} {result r : FetchResult} {tr : HermesTrace}
    (h : LoggedHistory P D deviceId backend svc dir passphrase w)
    (hrun : Runs (fetchBindings R binary stateDir tokenEnv bindings result) tr r)
    (hsteps : Steps (childStep P D deviceId backend svc dir passphrase) w tr w') :
    LoggedHistory P D deviceId backend svc dir passphrase w' ∧
    (∀ var value, r.secrets[var]? = some value → result.secrets[var]? = some value ∨
      ∃ ref, (var, ref) ∈ bindings ∧ svc.resolve tokenEnv ref = .ok value) ∧
    (Uncut tr → result.error = none →
      (r.secrets, r.error.map Prod.snd) = servedBy (svc.resolve tokenEnv) bindings result.secrets) := by
  induction bindings generalizing result tr w with
  | nil =>
    obtain ⟨rfl, rfl⟩ := hrun
    obtain rfl := hsteps
    refine ⟨h, fun var value hvalue => .inl hvalue, fun _ hnone => ?_⟩
    rw [hnone]
    rfl
  | cons b rest ih =>
    obtain ⟨var, ref⟩ := b
    obtain ⟨answer, t, rfl, hrest⟩ := runs_request_bind.mp hrun
    obtain ⟨mid, hstep, hsteps⟩ := hsteps
    obtain ⟨hmid, hread⟩ := child_resolves hP hD h hstep
    have hended : Uncut (⟨.runSecretCli (getArgv binary stateDir tokenEnv ref)
        (if tokenEnv ≠ "" then [tokenEnv] else []) 30, answer⟩ :: t) → (∃ proc, answer = .ok proc) ∧ Uncut t :=
      fun huncut => List.forall_mem_cons.mp huncut
    cases hanswer : readAnswer var answer with
    | error e =>
      obtain ⟨msg, kind⟩ := e
      rw [hanswer] at hrest
      obtain ⟨rfl, rfl⟩ := hrest
      obtain rfl := hsteps
      rw [R.fail_eq]
      refine ⟨hmid, fun var value hvalue => .inl hvalue, fun huncut _ => ?_⟩
      obtain ⟨⟨proc, hproc⟩, -⟩ := hended huncut
      have hresolve := hread proc hproc var
      rw [hanswer] at hresolve
      rw [servedBy, ← hresolve]
      rfl
    | ok value =>
      rw [hanswer] at hrest
      have hvalue : svc.resolve tokenEnv ref = .ok value := by
        cases answer with
        | error exc => cases hanswer
        | ok proc =>
          rw [← hread proc rfl var, hanswer]
          rfl
      obtain ⟨hend, hstored, hserved⟩ := ih hmid hrest hsteps
      refine ⟨hend, ?_, ?_⟩
      · intro k v hk
        obtain hearlier | ⟨ref', hmem, hresolved⟩ := hstored k v hk
        · rw [Std.ExtTreeMap.getElem?_insert] at hearlier
          by_cases heq : compare var k = .eq
          · rw [if_pos heq] at hearlier
            obtain rfl := Option.some.inj hearlier
            obtain rfl : var = k := Std.LawfulEqCmp.eq_of_compare heq
            exact .inr ⟨ref, List.mem_cons_self .., hvalue⟩
          · rw [if_neg heq] at hearlier
            exact .inl hearlier
        · exact .inr ⟨ref', List.mem_cons_of_mem _ hmem, hresolved⟩
      · intro huncut hnone
        rw [servedBy, hvalue]
        exact hserved (hended huncut).2 hnone

/-- After every history in which a login has succeeded, a fetch stores what the account
gives, up to the white space around it, and if no child is cut short it ends as the
account says. -/
theorem hermes_serves_account (hP : P.Lawful) (hD : D.Lawful) {R : HermesRuntime} {hcfg : HermesConfig} {tr : HermesTrace}
    {r : FetchResult} (h : LoggedHistory P D deviceId backend svc dir passphrase w)
    (hrun : Runs (fetch R hcfg) tr r)
    (hsteps : Steps (childStep P D deviceId backend svc dir passphrase) w tr w') :
    LoggedHistory P D deviceId backend svc dir passphrase w' ∧
    (∀ var value, r.secrets[var]? = some value → ∃ ref, (var, ref) ∈ (validateEnvMap R hcfg.env).1 ∧
      svc.resolve (R.tokenEnv hcfg) ref = .ok value) ∧
    (Uncut tr → r.binaryPath.isSome = true → (r.secrets, r.error.map Prod.snd) =
      servedBy (svc.resolve (R.tokenEnv hcfg)) (validateEnvMap R hcfg.env).1 ∅) := by
  have hempty : ∀ {result : FetchResult} {var value : String}, result.secrets = ∅ →
      result.secrets[var]? = some value → False := by
    intro result var value hnone hvalue
    rw [hnone] at hvalue
    simp at hvalue
  unfold fetch at hrun
  cases hvalid : validateEnvMap R hcfg.env with
  | mk envMap warnings =>
    simp only [hvalid] at hrun ⊢
    split at hrun
    · obtain ⟨rfl, rfl⟩ := hrun
      obtain rfl := hsteps
      rw [R.fail_eq]
      exact ⟨h, fun var value hvalue => (hempty rfl hvalue).elim, fun _ hbinary => by cases hbinary⟩
    · obtain ⟨t₁, binary, t₂, rfl, hfind, hrun⟩ := runs_bind.mp hrun
      obtain ⟨mid, hsteps₁, hsteps₂⟩ := steps_append.mp hsteps
      have hmid : mid = w := by
        unfold findBinary at hfind
        split at hfind
        · obtain rfl := runs_request.mp hfind
          obtain ⟨_, rfl, rfl⟩ := hsteps₁
          rfl
        · obtain rfl := runs_request.mp hfind
          obtain ⟨_, rfl, rfl⟩ := hsteps₁
          rfl
      subst hmid
      cases binary with
      | none =>
        obtain ⟨rfl, rfl⟩ := hrun
        obtain rfl := hsteps₂
        rw [R.fail_eq]
        exact ⟨h, fun var value hvalue => (hempty rfl hvalue).elim, fun _ hbinary => by cases hbinary⟩
      | some binary =>
        obtain ⟨hend, hstored, hserved⟩ := fetchBindings_serves hP hD h hrun hsteps₂
        refine ⟨hend, ?_, ?_⟩
        · intro var value hvalue
          exact (hstored var value hvalue).resolve_left (hempty rfl)
        · intro huncut _
          refine hserved (fun answer hanswer => huncut answer ?_) rfl
          rw [List.filterMap_append]
          exact List.mem_append_right _ hanswer

end

/-! ## A password that is bound -/

def webConfig : HermesConfig := ⟨[("PASSWORD", "vw://infra/web#password")], "", "state", "PASS"⟩

theorem webConfig_resolves : dayService.resolve "PASS" "vw://infra/web#password" = .ok "hi" := by
  have hprints : dayService.prints (.get "vw://infra/web#password" (some "PASS") false false) =
      (["hi"], .success) := vaultAccount_prints (R := dayMachine 0) (dayMachine_server 0)
  have hvalue : pyStrip (linesText ["hi"]) = "hi" := by decide
  rw [Service.resolve, hprints]
  simp only [hvalue]
  rfl

/-- Whatever its one child answers, the fetch comes to an end. -/
theorem webConfig_runs (answer : Answer) : ∃ r, r.binaryPath.isSome = true ∧
    Runs (fetch plainRuntime webConfig) [⟨.which "cryptile", some "/usr/bin/cryptile"⟩,
      ⟨.runSecretCli (getArgv "/usr/bin/cryptile" "state" "PASS" "vw://infra/web#password") ["PASS"] 30,
        answer⟩] r := by
  have hvalid : validateEnvMap plainRuntime webConfig.env = (webConfig.env, []) := by decide
  have hloop : ∃ r : FetchResult, r.binaryPath.isSome = true ∧
      Runs (fetchBindings plainRuntime "/usr/bin/cryptile" "state" "PASS" webConfig.env
        ⟨∅, [], some "/usr/bin/cryptile", none⟩) [⟨.runSecretCli (getArgv "/usr/bin/cryptile" "state" "PASS"
          "vw://infra/web#password") ["PASS"] 30, answer⟩] r := by
    simp only [webConfig, fetchBindings]
    cases hread : readAnswer "PASSWORD" answer with
    | error e => exact ⟨_, rfl, runs_request_bind.mpr ⟨answer, [], rfl, by rw [hread]; exact ⟨rfl, rfl⟩⟩⟩
    | ok value => exact ⟨_, rfl, runs_request_bind.mpr ⟨answer, [], rfl, by rw [hread]; exact ⟨rfl, rfl⟩⟩⟩
  obtain ⟨r, hbinary, hrun⟩ := hloop
  refine ⟨r, hbinary, ?_⟩
  unfold fetch
  rw [hvalid]
  exact ⟨_, _, rfl, hrun⟩

/-- On the day after the login. -/
theorem hermes_serves_account_web : ∃ w tr r w',
    LoggedHistory plainPrimitives preloginCodecs "device" none dayService ["state"] "pw" w ∧
    Runs (fetch plainRuntime webConfig) tr r ∧
    Steps (childStep plainPrimitives preloginCodecs "device" none dayService ["state"] "pw") w tr w' ∧
    (r.secrets, r.error.map Prod.snd) = (bagOf [("PASSWORD", "hi")], none) := by
  obtain ⟨p, d, hhistory, hlogged⟩ := day_history
  obtain ⟨code, d', t, hchild, hsteps⟩ := exists_ends (dayMachine_goesOn 1)
    (cryptile plainPrimitives preloginCodecs "device" none (some "state")
      (.command (.get "vw://infra/web#password" (some "PASS") false false))) d
  have hstart : LoggedHistory plainPrimitives preloginCodecs "device" none dayService ["state"] "pw" ([p], d) :=
    ⟨hhistory, p, List.mem_singleton.mpr rfl, hlogged⟩
  obtain ⟨r, hbinary, hrun⟩ := webConfig_runs (.ok ⟨code.toNat, some (linesText (stdout t)), none⟩)
  let child : Process := ⟨some "state", .command (.get "vw://infra/web#password" (some "PASS") false false), t⟩
  have hstep : childStep plainPrimitives preloginCodecs "device" none dayService ["state"] "pw" ([p], d)
      ⟨.runSecretCli (getArgv "/usr/bin/cryptile" "state" "PASS" "vw://infra/web#password") ["PASS"] 30,
        .ok ⟨code.toNat, some (linesText (stdout t)), none⟩⟩ (child :: [p], d') := by
    refine ⟨child, ⟨_, _, _, _, rfl, rfl, rfl⟩, ⟨dayMachine_dir 1, dayMachine_gives 1⟩, hchild.reaches, hsteps,
      rfl, ?_⟩
    rintro _ ⟨⟩
    exact ⟨code, hchild, rfl, rfl⟩
  refine ⟨_, _, r, _, hstart, hrun, ⟨_, rfl, _, hstep, rfl⟩, ?_⟩
  have huncut : Uncut [⟨.which "cryptile", some "/usr/bin/cryptile"⟩,
      ⟨.runSecretCli (getArgv "/usr/bin/cryptile" "state" "PASS" "vw://infra/web#password") ["PASS"] 30,
        .ok ⟨code.toNat, some (linesText (stdout t)), none⟩⟩] :=
    List.forall_mem_singleton.mpr ⟨_, rfl⟩
  have hserved := (hermes_serves_account plainPrimitives_lawful preloginCodecs_lawful hstart hrun ⟨_, rfl, _, hstep, rfl⟩).2.2
    huncut hbinary
  have hvalid : validateEnvMap plainRuntime webConfig.env = (webConfig.env, []) := by decide
  rw [hserved, hvalid]
  change servedBy (dayService.resolve "PASS") [("PASSWORD", "vw://infra/web#password")] ∅ = _
  rw [servedBy, webConfig_resolves]
  rfl

end Cryptile
