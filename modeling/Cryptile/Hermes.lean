import Cryptile.Commands
import Cryptile.EnvFormat

/-
  Hermes — the secret source of the Hermes plugin

  For every variable that is bound to a reference the plugin runs `cryptile get`, and
  keeps what it wrote without the white space around it. The command writes the value
  and a newline. So a value arrives as it is exactly where it begins and ends in no
  white space of its own.

  What the plugin takes from its runtime is `HermesRuntime`: the test of a variable's
  name, the passphrase variable of a configuration, Python's `repr`, and how a result
  fails. A failed result keeps what it had, and says why (`fail_eq`).

  Correspondence (Python ↔ Lean):
    `_validate_env_map`        ↔ `validateEnvMap`
    `_find_binary`             ↔ `findBinary`
    `_EXIT_KINDS`              ↔ `exitKind`
    `run_secret_cli`           ↔ `HermesReq.runSecretCli`
    `FetchResult`              ↔ `FetchResult`; `fail` is the runtime's
    `CryptileSource.fetch`     ↔ `fetch`, its loop `fetchBindings`, with `readAnswer`
-/

namespace Cryptile
open Text Interaction

/-! ## The plugin -/

inductive ErrorKind where
  | notConfigured
  | binaryMissing
  | refInvalid
  | authFailed
  | network
  | emptyValue
  | internal
  deriving DecidableEq, Repr

/-- The members that are read, as texts: no bindings where `env` is no mapping. -/
structure HermesConfig where
  env : List (String × String)
  binaryPath : String
  stateDir : String
  passphraseEnv : String

structure CompletedProcess where
  returncode : Int
  stdout : Option String
  stderr : Option String
  deriving DecidableEq, Repr

inductive HermesReq where
  | pinnedBinary (pin : String)
  | which (name : String)
  | runSecretCli (argv allowEnv : List String) (timeout : Nat)
  deriving DecidableEq, Repr

/-- A pinned binary is its expanded path, where that is a file with an executable bit. -/
abbrev HermesAns : HermesReq → Type
  | .pinnedBinary _ => Option String
  | .which _ => Option String
  | .runSecretCli _ _ _ => Except String CompletedProcess

abbrev Hermes := Prog HermesAns
abbrev HermesTrace := Trace HermesAns

structure FetchResult where
  secrets : FieldBag
  warnings : List String
  binaryPath : Option String
  error : Option (String × ErrorKind)

structure HermesRuntime where
  isValidEnvName : String → Bool
  tokenEnv : HermesConfig → String
  repr : String → String
  fail : FetchResult → String → ErrorKind → FetchResult
  fail_eq : ∀ result msg kind, fail result msg kind = { result with error := some (msg, kind) }

/-- A key keeps its place where its value changes. -/
def dictSet (d : List (String × String)) (k v : String) : List (String × String) :=
  if d.any (fun p => p.1 == k) then d.map (fun p => if p.1 = k then (k, v) else p) else d ++ [(k, v)]

/-- A binding that is well formed, or a warning. -/
def addBinding (R : HermesRuntime) (acc : List (String × String) × List String)
    (binding : String × String) : List (String × String) × List String :=
  let (valid, warnings) := acc
  let (var, ref) := binding
  if !R.isValidEnvName var then
    (valid, warnings ++ ["secrets.cryptile.env: skipping invalid env var name " ++ R.repr var])
  else if (stripPrefix ref "vw://").isNone then
    (valid, warnings ++ ["secrets.cryptile.env: skipping non-vw reference for " ++ var ++
      " (got " ++ R.repr ref ++ ")"])
  else (dictSet valid var ref, warnings)

def validateEnvMap (R : HermesRuntime) (envMap : List (String × String)) :
    List (String × String) × List String :=
  envMap.foldl (addBinding R) ([], [])

def findBinary (pin : String) : Hermes (Option String) :=
  if pin ≠ "" then request (A := HermesAns) (.pinnedBinary pin)
  else request (A := HermesAns) (.which "cryptile")

def exitKind (returncode : Int) : ErrorKind :=
  if returncode = 2 then .refInvalid
  else if returncode = 3 then .authFailed
  else if returncode = 4 then .network
  else if returncode = 5 then .emptyValue
  else .internal

/-- The value a run of the command gives a variable, or why it gives none. -/
def readAnswer (var : String) :
    Except String CompletedProcess → Except (String × ErrorKind) String
  | .error exc => .error ("cryptile get failed: " ++ exc, .network)
  | .ok proc =>
    if proc.returncode ≠ 0 then
      .error ("cryptile get exited " ++ toString proc.returncode ++ " for " ++ var ++ ": " ++
        String.ofList ((pyStrip (proc.stderr.getD "")).toList.take 200), exitKind proc.returncode)
    else
      let value := pyStrip (proc.stdout.getD "")
      if value = "" then .error ("cryptile get returned empty output for " ++ var ++ ".", .emptyValue)
      else .ok value

def getArgv (binary stateDir tokenEnv ref : String) : List String :=
  [binary, "get"] ++ (if stateDir ≠ "" then ["--state-dir", stateDir] else []) ++
    ["--passphrase-env", tokenEnv, "--", ref]

def fetchBindings (R : HermesRuntime) (binary stateDir tokenEnv : String) :
    List (String × String) → FetchResult → Hermes FetchResult
  | [], result => return result
  | (var, ref) :: rest, result => do
    let allowEnv := if tokenEnv ≠ "" then [tokenEnv] else []
    let answer ← request (A := HermesAns)
      (.runSecretCli (getArgv binary stateDir tokenEnv ref) allowEnv 30)
    match readAnswer var answer with
    | .error (msg, kind) => return R.fail result msg kind
    | .ok value =>
      fetchBindings R binary stateDir tokenEnv rest
        { result with secrets := result.secrets.insert var value }

def notFound (R : HermesRuntime) (binaryPath : String) : String :=
  "cryptile binary not found on PATH" ++
    (if binaryPath ≠ "" then " (binary_path=" ++ R.repr binaryPath ++ ")" else "") ++ "."

def fetch (R : HermesRuntime) (cfg : HermesConfig) : Hermes FetchResult :=
  let (envMap, warnings) := validateEnvMap R cfg.env
  let result : FetchResult := { secrets := ∅, warnings := warnings, binaryPath := none, error := none }
  if envMap.isEmpty then
    return R.fail result ("secrets.cryptile.enabled is true but the env: map is empty. " ++
      "Add ENV_VAR: vw://collection/item#field entries.") .notConfigured
  else do
    let binary ← findBinary cfg.binaryPath
    let result := { result with binaryPath := binary }
    match binary with
    | none => return R.fail result (notFound R cfg.binaryPath) .binaryMissing
    | some binary => fetchBindings R binary cfg.stateDir (R.tokenEnv cfg) envMap result

/-! ## What `cryptile get` resolves -/

def gotEvent : Sigma CliAns → Option Secret
  | ⟨.provider (.getSecret _ _), .ok secret⟩ => some secret
  | _ => none

/-- The secret a run of `get` got. -/
def gotBy (tr : CliTrace) : Option Secret := lastSeen gotEvent tr

/-- The value a run of `get` resolves its reference to. -/
def resolvedBy (ref : String) (tr : CliTrace) : Option String :=
  (Ref.parse ref).toOption.bind (fun r => (gotBy tr).bind (selectField r))

theorem getOnce_got {r : Ref} {s s' : Session} {secret : Secret} {tr : CliTrace}
    (h : Runs (getOnce r s).run tr (.ok (s', secret))) : gotBy tr = some secret := by
  obtain ⟨x, hx, e⟩ := runs_except_map.mp h
  obtain rfl := runs_request.mp hx
  cases x with
  | error => cases e
  | ok secret' =>
    cases e
    rfl

theorem gotBy_offline {tr : CliTrace} (h : ∀ e ∈ tr, offline e) : gotBy tr = none := by
  refine lastSeen_none (fun e he => ?_)
  have hback : isBackend e = false := (h e he).2
  unfold gotEvent
  split
  · cases hback
  · rfl

/-- The value `ops::get` returns is the one it selects in what the provider gave last. -/
theorem get_got {r : Ref} {s s' : Session} {v : String} {tr : CliTrace}
    (h : Runs (Ops.get r s).run tr (.ok (s', v))) :
    ∃ secret, gotBy tr = some secret ∧ selectField r secret = some v := by
  obtain ⟨r', h', he⟩ := retried_runs.mp h
  cases r' with
  | error e => cases he
  | ok p =>
    refine ⟨p.2, h'.sees getOnce_got rfl, ?_⟩
    simp only [Except.bind, getFinish] at he
    split at he
    · next hv =>
      cases he
      exact hv
    · cases he

theorem emitValue_runs {label v : String} {tr : CliTrace} {code : ExitCode}
    (h : Runs (emitValue false label v) tr code) : tr = [⟨.println v, ()⟩] := by
  obtain ⟨_, _, rfl, rfl, _⟩ := h
  rfl

/-- A `get` that ends well has resolved its reference, and printed the value. -/
theorem getCommand_prints {ref : String} {passphraseEnv : Option String} {tr : CliTrace}
    (h : Runs (getCommand ref passphraseEnv false false) tr .success) :
    ∃ v, resolvedBy ref tr = some v ∧ stdoutOf tr = [v] := by
  unfold getCommand at h
  cases hr : Ref.parse ref with
  | error e =>
    rw [hr] at h
    cases (stdoutOf_die h).2
  | ok r =>
    rw [hr] at h
    rcases sessionCommand_runs h with ⟨-, hcode⟩ | ⟨t₀, t₁, t₂, p, s, x, rfl, hsil, -, -, hrun, hend⟩
    · exact absurd rfl hcode
    · cases x with
      | error e =>
        have hcode := (stdoutOf_die hend).2
        cases e <;> cases hcode
      | ok pair =>
        obtain ⟨s', v⟩ := pair
        obtain ⟨t₃, t₄, rfl, hseal, hemit⟩ := hend
        obtain rfl := emitValue_runs hemit
        obtain ⟨secret, hgot, hfield⟩ := get_got hrun
        have hstart : gotBy t₀ = none := gotBy_offline (fun e he => (hsil e he).1)
        have hafter : gotBy (t₃ ++ [⟨.println v, ()⟩]) = none :=
          gotBy_offline (List.forall_mem_append.mpr ⟨fun e he => (reseal_silent hseal e he).1,
            List.forall_mem_singleton.mpr ⟨rfl, rfl⟩⟩)
        have hall : gotBy (t₀ ++ (t₁ ++ (t₃ ++ [⟨.println v, ()⟩]))) = some secret :=
          (lastSeen_middle hstart hafter).trans hgot
        refine ⟨v, ?_, ?_⟩
        · rw [resolvedBy, hr, hall]
          exact hfield
        · rw [stdoutOf_append, stdoutOf_append, stdoutOf_append, stdoutOf_of_silent hsil,
            stdoutOf_op (Op.requests hrun), stdoutOf_of_silent (reseal_silent hseal)]
          rfl

/-! ## Every run of `fetch` -/

theorem dictSet_keys_nodup {d : List (String × String)} (k v : String) (h : (d.map Prod.fst).Nodup) :
    ((dictSet d k v).map Prod.fst).Nodup := by
  unfold dictSet
  split
  · have hkeys : (d.map (fun p => if p.1 = k then (k, v) else p)).map Prod.fst = d.map Prod.fst := by
      rw [List.map_map]
      apply List.map_congr_left
      intro p _
      by_cases hp : p.1 = k
      · simp [hp]
      · simp [hp]
    rw [hkeys]
    exact h
  · next hk =>
    have hout : k ∉ d.map Prod.fst := by simpa using hk
    rw [List.map_append, List.map_singleton, List.nodup_append]
    refine ⟨h, List.nodup_singleton k, fun a ha b hb he => hout ?_⟩
    have hk : b = k := List.mem_singleton.mp hb
    rw [← hk, ← he]
    exact ha

theorem addBinding_nodup {R : HermesRuntime} {acc : List (String × String) × List String}
    (b : String × String) (h : (acc.1.map Prod.fst).Nodup) :
    ((addBinding R acc b).1.map Prod.fst).Nodup := by
  obtain ⟨valid, warnings⟩ := acc
  obtain ⟨var, ref⟩ := b
  simp only [addBinding]
  split
  · exact h
  · split
    · exact h
    · exact dictSet_keys_nodup var ref h

/-- Every variable is bound once. -/
theorem validateEnvMap_nodup (R : HermesRuntime) (envMap : List (String × String)) :
    ((validateEnvMap R envMap).1.map Prod.fst).Nodup := by
  have hfold : ∀ acc : List (String × String) × List String, (acc.1.map Prod.fst).Nodup →
      ((envMap.foldl (addBinding R) acc).1.map Prod.fst).Nodup := by
    induction envMap with
    | nil =>
      intro acc h
      exact h
    | cons b envMap ih =>
      intro acc h
      exact ih _ (addBinding_nodup b h)
  exact hfold ([], []) List.nodup_nil

abbrev Answer := Except String CompletedProcess

def answerOf : Sigma HermesAns → Option Answer
  | ⟨.runSecretCli _ _ _, x⟩ => some x
  | _ => none

/-- How the loop ends: at the first answer that gives no value, or behind the last. -/
inductive LoopEnds : List ((String × String) × Answer) → FetchResult → FetchResult → Prop
  | finished {result} : LoopEnds [] result result
  | failed {p : (String × String) × Answer} {result msg kind} :
    readAnswer p.1.1 p.2 = .error (msg, kind) → LoopEnds [p] result { result with error := some (msg, kind) }
  | stored {p : (String × String) × Answer} {served value result r} :
    readAnswer p.1.1 p.2 = .ok value →
    LoopEnds served { result with secrets := result.secrets.insert p.1.1 value } r →
    LoopEnds (p :: served) result r

section
variable {R : HermesRuntime} {binary stateDir tokenEnv : String} {bindings : List (String × String)}
  {result r : FetchResult} {tr : HermesTrace} {served : List ((String × String) × Answer)}

/-- The loop runs the command for one binding after the other. -/
theorem fetchBindings_runs (h : Runs (fetchBindings R binary stateDir tokenEnv bindings result) tr r) :
    LoopEnds (bindings.zip (tr.filterMap answerOf)) result r ∧
    ∀ p ∈ bindings.zip (tr.filterMap answerOf), ∃ allowEnv, (⟨.runSecretCli
      (getArgv binary stateDir tokenEnv p.1.2) allowEnv 30, p.2⟩ : Sigma HermesAns) ∈ tr := by
  induction bindings generalizing result tr with
  | nil =>
    obtain ⟨rfl, rfl⟩ := h
    exact ⟨.finished, fun p hp => by cases hp⟩
  | cons b bindings ih =>
    obtain ⟨var, ref⟩ := b
    obtain ⟨answer, rest, rfl, hrest⟩ := runs_request_bind.mp h
    have hzip : ((var, ref) :: bindings).zip (List.filterMap answerOf (⟨.runSecretCli
        (getArgv binary stateDir tokenEnv ref) (if tokenEnv ≠ "" then [tokenEnv] else []) 30,
          answer⟩ :: rest)) = ((var, ref), answer) :: bindings.zip (rest.filterMap answerOf) := rfl
    rw [hzip]
    cases hread : readAnswer var answer with
    | error e =>
      rw [hread] at hrest
      obtain ⟨rfl, rfl⟩ := hrest
      rw [R.fail_eq]
      have hnone : bindings.zip (List.filterMap answerOf []) = [] := List.zip_nil_right
      rw [hnone]
      refine ⟨.failed hread, fun p hp => ?_⟩
      obtain rfl := List.mem_singleton.mp hp
      exact ⟨_, List.mem_singleton.mpr rfl⟩
    | ok value =>
      rw [hread] at hrest
      obtain ⟨hends, hmem⟩ := ih hrest
      refine ⟨.stored hread hends, fun p hp => ?_⟩
      rcases List.mem_cons.mp hp with rfl | hp
      · exact ⟨_, List.mem_cons_self ..⟩
      · obtain ⟨allowEnv, hin⟩ := hmem p hp
        exact ⟨allowEnv, List.mem_cons_of_mem _ hin⟩

theorem LoopEnds.kept (h : LoopEnds served result r) {k : String} :
    k ∉ served.map (fun p => p.1.1) → r.secrets[k]? = result.secrets[k]? := by
  intro hk
  induction h with
  | finished => rfl
  | failed => rfl
  | @stored p served value result r hread _ ih =>
    rw [List.map_cons, List.mem_cons, not_or] at hk
    rw [ih hk.2, Std.ExtTreeMap.getElem?_insert]
    simp [Ne.symm hk.1]

/-- Either every answer gave its value, or the last one gave none. -/
theorem LoopEnds.outcome (h : LoopEnds served result r)
    (hnodup : (served.map (fun p => p.1.1)).Nodup) (herror : result.error = none) :
    (r.error = none ∧ ∀ p ∈ served, ∃ value, readAnswer p.1.1 p.2 = .ok value ∧
      r.secrets[p.1.1]? = some value) ∨
    ∃ p e, served.getLast? = some p ∧ readAnswer p.1.1 p.2 = .error e ∧ r.error = some e := by
  induction h with
  | finished => exact Or.inl ⟨herror, fun p hp => by cases hp⟩
  | @failed p result msg kind hread => exact Or.inr ⟨p, _, rfl, hread, rfl⟩
  | @stored p served value result r hread hrest ih =>
    rw [List.map_cons, List.nodup_cons] at hnodup
    rcases ih hnodup.2 herror with ⟨hnone, hall⟩ | ⟨q, e, hlast, hfail, he⟩
    · refine Or.inl ⟨hnone, fun q hq => ?_⟩
      rcases List.mem_cons.mp hq with rfl | hq
      · refine ⟨value, hread, ?_⟩
        rw [hrest.kept hnodup.1, Std.ExtTreeMap.getElem?_insert_self]
      · exact hall q hq
    · refine Or.inr ⟨q, e, ?_, hfail, he⟩
      rw [List.getLast?_cons, hlast]
      rfl

end

/-- Each binding that was asked for, with the answer its run gave. -/
def answered (R : HermesRuntime) (cfg : HermesConfig) (tr : HermesTrace) :
    List ((String × String) × Answer) :=
  (validateEnvMap R cfg.env).1.zip (tr.filterMap answerOf)

section
variable {R : HermesRuntime} {cfg : HermesConfig} {r : FetchResult} {tr : HermesTrace}

theorem findBinary_runs {pin : String} {binary : Option String} {tr : HermesTrace}
    (h : Runs (findBinary pin) tr binary) : tr.filterMap answerOf = [] := by
  unfold findBinary at h
  split at h
  · obtain rfl := runs_request.mp h
    rfl
  · obtain rfl := runs_request.mp h
    rfl

/-- A fetch asks for no binding, or runs the loop. -/
theorem fetch_runs (h : Runs (fetch R cfg) tr r) : answered R cfg tr = [] ∨
    ∃ binary result, result.error = none ∧ LoopEnds (answered R cfg tr) result r ∧
      ∀ p ∈ answered R cfg tr, ∃ allowEnv, (⟨.runSecretCli
        (getArgv binary cfg.stateDir (R.tokenEnv cfg) p.1.2) allowEnv 30, p.2⟩ :
          Sigma HermesAns) ∈ tr := by
  unfold fetch at h
  unfold answered
  cases hvalid : validateEnvMap R cfg.env with
  | mk envMap warnings =>
    simp only [hvalid] at h
    split at h
    · obtain ⟨rfl, -⟩ := h
      exact Or.inl List.zip_nil_right
    · obtain ⟨t₁, binary, t₂, rfl, hfind, h⟩ := runs_bind.mp h
      rw [List.filterMap_append, findBinary_runs hfind, List.nil_append]
      cases binary with
      | none =>
        obtain ⟨rfl, -⟩ := h
        exact Or.inl List.zip_nil_right
      | some binary =>
        obtain ⟨hends, hmem⟩ := fetchBindings_runs h
        refine Or.inr ⟨binary, _, rfl, hends, fun p hp => ?_⟩
        obtain ⟨allowEnv, hin⟩ := hmem p hp
        exact ⟨allowEnv, List.mem_append_right t₁ hin⟩

theorem answered_nodup (R : HermesRuntime) (cfg : HermesConfig) (tr : HermesTrace) :
    ((answered R cfg tr).map (fun p => p.1.1)).Nodup := by
  have hsub : ∀ {α β : Type} (l : List α) (l' : List β), ((l.zip l').map Prod.fst).Sublist l := by
    intro α β l
    induction l with
    | nil =>
      intro l'
      exact List.Sublist.refl []
    | cons a l ih =>
      intro l'
      cases l' with
      | nil => exact List.nil_sublist _
      | cons b l' => exact (ih l').cons_cons a
  have hkeys := (hsub (validateEnvMap R cfg.env).1 (tr.filterMap answerOf)).map Prod.fst
  rw [List.map_map] at hkeys
  exact (validateEnvMap_nodup R cfg.env).sublist hkeys

end

/-! ## The value from end to end -/

/-- The process is a run of `cryptile get`: its exit code, and all of its stdout. -/
def IsRunOf (ref tokenEnv : String) (proc : CompletedProcess) (tr : CliTrace) : Prop :=
  ∃ code, Runs (getCommand ref (some tokenEnv) false false) tr code ∧
    proc.returncode = code.toNat ∧ proc.stdout = some (stdoutText tr)

/-- The binary is `cryptile`, and what it wrote is returned unchanged. -/
def RunsCryptile (tr : HermesTrace) : Prop :=
  ∀ binary stateDir tokenEnv ref allowEnv timeout proc,
    (⟨.runSecretCli (getArgv binary stateDir tokenEnv ref) allowEnv timeout, .ok proc⟩ :
      Sigma HermesAns) ∈ tr → ∃ t, IsRunOf ref tokenEnv proc t

/-- The run for a binding ended well, and `cryptile get` resolved this value in it. -/
def Resolves (tokenEnv : String) (p : (String × String) × Answer) (v : String) : Prop :=
  ∃ proc t, p.2 = .ok proc ∧ IsRunOf p.1.2 tokenEnv proc t ∧ proc.returncode = 0 ∧
    resolvedBy p.1.2 t = some v

/-- The run that was made last resolved no value but the empty one. -/
def LastIsEmpty (R : HermesRuntime) (cfg : HermesConfig) (tr : HermesTrace) : Prop :=
  ∀ p, (answered R cfg tr).getLast? = some p → ∀ v, Resolves (R.tokenEnv cfg) p v → v = ""

/-- Values are stored as they are, and only the empty one is reported to be empty. -/
structure ServesValues (R : HermesRuntime) (cfg : HermesConfig) (tr : HermesTrace)
    (r : FetchResult) : Prop where
  stored : r.error = none → ∀ p ∈ answered R cfg tr, ∀ v, Resolves (R.tokenEnv cfg) p v →
    v ≠ "" → r.secrets[p.1.1]? = some v
  reported : ∀ msg, r.error = some (msg, .emptyValue) → LastIsEmpty R cfg tr

section
variable {R : HermesRuntime} {cfg : HermesConfig} {r : FetchResult} {tr : HermesTrace}
  {tokenEnv : String} {p : (String × String) × Answer}

/-- A run that ended well resolved a value, and wrote it and a newline. -/
theorem IsRunOf.wrote {ref : String} {proc : CompletedProcess} {t : CliTrace}
    (h : IsRunOf ref tokenEnv proc t) (hzero : proc.returncode = 0) :
    ∃ v, resolvedBy ref t = some v ∧ proc.stdout = some (v ++ "\n") := by
  obtain ⟨code, hrun, hcode, hout⟩ := h
  have hsuccess : code = .success := by
    apply UInt8.toNat_inj.mp
    rw [hcode] at hzero
    exact Int.ofNat.inj hzero
  subst hsuccess
  obtain ⟨v, hv, hprinted⟩ := getCommand_prints hrun
  refine ⟨v, hv, ?_⟩
  rw [hout, stdoutText, hprinted, List.flatMap_singleton, String.ofList_append, String.ofList_toList]

/-- The plugin reads the value that was resolved without the white space around it. -/
theorem readAnswer_resolved {v : String} (h : Resolves tokenEnv p v) :
    (pyStrip v = "" ∧ ∃ msg, readAnswer p.1.1 p.2 = .error (msg, .emptyValue)) ∨
    (pyStrip v ≠ "" ∧ readAnswer p.1.1 p.2 = .ok (pyStrip v)) := by
  obtain ⟨proc, t, hp, hrun, hzero, hv⟩ := h
  obtain ⟨v', hv', hout⟩ := hrun.wrote hzero
  obtain rfl : v' = v := Option.some.inj (hv'.symm.trans hv)
  have hread : pyStrip (proc.stdout.getD "") = pyStrip v' := by
    rw [hout]
    exact pyStrip_append_newline v'
  rw [hp]
  simp only [readAnswer, hzero, ne_eq, not_true_eq_false, if_false, hread]
  by_cases hempty : pyStrip v' = ""
  · left
    rw [if_pos hempty]
    exact ⟨hempty, _, rfl⟩
  · right
    rw [if_neg hempty]
    exact ⟨hempty, rfl⟩

/-- A value that was read was resolved. -/
theorem resolves_of_read {value : String} (hchild : RunsCryptile tr) {binary stateDir : String}
    {allowEnv : List String} (hmem : (⟨.runSecretCli (getArgv binary stateDir tokenEnv p.1.2)
      allowEnv 30, p.2⟩ : Sigma HermesAns) ∈ tr) (h : readAnswer p.1.1 p.2 = .ok value) :
    ∃ v, Resolves tokenEnv p v := by
  cases hp : p.2 with
  | error exc =>
    rw [hp] at h
    cases h
  | ok proc =>
    rw [hp] at h hmem
    obtain ⟨t, hrun⟩ := hchild _ _ _ _ _ _ _ hmem
    have hzero : proc.returncode = 0 := by
      by_contra hne
      simp only [readAnswer] at h
      rw [if_pos hne] at h
      cases h
    obtain ⟨v, hv, -⟩ := hrun.wrote hzero
    exact ⟨v, proc, t, hp, hrun, hzero, hv⟩

/-- What a run of the loop makes of the values that were resolved. -/
theorem fetch_outcome (h : Runs (fetch R cfg) tr r) (hchild : RunsCryptile tr) :
    (r.error = none ∧ (∀ p ∈ answered R cfg tr, ∃ v, Resolves (R.tokenEnv cfg) p v) ∧
      ∀ p ∈ answered R cfg tr, ∀ v, Resolves (R.tokenEnv cfg) p v →
        pyStrip v ≠ "" ∧ r.secrets[p.1.1]? = some (pyStrip v)) ∨
    (∃ p e, (answered R cfg tr).getLast? = some p ∧ r.error = some e ∧
      ∀ v, Resolves (R.tokenEnv cfg) p v → pyStrip v = "" ∧ e.2 = .emptyValue) ∨
    answered R cfg tr = [] := by
  rcases fetch_runs h with hnone | ⟨binary, result, hresult, hends, hmem⟩
  · exact Or.inr (Or.inr hnone)
  · rcases hends.outcome (answered_nodup R cfg tr) hresult with ⟨hok, hall⟩ | ⟨p, e, hlast, hfail, he⟩
    · refine Or.inl ⟨hok, fun p hp => ?_, fun p hp v hv => ?_⟩
      · obtain ⟨value, hread, -⟩ := hall p hp
        obtain ⟨allowEnv, hin⟩ := hmem p hp
        exact resolves_of_read hchild hin hread
      · obtain ⟨value, hread, hstored⟩ := hall p hp
        rcases readAnswer_resolved hv with ⟨-, msg, hbad⟩ | ⟨hne, hgood⟩
        · rw [hbad] at hread
          cases hread
        · rw [hgood] at hread
          cases hread
          exact ⟨hne, hstored⟩
    · refine Or.inr (Or.inl ⟨p, e, hlast, he, fun v hv => ?_⟩)
      rcases readAnswer_resolved hv with ⟨hempty, msg, hbad⟩ | ⟨-, hgood⟩
      · rw [hbad] at hfail
        cases hfail
        exact ⟨hempty, rfl⟩
      · rw [hgood] at hfail
        cases hfail

/-- Where every value is stored, none is empty, and they are served if they are bare. -/
theorem serves_stored_iff (hok : r.error = none)
    (hall : ∀ p ∈ answered R cfg tr, ∃ v, Resolves (R.tokenEnv cfg) p v)
    (hstored : ∀ p ∈ answered R cfg tr, ∀ v, Resolves (R.tokenEnv cfg) p v →
      pyStrip v ≠ "" ∧ r.secrets[p.1.1]? = some (pyStrip v)) :
    ServesValues R cfg tr r ↔ LastIsEmpty R cfg tr ∨
      ∀ p ∈ answered R cfg tr, ∀ v, Resolves (R.tokenEnv cfg) p v → PyBare v := by
  have hnonempty : ∀ p ∈ answered R cfg tr, ∀ v, Resolves (R.tokenEnv cfg) p v → v ≠ "" := by
    intro p hp v hv he
    apply (hstored p hp v hv).1
    rw [he]
    rfl
  refine ⟨?_, ?_⟩
  · intro hserves
    refine Or.inr (fun p hp v hv => (pyStrip_eq_self_iff v).mp ?_)
    have hkept := hserves.stored hok p hp v hv (hnonempty p hp v hv)
    exact Option.some.inj ((hstored p hp v hv).2.symm.trans hkept)
  · intro hcond
    refine ⟨fun _ p hp v hv _ => ?_, fun msg he => ?_⟩
    · rcases hcond with hlast | hbare
      · -- the last run resolved a value that is stored, so it is not empty
        obtain ⟨q, hq⟩ := Option.isSome_iff_exists.mp
          (List.getLast?_isSome.mpr (List.ne_nil_of_mem hp))
        have hmem := List.mem_of_getLast? hq
        obtain ⟨w, hw⟩ := hall q hmem
        exact absurd (hlast q hq w hw) (hnonempty q hmem w hw)
      · rw [(hstored p hp v hv).2, (pyStrip_eq_self_iff v).mpr (hbare p hp v hv)]
    · rw [hok] at he
      cases he

/-- Where the last answer gave no value, it is reported rightly if it resolved none. -/
theorem serves_failed_iff {e : String × ErrorKind} (hlast : (answered R cfg tr).getLast? = some p)
    (he : r.error = some e)
    (hempty : ∀ v, Resolves (R.tokenEnv cfg) p v → pyStrip v = "" ∧ e.2 = .emptyValue) :
    ServesValues R cfg tr r ↔ LastIsEmpty R cfg tr ∨
      ∀ p ∈ answered R cfg tr, ∀ v, Resolves (R.tokenEnv cfg) p v → PyBare v := by
  refine ⟨?_, ?_⟩
  · intro hserves
    left
    intro q hq v hv
    obtain rfl : p = q := Option.some.inj (hlast.symm.trans hq)
    have hkind := (hempty v hv).2
    exact hserves.reported e.1 (by rw [he, ← hkind]) p hlast v hv
  · intro hcond
    refine ⟨fun hok => ?_, fun msg _ q hq v hv => ?_⟩
    · rw [he] at hok
      cases hok
    · rcases hcond with hlast' | hbare
      · exact hlast' q hq v hv
      · obtain rfl : p = q := Option.some.inj (hlast.symm.trans hq)
        rw [← (pyStrip_eq_self_iff v).mpr (hbare p (List.mem_of_getLast? hlast) v hv)]
        exact (hempty v hv).1

/-- Values arrive as they are exactly where no value has white space around it, or the
fetch has nothing to store: its last run fails of itself, or resolves the empty value. -/
theorem servesValues_iff (h : Runs (fetch R cfg) tr r) (hchild : RunsCryptile tr) :
    ServesValues R cfg tr r ↔ LastIsEmpty R cfg tr ∨
      ∀ p ∈ answered R cfg tr, ∀ v, Resolves (R.tokenEnv cfg) p v → PyBare v := by
  rcases fetch_outcome h hchild with ⟨hok, hall, hstored⟩ | ⟨p, e, hlast, he, hempty⟩ | hnone
  · exact serves_stored_iff hok hall hstored
  · exact serves_failed_iff hlast he hempty
  · have hlast : LastIsEmpty R cfg tr := by
      intro p hp
      rw [hnone] at hp
      cases hp
    refine ⟨fun _ => Or.inl hlast, fun _ => ⟨fun _ p hp => ?_, fun _ _ => hlast⟩⟩
    rw [hnone] at hp
    cases hp

end

/-- The arguments tell the variable of the passphrase and the reference. -/
theorem getArgv_inj {binary binary' stateDir stateDir' tokenEnv tokenEnv' ref ref' : String}
    (h : getArgv binary stateDir tokenEnv ref = getArgv binary' stateDir' tokenEnv' ref') :
    tokenEnv = tokenEnv' ∧ ref = ref' := by
  have hdrop := congrArg (fun l => (l.reverse.take 3).reverse) h
  simpa [getArgv, List.reverse_append] using hdrop

/-! ## A key with a newline at its end -/

def keyRef : String := "vw://infra/ssh#private_key"

def keySecret (v : String) : Secret :=
  ⟨⟨"i1", "ssh", "c1", ["private_key"]⟩, bagOf [("private_key", v)]⟩

/-- A run of `cryptile get` that finds the value. -/
def getRun (v : String) : CliTrace :=
  [⟨.loggedIn, true⟩, ⟨.loadConfig, .ok ⟨"https://vault", "a@b"⟩⟩, ⟨.envVar "PASS", some "pw"⟩,
    ⟨.loadSession "pw", .ok ⟨"vw", "h"⟩⟩, ⟨.newProvider "https://vault" true, .ok ()⟩,
    ⟨.provider (.sessionExpiry ⟨"vw", "h"⟩), none⟩,
    ⟨.provider (.getSecret ⟨"vw", "h"⟩ ⟨"vw", "infra/ssh", "private_key", true⟩), .ok (keySecret v)⟩,
    ⟨.println v, ()⟩]

def plainRuntime : HermesRuntime where
  isValidEnvName _ := true
  tokenEnv := HermesConfig.passphraseEnv
  repr := id
  fail result msg kind := { result with error := some (msg, kind) }
  fail_eq _ _ _ := rfl

def keyConfig : HermesConfig := ⟨[("SSH_KEY", keyRef)], "", "", "PASS"⟩

def keyFetch (v : String) : HermesTrace :=
  [⟨.which "cryptile", some "/usr/bin/cryptile"⟩,
    ⟨.runSecretCli (getArgv "/usr/bin/cryptile" "" "PASS" keyRef) ["PASS"] 30,
      .ok ⟨0, some (v ++ "\n"), some ""⟩⟩]

theorem getRun_isRun {v : String}
    (h : replay (getCommand keyRef (some "PASS") false false) (getRun v) = some 0) :
    IsRunOf keyRef "PASS" ⟨0, some (v ++ "\n"), some ""⟩ (getRun v) := by
  have hout : stdoutOf (getRun v) = [v] := rfl
  refine ⟨0, runs_of_replay h, rfl, ?_⟩
  rw [stdoutText, hout, List.flatMap_singleton, String.ofList_append, String.ofList_toList]

theorem keyFetch_runsCryptile {v : String}
    (h : replay (getCommand keyRef (some "PASS") false false) (getRun v) = some 0) :
    RunsCryptile (keyFetch v) := by
  intro binary stateDir tokenEnv ref allowEnv timeout proc hmem
  rcases List.mem_cons.mp hmem with he | hmem
  · cases he
  · have he := List.mem_singleton.mp hmem
    obtain ⟨hreq, hans⟩ := Sigma.mk.inj he
    obtain ⟨hargv, -, -⟩ := HermesReq.runSecretCli.inj hreq
    obtain ⟨rfl, rfl⟩ := getArgv_inj hargv
    obtain rfl := Except.ok.inj (eq_of_heq hans)
    exact ⟨getRun v, getRun_isRun h⟩

def keyStart : FetchResult := ⟨∅, [], some "/usr/bin/cryptile", none⟩

/-- The fetch ends as its one answer is read. -/
theorem keyFetch_runs (v : String) : Runs (fetch plainRuntime keyConfig) (keyFetch v)
    (match readAnswer "SSH_KEY" (.ok ⟨0, some (v ++ "\n"), some ""⟩) with
      | .error (msg, kind) => { keyStart with error := some (msg, kind) }
      | .ok value => { keyStart with secrets := keyStart.secrets.insert "SSH_KEY" value }) := by
  have hvalid : validateEnvMap plainRuntime keyConfig.env = ([("SSH_KEY", keyRef)], []) := by decide
  unfold fetch
  rw [hvalid]
  refine ⟨_, _, rfl, ?_⟩
  change Runs (fetchBindings plainRuntime "/usr/bin/cryptile" "" "PASS" [("SSH_KEY", keyRef)] keyStart) _ _
  rw [fetchBindings]
  refine runs_request_bind.mpr ⟨_, _, rfl, ?_⟩
  cases readAnswer "SSH_KEY" (.ok ⟨0, some (v ++ "\n"), some ""⟩) with
  | error e => exact ⟨rfl, rfl⟩
  | ok value => exact ⟨rfl, rfl⟩

theorem keyFetch_answered (v : String) : answered plainRuntime keyConfig (keyFetch v) =
    [(("SSH_KEY", keyRef), .ok ⟨0, some (v ++ "\n"), some ""⟩)] := by
  have hvalid : validateEnvMap plainRuntime keyConfig.env = ([("SSH_KEY", keyRef)], []) := by decide
  rw [answered, hvalid]
  rfl

theorem keyFetch_resolves {v : String}
    (h : replay (getCommand keyRef (some "PASS") false false) (getRun v) = some 0)
    (hv : resolvedBy keyRef (getRun v) = some v) :
    Resolves "PASS" (("SSH_KEY", keyRef), .ok ⟨0, some (v ++ "\n"), some ""⟩) v :=
  ⟨_, getRun v, rfl, getRun_isRun h, rfl, hv⟩

theorem servesValues_iff_key : ∃ r, Runs (fetch plainRuntime keyConfig) (keyFetch "key\n") r ∧
    (ServesValues plainRuntime keyConfig (keyFetch "key\n") r ↔
      LastIsEmpty plainRuntime keyConfig (keyFetch "key\n") ∨
      ∀ p ∈ answered plainRuntime keyConfig (keyFetch "key\n"), ∀ v,
        Resolves (plainRuntime.tokenEnv keyConfig) p v → PyBare v) :=
  ⟨_, keyFetch_runs "key\n", servesValues_iff (keyFetch_runs "key\n")
    (keyFetch_runsCryptile (by decide))⟩

/-- A key is stored without the newline at its end, and a blank is reported to be empty. -/
theorem white_space_lost :
    (∃ r, Runs (fetch plainRuntime keyConfig) (keyFetch "key\n") r ∧ RunsCryptile (keyFetch "key\n") ∧
      r.error = none ∧ r.secrets["SSH_KEY"]? = some "key" ∧
      ¬ ServesValues plainRuntime keyConfig (keyFetch "key\n") r) ∧
    (∃ r, Runs (fetch plainRuntime keyConfig) (keyFetch " ") r ∧ RunsCryptile (keyFetch " ") ∧
      r.error = some ("cryptile get returned empty output for SSH_KEY.", .emptyValue) ∧
      ¬ ServesValues plainRuntime keyConfig (keyFetch " ") r) := by
  refine ⟨?_, ?_⟩
  · have hread : readAnswer "SSH_KEY" (.ok ⟨0, some ("key\n" ++ "\n"), some ""⟩) = .ok "key" := by decide
    have hrun := keyFetch_runs "key\n"
    rw [hread] at hrun
    have hstored : (keyStart.secrets.insert "SSH_KEY" "key")["SSH_KEY"]? = some "key" :=
      Std.ExtTreeMap.getElem?_insert_self
    refine ⟨_, hrun, keyFetch_runsCryptile (by decide), rfl, hstored, fun hserves => ?_⟩
    have hmem : (("SSH_KEY", keyRef), .ok ⟨0, some ("key\n" ++ "\n"), some ""⟩) ∈
        answered plainRuntime keyConfig (keyFetch "key\n") := by
      rw [keyFetch_answered]
      exact List.mem_singleton.mpr rfl
    have hfull := hserves.stored rfl _ hmem "key\n"
      (keyFetch_resolves (by decide) (by decide)) (by decide)
    rw [hstored] at hfull
    exact absurd hfull (by decide)
  · have hread : readAnswer "SSH_KEY" (.ok ⟨0, some (" " ++ "\n"), some ""⟩) =
        .error ("cryptile get returned empty output for SSH_KEY.", .emptyValue) := by decide
    have hrun := keyFetch_runs " "
    rw [hread] at hrun
    refine ⟨_, hrun, keyFetch_runsCryptile (by decide), rfl, fun hserves => ?_⟩
    have hlast : (answered plainRuntime keyConfig (keyFetch " ")).getLast? =
        some (("SSH_KEY", keyRef), .ok ⟨0, some (" " ++ "\n"), some ""⟩) := by
      rw [keyFetch_answered]
      rfl
    have hempty := hserves.reported _ rfl _ hlast " " (keyFetch_resolves (by decide) (by decide))
    exact absurd hempty (by decide)

end Cryptile
