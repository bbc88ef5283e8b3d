import Cryptile.Ops
import Cryptile.Export

/-
  Commands — `get`, `list` and `export`, from the state directory to stdout

  The three commands load the state, open the backend, run their operation,
  re-seal the session if its handle changed, and emit. `sessionCommand` is that
  order; the commands differ in the operation, the backend and what they emit.

  `lastRotation` is the session of the last refresh that succeeded, `keyringAfter`
  the handle the sealed keyring ends up with.

  Correspondence (Rust ↔ Lean):
    `load_state_for`                 ↔ `loadStateFor`, `passphraseFor`
    `reseal`                         ↔ `reseal`
    `Command::Get`, `List`, `Export` ↔ `Command.run`, each through `sessionCommand`
-/

namespace Cryptile
open Text Interaction

/-! ## The commands -/

def passphraseFor : Option String → ExceptT String Cli String
  | some var => ExceptT.mk do
    match ← request (A := CliAns) (.envVar var) with
    | some v => return .ok v
    | none => return .error ("env var '" ++ var ++ "' (keyring passphrase) is not set")
  | none => ExceptT.mk do
    if !(← request (A := CliAns) .stdinIsTerminal) then
      return .error "no passphrase path: pass --passphrase-env VAR or run on a TTY"
    request (A := CliAns) (.promptPassword "keyring passphrase: ")

def loadConfig : Cli (Except String StateConfig) :=
  (fun x : Except String StateConfig => x.mapError (fun e => "config: " ++ e)) <$>
    request (A := CliAns) .loadConfig

def loadStateFor (passphraseEnv : Option String) :
    ExceptT String Cli (StateConfig × String × Session) := ExceptT.mk do
  if !(← request (A := CliAns) .loggedIn) then
    return .error "not logged in; run `cryptile login`"
  ExceptT.run do
    let cfg ← ExceptT.mk loadConfig
    let passphrase ← passphraseFor passphraseEnv
    let session ← ExceptT.mk (request (A := CliAns) (.loadSession passphrase))
    return (cfg, passphrase, session)

/-- Rewrite the keyring, only when the handle changed; a failure is a warning. -/
def reseal (session : Session) (passphrase before : String) : Cli Unit := do
  if session.handle = before then return ()
  match ← request (A := CliAns) (.saveKeyring session.handle passphrase) with
  | .ok () => return ()
  -- the command goes on: its output does not depend on the keyring
  | .error e => eprintln (.text ("warn: could not re-seal refreshed session: " ++ e))

/-- A command around an operation: `backend` is the scheme it opens for a session,
`emit` what it does with the operation's result. -/
def sessionCommand (o : Op) (passphraseEnv : Option String) (backend : Session → String)
    (emit : o.Out → Cli ExitCode) : Cli ExitCode := do
  match ← (loadStateFor passphraseEnv).run with
  | .error msg => die (.text msg) 3
  | .ok (cfg, passphrase, session) =>
    match ← openBackend (backend session) cfg.server true with
    | .error e => die (.text e) 2
    | .ok () =>
      match ← (o.run session).run with
      -- no re-seal here, also where the operation has refreshed its session
      | .error e => dieProvider e
      | .ok (sess, out) => do
        reseal sess passphrase session.handle
        emit out

def emitValue (agent : Bool) (label value : String) : Cli ExitCode := do
  if agent then request (A := CliAns) (.addToAgent value label)
  println value
  return .success

def emitNames : List String → Cli ExitCode
  | [] => return .success
  | n :: rest => do
    println n
    emitNames rest

inductive Command where
  | get (ref : String) (passphraseEnv : Option String) (refreshCache agent : Bool)
  | list (ns : Option String) (passphraseEnv : Option String)
  | exportNamespace (ns format : String) (passphraseEnv : Option String)

def Command.passphraseEnv : Command → Option String
  | .get _ passphraseEnv _ _ => passphraseEnv
  | .list _ passphraseEnv => passphraseEnv
  | .exportNamespace _ _ passphraseEnv => passphraseEnv

/-- Whether a command may hand its value to the agent. -/
def Command.handsOff : Command → Bool
  | .get _ _ _ agent => agent
  | _ => false

/-- The item a locus ends with. -/
def itemLabel (r : Ref) : String := (split r.locus '/').getLast?.getD ""

def getCommand (ref : String) (passphraseEnv : Option String) (refreshCache agent : Bool) :
    Cli ExitCode :=
  match Ref.parse ref with
  | .error e => die (.badRef e) 2
  | .ok r => do
    if refreshCache then request (A := CliAns) .removeCache
    sessionCommand (.get r) passphraseEnv (fun _ => r.scheme) (emitValue agent (itemLabel r))

def listCommand (ns passphraseEnv : Option String) : Cli ExitCode :=
  sessionCommand (.list ns) passphraseEnv Session.provider emitNames

def exportCommand (renderJson : FieldBag → String) (ns format : String)
    (passphraseEnv : Option String) : Cli ExitCode :=
  if format ≠ "env" ∧ format ≠ "json" then
    die (.text ("unknown format '" ++ format ++ "' (env|json)")) 2
  else
    sessionCommand (.exportNamespace ns) passphraseEnv Session.provider
      (emitExport renderJson format)

def Command.run (renderJson : FieldBag → String) : Command → Cli ExitCode
  | .get ref passphraseEnv refreshCache agent => getCommand ref passphraseEnv refreshCache agent
  | .list ns passphraseEnv => listCommand ns passphraseEnv
  | .exportNamespace ns format passphraseEnv => exportCommand renderJson ns format passphraseEnv

/-! ## What a run reads and leaves -/

/-- The handle an event finds in the sealed keyring or puts there. -/
def keyringEvent : Sigma CliAns → Option String
  | ⟨.loadSession _, .ok s⟩ => some s.handle
  | ⟨.saveLogin _ handle _, .ok _⟩ => some handle
  | ⟨.saveKeyring handle _, .ok _⟩ => some handle
  | _ => none

/-- The handle the sealed keyring holds after a run that read or wrote it. -/
def keyringAfter (tr : CliTrace) : Option String := lastSeen keyringEvent tr

def loadEvent : Sigma CliAns → Option Session
  | ⟨.loadSession _, .ok s⟩ => some s
  | _ => none

/-- The session a run loaded. -/
def loadedSession (tr : CliTrace) : Option Session := lastSeen loadEvent tr

/-- Requests that neither go to the provider nor touch the sealed session. -/
def isPlain : CliReq → Bool
  | .provider _ | .loadSession _ | .saveLogin _ _ _ | .saveKeyring _ _ => false
  | _ => true

/-- Plain requests other than output. -/
def isQuiet (q : CliReq) : Prop := isPlain q = true ∧ ¬ isPrintln q

/-- An event that is no refresh and no call to the backend. -/
def offline (e : Sigma CliAns) : Prop := refreshOf e = none ∧ isBackend e = false

/-- An offline event that prints nothing. -/
def silent (e : Sigma CliAns) : Prop := offline e ∧ ¬ isPrintln e.1

theorem keyringEvent_plain : ∀ {e : Sigma CliAns}, isPlain e.1 = true → keyringEvent e = none := by
  rintro ⟨q, x⟩ h
  cases q <;> first | rfl | cases h

theorem loadEvent_plain : ∀ {e : Sigma CliAns}, isPlain e.1 = true → loadEvent e = none := by
  rintro ⟨q, x⟩ h
  cases q <;> first | rfl | cases h

theorem offline_plain : ∀ {e : Sigma CliAns}, isPlain e.1 = true → offline e := by
  rintro ⟨q, x⟩ h
  cases q <;> first | exact ⟨rfl, rfl⟩ | cases h

theorem silent_quiet {e : Sigma CliAns} (h : isQuiet e.1) : silent e := ⟨offline_plain h.1, h.2⟩

theorem keyringEvent_op : ∀ {e : Sigma CliAns}, isOpReq e.1 = true → keyringEvent e = none := by
  rintro ⟨q, x⟩ h
  cases q <;> first | rfl | cases h

theorem loadEvent_op : ∀ {e : Sigma CliAns}, isOpReq e.1 = true → loadEvent e = none := by
  rintro ⟨q, x⟩ h
  cases q <;> first | rfl | cases h

theorem lastRotation_offline {tr : CliTrace} (h : ∀ e ∈ tr, offline e) : lastRotation tr = none :=
  lastSeen_none (fun e he => by rw [rotation, (h e he).1, Option.bind_none])

theorem served_offline {o : Op} {tr : CliTrace} (h : ∀ e ∈ tr, offline e) :
    tr.any o.served = false := by
  rw [List.any_eq_false]
  intro e he hserved
  have hback := served_backend hserved
  rw [(h e he).2] at hback
  contradiction

/-! ## Every run of a command -/

theorem passphraseFor_quiet (passphraseEnv : Option String) :
    Asks isQuiet (passphraseFor passphraseEnv).run := by
  have hquiet : ∀ {q}, isPlain q = true → ¬ isPrintln q → isQuiet q := fun h₁ h₂ => ⟨h₁, h₂⟩
  cases passphraseEnv with
  | some var =>
    exact asks_bind (asks_request (hquiet rfl id)) (fun v => by cases v <;> exact asks_pure _)
  | none =>
    refine asks_bind (asks_request (hquiet rfl id)) (fun tty => ?_)
    cases tty
    · exact asks_pure _
    · exact asks_request (hquiet rfl id)

theorem openBackend_asks {S : CliReq → Prop} {scheme server : String} {cached : Bool}
    (h : S (.newProvider server cached)) : Asks S (openBackend scheme server cached) := by
  unfold openBackend
  split
  · exact asks_request h
  · exact asks_pure _

theorem reseal_asks {S : CliReq → Prop} {s : Session} {passphrase before : String}
    (hsave : S (.saveKeyring s.handle passphrase)) (hnote : ∀ note, S (.eprintln note)) :
    Asks S (reseal s passphrase before) := by
  unfold reseal
  split
  · exact asks_pure _
  · refine asks_bind (asks_request hsave) (fun saved => ?_)
    cases saved
    · exact asks_request (hnote _)
    · exact asks_pure _

theorem die_silent {msg : Diag} {code code' : ExitCode} {tr : CliTrace}
    (h : Runs (die msg code) tr code') : ∀ e ∈ tr, silent e := by
  obtain ⟨_, _, rfl, rfl, rfl⟩ := h
  simp [silent, offline, refreshOf, isBackend, isPrintln]

/-- Loading the state: on success the session is read last. -/
theorem loadStateFor_runs {passphraseEnv : Option String} {tr : CliTrace}
    {r : Except String (StateConfig × String × Session)}
    (h : Runs (loadStateFor passphraseEnv).run tr r) :
    (∃ msg, r = .error msg ∧ ∀ e ∈ tr, silent e) ∨
    ∃ cfg p s t, r = .ok (cfg, p, s) ∧ tr = t ++ [⟨.loadSession p, .ok s⟩] ∧ ∀ e ∈ t, isQuiet e.1 := by
  obtain ⟨loggedIn, rest, rfl, h₁⟩ := runs_request_bind.mp h
  have hfirst : isQuiet (Sigma.fst (⟨.loggedIn, loggedIn⟩ : Sigma CliAns)) := ⟨rfl, id⟩
  cases loggedIn
  · obtain ⟨rfl, rfl⟩ := h₁
    exact .inl ⟨_, rfl, by simpa using silent_quiet hfirst⟩
  have hcfg : Asks isQuiet loadConfig := asks_bind (asks_request ⟨rfl, id⟩) (fun _ => asks_pure _)
  rcases runs_except_bind.mp h₁ with ⟨e, rfl, hc⟩ | ⟨t₁, cfg, t₂, rfl, hc, h₂⟩
  · refine .inl ⟨e, rfl, List.forall_mem_cons.mpr ⟨silent_quiet hfirst, ?_⟩⟩
    exact fun e he => silent_quiet (hcfg.runs hc e he)
  have hpass := passphraseFor_quiet passphraseEnv
  rcases runs_except_bind.mp h₂ with ⟨e, rfl, hp⟩ | ⟨t₃, p, t₄, rfl, hp, h₃⟩
  · refine .inl ⟨e, rfl, List.forall_mem_cons.mpr ⟨silent_quiet hfirst, ?_⟩⟩
    exact List.forall_mem_append.mpr ⟨fun e he => silent_quiet (hcfg.runs hc e he),
      fun e he => silent_quiet (hpass.runs hp e he)⟩
  -- the session is what is read last, so all before it is quiet
  obtain ⟨x, hx, rfl⟩ := runs_except_map.mp h₃
  obtain rfl := runs_request.mp hx
  have hquiet : ∀ e ∈ ⟨.loggedIn, true⟩ :: (t₁ ++ t₃), isQuiet e.1 :=
    List.forall_mem_cons.mpr ⟨hfirst, List.forall_mem_append.mpr ⟨hcfg.runs hc, hpass.runs hp⟩⟩
  have hsplit : (⟨.loggedIn, true⟩ :: (t₁ ++ (t₃ ++ [⟨.loadSession p, x⟩])) : CliTrace) =
      (⟨.loggedIn, true⟩ :: (t₁ ++ t₃)) ++ [⟨.loadSession p, x⟩] := by simp
  rw [hsplit]
  cases x with
  | error e =>
    refine .inl ⟨e, rfl, List.forall_mem_append.mpr ⟨fun e he => silent_quiet (hquiet e he), ?_⟩⟩
    exact List.forall_mem_singleton.mpr ⟨⟨rfl, rfl⟩, id⟩
  | ok s => exact .inr ⟨cfg, p, s, _, rfl, rfl, hquiet⟩

/-- How a command ends, once its operation has. -/
def SessionEnd {o : Op} (emit : o.Out → Cli ExitCode) (p : String) (s : Session) :
    Except ProviderError (Session × o.Out) → CliTrace → ExitCode → Prop
  | .error e, tr, code => Runs (dieProvider e) tr code
  | .ok (s', out), tr, code => ∃ t₁ t₂, tr = t₁ ++ t₂ ∧ Runs (reseal s' p s.handle) t₁ () ∧
      Runs (emit out) t₂ code

/-- A command stops before its operation and fails, or loads a session, runs the
operation on it and ends. -/
theorem sessionCommand_runs {o : Op} {passphraseEnv : Option String} {backend : Session → String}
    {emit : o.Out → Cli ExitCode} {tr : CliTrace} {code : ExitCode}
    (h : Runs (sessionCommand o passphraseEnv backend emit) tr code) :
    ((∀ e ∈ tr, silent e) ∧ code ≠ .success) ∨
    ∃ t₀ t₁ t₂ p s r, tr = t₀ ++ (t₁ ++ t₂) ∧ (∀ e ∈ t₀, silent e) ∧
      keyringAfter t₀ = some s.handle ∧ loadedSession t₀ = some s ∧
      Runs (o.run s).run t₁ r ∧ SessionEnd emit p s r t₂ code := by
  obtain ⟨t, x, rest, rfl, hload, h₁⟩ := runs_bind.mp h
  rcases loadStateFor_runs hload with ⟨msg, rfl, hoff⟩ | ⟨cfg, p, s, t', rfl, rfl, hquiet⟩
  · refine .inl ⟨List.forall_mem_append.mpr ⟨hoff, die_silent h₁⟩, ?_⟩
    rw [(stdoutOf_die h₁).2]
    decide
  have hopen : Asks isQuiet (openBackend (backend s) cfg.server true) := openBackend_asks ⟨rfl, id⟩
  obtain ⟨t₁, opened, t₂, rfl, hop, h₂⟩ := runs_bind.mp h₁
  have hquietOpen := hopen.runs hop
  have hloaded : ∀ e ∈ t' ++ [⟨.loadSession p, .ok s⟩], silent e :=
    List.forall_mem_append.mpr ⟨fun e he => silent_quiet (hquiet e he),
      List.forall_mem_singleton.mpr ⟨⟨rfl, rfl⟩, id⟩⟩
  have hopened : ∀ e ∈ t₁, silent e := fun e he => silent_quiet (hquietOpen e he)
  cases opened with
  | error e =>
    refine .inl ⟨List.forall_mem_append.mpr
      ⟨hloaded, List.forall_mem_append.mpr ⟨hopened, die_silent h₂⟩⟩, ?_⟩
    rw [(stdoutOf_die h₂).2]
    decide
  | ok u =>
    obtain ⟨t₃, r, t₄, rfl, hrun, h₃⟩ := runs_bind.mp h₂
    refine .inr ⟨(t' ++ [⟨.loadSession p, .ok s⟩]) ++ t₁, t₃, t₄, p, s, r, by simp,
      List.forall_mem_append.mpr ⟨hloaded, hopened⟩, ?_, ?_, hrun, ?_⟩
    · have hnone : lastSeen keyringEvent t₁ = none :=
        lastSeen_none (fun e he => keyringEvent_plain (hquietOpen e he).1)
      rw [keyringAfter, lastSeen_append, lastSeen_append, hnone, Option.none_or]
      rfl
    · have hnone : lastSeen loadEvent t₁ = none :=
        lastSeen_none (fun e he => loadEvent_plain (hquietOpen e he).1)
      rw [loadedSession, lastSeen_append, lastSeen_append, hnone, Option.none_or]
      rfl
    · cases r with
      | error e => exact h₃
      | ok pair =>
        obtain ⟨s', out⟩ := pair
        obtain ⟨t₅, _, t₆, rfl, hseal, hemit⟩ := runs_bind.mp h₃
        exact ⟨t₅, t₆, rfl, hseal, hemit⟩

/-- The operation a command runs, if its arguments are well formed. -/
def Command.op : Command → Option Op
  | .get ref _ _ _ => (Ref.parse ref).toOption.map Op.get
  | .list ns _ => some (.list ns)
  | .exportNamespace ns format _ =>
    if format ≠ "env" ∧ format ≠ "json" then none else some (.exportNamespace ns)

/-- The answer of the provider that a command is after. -/
def Command.served (cmd : Command) (e : Sigma CliAns) : Bool := cmd.op.any (fun o => o.served e)

theorem emitValue_plain (agent : Bool) (label value : String) :
    Asks (fun q => isPlain q = true) (emitValue agent label value) := by
  cases agent
  · exact asks_bind (asks_request rfl) (fun _ => asks_pure _)
  · exact asks_bind (asks_request rfl) (fun _ => asks_bind (asks_request rfl) (fun _ => asks_pure _))

theorem emitNames_outputs (names : List String) : Asks isOutput (emitNames names) := by
  induction names with
  | nil => exact asks_pure _
  | cons n rest ih => exact asks_bind (asks_request trivial) (fun _ => ih)

theorem output_plain (q : CliReq) (h : isOutput q) : isPlain q = true := by
  cases q <;> first | rfl | exact h.elim

/-- Every run of a command is silent, or it loads a session, runs the operation on
it and ends with something plain. -/
theorem command_runs {renderJson : FieldBag → String} {cmd : Command} {tr : CliTrace}
    {code : ExitCode} (h : Runs (cmd.run renderJson) tr code) :
    (∀ e ∈ tr, silent e) ∨
    ∃ (o : Op) (emit : o.Out → Cli ExitCode) (t₀ t₁ t₂ : CliTrace) (p : String) (s : Session) (r : _),
      cmd.op = some o ∧ (∀ out, Asks (fun q => isPlain q = true) (emit out)) ∧
      tr = t₀ ++ (t₁ ++ t₂) ∧ (∀ e ∈ t₀, silent e) ∧
      keyringAfter t₀ = some s.handle ∧ loadedSession t₀ = some s ∧
      Runs (o.run s).run t₁ r ∧ SessionEnd emit p s r t₂ code := by
  cases cmd with
  | get ref passphraseEnv refreshCache agent =>
    change Runs (getCommand ref passphraseEnv refreshCache agent) tr code at h
    unfold getCommand at h
    split at h
    · exact .inl (die_silent h)
    · next r hr =>
      have hop : (Command.get ref passphraseEnv refreshCache agent).op = some (.get r) := by
        simp [Command.op, hr, Except.toOption]
      cases refreshCache with
      | false =>
        rcases sessionCommand_runs h with ⟨hoff, -⟩ | ⟨t₀, t₁, t₂, p, s, x, ht, hrest⟩
        · exact .inl hoff
        · exact .inr ⟨_, _, t₀, t₁, t₂, p, s, x, hop, fun out => emitValue_plain _ _ _, ht, hrest⟩
      | true =>
        obtain ⟨_, rest, rfl, h'⟩ := runs_request_bind.mp h
        rcases sessionCommand_runs h' with ⟨hoff, -⟩ | ⟨t₀, t₁, t₂, p, s, x, rfl, hoff, hk, hl, hrest⟩
        · exact .inl (List.forall_mem_cons.mpr ⟨⟨⟨rfl, rfl⟩, id⟩, hoff⟩)
        · refine .inr ⟨_, _, ⟨.removeCache, ()⟩ :: t₀, t₁, t₂, p, s, x, hop,
            fun out => emitValue_plain _ _ _, rfl, ?_, ?_, ?_, hrest⟩
          · exact List.forall_mem_cons.mpr ⟨⟨⟨rfl, rfl⟩, id⟩, hoff⟩
          · rw [keyringAfter, lastSeen_cons, ← keyringAfter, hk, Option.some_or]
          · rw [loadedSession, lastSeen_cons, ← loadedSession, hl, Option.some_or]
  | list ns passphraseEnv =>
    rcases sessionCommand_runs h with ⟨hoff, -⟩ | ⟨t₀, t₁, t₂, p, s, x, ht, hrest⟩
    · exact .inl hoff
    · exact .inr ⟨_, _, t₀, t₁, t₂, p, s, x, rfl,
        fun names => (emitNames_outputs names).mono output_plain, ht, hrest⟩
  | exportNamespace ns format passphraseEnv =>
    change Runs (exportCommand renderJson ns format passphraseEnv) tr code at h
    unfold exportCommand at h
    split at h
    · exact .inl (die_silent h)
    · next hf =>
      rcases sessionCommand_runs h with ⟨hoff, -⟩ | ⟨t₀, t₁, t₂, p, s, x, ht, hrest⟩
      · exact .inl hoff
      · exact .inr ⟨_, _, t₀, t₁, t₂, p, s, x, if_neg hf,
          fun secrets => (emitExport_outputs _ _ secrets).mono output_plain, ht, hrest⟩

/-! ## What happens to a rotated session -/

/-- The keyring ends up with the session of the last refresh that succeeded. -/
def KeepsRotation (tr : CliTrace) : Prop :=
  ∀ s, lastRotation tr = some s → keyringAfter tr = some s.handle

/-- What the end of a command does to the keyring, if writes to it succeed. -/
theorem SessionEnd.keyring {o : Op} {emit : o.Out → Cli ExitCode} {p : String} {s s' : Session}
    {out : o.Out} {tr : CliTrace} {code : ExitCode}
    (hemit : ∀ out, Asks (fun q => isPlain q = true) (emit out))
    (hsave : ∀ handle pass x, ⟨.saveKeyring handle pass, x⟩ ∈ tr → x = .ok ())
    (h : SessionEnd emit p s (.ok (s', out)) tr code) :
    (keyringAfter tr).getD s.handle = s'.handle ∧ ∀ e ∈ tr, offline e := by
  obtain ⟨t₁, t₂, rfl, hseal, hrun⟩ := h
  have hplain := (hemit out).runs hrun
  have hnone : lastSeen keyringEvent t₂ = none :=
    lastSeen_none (fun e he => keyringEvent_plain (hplain e he))
  rw [keyringAfter, lastSeen_append, hnone, Option.none_or]
  unfold reseal at hseal
  by_cases heq : s'.handle = s.handle
  · rw [if_pos heq] at hseal
    obtain ⟨rfl, -⟩ := hseal
    exact ⟨heq.symm, fun e he => offline_plain (hplain e (by simpa using he))⟩
  · rw [if_neg heq] at hseal
    obtain ⟨x, rest, rfl, hx⟩ := runs_request_bind.mp hseal
    obtain rfl := hsave _ _ x (by simp)
    obtain ⟨rfl, -⟩ := hx
    refine ⟨rfl, fun e he => ?_⟩
    rcases List.mem_cons.mp he with rfl | he
    · exact ⟨rfl, rfl⟩
    · exact offline_plain (hplain e (by simpa using he))

section
variable {t₀ t₁ t₂ : CliTrace}

/-- Only the operation refreshes. -/
theorem lastRotation_middle (h₀ : ∀ e ∈ t₀, offline e) (h₂ : ∀ e ∈ t₂, offline e) :
    lastRotation (t₀ ++ (t₁ ++ t₂)) = lastRotation t₁ :=
  lastSeen_middle (lastRotation_offline h₀) (lastRotation_offline h₂)

/-- Only the operation is answered by the provider. -/
theorem served_middle {o : Op} (h₀ : ∀ e ∈ t₀, offline e) (h₂ : ∀ e ∈ t₂, offline e) :
    (t₀ ++ (t₁ ++ t₂)).any o.served = t₁.any o.served := by
  calc (t₀ ++ (t₁ ++ t₂)).any o.served
      = (t₀.any o.served || (t₁.any o.served || t₂.any o.served)) := by
        rw [List.any_append, List.any_append]
    _ = t₁.any o.served := by
        rw [served_offline h₀, served_offline h₂, Bool.false_or, Bool.or_false]

/-- The keyring is what the end makes of it, or as it was loaded. -/
theorem keyringAfter_middle {handle : String} (h₀ : keyringAfter t₀ = some handle)
    (h₁ : lastSeen keyringEvent t₁ = none) :
    keyringAfter (t₀ ++ (t₁ ++ t₂)) = some ((keyringAfter t₂).getD handle) := by
  calc keyringAfter (t₀ ++ (t₁ ++ t₂))
      = ((keyringAfter t₂).or (lastSeen keyringEvent t₁)).or (keyringAfter t₀) := by
        simp only [keyringAfter, lastSeen_append]
    _ = (keyringAfter t₂).or (some handle) := by rw [h₁, h₀, Option.or_none]
    _ = some ((keyringAfter t₂).getD handle) := by cases keyringAfter t₂ <;> rfl

/-- What was loaded first stays what is loaded. -/
theorem loadedSession_middle {s : Session} (h₀ : loadedSession t₀ = some s)
    (h₁ : lastSeen loadEvent t₁ = none) (h₂ : lastSeen loadEvent t₂ = none) :
    loadedSession (t₀ ++ (t₁ ++ t₂)) = some s := by
  rw [loadedSession, lastSeen_append, lastSeen_append, h₁, h₂, ← loadedSession, h₀]
  rfl

end

/-- A rotated session reaches the keyring exactly if the refresh changed nothing,
or the provider went on to give the command the answer it is after. -/
theorem command_keeps_rotation_iff {renderJson : FieldBag → String} {cmd : Command} {tr : CliTrace}
    {code : ExitCode} (h : Runs (cmd.run renderJson) tr code)
    (hsave : ∀ handle pass x, ⟨.saveKeyring handle pass, x⟩ ∈ tr → x = .ok ()) :
    KeepsRotation tr ↔ lastRotation tr = none ∨
      (lastRotation tr).map Session.handle = (loadedSession tr).map Session.handle ∨
      tr.any cmd.served = true := by
  rcases command_runs h with hsil | ⟨o, emit, t₀, t₁, t₂, p, s, r, hop, hemit, rfl, hsil, hk, hl, hrun, hend⟩
  · have hnone := lastRotation_offline (fun e he => (hsil e he).1)
    simp [KeepsRotation, hnone]
  have hoff : ∀ e ∈ t₀, offline e := fun e he => (hsil e he).1
  have hserved : cmd.served = o.served := by
    funext e
    simp [Command.served, hop]
  have hk₁ : lastSeen keyringEvent t₁ = none :=
    lastSeen_none (fun e he => keyringEvent_op (Op.requests hrun e he))
  have hl₁ : lastSeen loadEvent t₁ = none :=
    lastSeen_none (fun e he => loadEvent_op (Op.requests hrun e he))
  have hring : keyringAfter (t₀ ++ (t₁ ++ t₂)) = some ((keyringAfter t₂).getD s.handle) :=
    keyringAfter_middle hk hk₁
  obtain ⟨hout, hsess⟩ := Op.outcome hrun
  cases r with
  | error e =>
    -- the command dies: the keyring stays as it was loaded
    have hplain := ((die_outputs _ _).mono output_plain).runs hend
    have hoff₂ : ∀ e ∈ t₂, offline e := fun e he => offline_plain (hplain e he)
    have hk₂ : keyringAfter t₂ = none := lastSeen_none (fun e he => keyringEvent_plain (hplain e he))
    have hl₂ : lastSeen loadEvent t₂ = none := lastSeen_none (fun e he => loadEvent_plain (hplain e he))
    have hnot : t₁.any o.served = false := by
      apply Bool.eq_false_iff.mpr
      intro hyes
      obtain ⟨p, hp⟩ := hout.mp hyes
      cases hp
    have hload : loadedSession (t₀ ++ (t₁ ++ t₂)) = some s := loadedSession_middle hl hl₁ hl₂
    rw [KeepsRotation, hring, lastRotation_middle hoff hoff₂, hserved, served_middle hoff hoff₂, hnot, hload,
      hk₂]
    cases lastRotation t₁ with
    | none => simp
    | some x => simp [eq_comm]
  | ok pair =>
    -- the operation's session is re-sealed if its handle is another one
    obtain ⟨s', out⟩ := pair
    have hwrites : ∀ handle pass x, ⟨.saveKeyring handle pass, x⟩ ∈ t₂ → x = .ok () :=
      fun handle pass x hx => hsave handle pass x (by simp [hx])
    obtain ⟨hk₂, hoff₂⟩ := SessionEnd.keyring hemit hwrites hend
    have hyes : t₁.any o.served = true := hout.mpr ⟨_, rfl⟩
    rw [KeepsRotation, hring, lastRotation_middle hoff hoff₂, hserved, served_middle hoff hoff₂, hyes, hk₂,
      hsess s' out rfl]
    simp only [or_true, iff_true]
    intro x hx
    rw [hx, Option.getD_some]

/-- A `list` whose session is rotated up front, and whose backend call then fails. -/
def rotatedThenDown : CliTrace :=
  [⟨.loggedIn, true⟩, ⟨.loadConfig, .ok ⟨"https://vault", "a@b"⟩⟩, ⟨.envVar "PASS", some "pw"⟩,
    ⟨.loadSession "pw", .ok ⟨"vw", "old"⟩⟩, ⟨.newProvider "https://vault" true, .ok ()⟩,
    ⟨.provider (.sessionExpiry ⟨"vw", "old"⟩), some 1000⟩, ⟨.systemTime, some 900⟩,
    refreshEvent ⟨"vw", "old"⟩ (.ok ⟨"vw", "new"⟩),
    ⟨.provider (.listNamespaces ⟨"vw", "new"⟩), .error (.transport "timed out")⟩,
    ⟨.eprintln (.provider (.transport "timed out")), ()⟩]

/-- The same `list` with a backend that answers: the session is re-sealed. -/
def rotatedThenServed : CliTrace :=
  [⟨.loggedIn, true⟩, ⟨.loadConfig, .ok ⟨"https://vault", "a@b"⟩⟩, ⟨.envVar "PASS", some "pw"⟩,
    ⟨.loadSession "pw", .ok ⟨"vw", "old"⟩⟩, ⟨.newProvider "https://vault" true, .ok ()⟩,
    ⟨.provider (.sessionExpiry ⟨"vw", "old"⟩), some 1000⟩, ⟨.systemTime, some 900⟩,
    refreshEvent ⟨"vw", "old"⟩ (.ok ⟨"vw", "new"⟩),
    ⟨.provider (.listNamespaces ⟨"vw", "new"⟩), .ok [⟨"n1", "infra"⟩]⟩,
    ⟨.saveKeyring "new" "pw", .ok ()⟩, ⟨.println "infra", ()⟩]

theorem command_keeps_rotation_iff_served : KeepsRotation rotatedThenServed ↔
    lastRotation rotatedThenServed = none ∨
      (lastRotation rotatedThenServed).map Session.handle =
        (loadedSession rotatedThenServed).map Session.handle ∨
      rotatedThenServed.any (Command.list none (some "PASS")).served = true := by
  have hrun : Runs ((Command.list none (some "PASS")).run (fun _ => "json")) rotatedThenServed .success :=
    runs_of_replay (by decide)
  refine command_keeps_rotation_iff hrun ?_
  intro handle pass x hx
  simp only [rotatedThenServed, List.mem_cons, Sigma.mk.injEq, List.not_mem_nil, or_false,
    reduceCtorEq, false_and, false_or, CliReq.saveKeyring.injEq] at hx
  obtain ⟨⟨rfl, rfl⟩, hx⟩ := hx
  exact eq_of_heq hx

theorem rotated_session_dropped :
    Runs ((Command.list none (some "PASS")).run (fun _ => "json")) rotatedThenDown 4 ∧
    (∀ handle pass x, ⟨.saveKeyring handle pass, x⟩ ∉ rotatedThenDown) ∧
    ¬ KeepsRotation rotatedThenDown := by
  refine ⟨runs_of_replay (by decide), ?_, ?_⟩
  · intro handle pass x hx
    simp [rotatedThenDown] at hx
  · intro h
    have hnew := h ⟨"vw", "new"⟩ (by decide)
    exact absurd hnew (by decide)

/-! ## All or nothing -/

def exportEvent : Sigma CliAns → Option (List Secret)
  | ⟨.provider (.getNamespaceSecrets _ _), .ok secrets⟩ => some secrets
  | _ => none

/-- The secrets a run of `export` got to write. -/
def exportedBy (tr : CliTrace) : Option (List Secret) := lastSeen exportEvent tr

theorem exportEvent_served (ns : String) (e : Sigma CliAns) :
    (Op.exportNamespace ns).served e = (exportEvent e).isSome := by
  unfold Op.served exportEvent
  split <;> simp_all

theorem exportedBy_offline {tr : CliTrace} (h : ∀ e ∈ tr, offline e) : exportedBy tr = none := by
  refine lastSeen_none (fun e he => ?_)
  cases hx : exportEvent e with
  | none => rfl
  | some secrets =>
    have hserved : (Op.exportNamespace "").served e = true := by simp [exportEvent_served, hx]
    have hback : isBackend e = true := served_backend hserved
    rw [(h e he).2] at hback
    contradiction

/-- What an attempt sees last when it succeeds, a retried one does too. -/
theorem RetryRun.sees {β : Type} {once : Attempt β} {f : Sigma CliAns → Option β} {s : Session}
    {tr : CliTrace} {r : Except ProviderError (Session × β)}
    (honce : ∀ {s s' b tr}, Runs (once s).run tr (.ok (s', b)) → lastSeen f tr = some b)
    (h : RetryRun once s tr r) : ∀ {p}, r = .ok p → lastSeen f tr = some p.2 := by
  intro p he
  cases h with
  | settled _ h₁ _ =>
    subst he
    exact lastSeen_append_some (honce h₁)
  | refused => cases he
  | @retried t₀ s₀ t₁ s₂ t₂ r₂ _ _ h₂ =>
    cases r₂ with
    | error => cases he
    | ok q =>
      cases he
      have hlast : lastSeen f ([refreshEvent s (.ok s₂)] ++ t₂) = some p.2 :=
        lastSeen_append_some (honce h₂)
      exact lastSeen_append_some (lastSeen_append_some hlast)

theorem exportOnce_exports {ns : String} {s s' : Session} {secrets : List Secret} {tr : CliTrace}
    (h : Runs (exportOnce ns s).run tr (.ok (s', secrets))) : exportedBy tr = some secrets := by
  rcases inNamespace_runs.mp h with ⟨_, _, e⟩ | ⟨_, _, _, _, e⟩ | ⟨_, target, rest, x, rfl, _, hx, e⟩
  · cases e
  · cases e
  · obtain rfl := runs_request.mp hx
    cases x with
    | error => cases e
    | ok secrets' => cases e; rfl

/-- The secrets `ops::export` returns are the ones the provider gave last. -/
theorem export_exports {ns : String} {s : Session} {tr : CliTrace}
    {r : Except ProviderError (Session × List Secret)} (h : Runs (Ops.exportNamespace ns s).run tr r) :
    exportedBy tr = r.toOption.map Prod.snd := by
  obtain ⟨hserved, -⟩ := Op.outcome (o := .exportNamespace ns) h
  obtain ⟨r', h', rfl⟩ := retried_runs.mp h
  cases r' with
  | error e =>
    -- an answer with secrets would have been the one the operation is after
    refine lastSeen_none (fun e he => ?_)
    cases hx : exportEvent e with
    | none => rfl
    | some secrets =>
      have hany : tr.any (Op.exportNamespace ns).served = true :=
        List.any_eq_true.mpr ⟨e, he, by rw [exportEvent_served, hx]; rfl⟩
      obtain ⟨_, hok⟩ := hserved.mp hany
      cases hok
  | ok p =>
    exact h'.sees exportOnce_exports rfl

/-- Every field of every item reaches stdout: as many entries as there are fields,
carrying their values; the lines of the env format, or the members of the object. -/
def WritesEvery (renderJson : FieldBag → String) (format : String) (secrets : List Secret)
    (tr : CliTrace) : Prop :=
  if format = "json" then
    stdoutOf tr = [renderJson (jsonObject secrets)] ∧
      ((jsonObject secrets).toList.map Prod.snd).Perm ((exportedFields secrets).map Prod.snd)
  else
    ∃ entries : List (String × String), (stdoutOf tr).map readEnvLine = entries.map some ∧
      entries.map Prod.snd = (exportedFields secrets).map Prod.snd

/-- A NUL anywhere stops the command before it writes; otherwise it writes it all. -/
def AllOrNothing (renderJson : FieldBag → String) (format : String) (secrets : List Secret)
    (tr : CliTrace) (code : ExitCode) : Prop :=
  if ∃ p ∈ exportedFields secrets, hasNul p.2 = true then code ≠ .success ∧ stdoutOf tr = []
  else code = .success ∧ WritesEvery renderJson format secrets tr

theorem reseal_silent {s : Session} {p before : String} {tr : CliTrace}
    (h : Runs (reseal s p before) tr ()) : ∀ e ∈ tr, silent e := by
  unfold reseal at h
  split at h
  · obtain ⟨rfl, -⟩ := h
    simp
  · obtain ⟨x, rest, rfl, hx⟩ := runs_request_bind.mp h
    have hkeyring : silent ⟨.saveKeyring s.handle p, x⟩ := ⟨⟨rfl, rfl⟩, id⟩
    cases x with
    | ok u =>
      obtain ⟨rfl, -⟩ := hx
      simpa using hkeyring
    | error e =>
      obtain ⟨_, _, rfl, rfl, -⟩ := hx
      have hwarn : ∀ d, silent ⟨.eprintln d, ()⟩ := fun d => ⟨⟨rfl, rfl⟩, id⟩
      simp [hkeyring, hwarn]

theorem stdoutOf_of_silent {tr : CliTrace} (h : ∀ e ∈ tr, silent e) : stdoutOf tr = [] :=
  stdoutOf_silent (fun e he => (h e he).2)

theorem stdoutOf_op {tr : CliTrace} (h : ∀ e ∈ tr, isOpReq e.1 = true) : stdoutOf tr = [] := by
  refine stdoutOf_silent ?_
  rintro ⟨q, x⟩ he hprint
  have hq := h _ he
  cases q <;> first | exact hprint | cases hq

/-- A run of `export` that got secrets writes and exits as their emission does. -/
theorem exportCommand_runs {renderJson : FieldBag → String} {ns format : String}
    {passphraseEnv : Option String} {tr : CliTrace} {code : ExitCode} {secrets : List Secret}
    (h : Runs (exportCommand renderJson ns format passphraseEnv) tr code)
    (hs : exportedBy tr = some secrets) :
    (format = "env" ∨ format = "json") ∧ ∃ t, Runs (emitExport renderJson format secrets) t code ∧
      stdoutOf tr = stdoutOf t := by
  unfold exportCommand at h
  split at h
  · rw [exportedBy_offline (fun e he => (die_silent h e he).1)] at hs
    contradiction
  next hf =>
  have hformat : format = "env" ∨ format = "json" := by
    by_cases henv : format = "env"
    · exact .inl henv
    · exact .inr (not_not.mp (fun hjson => hf ⟨henv, hjson⟩))
  refine ⟨hformat, ?_⟩
  rcases sessionCommand_runs h with ⟨hsil, -⟩ | ⟨t₀, t₁, t₂, p, s, r, rfl, hsil, -, -, hrun, hend⟩
  · rw [exportedBy_offline (fun e he => (hsil e he).1)] at hs
    contradiction
  have hnone₀ : exportedBy t₀ = none := exportedBy_offline (fun e he => (hsil e he).1)
  have hlast : exportedBy t₂ = none → exportedBy (t₀ ++ (t₁ ++ t₂)) = r.toOption.map Prod.snd :=
    fun h₂ => (lastSeen_middle hnone₀ h₂).trans (export_exports hrun)
  cases r with
  | error e =>
    rw [hlast (exportedBy_offline (fun e he => (die_silent hend e he).1))] at hs
    cases hs
  | ok pair =>
    -- the operation and the re-seal print nothing: stdout is the emission's
    obtain ⟨s', out⟩ := pair
    obtain ⟨t₃, t₄, rfl, hseal, hemit⟩ := hend
    have hplain := ((emitExport_outputs renderJson format out).mono output_plain).runs hemit
    have hoff : ∀ e ∈ t₃ ++ t₄, offline e := List.forall_mem_append.mpr
      ⟨fun e he => (reseal_silent hseal e he).1, fun e he => offline_plain (hplain e he)⟩
    rw [hlast (exportedBy_offline hoff)] at hs
    obtain rfl : out = secrets := by simpa [Except.toOption] using hs
    refine ⟨t₄, hemit, ?_⟩
    calc stdoutOf (t₀ ++ (t₁ ++ (t₃ ++ t₄)))
        = stdoutOf t₀ ++ (stdoutOf t₁ ++ (stdoutOf t₃ ++ stdoutOf t₄)) := by
          rw [stdoutOf_append, stdoutOf_append, stdoutOf_append]
      _ = stdoutOf t₄ := by
          rw [stdoutOf_of_silent hsil, stdoutOf_op (Op.requests hrun),
            stdoutOf_of_silent (reseal_silent hseal)]
          rfl

theorem not_exists_nul {fields : List (String × String)}
    (h : ¬ ∃ p ∈ fields, hasNul p.2 = true) : ∀ p ∈ fields, hasNul p.2 = false := by
  intro p hp
  rw [← Bool.not_eq_true]
  exact fun hv => h ⟨p, hp, hv⟩

/-- The condition under which a run of `export` is all or nothing, by its format. -/
def Whole (format : String) (secrets : List Secret) : Prop :=
  if format = "json" then
    (∀ p ∈ exportedFields secrets, hasNul p.2 = false) ∧
      ((exportedFields secrets).map Prod.fst).Nodup
  else
    (∀ p ∈ exportedFields secrets, hasNul p.2 = false) ∨
      ∃ p ∈ (exportedFields secrets).head?, hasNul p.2 = true

theorem export_all_or_nothing_iff {renderJson : FieldBag → String} {ns format : String}
    {passphraseEnv : Option String} {tr : CliTrace} {code : ExitCode} {secrets : List Secret}
    (h : Runs (exportCommand renderJson ns format passphraseEnv) tr code)
    (hs : exportedBy tr = some secrets) :
    AllOrNothing renderJson format secrets tr code ↔ Whole format secrets := by
  obtain ⟨hformat, t, hemit, hout⟩ := exportCommand_runs h hs
  unfold AllOrNothing Whole WritesEvery
  rw [hout]
  rcases hformat with rfl | rfl
  · -- env: what stands before the first NUL is out when the check fails
    obtain ⟨hlines, rfl⟩ := emitExport_env hemit
    have henv : ("env" = "json") = False := by decide
    simp only [henv, if_false, hlines]
    by_cases hnul : ∃ p ∈ exportedFields secrets, hasNul p.2 = true
    · obtain ⟨p, hp, hv⟩ := hnul
      have hany : (exportedFields secrets).any (fun p => hasNul p.2) = true :=
        List.any_eq_true.mpr ⟨p, hp, hv⟩
      have hnone : ¬ ∀ p ∈ exportedFields secrets, hasNul p.2 = false :=
        fun h => by rw [h p hp] at hv; contradiction
      have hne : exportedFields secrets ≠ [] := List.ne_nil_of_mem hp
      have hcode : (6 : ExitCode) ≠ ExitCode.success := by decide
      rw [if_pos ⟨p, hp, hv⟩, if_pos hany, List.map_eq_nil_iff, takeWhile_envEntries_nil]
      simp only [hcode, hnone, hne, ne_eq, not_false_eq_true, true_and, false_or]
    · have hfree := not_exists_nul hnul
      have hany : ¬ (exportedFields secrets).any (fun p => hasNul p.2) = true := by
        rw [List.any_eq_true]; exact hnul
      rw [if_neg hnul, if_neg hany, takeWhile_envEntries hfree]
      refine ⟨fun _ => .inl hfree, fun _ => ⟨rfl, envEntries ∅ (exportedFields secrets), ?_, ?_⟩⟩
      · exact readEnvLine_envEntries _ _
      · exact envEntries_values _ _
  · -- json: nothing is checked, and the object keeps one value for a name
    obtain ⟨hlines, rfl⟩ := emitExport_json hemit
    simp only [if_true, hlines]
    by_cases hnul : ∃ p ∈ exportedFields secrets, hasNul p.2 = true
    · rw [if_pos hnul]
      refine ⟨?_, ?_⟩
      · intro h; exact absurd rfl h.1
      · intro h
        obtain ⟨hnone, -⟩ := h
        obtain ⟨p, hp, hv⟩ := hnul
        rw [hnone p hp] at hv
        contradiction
    · rw [if_neg hnul, jsonValues_perm_iff]
      exact ⟨fun h => ⟨not_exists_nul hnul, h.2.2⟩, fun h => ⟨trivial, trivial, h.2⟩⟩

/-- An `export` whose second item holds a NUL. -/
def nulSecond : List Secret :=
  [⟨⟨"i1", "db", "c1", ["password"]⟩, bagOf [("password", "hunter2")]⟩,
    ⟨⟨"i2", "web", "c1", ["token"]⟩, bagOf [("token", "a\x00b")]⟩]

def nulSecondRun : CliTrace :=
  [⟨.loggedIn, true⟩, ⟨.loadConfig, .ok ⟨"https://vault", "a@b"⟩⟩, ⟨.envVar "PASS", some "pw"⟩,
    ⟨.loadSession "pw", .ok ⟨"vw", "h"⟩⟩, ⟨.newProvider "https://vault" true, .ok ()⟩,
    ⟨.provider (.sessionExpiry ⟨"vw", "h"⟩), none⟩,
    ⟨.provider (.listNamespaces ⟨"vw", "h"⟩), .ok [⟨"c1", "infra"⟩]⟩,
    ⟨.provider (.getNamespaceSecrets ⟨"vw", "h"⟩ ⟨"c1", "infra"⟩), .ok nulSecond⟩,
    ⟨.println "PASSWORD=hunter2", ()⟩,
    ⟨.eprintln (.text "field 'token' contains NUL; refusing to export"), ()⟩]

theorem export_all_or_nothing_iff_nulSecond :
    AllOrNothing (fun _ => "json") "env" nulSecond nulSecondRun 6 ↔ Whole "env" nulSecond := by
  have hrun : Runs (exportCommand (fun _ => "json") "infra" "env" (some "PASS")) nulSecondRun 6 :=
    runs_of_replay (by decide)
  exact export_all_or_nothing_iff hrun rfl

theorem export_stops_half_way :
    Runs (exportCommand (fun _ => "json") "infra" "env" (some "PASS")) nulSecondRun 6 ∧
    stdoutOf nulSecondRun = ["PASSWORD=hunter2"] ∧
    ¬ AllOrNothing (fun _ => "json") "env" nulSecond nulSecondRun 6 := by
  refine ⟨runs_of_replay (by decide), by decide, ?_⟩
  intro h
  rw [AllOrNothing, if_pos (by decide)] at h
  exact absurd h.2 (by decide)

end Cryptile
