import Cryptile.LoginCommand
import Cryptile.SavePromise
import Cryptile.State

/-
  StatePromise — the state directory among commands that run at the same time

  `stateCalls` carries out what a command asks of the state directory by the system
  calls it makes there. Loading leaves the disk alone; a re-seal is a save of the
  keyring, and a login writes its config before it saves. `ConfigPromise` is what a
  login promises of its calls before the keyring is its turn.

  Correspondence (Rust ↔ Lean):
    `State`, `Keyring` as the commands call them ↔ `stateCalls`
-/

namespace Cryptile
open Text Interaction Inodes

/-! ## The calls behind a command -/

section
variable (P : Primitives) (encodeConfig : StateConfig → String)
  (decodeConfig : String → Except String StateConfig) (dir : Path)

/-- The state directory as a command uses it; everything else is asked of others. -/
def stateCalls : ∀ q : CliReq, Sys (CliAns q)
  | .loggedIn => lower syscalls (loggedIn dir)
  | .loadConfig => lower syscalls (State.loadConfig decodeConfig dir).run
  | .loadSession passphrase => lower syscalls (State.loadSession P dir passphrase).run
  | .saveLogin cfg sessionJson passphrase =>
    lower syscalls (saveLogin P encodeConfig dir cfg sessionJson passphrase).run
  | .saveKeyring sessionJson passphrase =>
    (fun r : Except KeyringError Unit => r.mapError KeyringError.display) <$>
      lower syscalls (saveKeyring P (keyringPath dir) sessionJson passphrase).run
  | .provider q => request (A := SysAns) (.cli (.provider q))
  | .systemTime => request (A := SysAns) (.cli .systemTime)
  | .removeCache => request (A := SysAns) (.cli .removeCache)
  | .envVar name => request (A := SysAns) (.cli (.envVar name))
  | .stdinIsTerminal => request (A := SysAns) (.cli .stdinIsTerminal)
  | .promptPassword prompt => request (A := SysAns) (.cli (.promptPassword prompt))
  | .newProvider server cached => request (A := SysAns) (.cli (.newProvider server cached))
  | .addToAgent value label => request (A := SysAns) (.cli (.addToAgent value label))
  | .println line => request (A := SysAns) (.cli (.println line))
  | .eprintln line => request (A := SysAns) (.cli (.eprintln line))

end

/-- Requests that store nothing in the state directory. -/
def storesNothing : CliReq → Bool
  | .saveLogin _ _ _ | .saveKeyring _ _ => false
  | _ => true

section
variable {P : Primitives} {encodeConfig : StateConfig → String}
  {decodeConfig : String → Except String StateConfig} {dir : Path}

theorem stateCalls_idle : ∀ q, storesNothing q = true →
    Asks (fun q => isIdle q = true) (stateCalls P encodeConfig decodeConfig dir q) := by
  have hmap : ∀ {α β : Type} {f : α → β} {p : Os α}, Asks (fun q => isIdle (.file q) = true) p →
      Asks (fun q => isIdle (.file q) = true) (f <$> p) := fun hp => asks_bind hp (fun _ => asks_pure _)
  have hcalls : ∀ q, isIdle (.file q) = true → Asks (fun q => isIdle q = true) (syscalls q) := by
    intro q hq
    rw [syscalls_idle hq]
    exact asks_request hq
  intro q hq
  cases q with
  | saveLogin _ _ _ => cases hq
  | saveKeyring _ _ => cases hq
  | loggedIn =>
    refine asks_lower hcalls (asks_bind (asks_request rfl) (fun b => ?_))
    cases b
    · exact asks_pure _
    · exact asks_request rfl
  | loadConfig =>
    exact asks_lower hcalls (asks_except_bind (hmap (asks_request rfl)) (fun _ => asks_pure _))
  | loadSession passphrase =>
    refine asks_lower hcalls (asks_except_bind (hmap ?_) (fun _ => asks_pure _))
    exact asks_except_bind (hmap (asks_request rfl)) (fun _ => asks_pure _)
  | _ => exact asks_request rfl

/-- A config that is read and decodes is loaded. -/
theorem loadConfig_runs {raw : String} {cfg : StateConfig} (hdecode : decodeConfig raw = .ok cfg) :
    Runs (stateCalls P encodeConfig decodeConfig dir .loadConfig)
      [⟨.file (.readToString (configPath dir)), .ok raw⟩] (.ok cfg) := by
  have hload : Runs (State.loadConfig decodeConfig dir).run [⟨.readToString (configPath dir), .ok raw⟩]
      (.ok cfg) := by
    refine runs_except_bind.mpr (.inr ⟨_, raw, [], rfl, runs_map.mpr ⟨.ok raw, runs_request.mpr rfl, rfl⟩, ?_⟩)
    rw [hdecode]
    exact ⟨rfl, rfl⟩
  exact runs_lower.mpr ⟨_, hload, [_], [], rfl, runs_request.mpr rfl, rfl⟩

/-- So is a session from a keyring that opens. -/
theorem loadSession_runs {raw passphrase handle : String} (hopen : openKeyring P raw passphrase = .ok handle) :
    Runs (stateCalls P encodeConfig decodeConfig dir (.loadSession passphrase))
      [⟨.file (.readToString (keyringPath dir)), .ok raw⟩] (.ok ⟨"vw", handle⟩) := by
  have hkeyring : Runs (loadKeyring P (keyringPath dir) passphrase).run
      [⟨.readToString (keyringPath dir), .ok raw⟩] (.ok handle) := ⟨.ok raw, [], rfl, rfl, hopen.symm⟩
  have hload : Runs (State.loadSession P dir passphrase).run [⟨.readToString (keyringPath dir), .ok raw⟩]
      (.ok ⟨"vw", handle⟩) :=
    runs_except_bind.mpr (.inr ⟨_, handle, [], rfl, runs_map.mpr ⟨_, hkeyring, rfl⟩, rfl, rfl⟩)
  exact runs_lower.mpr ⟨_, hload, [_], [], rfl, runs_request.mpr rfl, rfl⟩

/-- A session is loaded from what the keyring file is read to hold. -/
theorem loadSession_reads {passphrase : String} {s : Session} {tr : List SysEvent}
    (h : Runs (stateCalls P encodeConfig decodeConfig dir (.loadSession passphrase)) tr (.ok s)) :
    ∃ raw handle, ⟨.file (.readToString (keyringPath dir)), .ok raw⟩ ∈ tr ∧
      openKeyring P raw passphrase = .ok handle ∧ s = ⟨"vw", handle⟩ := by
  obtain ⟨t, hload, hcarried⟩ := runs_lower.mp h
  obtain ⟨_, he, -⟩ | ⟨t₁, handle, t₂, rfl, hopen, hend⟩ := runs_except_bind.mp hload
  · cases he
  obtain ⟨-, hs⟩ := hend
  obtain ⟨r, hkeyring, hr⟩ := runs_map.mp hopen
  obtain ⟨_, rfl, -⟩ | ⟨t₃, raw, t₄, rfl, hread, hopened⟩ := runs_except_bind.mp hkeyring
  · cases hr
  obtain ⟨x, hx, hraw⟩ := runs_map.mp hread
  obtain rfl := runs_request.mp hx
  cases x with
  | error e => cases hraw
  | ok raw' =>
    cases hraw
    obtain ⟨t', hcall, hsub⟩ := hcarried.mem (e := ⟨.readToString (keyringPath dir), .ok raw⟩) (by simp)
    obtain rfl := runs_request.mp hcall
    refine ⟨raw, handle, hsub (List.mem_singleton.mpr rfl), ?_, Except.ok.inj hs⟩
    rw [hopened.2] at hr
    cases hopen : openKeyring P raw passphrase with
    | error e => rw [hopen] at hr; cases hr
    | ok handle' => rw [hopen] at hr; cases hr; rfl

end

/-! ## What a login promises of its config -/

section
variable {ι : Type}

/-- It writes the temporary config only, where it has not been renamed yet, and renames it
when the whole config is in it. -/
def ConfigPromise (dir : Path) (config : String) (i : ι) (w : World ι) : SysEvent → Prop
  | ⟨.file (.openTruncate p _), .ok _⟩ => p = configTmp dir
  | ⟨.write p _, .ok _⟩ => p = configTmp dir ∧
      ∀ h, w.disk.handle i p = some h → w.disk.tree.names p = some h.inode
  | ⟨.file (.syncAll _), .ok _⟩ => False
  | ⟨.file (.rename source target), .ok _⟩ => source = configTmp dir ∧ target = configPath dir ∧
      ∀ j, w.disk.opener j = some (i, source) → w.disk.tree.content j = utf8 config
  | _ => True

/-- What the process has open has still the name it was opened by. -/
def Named (i : ι) (n : Path) (w : World ι) : Prop :=
  ∃ h, w.disk.handle i n = some h ∧ w.disk.tree.names n = some h.inode

/-- The others leave the name alone. -/
def KeepsName (step : ι → World ι → SysEvent → World ι → Prop) (prom : ι → World ι → SysEvent → Prop)
    (i : ι) (n : Path) : Prop :=
  ∀ j, j ≠ i → ∀ w e w', step j w e w' → prom j w e → w'.disk.tree.names n = w.disk.tree.names n

variable [DecidableEq ι] {step : ι → World ι → SysEvent → World ι → Prop}
  {prom : ι → World ι → SysEvent → Prop} {i : ι} {w : World ι} {dir : Path} {config : String}

theorem keyringTmp_ne_configTmp : (keyringPath dir).withExtension "tmp" ≠ configTmp dir := by
  rw [keyringTmp_eq, configTmp_eq]
  exact join_ne (by decide)

def configInstalled (dir : Path) : SysEvent :=
  ⟨.file (.rename (configTmp dir) (configPath dir)), .ok ()⟩

def keyringInstalled (dir : Path) : SysEvent :=
  ⟨.file (.rename ((keyringPath dir).withExtension "tmp") (keyringPath dir)), .ok ()⟩

theorem named_stable {n : Path} (hother : Undisturbed step prom i) (hnames : KeepsName step prom i n) :
    Stable step prom i (Named i n) := by
  intro j hj w e w' hstep hprom h
  obtain ⟨h, hhandle, hname⟩ := h
  exact ⟨h, (hother.keeps j hj w e w' hstep hprom n).handle.trans hhandle,
    (hnames j hj w e w' hstep hprom).trans hname⟩

theorem NotOpened.openTruncate {n m : Path} {w' : World ι} (h : NotOpened i n w) (hne : n ≠ m)
    (hdisk : w'.disk = w.disk.openTruncate i m) : NotOpened i n w' := by
  intro j hj
  rw [hdisk] at hj
  by_cases hinode : j = w.disk.tree.inodeFor m
  · subst hinode
    cases (Function.update_self ..).symm.trans hj
    exact hne rfl
  · exact h j ((Shared.openTruncate_opener hinode).symm.trans hj)

/-- The process has yet to save the keyring. -/
def Pending (dir : Path) (i : ι) (R : World ι → Prop) (w : World ι) : Prop :=
  NotOpened i ((keyringPath dir).withExtension "tmp") w ∧ R w

section
variable {R : World ι → Prop} (hother : Undisturbed step prom i) (hnames : KeepsName step prom i (configTmp dir))
  (hprom : ∀ w e, ConfigPromise dir config i w e → prom i w e) (hR : Recorded R)
include hother hnames hprom hR

/-- Opening the temporary config. -/
theorem openConfig_promises (bytes : Bytes) {mode : Option UInt32}
    (hw : NotOpened i (configTmp dir) w ∧ Pending dir i R w) :
    Promises step prom i (fun r w' => r = .ok () →
        Writing i (configTmp dir) bytes 0 w' ∧ Named i (configTmp dir) w' ∧ Pending dir i R w')
      (lower syscalls (os (.openTruncate (configTmp dir) mode))) w := by
  have hpending : Durable i (Pending dir i R) := notOpened_durable.and hR.durable
  rw [os, lower_request]
  refine promises_request (hother.stable (notOpened_durable.and hpending)) ?_ ?_ hw
  · intro x j hj w e w' hs hp h hx
    obtain ⟨hwriting, hnamed, hLw⟩ := h hx
    exact ⟨hother.stable writing_durable j hj w e w' hs hp hwriting,
      named_stable hother hnames j hj w e w' hs hp hnamed, hother.stable hpending j hj w e w' hs hp hLw⟩
  · intro w x w' hw hstep
    have hsys := hother.calls i w _ w' hstep
    cases x with
    | error e => exact ⟨hprom w _ trivial, fun hx => by cases hx⟩
    | ok u =>
      have hdisk : w'.disk = w.disk.openTruncate i (configTmp dir) := hsys.1
      refine ⟨hprom w _ rfl, fun _ => ⟨Writing.opened hw.1 hdisk, ?_, ?_, hR w w' hw.2.2 (sysStep_log hsys)⟩⟩
      · refine ⟨⟨w.disk.tree.inodeFor (configTmp dir), 0⟩, ?_, ?_⟩
        · rw [hdisk]
          exact Shared.setHandle_self
        · rw [hdisk]
          exact FileTree.truncate_self
      · exact hw.2.1.openTruncate keyringTmp_ne_configTmp hdisk

/-- Writing it. -/
theorem writeConfig_promises (hw : Writing i (configTmp dir) (utf8 config) 0 w ∧
      Named i (configTmp dir) w ∧ Pending dir i R w) :
    Promises step prom i (fun r w' => Pending dir i R w' ∧
        (r = .ok () → Writing i (configTmp dir) (utf8 config) (utf8 config).length w'))
      (lower syscalls (os (.writeAll (configTmp dir) config))) w := by
  have hcall : lower syscalls (os (.writeAll (configTmp dir) config)) =
    writeAll (configTmp dir) (utf8 config) := lower_request
  rw [hcall, ← List.drop_zero (l := utf8 config)]
  have hpending : Durable i (Pending dir i R) := notOpened_durable.and hR.durable
  have hstable : Stable step prom i (fun w => Named i (configTmp dir) w ∧ Pending dir i R w) :=
    fun j hj w e w' hs hp h =>
      ⟨named_stable hother hnames j hj w e w' hs hp h.1, hother.stable hpending j hj w e w' hs hp h.2⟩
  refine (writeAll_promises hother hstable ?_ (Nat.zero_le _) hw).mono (fun r w' h => ⟨h.1.2, h.2⟩)
  intro k buf w x w' _ h hstep
  obtain ⟨⟨h, hhandle, hname⟩, hclosed, hRw⟩ := h
  have hsys := hother.calls i w _ w' hstep
  have hRw' := hR w w' hRw (sysStep_log hsys)
  cases x with
  | error e =>
    have hdisk : w'.disk = w.disk := hsys.1
    refine ⟨hprom w _ trivial, ⟨h, ?_, ?_⟩, ?_, hRw'⟩
    · rw [hdisk]
      exact hhandle
    · rw [hdisk]
      exact hname
    · intro j hj
      rw [hdisk] at hj
      exact hclosed j hj
  | ok m =>
    obtain ⟨h', hhandle', -, hdisk⟩ := hsys.1
    cases hhandle.symm.trans hhandle'
    refine ⟨hprom w _ ⟨rfl, ?_⟩, ⟨⟨h.inode, h.offset + (buf.take m).length⟩, ?_, ?_⟩, ?_, hRw'⟩
    · intro h' hh'
      cases hhandle.symm.trans hh'
      exact hname
    · rw [hdisk]
      exact Shared.setHandle_self
    · rw [hdisk]
      exact hname
    · intro j hj
      rw [hdisk] at hj
      exact hclosed j hj

omit hnames in
/-- Renaming it when it is whole. -/
theorem renameConfig_promises (hw : Writing i (configTmp dir) (utf8 config) (utf8 config).length w ∧
      Pending dir i R w) :
    Promises step prom i (fun r w' => r = .ok () →
        Pending dir i (fun w => R w ∧ (i, configInstalled dir) ∈ w.log) w')
      (lower syscalls (os (.rename (configTmp dir) (configPath dir)))) w := by
  have hafter : Durable i (Pending dir i (fun w => R w ∧ (i, configInstalled dir) ∈ w.log)) :=
    notOpened_durable.and (hR.durable.and recorded_event.durable)
  rw [os, lower_request]
  refine promises_request (hother.stable (writing_durable.and (notOpened_durable.and hR.durable))) ?_ ?_ hw
  · exact fun x j hj w e w' hs hp h hx => hother.stable hafter j hj w e w' hs hp (h hx)
  · intro w x w' hw hstep
    have hsys := hother.calls i w _ w' hstep
    cases x with
    | error e => exact ⟨hprom w _ trivial, fun hx => by cases hx⟩
    | ok u =>
      refine ⟨hprom w _ ⟨rfl, rfl, fun j hj => hw.1.whole hj⟩, fun _ => ⟨?_, ?_, sysStep_logged hsys⟩⟩
      · intro j hj
        rw [hsys.1.2] at hj
        exact hw.2.1 j hj
      · exact hR w w' hw.2.2 (sysStep_log hsys)

end

/-- Wherever the others run in between, a login that succeeds has renamed the config, and
the keyring after it. -/
theorem saveLogin_promises {P : Primitives} {encodeConfig : StateConfig → String} {cfg : StateConfig}
    {sessionJson passphrase : String} {R : World ι → Prop}
    {Mine : ι → List (ι × SysEvent) → String → Prop} (hother : Undisturbed step prom i)
    (hnames : KeepsName step prom i (configTmp dir))
    (hconfig : ∀ w e, ConfigPromise dir (encodeConfig cfg) i w e → prom i w e)
    (hkeyring : ∀ w e, SavePromise (keyringPath dir) Mine i w e → prom i w e) (hR : Recorded R)
    (hmine : ∀ w line, R w → SealedAs P sessionJson passphrase line → Mine i w.log line)
    (hw : NotOpened i (configTmp dir) w ∧ Pending dir i R w) :
    Promises step prom i (fun r w' => r = .ok () →
        (i, configInstalled dir) ∈ w'.log ∧ (i, keyringInstalled dir) ∈ w'.log)
      (lower syscalls (saveLogin P encodeConfig dir cfg sessionJson passphrase).run) w := by
  have hclosed : Durable i (fun w => NotOpened i (configTmp dir) w ∧ Pending dir i R w) :=
    notOpened_durable.and (notOpened_durable.and hR.durable)
  have hwritten : Durable i (fun w => Pending dir i R w ∧
      Writing i (configTmp dir) (utf8 (encodeConfig cfg)) (utf8 (encodeConfig cfg)).length w) :=
    (notOpened_durable.and hR.durable).and writing_durable
  unfold saveLogin
  refine mapErr_promises (hother.operation hclosed (q := .createDirAll dir) rfl
    (fun w _ => hconfig w _ trivial) hw) (fun e w _ hr => by cases hr) ?_
  intro _ w hw
  refine lift_promises (hother.operation hclosed (q := .setMode dir 0o700) rfl
    (fun w _ => hconfig w _ trivial) hw) ?_
  intro _ w hw
  refine mapErr_promises (openConfig_promises hother hnames hconfig hR (utf8 (encodeConfig cfg)) hw)
    (fun e w _ hr => by cases hr) ?_
  intro _ w hw
  refine mapErr_promises (writeConfig_promises hother hnames hconfig hR (hw rfl))
    (fun e w _ hr => by cases hr) ?_
  intro _ w hw
  refine lift_promises (hother.operation hwritten (q := .setMode (configTmp dir) 0o600) rfl
    (fun w _ => hconfig w _ trivial) ⟨hw.1, hw.2 rfl⟩) ?_
  intro _ w hw
  refine mapErr_promises (renameConfig_promises hother hconfig hR ⟨hw.2, hw.1⟩)
    (fun e w _ hr => by cases hr) ?_
  intro _ w hw
  -- the config is in place; what follows is a save of the keyring like any other
  have hsave : Promises step prom i
      (fun r w' => (R w' ∧ (i, configInstalled dir) ∈ w'.log) ∧
        (r = .ok () → (i, keyringInstalled dir) ∈ w'.log))
      (lower syscalls (saveKeyring P (keyringPath dir) sessionJson passphrase).run) w :=
    saveKeyring_promises hother hkeyring (fun w w' h hlog => ⟨hR w w' h.1 hlog, hlog h.2⟩)
      (fun w line h => hmine w line h.1) (hw rfl)
  exact (mapError_promises (f := KeyringError.display) hsave).mono (fun r w h hr => ⟨h.1.2, h.2 hr⟩)

end

end Cryptile
