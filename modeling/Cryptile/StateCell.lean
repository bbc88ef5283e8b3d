import Cryptile.Codec

/-
  StateCell — the state directory as two cells

  Logins and re-seals come one after the other, each of them finished, failed or
  killed anywhere; between them others may do what they like to other files. What the
  commands read is as if the config and the session were two cells, each holding what
  was last put into it, and a put were one moment: the rename. The config is read back
  from the text that was written, and the session through its seal, the blanks that are
  trimmed from what was sealed, and its own text.

  Correspondence (Rust ↔ Lean):
    `save_login`, `load_config`, `load_session` ↔ `Saved`, `State.loadConfig`, `State.loadSession`
    `Keyring::save`, `Keyring::load`            ↔ `Saved`, `State.loadSession`
-/

namespace Cryptile
open Text Interaction Files

/-- A session that was sealed opens to the very handle. -/
theorem openKeyring_sealedAs {P : Primitives} {D : Codecs} (hP : P.Lawful) (hD : D.Lawful)
    {sess : VwSession} {passphrase line : String} (h : SealedAs P (D.handleOf sess) passphrase line) :
    openKeyring P line passphrase = .ok (D.handleOf sess) := by
  obtain ⟨salt, iv, hline⟩ := h
  have hopen : openKeyring P ("" ++ line ++ "") passphrase = .ok (trim (D.handleOf sess)) :=
    openKeyring_keyringLine hP hline (by simp) (by simp)
  simpa [hD.trim_handleOf] using hopen

/-! ## The two cells -/

/-- The config that a save writes. -/
def Save.config? : Save → Option StateConfig
  | .login cfg _ _ => some cfg
  | .reseal _ _ => none

/-- The session that a save seals, and the passphrase. -/
def Save.sealed : Save → String × String
  | .login _ sessionJson passphrase => (sessionJson, passphrase)
  | .reseal sessionJson passphrase => (sessionJson, passphrase)

/-- The config that was last put into place; the newest save comes first. -/
def lastConfig (dir : Path) : List Saved → Option StateConfig
  | [] => none
  | s :: saves => if configPath dir ∈ renames s.trace then s.save.config? else lastConfig dir saves

def lastSealed (dir : Path) : List Saved → Option (String × String)
  | [] => none
  | s :: saves => if keyringPath dir ∈ renames s.trace then some s.save.sealed else lastSealed dir saves

section
variable (P : Primitives) (D : Codecs) (dir : Path)

/-- Saves one after the other, and whatever leaves the two files alone. -/
inductive DirRun : List Saved → Disk Path StateConfig → Prop
  | fresh {d} : d (configPath dir) = none → d (keyringPath dir) = none → DirRun [] d
  | save {saves s} : DirRun saves s.before → s.Valid P D.encodeConfig dir → DirRun (s :: saves) s.after
  | elsewhere {saves d d'} : DirRun saves d → d' (configPath dir) = d (configPath dir) →
      d' (keyringPath dir) = d (keyringPath dir) → DirRun saves d'

/-- The two files hold what the cells hold. -/
structure Cells (d : Disk Path StateConfig) (config : Option StateConfig)
    (sealed : Option (String × String)) : Prop where
  config : (d (configPath dir)).map File.content = config.map D.encodeConfig
  keyring : ∀ raw, (d (keyringPath dir)).map File.content = some raw →
    ∃ sessionJson passphrase, sealed = some (sessionJson, passphrase) ∧
      SealedAs P sessionJson passphrase raw

end

section
variable {P : Primitives} {D : Codecs} {dir : Path} {s : Saved} {saves : List Saved} {d : Disk Path StateConfig}

theorem configPath_ne_keyringPath : configPath dir ≠ keyringPath dir := join_ne (by decide)

/-- A re-seal leaves the keyring, or replaces it by a line of its own. -/
theorem Saved.Valid.resealed {encodeConfig : StateConfig → String} {sessionJson passphrase : String}
    (h : s.Valid P encodeConfig dir) (hsave : s.save = .reseal sessionJson passphrase) :
    s.after (configPath dir) = s.before (configPath dir) ∧
    ((s.after (keyringPath dir) = s.before (keyringPath dir) ∧ renames s.trace = []) ∨
     ∃ line who, SealedAs P sessionJson passphrase line ∧
       s.after (keyringPath dir) = some ⟨line, who⟩ ∧ renames s.trace = [keyringPath dir]) := by
  rw [Saved.Valid, hsave] at h
  obtain ⟨-, keyring, -, hreach, hsteps⟩ := h
  rcases (saveKeyring_safe (keyringPath dir) ⟨s.before, []⟩).reaches hreach
    (steps_machine (r := []) hsteps) with htouched | ⟨line, hline, hpublished⟩
  · have hholds := htouched.holds_keyring
    exact ⟨hholds.config, .inl ⟨hholds.keyring, hholds.replaced⟩⟩
  · have hholds := hpublished.holds_keyring
    exact ⟨hholds.config, .inr ⟨line, keyring.owner, hline, hholds.keyring, hholds.replaced⟩⟩

theorem lastConfig_skip (h : configPath dir ∉ renames s.trace) :
    lastConfig dir (s :: saves) = lastConfig dir saves := if_neg h

theorem lastConfig_put (h : configPath dir ∈ renames s.trace) :
    lastConfig dir (s :: saves) = s.save.config? := if_pos h

theorem lastSealed_skip (h : keyringPath dir ∉ renames s.trace) :
    lastSealed dir (s :: saves) = lastSealed dir saves := if_neg h

theorem lastSealed_put (h : keyringPath dir ∈ renames s.trace) :
    lastSealed dir (s :: saves) = some s.save.sealed := if_pos h

/-- A save that goes as far as it goes leaves the cells as its renames say. -/
theorem Cells.save (h : Cells P D dir s.before (lastConfig dir saves) (lastSealed dir saves))
    (hvalid : s.Valid P D.encodeConfig dir) :
    Cells P D dir s.after (lastConfig dir (s :: saves)) (lastSealed dir (s :: saves)) := by
  have hne : configPath dir ≠ keyringPath dir := configPath_ne_keyringPath
  cases hsave : s.save with
  | login cfg sessionJson passphrase =>
    rcases hvalid.login hsave with ⟨hconfig, hkeyring, hnone⟩ | ⟨hconfig, hkeyring, hone⟩ |
      ⟨line, hline, hconfig, hkeyring, hboth⟩
    · rw [lastConfig_skip (by simp [hnone]), lastSealed_skip (by simp [hnone])]
      exact ⟨hconfig ▸ h.config, hkeyring ▸ h.keyring⟩
    · -- between the renames the config is new and the session of before
      rw [lastConfig_put (by simp [hone]), lastSealed_skip (by simp [hone, hne.symm]), hsave]
      exact ⟨by rw [hconfig]; rfl, hkeyring ▸ h.keyring⟩
    · rw [lastConfig_put (by simp [hboth]), lastSealed_put (by simp [hboth]), hsave]
      refine ⟨by rw [hconfig]; rfl, ?_⟩
      intro raw hraw
      rw [hkeyring] at hraw
      cases hraw
      exact ⟨sessionJson, passphrase, rfl, hline⟩
  | reseal sessionJson passphrase =>
    obtain ⟨hconfig, ⟨hkeyring, hnone⟩ | ⟨line, who, hline, hkeyring, hone⟩⟩ := hvalid.resealed hsave
    · rw [lastConfig_skip (by simp [hnone]), lastSealed_skip (by simp [hnone])]
      exact ⟨hconfig ▸ h.config, hkeyring ▸ h.keyring⟩
    · rw [lastConfig_skip (by simp [hone, hne]), lastSealed_put (by simp [hone]), hsave]
      refine ⟨hconfig ▸ h.config, ?_⟩
      intro raw hraw
      rw [hkeyring] at hraw
      cases hraw
      exact ⟨sessionJson, passphrase, rfl, hline⟩

theorem DirRun.cells (h : DirRun P D dir saves d) :
    Cells P D dir d (lastConfig dir saves) (lastSealed dir saves) := by
  induction h with
  | fresh hconfig hkeyring =>
    refine ⟨by rw [hconfig]; rfl, ?_⟩
    intro raw hraw
    rw [hkeyring] at hraw
    cases hraw
  | save _ hvalid ih => exact ih.save hvalid
  | elsewhere _ hconfig hkeyring ih => exact ⟨hconfig ▸ ih.config, hkeyring ▸ ih.keyring⟩

/-! ## Reading the cells -/

variable {who : StateConfig} {tr : OsTrace} {d' : Disk Path StateConfig}

/-- A text that is read is the file's, and reading leaves the disk alone. -/
theorem read_steps {path : Path} {x : Except String String}
    (h : Steps (fileStep who) d [⟨.readToString path, x⟩] d') :
    d' = d ∧ ∀ raw, x = .ok raw → (d path).map File.content = some raw := by
  obtain ⟨mid, hstep, rfl⟩ := h
  cases x with
  | error e => exact ⟨hstep, by simp⟩
  | ok raw =>
    refine ⟨hstep.2, ?_⟩
    rintro _ ⟨⟩
    exact hstep.1

/-- Loading the config is one read, and what it decodes to. -/
theorem loadConfig_read {x : Except String StateConfig}
    (h : Runs (State.loadConfig D.decodeConfig dir).run tr x) :
    ∃ file, tr = [⟨.readToString (configPath dir), file⟩] ∧
      ((∃ e, file = .error e ∧ x = .error e) ∨ ∃ raw, file = .ok raw ∧ x = D.decodeConfig raw) := by
  obtain ⟨file, rest, rfl, hrest⟩ := h
  cases file with
  | error e =>
    obtain ⟨rfl, rfl⟩ := hrest
    exact ⟨_, rfl, .inl ⟨e, rfl, rfl⟩⟩
  | ok raw =>
    obtain ⟨rfl, rfl⟩ := hrest
    exact ⟨_, rfl, .inr ⟨raw, rfl, rfl⟩⟩

/-- Loading the session is one read, and what it opens to. -/
theorem loadSession_read {passphrase : String} {x : Except String Session}
    (h : Runs (State.loadSession P dir passphrase).run tr x) :
    ∃ file, tr = [⟨.readToString (keyringPath dir), file⟩] ∧
      ((∃ e, file = .error e ∧ ∃ e', x = .error e') ∨ ∃ raw, file = .ok raw ∧
        ∀ handle, openKeyring P raw passphrase = .ok handle → x = .ok ⟨"vw", handle⟩) := by
  have hload : ∀ {t r}, Runs (loadKeyring P (keyringPath dir) passphrase).run t r →
      ∃ file, t = [⟨.readToString (keyringPath dir), file⟩] ∧
        ((∃ e, file = .error e ∧ ∃ e', r = .error e') ∨
          ∃ raw, file = .ok raw ∧ r = openKeyring P raw passphrase) := by
    rintro t r ⟨file, rest, rfl, hrest⟩
    cases file with
    | error e =>
      obtain ⟨rfl, rfl⟩ := hrest
      exact ⟨_, rfl, .inl ⟨e, rfl, _, rfl⟩⟩
    | ok raw =>
      obtain ⟨rfl, rfl⟩ := hrest
      exact ⟨_, rfl, .inr ⟨raw, rfl, rfl⟩⟩
  unfold State.loadSession at h
  rcases runs_except_bind.mp h with ⟨e, rfl, hopen⟩ | ⟨t₁, handle, t₂, rfl, hopen, hend⟩
  · obtain ⟨r, hkeyring, hr⟩ := runs_map.mp hopen
    obtain ⟨file, rfl, ⟨e', rfl, e'', rfl⟩ | ⟨raw, rfl, hraw⟩⟩ := hload hkeyring
    · exact ⟨_, rfl, .inl ⟨e', rfl, e, rfl⟩⟩
    · refine ⟨_, rfl, .inr ⟨raw, rfl, fun handle hok => ?_⟩⟩
      rw [hraw, hok] at hr
      cases hr
  · obtain ⟨r, hkeyring, hr⟩ := runs_map.mp hopen
    obtain ⟨rfl, rfl⟩ := hend
    obtain ⟨file, rfl, ⟨e', rfl, e'', rfl⟩ | ⟨raw, rfl, hraw⟩⟩ := hload hkeyring
    · cases hr
    · refine ⟨_, by rw [List.append_nil], .inr ⟨raw, rfl, fun handle' hok => ?_⟩⟩
      rw [hraw, hok] at hr
      obtain rfl : handle = handle' := Except.ok.inj hr
      rfl

theorem Cells.loadConfig (hD : D.Lawful) {config : Option StateConfig} {sealed : Option (String × String)}
    (h : Cells P D dir d config sealed) {x : Except String StateConfig}
    (hrun : Runs (State.loadConfig D.decodeConfig dir).run tr x)
    (hsteps : Steps (fileStep who) d tr d') :
    d' = d ∧ ((∃ e, tr = [⟨.readToString (configPath dir), .error e⟩] ∧ x = .error e) ∨
      ∃ cfg, config = some cfg ∧ x = .ok cfg) := by
  obtain ⟨file, rfl, hx⟩ := loadConfig_read hrun
  obtain ⟨hsame, hfile⟩ := read_steps hsteps
  refine ⟨hsame, ?_⟩
  rcases hx with ⟨e, rfl, rfl⟩ | ⟨raw, rfl, rfl⟩
  · exact .inl ⟨e, rfl, rfl⟩
  · have hcontent := (hfile raw rfl).symm.trans h.config
    obtain ⟨cfg, hcfg, rfl⟩ := Option.map_eq_some_iff.mp hcontent.symm
    exact .inr ⟨cfg, hcfg, hD.config cfg⟩

theorem Cells.loadSession {config : Option StateConfig} {sealed : Option (String × String)}
    (h : Cells P D dir d config sealed) (hP : P.Lawful) (hD : D.Lawful)
    (hsess : ∀ sessionJson passphrase, sealed = some (sessionJson, passphrase) →
      ∃ sess, sessionJson = D.handleOf sess)
    {passphrase : String} {x : Except String Session}
    (hrun : Runs (State.loadSession P dir passphrase).run tr x)
    (hsteps : Steps (fileStep who) d tr d') :
    d' = d ∧ ((∃ e e', tr = [⟨.readToString (keyringPath dir), .error e⟩] ∧ x = .error e') ∨
      ∃ sess passphrase', sealed = some (D.handleOf sess, passphrase') ∧
        (passphrase = passphrase' → x = .ok ⟨"vw", D.handleOf sess⟩)) := by
  obtain ⟨file, rfl, hx⟩ := loadSession_read hrun
  obtain ⟨hsame, hfile⟩ := read_steps hsteps
  refine ⟨hsame, ?_⟩
  rcases hx with ⟨e, rfl, e', rfl⟩ | ⟨raw, rfl, hopened⟩
  · exact .inl ⟨e, e', rfl, rfl⟩
  · obtain ⟨sessionJson, passphrase', hsealed, hline⟩ := h.keyring raw (hfile raw rfl)
    obtain ⟨sess, rfl⟩ := hsess sessionJson passphrase' hsealed
    refine .inr ⟨sess, passphrase', hsealed, ?_⟩
    rintro rfl
    exact hopened _ (openKeyring_sealedAs hP hD hline)

/-- Where every session that is sealed was new, so is the one that was sealed last. -/
theorem lastSealed_handle (h : ∀ s ∈ saves, ∃ sess, s.save.sealed.1 = D.handleOf sess) :
    ∀ sessionJson passphrase, lastSealed dir saves = some (sessionJson, passphrase) →
      ∃ sess, sessionJson = D.handleOf sess := by
  induction saves with
  | nil =>
    intro _ _ hlast
    cases hlast
  | cons s saves ih =>
    obtain ⟨⟨sess, hs⟩, hsaves⟩ := List.forall_mem_cons.mp h
    intro sessionJson passphrase hlast
    by_cases hput : keyringPath dir ∈ renames s.trace
    · rw [lastSealed_put hput, Option.some.injEq] at hlast
      exact ⟨sess, by rw [← hs, hlast]⟩
    · rw [lastSealed_skip hput] at hlast
      exact ih hsaves sessionJson passphrase hlast

/-- What is loaded is what was put last. The config is the last one that was renamed into
place, the session the last one that was sealed, as long as the passphrase is the one it
was sealed under; a read that the system refuses apart, nothing else is ever loaded. -/
theorem state_dir_reads_last_put (hP : P.Lawful) (hD : D.Lawful) (h : DirRun P D dir saves d)
    (hsess : ∀ s ∈ saves, ∃ sess, s.save.sealed.1 = D.handleOf sess) :
    (∀ who tr d' x, Runs (State.loadConfig D.decodeConfig dir).run tr x →
      Steps (fileStep who) d tr d' → d' = d ∧
      ((∃ e, tr = [⟨.readToString (configPath dir), .error e⟩] ∧ x = .error e) ∨
        ∃ cfg, lastConfig dir saves = some cfg ∧ x = .ok cfg)) ∧
    (∀ who passphrase tr d' x, Runs (State.loadSession P dir passphrase).run tr x →
      Steps (fileStep who) d tr d' → d' = d ∧
      ((∃ e e', tr = [⟨.readToString (keyringPath dir), .error e⟩] ∧ x = .error e') ∨
        ∃ sess passphrase', lastSealed dir saves = some (D.handleOf sess, passphrase') ∧
          (passphrase = passphrase' → x = .ok ⟨"vw", D.handleOf sess⟩ ∧
            parseSession D.decoders ⟨"vw", D.handleOf sess⟩ = .ok sess))) := by
  have hcells := h.cells
  refine ⟨fun who tr d' x hrun hsteps => hcells.loadConfig hD hrun hsteps, ?_⟩
  intro who passphrase tr d' x hrun hsteps
  obtain ⟨hsame, hread⟩ := hcells.loadSession hP hD (lastSealed_handle hsess) hrun hsteps
  refine ⟨hsame, hread.imp_right ?_⟩
  rintro ⟨sess, passphrase', hsealed, hopened⟩
  exact ⟨sess, passphrase', hsealed, fun heq => ⟨hopened heq, hD.parseSession_handleOf sess⟩⟩

end

/-! ## A login, and one that is killed between its renames -/

theorem state_dir_reads_last_put_killed : ∃ saves d,
    DirRun plainPrimitives plainCodecs ["state"] saves d ∧
    lastConfig ["state"] saves = some ⟨"https://b", "me"⟩ ∧
    ∀ who tr d' x, Runs (State.loadSession plainPrimitives ["state"] "pw").run tr x →
      Steps (fileStep who) d tr d' →
      (∃ e', x = .error e') ∨ x = .ok ⟨"vw", plainCodecs.handleOf (heldSession "rt")⟩ := by
  let cfg : StateConfig := ⟨"https://a", "me"⟩
  let cfg' : StateConfig := ⟨"https://b", "me"⟩
  have hline : ∃ line, keyringLine plainPrimitives (plainCodecs.handleOf (heldSession "rt")) "pw" (zeros 16)
      (zeros 16) = .ok line := ⟨_, rfl⟩
  obtain ⟨line, hline⟩ := hline
  have hconfig₁ : ∃ d', Steps (fileStep cfg) (fun _ => none) (configEvents plainCodecs.encodeConfig ["state"] cfg) d' :=
    configEvents_steps
  obtain ⟨d₀, hconfig₁⟩ := hconfig₁
  have hkeyring₁ : ∃ d', Steps (fileStep cfg) d₀ (keyringEvents ["state"] (zeros 16) (zeros 16) line) d' :=
    keyringEvents_steps
  obtain ⟨d₁, hkeyring₁⟩ := hkeyring₁
  have hconfig₂ : ∃ d', Steps (fileStep cfg') d₁ (configEvents plainCodecs.encodeConfig ["state"] cfg') d' :=
    configEvents_steps
  obtain ⟨d₂, hconfig₂⟩ := hconfig₂
  let first : Saved := ⟨fun _ => none, .login cfg (plainCodecs.handleOf (heldSession "rt")) "pw",
    configEvents plainCodecs.encodeConfig ["state"] cfg ++ keyringEvents ["state"] (zeros 16) (zeros 16) line, d₁⟩
  let second : Saved := ⟨d₁, .login cfg' (plainCodecs.handleOf (heldSession "rt'")) "pw'",
    configEvents plainCodecs.encodeConfig ["state"] cfg', d₂⟩
  have hfirst : first.Valid plainPrimitives plainCodecs.encodeConfig ["state"] :=
    ⟨(saveLogin_runs hline).reaches, steps_append.mpr ⟨d₀, hconfig₁, hkeyring₁⟩⟩
  have hsecond : second.Valid plainPrimitives plainCodecs.encodeConfig ["state"] :=
    ⟨saveLogin_reaches_between, hconfig₂⟩
  have hrun : DirRun plainPrimitives plainCodecs ["state"] [second, first] d₂ :=
    .save (s := second) (.save (s := first) (.fresh rfl rfl) hfirst) hsecond
  have hsess : ∀ s ∈ [second, first], ∃ sess, s.save.sealed.1 = plainCodecs.handleOf sess := by
    intro s hs
    rcases List.mem_cons.mp hs with rfl | hs
    · exact ⟨_, rfl⟩
    · rw [List.mem_singleton.mp hs]
      exact ⟨_, rfl⟩
  have hone : renames second.trace = [configPath ["state"]] := rfl
  have hboth : renames first.trace = [configPath ["state"], keyringPath ["state"]] := rfl
  have hlast : lastSealed ["state"] [second, first] = some (plainCodecs.handleOf (heldSession "rt"), "pw") := by
    rw [lastSealed_skip (by rw [hone]; decide), lastSealed_put (by rw [hboth]; decide)]
    rfl
  refine ⟨[second, first], d₂, hrun, ?_, ?_⟩
  · rw [lastConfig_put (by rw [hone]; decide)]
    rfl
  · intro who tr d' x hload hsteps
    obtain ⟨-, ⟨e, e', -, hx⟩ | ⟨sess, passphrase', hsealed, hopened⟩⟩ :=
      (state_dir_reads_last_put plainPrimitives_lawful plainCodecs_lawful hrun
        hsess).2 who "pw" tr d' x hload hsteps
    · exact .inl ⟨e', hx⟩
    · rw [hlast, Option.some.injEq, Prod.mk.injEq] at hsealed
      rw [hsealed.1]
      exact .inr (hopened hsealed.2).1

end Cryptile
