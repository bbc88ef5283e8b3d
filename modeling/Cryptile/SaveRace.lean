import Cryptile.SavePromise
import Cryptile.State

/-
  SaveRace — saves of one keyring that run at the same time

  Every save writes the same temporary file. While no save writes to it or renames it
  after another has opened it, the file that a rename puts into place is one that its
  opener has written and synced, and no write reaches it any more: the keyring is
  whole at every moment (`concurrent_saves_are_whole`). A save that is overtaken
  breaks this: what it renames is the other's file, which may still be empty.
-/

namespace Cryptile
open Text Interaction Inodes

variable {ι : Type}

/-! ## Saves of one keyring -/

section
variable [DecidableEq ι]

/-- A write goes to a file that nobody else has opened since, and what is renamed has
been synced by the one who opened it last. -/
def Orderly (i : ι) (w : World ι) : SysEvent → Prop
  | ⟨.write p _, .ok _⟩ => ∀ h, w.disk.handle i p = some h → w.disk.opener h.inode = some (i, p)
  | ⟨.file (.rename source _), .ok _⟩ => ∀ j, w.disk.tree.names source = some j → w.disk.synced j = true
  | _ => True

def orderlyStep (i : ι) (w : World ι) (e : SysEvent) (w' : World ι) : Prop :=
  Orderly i w e ∧ sysStep i w e w'

/-- The keyring is still the file it was, or one with a whole line of a save; so is every
file that has been synced. -/
structure WholeFiles (path : Path) (Mine : ι → List (ι × SysEvent) → String → Prop) (t : FileTree Path)
    (w : World ι) : Prop where
  synced : ∀ j, w.disk.synced j = true → ∃ i line, w.disk.opener j = some (i, path.withExtension "tmp") ∧
    Mine i w.log line ∧ w.disk.tree.content j = utf8 line
  keyring : ∀ j, w.disk.tree.names path = some j → w.disk.synced j = true ∨
    w.disk.opener j = none ∧ t.names path = some j ∧ w.disk.tree.content j = t.content j
  kept : (t.names path).isSome = true → (w.disk.tree.names path).isSome = true

variable {Mine : ι → List (ι × SysEvent) → String → Prop} {path : Path} {t : FileTree Path}

omit [DecidableEq ι] in
theorem WholeFiles.start : WholeFiles path Mine t (World.start t) where
  synced j hj := by cases hj
  keyring j hj := .inr ⟨rfl, hj, rfl⟩
  kept h := h

section
variable (hmine : ∀ i line log log', log ⊆ log' → Mine i log line → Mine i log' line)
  {i : ι} {n : Path} {w w' : World ι} (hw : WholeFiles path Mine t w) (hlog : w.log ⊆ w'.log)
include hmine hw hlog

omit [DecidableEq ι] in
theorem WholeFiles.idle (hdisk : w'.disk = w.disk) : WholeFiles path Mine t w' := by
  refine ⟨fun j hj => ?_, ?_, ?_⟩
  · rw [hdisk] at hj ⊢
    obtain ⟨k, line, hopener, hline, hcontent⟩ := hw.synced j hj
    exact ⟨k, line, hopener, hmine k line _ _ hlog hline, hcontent⟩
  · rw [hdisk]
    exact hw.keyring
  · rw [hdisk]
    exact hw.kept

/-- The file that is opened is not the keyring, and is no longer taken for synced. -/
theorem WholeFiles.opened (hn : path ≠ n) (hdisk : w'.disk = w.disk.openTruncate i n) :
    WholeFiles path Mine t w' := by
  refine ⟨fun j hj => ?_, fun j hj => ?_, fun h => ?_⟩
  · rw [hdisk] at hj ⊢
    have hother : j ≠ w.disk.tree.inodeFor n := by
      intro hinode
      rw [hinode, Shared.openTruncate_unsynced] at hj
      cases hj
    rw [Shared.openTruncate_synced hother] at hj
    obtain ⟨k, line, hopener, hline, hcontent⟩ := hw.synced j hj
    exact ⟨k, line, (Shared.openTruncate_opener hother).trans hopener, hmine k line _ _ hlog hline,
      (Shared.openTruncate_content hother).trans hcontent⟩
  · rw [hdisk] at hj ⊢
    rw [Shared.openTruncate_names hn] at hj
    have hother := FileTree.inodeFor_ne hj hn
    simp only [Shared.openTruncate_synced hother, Shared.openTruncate_opener hother,
      Shared.openTruncate_content hother]
    exact hw.keyring j hj
  · rw [hdisk, Shared.openTruncate_names hn]
    exact hw.kept h

/-- A write of what one has opened, and not synced, is not to the keyring. -/
theorem WholeFiles.wrote {h : Handle} {bytes : Bytes} (hown : w.disk.opener h.inode = some (i, n))
    (hunsynced : w.disk.synced h.inode = false) (hdisk : w'.disk = w.disk.write i n h bytes) :
    WholeFiles path Mine t w' := by
  have hsynced : ∀ j, w.disk.synced j = true → j ≠ h.inode := by
    intro j hj hinode
    rw [hinode, hunsynced] at hj
    cases hj
  refine ⟨fun j hj => ?_, fun j hj => ?_, ?_⟩
  · rw [hdisk] at hj ⊢
    obtain ⟨k, line, hopener, hline, hcontent⟩ := hw.synced j hj
    exact ⟨k, line, hopener, hmine k line _ _ hlog hline,
      (FileTree.overwrite_content (hsynced j hj)).trans hcontent⟩
  · rw [hdisk] at hj ⊢
    obtain hj' | ⟨hnone, hsame, hcontent⟩ := hw.keyring j hj
    · exact .inl hj'
    · have hother : j ≠ h.inode := by
        intro hinode
        rw [hinode, hown] at hnone
        cases hnone
      exact .inr ⟨hnone, hsame, (FileTree.overwrite_content hother).trans hcontent⟩
  · rw [hdisk]
    exact hw.kept

/-- What is synced is a whole line. -/
theorem WholeFiles.flushed {h : Handle}
    (hwhole : w.disk.opener h.inode = some (i, path.withExtension "tmp") →
      ∃ line, Mine i w.log line ∧ w.disk.tree.content h.inode = utf8 line)
    (hdisk : w'.disk = w.disk.sync i (path.withExtension "tmp") h) : WholeFiles path Mine t w' := by
  refine ⟨fun j hj => ?_, fun j hj => ?_, ?_⟩
  · rw [hdisk] at hj ⊢
    obtain hbefore | ⟨rfl, hopener⟩ := Shared.sync_synced hj
    · obtain ⟨k, line, hopener, hline, hcontent⟩ := hw.synced j hbefore
      exact ⟨k, line, hopener, hmine k line _ _ hlog hline, hcontent⟩
    · obtain ⟨line, hline, hcontent⟩ := hwhole hopener
      exact ⟨i, line, hopener, hmine i line _ _ hlog hline, hcontent⟩
  · rw [hdisk] at hj ⊢
    obtain hsynced | hsame := hw.keyring j hj
    · exact .inl (Shared.synced_sync hsynced)
    · exact .inr hsame
  · rw [hdisk]
    exact hw.kept

omit [DecidableEq ι] in
/-- What becomes the keyring has been synced. -/
theorem WholeFiles.renamed {source : Path} (hsource : (w.disk.tree.names source).isSome = true)
    (hsynced : ∀ j, w.disk.tree.names source = some j → w.disk.synced j = true)
    (hdisk : w'.disk = w.disk.rename source path) : WholeFiles path Mine t w' := by
  refine ⟨fun j hj => ?_, fun j hj => ?_, fun _ => ?_⟩
  · rw [hdisk] at hj ⊢
    obtain ⟨k, line, hopener, hline, hcontent⟩ := hw.synced j hj
    exact ⟨k, line, hopener, hmine k line _ _ hlog hline, hcontent⟩
  · rw [hdisk] at hj ⊢
    exact .inl (hsynced j (FileTree.rename_target.symm.trans hj))
  · rw [hdisk, Shared.rename, FileTree.rename_target]
    exact hsource

omit [DecidableEq ι] in
/-- Another file's new name does not concern the keyring. -/
theorem WholeFiles.renamed_other {source target : Path} (hsource : path ≠ source)
    (htarget : path ≠ target) (hdisk : w'.disk = w.disk.rename source target) :
    WholeFiles path Mine t w' := by
  have hnames : w'.disk.tree.names path = w.disk.tree.names path := by
    rw [hdisk]
    exact FileTree.rename_names hsource htarget
  refine ⟨fun j hj => ?_, fun j hj => ?_, fun h => ?_⟩
  · rw [hdisk] at hj ⊢
    obtain ⟨k, line, hopener, hline, hcontent⟩ := hw.synced j hj
    exact ⟨k, line, hopener, hmine k line _ _ hlog hline, hcontent⟩
  · rw [hnames] at hj
    rw [hdisk]
    exact hw.keyring j hj
  · rw [hnames]
    exact hw.kept h

end

/-- A step that keeps its promise, taken in order, keeps the keyring whole. -/
theorem WholeFiles.step (hpath : path ≠ path.withExtension "tmp")
    (hmine : ∀ i line log log', log ⊆ log' → Mine i log line → Mine i log' line)
    {i : ι} {w w' : World ι} {e : SysEvent} (hw : WholeFiles path Mine t w)
    (hstep : orderlyStep i w e w') (hprom : SavePromise path Mine i w e) : WholeFiles path Mine t w' := by
  obtain ⟨horder, hsys⟩ := hstep
  have hlog := sysStep_log hsys
  have hchange := diskChange hsys.1
  generalize hdisk : w'.disk = d' at hchange
  cases hchange with
  | idle _ => exact hw.idle hmine hlog hdisk
  | opened =>
    obtain rfl := hprom
    exact hw.opened hmine hlog hpath hdisk
  | @wrote p buf m h hhandle _ =>
    have hown := horder h hhandle
    exact hw.wrote hmine hlog hown (hprom.2 h hhandle hown) hdisk
  | @synced p h hhandle =>
    obtain ⟨rfl, hwhole⟩ := hprom
    exact hw.flushed hmine hlog (hwhole h hhandle) hdisk
  | renamed hsource =>
    obtain ⟨rfl, htarget, -⟩ := hprom
    subst htarget
    exact hw.renamed hmine hlog hsource horder hdisk

/-- The processes that save, each its own session, and the disk they find. -/
def savers (P : Primitives) (path : Path) (sessionJson passphrase : ι → String) (t : FileTree Path) :
    Pool SysAns (World ι) (fun _ : ι => Except KeyringError Unit) where
  state := .start t
  progs i := lower syscalls (saveKeyring P path (sessionJson i) (passphrase i)).run

/-- The keyring is as it was, there or not, or one whole line that one of them has sealed. -/
def KeyringWhole (P : Primitives) (path : Path) (sessionJson passphrase : ι → String) (t : FileTree Path)
    (w : World ι) : Prop :=
  w.disk.tree.read path = t.read path ∨
    ∃ i line, SealedAs P (sessionJson i) (passphrase i) line ∧ w.disk.tree.read path = some (utf8 line)

theorem orderly_undisturbed {prom : ι → World ι → SysEvent → Prop} {i : ι} :
    Undisturbed orderlyStep prom i :=
  undisturbed_of_own (fun _ _ _ _ h => h.2) (fun _ _ _ _ _ _ h => h.1)

omit [DecidableEq ι] in
theorem WholeFiles.keyringWhole {P : Primitives} {sessionJson passphrase : ι → String} {w : World ι}
    (h : WholeFiles path (fun i _ line => SealedAs P (sessionJson i) (passphrase i) line) t w) :
    KeyringWhole P path sessionJson passphrase t w := by
  cases hnames : w.disk.tree.names path with
  | none =>
    refine .inl ?_
    cases ht : t.names path with
    | none => rw [FileTree.read, FileTree.read, hnames, ht]; rfl
    | some j =>
      have hkept := h.kept (by rw [ht]; rfl)
      rw [hnames] at hkept
      cases hkept
  | some j =>
    obtain hsynced | ⟨-, hsame, hcontent⟩ := h.keyring j hnames
    · obtain ⟨i, line, -, hline, hcontent⟩ := h.synced j hsynced
      exact .inr ⟨i, line, hline, by rw [FileTree.read, hnames, Option.map_some, hcontent]⟩
    · exact .inl (by rw [FileTree.read, FileTree.read, hnames, hsame, Option.map_some, Option.map_some, hcontent])

/-- However many saves run at once, and wherever each is stopped: while none writes to or
renames the temporary file of another, the keyring is whole. -/
theorem concurrent_saves_are_whole (P : Primitives) (hpath : path ≠ path.withExtension "tmp")
    (sessionJson passphrase : ι → String)
    {w : Pool SysAns (World ι) (fun _ : ι => Except KeyringError Unit)}
    (h : Interleaved orderlyStep (savers P path sessionJson passphrase t) w) :
    KeyringWhole P path sessionJson passphrase t w.state := by
  have hall : ∀ i, Promises orderlyStep
      (SavePromise path (fun i _ line => SealedAs P (sessionJson i) (passphrase i) line)) i
      (fun r w' => True ∧ (r = .ok () →
        (i, (⟨.file (.rename (path.withExtension "tmp") path), .ok ()⟩ : SysEvent)) ∈ w'.log))
      (lower syscalls (saveKeyring P path (sessionJson i) (passphrase i)).run) (World.start t) := by
    intro i
    have hnone : NotOpened i (path.withExtension "tmp") (World.start t) := fun j hj => by cases hj
    exact saveKeyring_promises (L := fun _ => True) orderly_undisturbed (fun _ _ h => h)
      (fun _ _ _ _ => trivial) (fun _ _ _ hline => hline) ⟨hnone, trivial⟩
  exact (interleaved_invariant h hall WholeFiles.start
    (fun i s e s' hs hstep hprom => hs.step hpath (fun _ _ _ _ _ hline => hline) hstep hprom)).keyringWhole

/-! ## A save that is overtaken -/

/-- No file at all. -/
def bareTree : FileTree Path where
  names _ := none
  content _ := []
  next := 0
  fresh _ _ h := by cases h
  single _ _ _ h _ := by cases h

/-- Two processes, that save `a` and `b`. -/
def twoSavers : Pool SysAns (World Bool) (fun _ : Bool => Except KeyringError Unit) :=
  savers plainPrimitives ["keyring"] (fun i => if i then "b" else "a") (fun _ => "pw") bareTree

def openTrace : List SysEvent :=
  [⟨.file (.random 16), .ok (zeros 16)⟩, ⟨.file (.random 16), .ok (zeros 16)⟩,
    ⟨.file (.createDirAll []), .ok ()⟩, ⟨.file (.modeOf []), .ok 0o40700⟩,
    ⟨.file (.openTruncate ["keyring.tmp"] (some 0o600)), .ok ()⟩]

def flushTrace (bytes : Bytes) : List SysEvent :=
  [⟨.write ["keyring.tmp"] bytes, .ok bytes.length⟩, ⟨.file (.syncAll ["keyring.tmp"]), .ok ()⟩]

def renameTrace : List SysEvent := [⟨.file (.rename ["keyring.tmp"] ["keyring"]), .ok ()⟩]

/-- The line of a save is not empty. -/
theorem sealedAs_ne_nil {P : Primitives} {s p line : String} (h : SealedAs P s p line) : utf8 line ≠ [] := by
  obtain ⟨salt, iv, hline⟩ := h
  refine utf8_ne_nil (fun hempty => ?_)
  unfold keyringLine at hline
  cases hkek : deriveKek P p salt.1 with
  | error e => rw [hkek] at hline; cases hline
  | ok kek =>
    rw [hkek] at hline
    have hmagic := congrArg String.toList (Except.ok.inj hline)
    rw [hempty] at hmagic
    simp [keyringMagic] at hmagic

theorem plainKeyringLine_line (s : String) :
    keyringLine plainPrimitives s "pw" (zeros 16) (zeros 16) = .ok (plainKeyringLine s) := rfl

theorem plainKeyringLine_ne_nil (s : String) : utf8 (plainKeyringLine s) ≠ [] :=
  sealedAs_ne_nil ⟨_, _, plainKeyringLine_line s⟩

theorem keyringEvents_carried (s : String) :
    CarriedOut syscalls (keyringEvents [] (zeros 16) (zeros 16) (plainKeyringLine s))
      (openTrace ++ (flushTrace (utf8 (plainKeyringLine s)) ++ renameTrace)) :=
  carriedOut_syscalls (by simp [keyringEvents, WritesSome, plainKeyringLine_ne_nil])

/-- A save that is not disturbed. -/
theorem save_runs (s : String) :
    Runs (lower syscalls (saveKeyring plainPrimitives ["keyring"] s "pw").run)
      (openTrace ++ (flushTrace (utf8 (plainKeyringLine s)) ++ renameTrace)) (.ok ()) := by
  have hruns : Runs (saveKeyring plainPrimitives (keyringPath []) s "pw").run
      (keyringEvents [] (zeros 16) (zeros 16) (plainKeyringLine s)) (.ok ()) :=
    saveKeyring_runs (plainKeyringLine_line s)
  exact runs_lower.mpr ⟨_, hruns, keyringEvents_carried s⟩

/-- A save by its stages: the file is open, it is synced, it is renamed. -/
theorem save_leads (s : String) : ∃ opened synced,
    Leads openTrace (lower syscalls (saveKeyring plainPrimitives ["keyring"] s "pw").run) opened ∧
    Leads (flushTrace (utf8 (plainKeyringLine s))) opened synced ∧
    Leads renameTrace synced (.done (.ok ())) := by
  obtain ⟨opened, hopen, hrest⟩ := (leads_done.mpr (save_runs s)).split
  obtain ⟨synced, hflush, hrename⟩ := hrest.split
  exact ⟨opened, synced, hopen, hflush, hrename⟩

/-- A step in order, of files that are one's own. -/
def tidyStep (i : ι) (w : World ι) (e : SysEvent) (w' : World ι) : Prop :=
  OwnFiles i w e ∧ orderlyStep i w e w'

theorem tidy_own (i : ι) (w : World ι) (e : SysEvent) (w' : World ι) (h : tidyStep i w e w') :
    ownStep i w e w' := ⟨h.1, h.2.2⟩

theorem tidy_sys (i : ι) (w : World ι) (e : SysEvent) (w' : World ι) (h : tidyStep i w e w') :
    sysStep i w e w' := h.2.2

section
variable {step step' : ι → World ι → SysEvent → World ι → Prop} {i : ι} {d d' d'' : Shared ι Path}
  {e : SysEvent} {tr tr' : List SysEvent}

/-- The member's events, taken by the rule, take the disk from the first to the second. -/
def Effects (step : ι → World ι → SysEvent → World ι → Prop) (i : ι) (d : Shared ι Path)
    (tr : List SysEvent) (d' : Shared ι Path) : Prop :=
  ∀ log, MemberSteps step i ⟨d, log⟩ tr ⟨d', log ++ tr.map (Prod.mk i)⟩

omit [DecidableEq ι] in
theorem Effects.nil : Effects step i d [] d := fun log => by
  rw [List.map_nil, List.append_nil]
  rfl

omit [DecidableEq ι] in
theorem Effects.cons (hstep : ∀ log, step i ⟨d, log⟩ e ⟨d', log ++ [(i, e)]⟩)
    (hrest : Effects step i d' tr d'') : Effects step i d (e :: tr) d'' := by
  intro log
  have hsteps := hrest (log ++ [(i, e)])
  rw [List.append_assoc] at hsteps
  exact ⟨⟨d', log ++ [(i, e)]⟩, hstep log, hsteps⟩

omit [DecidableEq ι] in
theorem Effects.append (h : Effects step i d tr d') (h' : Effects step i d' tr' d'') :
    Effects step i d (tr ++ tr') d'' := by
  intro log
  have hsteps := h' (log ++ tr.map (Prod.mk i))
  rw [List.append_assoc, ← List.map_append] at hsteps
  exact (h log).append hsteps

omit [DecidableEq ι] in
theorem Effects.mono (hstep : ∀ i w e w', step i w e w' → step' i w e w') (h : Effects step i d tr d') :
    Effects step' i d tr d' := fun log => (h log).mono hstep

/-- A call that neither writes nor renames is always tidy. -/
theorem tidy_step {log : List (ι × SysEvent)} (hwrite : ∀ p buf n, e ≠ ⟨.write p buf, .ok n⟩)
    (hrename : ∀ source target, e ≠ ⟨.file (.rename source target), .ok ()⟩)
    (heffect : diskEffect i d e d') : tidyStep i ⟨d, log⟩ e ⟨d', log ++ [(i, e)]⟩ := by
  refine ⟨?_, ?_, heffect, rfl⟩
  · unfold OwnFiles
    split
    · exact absurd rfl (hwrite _ _ _)
    · exact absurd rfl (hrename _ _)
    · trivial
  · unfold Orderly
    split
    · exact absurd rfl (hwrite _ _ _)
    · exact absurd rfl (hrename _ _)
    · trivial

/-- Calls that leave the disk alone. -/
theorem idle_effects (h : ∀ e ∈ tr, isIdle e.1 = true ∧ diskEffect i d e d) : Effects tidyStep i d tr d := by
  induction tr with
  | nil => exact .nil
  | cons e rest ih =>
    obtain ⟨hidle, heffect⟩ := h e (List.mem_cons_self ..)
    refine .cons (fun log => tidy_step (fun p buf n he => ?_) (fun source target he => ?_) heffect)
      (ih (fun e he => h e (List.mem_cons_of_mem _ he)))
    · rw [he] at hidle
      cases hidle
    · rw [he] at hidle
      cases hidle

theorem truncate_effects {n : Path} {mode : Option UInt32} :
    Effects tidyStep i d [⟨.file (.openTruncate n mode), .ok ()⟩] (d.openTruncate i n) :=
  .cons (fun _ => tidy_step (fun _ _ _ he => by cases he) (fun _ _ he => by cases he) rfl) .nil

/-- The process has opened the file and written nothing yet. -/
structure JustOpened (i : ι) (n : Path) (j : Nat) (d : Shared ι Path) : Prop where
  handle : d.handle i n = some ⟨j, 0⟩
  opener : d.opener j = some (i, n)
  empty : d.tree.content j = []

theorem justOpened {n : Path} : JustOpened i n (d.tree.inodeFor n) (d.openTruncate i n) where
  handle := Shared.setHandle_self
  opener := Function.update_self ..
  empty := Function.update_self ..

theorem write_effects {n : Path} {j : Nat} (h : JustOpened i n j d) (bytes : Bytes) :
    Effects tidyStep i d [⟨.write n bytes, .ok bytes.length⟩] (d.write i n ⟨j, 0⟩ bytes) := by
  have hown : ∀ h', d.handle i n = some h' → d.opener h'.inode = some (i, n) := by
    intro h' hh
    cases h.handle.symm.trans hh
    exact h.opener
  exact .cons (fun log => ⟨hown, hown, ⟨_, h.handle, le_refl _, by rw [List.take_length]⟩, rfl⟩) .nil

theorem open_effects : Effects tidyStep i d openTrace (d.openTruncate i ["keyring.tmp"]) := by
  have hidle : Effects tidyStep i d (openTrace.take 4) d := idle_effects (by simp [openTrace, isIdle, diskEffect])
  exact hidle.append truncate_effects

/-- Having opened the file, it writes the bytes and syncs them. -/
theorem flush_effects {j : Nat} (h : JustOpened i ["keyring.tmp"] j d) (bytes : Bytes) : ∃ d',
    Effects tidyStep i d (flushTrace bytes) d' ∧ d'.tree.names = d.tree.names ∧
    d'.opener = d.opener ∧ d'.synced j = true ∧ d'.tree.content j = bytes := by
  have hself := Shared.setHandle_self (d := d) (i := i) (n := ["keyring.tmp"])
    (h := ⟨j, 0 + bytes.length⟩)
  have hcontent : (d.write i ["keyring.tmp"] ⟨j, 0⟩ bytes).tree.content j = bytes := by
    calc (d.write i ["keyring.tmp"] ⟨j, 0⟩ bytes).tree.content j
        = splice (d.tree.content j) 0 bytes := FileTree.overwrite_self
      _ = bytes := by rw [h.empty]; simp [splice]
  have hopener : (d.write i ["keyring.tmp"] ⟨j, 0⟩ bytes).opener j = some (i, ["keyring.tmp"]) := h.opener
  refine ⟨_, (write_effects h bytes).append (.cons (fun log => tidy_step (fun _ _ _ he => by cases he)
    (fun _ _ he => by cases he) ⟨_, hself, rfl⟩) .nil), rfl, rfl, Shared.sync_own hopener, hcontent⟩

theorem rename_effects {j : Nat} (hnames : d.tree.names ["keyring.tmp"] = some j)
    (hopener : d.opener j = some (i, ["keyring.tmp"])) (hsynced : d.synced j = true) :
    Effects tidyStep i d renameTrace (d.rename ["keyring.tmp"] ["keyring"]) := by
  refine .cons (fun log => ⟨fun j' hj' => ?_, fun j' hj' => ?_, ⟨by rw [hnames]; rfl, rfl⟩, rfl⟩) .nil
  · cases hnames.symm.trans hj'
    exact hopener
  · cases hnames.symm.trans hj'
    exact hsynced

end

/-- A process that is given the floor. -/
theorem given_floor {step : ι → World ι → SysEvent → World ι → Prop} {β : ι → Type} {i : ι}
    {w : Pool SysAns (World ι) β} {tr : List SysEvent} {p : Sys (β i)} {d : Shared ι Path}
    (hleads : Leads tr (w.progs i) p) (heffects : Effects step i w.state.disk tr d) :
    ∃ w', Interleaved step w w' ∧ w'.state.disk = d ∧ w'.progs i = p ∧
      (∀ j, j ≠ i → w'.progs j = w.progs j) ∧ w'.state.log = w.state.log ++ tr.map (Prod.mk i) :=
  ⟨_, interleaved_member hleads (heffects w.state.log), rfl, Function.update_self ..,
    fun _ hj => Function.update_of_ne hj .., rfl⟩

/-- The first of the two has synced its line, the other has not begun. -/
theorem first_synced : ∃ w synced, Interleaved tidyStep twoSavers w ∧
    w.progs false = synced ∧ Leads renameTrace synced (.done (.ok ())) ∧
    w.progs true = twoSavers.progs true ∧ w.state.disk.tree.names ["keyring.tmp"] = some 0 ∧
    w.state.disk.opener 0 = some (false, ["keyring.tmp"]) ∧ w.state.disk.synced 0 = true := by
  obtain ⟨opened, synced, hopen, hflush, hrename⟩ := save_leads "a"
  obtain ⟨w₁, hw₁, hdisk₁, hprog₁, hother₁, -⟩ :=
    given_floor (w := twoSavers) (i := false) hopen open_effects
  have hopened : JustOpened false ["keyring.tmp"] 0 w₁.state.disk := by
    rw [hdisk₁]
    exact justOpened (d := twoSavers.state.disk)
  obtain ⟨d₂, heffects, hnames, hopener, hsynced, -⟩ := flush_effects hopened (utf8 (plainKeyringLine "a"))
  obtain ⟨w₂, hw₂, hdisk₂, hprog₂, hother₂, -⟩ :=
    given_floor (w := w₁) (i := false) (hprog₁ ▸ hflush) heffects
  have hname : w₁.state.disk.tree.names ["keyring.tmp"] = some 0 := by
    rw [hdisk₁]
    exact FileTree.truncate_self
  have hother : w₂.progs true = twoSavers.progs true :=
    (hother₂ true (by decide)).trans (hother₁ true (by decide))
  refine ⟨w₂, synced, hw₁.trans hw₂, hprog₂, hrename, hother, ?_, ?_, hdisk₂ ▸ hsynced⟩
  · rw [hdisk₂, hnames]
    exact hname
  · rw [hdisk₂, hopener]
    exact hopened.opener

theorem concurrent_saves_are_whole_first : ∃ w, Interleaved orderlyStep twoSavers w ∧
    w.progs false = .done (.ok ()) ∧
    KeyringWhole plainPrimitives ["keyring"] (fun i => if i then "b" else "a") (fun _ => "pw") bareTree
      w.state := by
  obtain ⟨w₁, synced, hw₁, hprog, hrename, -, hnames, hopener, hsynced⟩ := first_synced
  obtain ⟨w₂, hw₂, -, hdone, -⟩ := given_floor (w := w₁) (i := false) (hprog ▸ hrename)
    (rename_effects hnames hopener hsynced)
  have hw := interleaved_mono (fun _ _ _ _ h => h.2) (hw₁.trans hw₂)
  exact ⟨w₂, hw, hdone, concurrent_saves_are_whole plainPrimitives (by decide) _ _ hw⟩

/-- The second opens the file that the first has synced, and the first renames it: the
keyring is empty. -/
theorem overtaken_save_is_torn : ∃ w, Interleaved sysStep twoSavers w ∧
    ¬ KeyringWhole plainPrimitives ["keyring"] (fun i => if i then "b" else "a") (fun _ => "pw") bareTree
      w.state := by
  obtain ⟨w₁, synced, hw₁, hprog₁, hrename, hother₁, -⟩ := first_synced
  obtain ⟨opened, _, hopen, -, -⟩ := save_leads "b"
  have hsecond : w₁.progs true = lower syscalls (saveKeyring plainPrimitives ["keyring"] "b" "pw").run :=
    hother₁
  obtain ⟨w₂, hw₂, hdisk₂, -, hother₂, -⟩ :=
    given_floor (w := w₁) (i := true) (hsecond ▸ hopen) open_effects
  have hleft : w₂.progs false = synced := (hother₂ false (by decide)).trans hprog₁
  have hsource : (w₂.state.disk.tree.names ["keyring.tmp"]).isSome = true := by
    rw [hdisk₂]
    exact congrArg Option.isSome FileTree.truncate_self
  have hsteps : MemberSteps sysStep false w₂.state renameTrace
      ⟨w₂.state.disk.rename ["keyring.tmp"] ["keyring"], _⟩ := ⟨_, ⟨⟨hsource, rfl⟩, rfl⟩, rfl⟩
  refine ⟨_, (interleaved_mono tidy_sys (hw₁.trans hw₂)).trans
    (interleaved_member (hleft ▸ hrename) hsteps), ?_⟩
  -- the file it renames is the one that the other has just truncated
  have hread : (w₂.state.disk.rename ["keyring.tmp"] ["keyring"]).tree.read ["keyring"] = some [] := by
    rw [Shared.rename, FileTree.rename_read, hdisk₂]
    exact FileTree.truncate_read
  intro hwhole
  obtain hbefore | ⟨i, line, hline, hholds⟩ := hwhole
  · cases hread.symm.trans hbefore
  · exact sealedAs_ne_nil hline (Option.some.inj (hread.symm.trans hholds)).symm

end

end Cryptile
