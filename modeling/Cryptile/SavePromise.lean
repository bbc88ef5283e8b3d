import Cryptile.Keyring
import Cryptile.Syscalls

/-
  SavePromise — a save among others that save at the same time

  `SavePromise` is what `Keyring::save` promises of each of its calls, whatever the
  others do to the temporary file meanwhile: it writes on from where it was, syncs
  when the whole of its line is there, and renames what it has synced. It speaks
  of the file only as long as nobody else has opened it since; what then becomes of
  the keyring is said where the steps of the others are restricted.
-/

namespace Cryptile
open Text Interaction Inodes

section
variable {ι : Type}

/-! ## What a save promises of its calls -/

section
variable (path : Path) (Mine : ι → List (ι × SysEvent) → String → Prop)

/-- It opens the temporary file only, writes it before it syncs it, syncs a whole line
of its own, and renames what it has synced: as far as nobody else has opened it. -/
def SavePromise (i : ι) (w : World ι) : SysEvent → Prop
  | ⟨.file (.openTruncate p _), .ok _⟩ => p = path.withExtension "tmp"
  | ⟨.write p _, .ok _⟩ => p = path.withExtension "tmp" ∧
      ∀ h, w.disk.handle i p = some h → w.disk.opener h.inode = some (i, p) →
        w.disk.synced h.inode = false
  | ⟨.file (.syncAll p), .ok _⟩ => p = path.withExtension "tmp" ∧
      ∀ h, w.disk.handle i p = some h → w.disk.opener h.inode = some (i, p) →
        ∃ line, Mine i w.log line ∧ w.disk.tree.content h.inode = utf8 line
  | ⟨.file (.rename source target), .ok _⟩ => source = path.withExtension "tmp" ∧ target = path ∧
      ∀ j, w.disk.opener j = some (i, source) → w.disk.synced j = true
  | _ => True

end

section
variable (i : ι) (n : Path)

/-- The process has not opened the file. -/
def NotOpened (w : World ι) : Prop := ∀ j, w.disk.opener j ≠ some (i, n)

/-- The process has it open, and has written the first `k` of the bytes, unless another
has opened it since. -/
def Writing (bytes : Bytes) (k : Nat) (w : World ι) : Prop :=
  ∃ h, w.disk.handle i n = some h ∧ h.offset = k ∧ ∀ j, w.disk.opener j = some (i, n) →
    j = h.inode ∧ w.disk.tree.content j = bytes.take k ∧ w.disk.synced j = false

/-- What it has opened it has synced. -/
def Flushed (w : World ι) : Prop := ∀ j, w.disk.opener j = some (i, n) → w.disk.synced j = true

/-- It holds on while what the process has open is kept and the log grows. -/
def Durable (P : World ι → Prop) : Prop :=
  ∀ w w', P w → (∀ n, Shared.Keeps i n w.disk w'.disk) → w.log ⊆ w'.log → P w'

/-- It is about what is in the log. -/
def Recorded (P : World ι → Prop) : Prop := ∀ w w', P w → w.log ⊆ w'.log → P w'

end

section
variable {i : ι} {n : Path} {P R : World ι → Prop}

theorem Durable.and (hP : Durable i P) (hR : Durable i R) : Durable i (fun w => P w ∧ R w) :=
  fun w w' h hkeeps hlog => ⟨hP w w' h.1 hkeeps hlog, hR w w' h.2 hkeeps hlog⟩

theorem notOpened_durable : Durable i (NotOpened i n) :=
  fun _ _ h hkeeps _ j hj => h j ((hkeeps n).opener j hj).1

theorem writing_durable {bytes : Bytes} {k : Nat} : Durable i (Writing i n bytes k) := by
  intro w w' hw hkeeps _
  obtain ⟨h, hhandle, hoffset, hown⟩ := hw
  refine ⟨h, (hkeeps n).handle.trans hhandle, hoffset, fun j hj => ?_⟩
  obtain ⟨hopener, hcontent, hsynced⟩ := (hkeeps n).opener j hj
  obtain ⟨hinode, hprefix, hunsynced⟩ := hown j hopener
  exact ⟨hinode, hcontent.trans hprefix, hsynced.trans hunsynced⟩

theorem flushed_durable : Durable i (Flushed i n) := by
  intro w w' hw hkeeps _ j hj
  obtain ⟨hopener, -, hsynced⟩ := (hkeeps n).opener j hj
  exact hsynced.trans (hw j hopener)

theorem Recorded.durable (hP : Recorded P) : Durable i P := fun w w' h _ hlog => hP w w' h hlog

theorem recorded_event {e : ι × SysEvent} : Recorded (fun w => e ∈ w.log) := fun _ _ h hlog => hlog h

end

/-! ## The calls of a save -/

section
variable [DecidableEq ι] {step : ι → World ι → SysEvent → World ι → Prop}
  {prom : ι → World ι → SysEvent → Prop} {i : ι} {n : Path} {L : World ι → Prop} {w : World ι}

/-- The steps are calls, and the others leave alone what the process has open. -/
structure Undisturbed (step : ι → World ι → SysEvent → World ι → Prop)
    (prom : ι → World ι → SysEvent → Prop) (i : ι) : Prop where
  calls : ∀ j w e w', step j w e w' → sysStep j w e w'
  keeps : ∀ j, j ≠ i → ∀ w e w', step j w e w' → prom j w e → ∀ n, Shared.Keeps i n w.disk w'.disk

theorem sysStep_log {j : ι} {w w' : World ι} {e : SysEvent} (h : sysStep j w e w') : w.log ⊆ w'.log := by
  rw [h.2]
  exact List.subset_append_left _ _

theorem sysStep_logged {j : ι} {w w' : World ι} {e : SysEvent} (h : sysStep j w e w') :
    (j, e) ∈ w'.log := by
  rw [h.2]
  exact List.mem_append_right _ (List.mem_singleton.mpr rfl)

theorem Undisturbed.grows (h : Undisturbed step prom i) {j : ι} {w w' : World ι} {e : SysEvent}
    (hstep : step j w e w') : w.log ⊆ w'.log := sysStep_log (h.calls j w e w' hstep)

theorem Undisturbed.stable (h : Undisturbed step prom i) {P : World ι → Prop} (hP : Durable i P) :
    Stable step prom i P :=
  fun j hj w e w' hstep hprom hw =>
    hP w w' hw (h.keeps j hj w e w' hstep hprom) (sysStep_log (h.calls j w e w' hstep))

/-- What is written or renamed nobody else has opened since. -/
def OwnFiles (i : ι) (w : World ι) : SysEvent → Prop
  | ⟨.write p _, .ok _⟩ => ∀ h, w.disk.handle i p = some h → w.disk.opener h.inode = some (i, p)
  | ⟨.file (.rename source _), .ok _⟩ =>
    ∀ j, w.disk.tree.names source = some j → w.disk.opener j = some (i, source)
  | _ => True

def ownStep (i : ι) (w : World ι) (e : SysEvent) (w' : World ι) : Prop :=
  OwnFiles i w e ∧ sysStep i w e w'

/-- Where all write only to files that nobody else has opened since, the others leave
alone what a process has open. -/
theorem undisturbed_of_own (hcalls : ∀ j w e w', step j w e w' → sysStep j w e w')
    (hown : ∀ j w p buf m w', step j w ⟨.write p buf, .ok m⟩ w' →
      ∀ h, w.disk.handle j p = some h → w.disk.opener h.inode = some (j, p)) :
    Undisturbed step prom i where
  calls := hcalls
  keeps j hj w e w' hstep _ n := by
    have hne : ∀ m, (j, m) ≠ (i, n) := fun m he => hj (congrArg Prod.fst he)
    have hchange := diskChange (hcalls j w e w' hstep).1
    obtain ⟨d', log'⟩ := w'
    simp only at hchange
    cases hchange with
    | idle _ => exact .refl
    | opened => exact Shared.keeps_openTruncate (hne _)
    | wrote hhandle _ => exact Shared.keeps_write (hne _) (hown j w _ _ _ _ hstep _ hhandle)
    | synced _ => exact Shared.keeps_sync (hne _)
    | renamed _ => exact Shared.keeps_rename

/-- A call that leaves the disk alone keeps what is durable. -/
theorem Undisturbed.idle (h : Undisturbed step prom i) (hL : Durable i L) {q : SysReq}
    (hq : isIdle q = true) (hprom : ∀ w x, prom i w ⟨q, x⟩) (hw : L w) :
    Promises step prom i (fun x w' => L w' ∧ (i, ⟨q, x⟩) ∈ w'.log) (request q) w := by
  refine promises_request (h.stable hL) (fun x => h.stable (hL.and recorded_event.durable)) ?_ hw
  intro w x w' hLw hstep
  have hcall := h.calls i w _ w' hstep
  have hsame : w'.disk = w.disk := diskEffect_idle hq hcall.1
  exact ⟨hprom w x, hL w w' hLw (fun n => by rw [hsame]; exact .refl) (sysStep_log hcall), sysStep_logged hcall⟩

/-- The same of an operation that is one such call. -/
theorem Undisturbed.operation (h : Undisturbed step prom i) (hL : Durable i L) {q : OsReq}
    (hq : isIdle (.file q) = true) (hprom : ∀ w x, prom i w ⟨.file q, x⟩) (hw : L w) :
    Promises step prom i (fun _ w' => L w') (lower syscalls (os q)) w := by
  rw [os, lower_request, syscalls_idle hq]
  exact (h.idle hL hq hprom hw).mono (fun _ _ h => h.1)

omit [DecidableEq ι] in
/-- The last call of a program, with its errors put into another type. -/
theorem mapError_promises {ε δ : Type} {f : ε → δ} {x : Os (Except ε Unit)} {Q R : World ι → Prop}
    (h : Promises step prom i (fun r w' => Q w' ∧ (r = .ok () → R w')) (lower syscalls x) w) :
    Promises step prom i (fun r w' => Q w' ∧ (r = .ok () → R w'))
      (lower syscalls ((fun r : Except ε Unit => r.mapError f) <$> x)) w := by
  rw [lower_map]
  refine promises_map (h.mono (fun r w' h => ⟨h.1, fun hr => h.2 ?_⟩))
  cases r with
  | error e => cases hr
  | ok u => rfl

omit [DecidableEq ι] in
/-- The program with its errors put into another type, then the rest. -/
theorem mapErr_promises {ε α β : Type} {wrap : String → ε} {x : Os (Except String α)}
    {k : α → ExceptT ε Os β} {post : Except String α → World ι → Prop}
    {post' : Except ε β → World ι → Prop} (h : Promises step prom i post (lower syscalls x) w)
    (herror : ∀ e w, post (.error e) w → post' (.error (wrap e)) w)
    (hok : ∀ a w, post (.ok a) w → Promises step prom i post' (lower syscalls (k a).run) w) :
    Promises step prom i post' (lower syscalls (mapErr wrap x >>= k).run) w := by
  rw [lower_except_bind]
  have hwrapped : Promises step prom i (fun r w => ∃ y, r = y.mapError wrap ∧ post y w)
      (lower syscalls (mapErr wrap x).run) w := by
    rw [show (mapErr wrap x).run = (fun r : Except String α => r.mapError wrap) <$> x from rfl, lower_map]
    exact promises_map (h.mono (fun y _ hy => ⟨y, rfl, hy⟩))
  refine promises_except_bind hwrapped ?_ ?_
  · intro e w he
    obtain ⟨y, hy, hpost⟩ := he
    cases y with
    | error e' => cases hy; exact herror e' w hpost
    | ok a => cases hy
  · intro a w ha
    obtain ⟨y, hy, hpost⟩ := ha
    cases y with
    | error e' => cases hy
    | ok a' => cases hy; exact hok a w hpost

/-- What a program asks that leaves the disk alone is all in the log. -/
theorem idle_run_promises (hother : Undisturbed step prom i)
    (hprom : ∀ w e, isIdle e.1 = true → prom i w e) {β : Type} : ∀ {p : Sys β} {L : World ι → Prop}
    {w : World ι}, Durable i L → Asks (fun q => isIdle q = true) p → L w →
    Promises step prom i (fun b w' => L w' ∧ ∃ t, Runs p t b ∧ ∀ e ∈ t, (i, e) ∈ w'.log) p w
  | .done b, L, w, hL, _, hw => by
    have hstable : Stable step prom i (fun w' => L w' ∧ ∃ t, Runs (.done b) t b ∧ ∀ e ∈ t, (i, e) ∈ w'.log) :=
      fun j hj w e w' hs hp h => ⟨hother.stable hL j hj w e w' hs hp h.1, [], ⟨rfl, rfl⟩, by simp⟩
    exact promises_pure hstable ⟨hw, [], ⟨rfl, rfl⟩, by simp⟩
  | .ask q k, L, w, hL, hasks, hw => by
    have hcall := hother.idle hL hasks.1 (fun w x => hprom w ⟨q, x⟩ hasks.1) hw
    refine promises_bind (p := request q) hcall (fun x w' hx => ?_)
    have hthen := idle_run_promises hother hprom (hL.and recorded_event.durable) (hasks.2 x) (hx w' .refl)
    refine hthen.mono (fun b w'' h => ?_)
    obtain ⟨⟨hLw, hfirst⟩, t, hruns, hlogged⟩ := h
    exact ⟨hLw, ⟨q, x⟩ :: t, ⟨x, t, rfl, hruns⟩, List.forall_mem_cons.mpr ⟨hfirst, hlogged⟩⟩

omit [DecidableEq ι] in
/-- A program that cannot fail, then the rest. -/
theorem lift_promises {ε α β : Type} {x : Os α} {f : α → ExceptT ε Os β} {post : α → World ι → Prop}
    {post' : Except ε β → World ι → Prop} (h : Promises step prom i post (lower syscalls x) w)
    (hf : ∀ a w, post a w → Promises step prom i post' (lower syscalls (f a).run) w) :
    Promises step prom i post' (lower syscalls (ExceptT.lift x >>= f).run) w := by
  rw [lower_except_bind]
  have hlift : Promises step prom i (fun r w => ∃ a, r = .ok a ∧ post a w)
      (lower syscalls (ExceptT.lift x : ExceptT ε Os α).run) w := by
    rw [show (ExceptT.lift x : ExceptT ε Os α).run = Except.ok <$> x from rfl, lower_map]
    exact promises_map (h.mono (fun a _ ha => ⟨a, rfl, ha⟩))
  refine promises_except_bind hlift ?_ ?_
  · intro e w he
    obtain ⟨a, ha, -⟩ := he
    cases ha
  · intro a w ha
    obtain ⟨a', ha', hpost⟩ := ha
    cases ha'
    exact hf a w hpost

/-! ## Every run of a save, among others -/

section
variable {P : Primitives} {path : Path} {Mine : ι → List (ι × SysEvent) → String → Prop}
  {sessionJson passphrase : String}

/-- The random bytes, and the line. -/
theorem sealKeyring_promises (hother : Undisturbed step prom i)
    (hprom : ∀ w e, SavePromise path Mine i w e → prom i w e) (hL : Durable i L) (hw : L w) :
    Promises step prom i
      (fun r w' => L w' ∧ ∀ line, r = .ok line → SealedAs P sessionJson passphrase line)
      (lower syscalls (sealKeyring P sessionJson passphrase).run) w := by
  have hrandom : ∀ w, L w → Promises step prom i (fun _ w' => L w') (lower syscalls (os (.random 16))) w :=
    fun w hw => hother.operation hL rfl (fun w x => hprom w _ trivial) hw
  unfold sealKeyring
  refine mapErr_promises (hrandom w hw) (fun e w h => ⟨h, fun line hline => by cases hline⟩) ?_
  intro salt w hw
  refine mapErr_promises (hrandom w hw) (fun e w h => ⟨h, fun line hline => by cases hline⟩) ?_
  intro iv w hw
  have hstable : Stable step prom i (fun w => L w ∧ ∀ line,
      keyringLine P sessionJson passphrase salt iv = .ok line → SealedAs P sessionJson passphrase line) :=
    fun j hj w e w' hstep hprom h => ⟨hother.stable hL j hj w e w' hstep hprom h.1, h.2⟩
  exact promises_pure hstable ⟨hw, fun line hline => ⟨salt, iv, hline⟩⟩

theorem ensureParent_promises (hother : Undisturbed step prom i)
    (hprom : ∀ w e, SavePromise path Mine i w e → prom i w e) (hL : Durable i L) (hw : L w)
    (target : Path) : Promises step prom i (fun _ w' => L w') (lower syscalls (ensureParent target).run) w := by
  unfold ensureParent
  cases target.parent with
  | none => exact promises_pure (hother.stable hL) hw
  | some parent =>
    refine mapErr_promises (hother.operation hL (q := .createDirAll parent) rfl (fun w _ => hprom w _ trivial) hw)
      (fun e w h => h) ?_
    intro _ w hw
    refine mapErr_promises (hother.operation hL (q := .modeOf parent) rfl (fun w _ => hprom w _ trivial) hw)
      (fun e w h => h) ?_
    intro mode w hw
    split
    · rw [show (mapErr KeyringError.io (os (.setMode parent 0o700))).run =
        (fun r : Except String Unit => r.mapError KeyringError.io) <$> os (.setMode parent 0o700) from rfl,
        lower_map]
      exact promises_map
        (hother.operation hL (q := .setMode parent 0o700) rfl (fun w _ => hprom w _ trivial) hw)
    · exact promises_pure (hother.stable hL) hw

/-- A write that takes the next `m` bytes. -/
theorem Writing.write {bytes : Bytes} {k m : Nat} {h : Handle} {w w' : World ι}
    (hw : Writing i n bytes k w) (hk : k ≤ bytes.length) (hhandle : w.disk.handle i n = some h)
    (hdisk : w'.disk = w.disk.write i n h ((bytes.drop k).take m)) (hm : m ≤ (bytes.drop k).length) :
    Writing i n bytes (k + m) w' := by
  obtain ⟨h', hh', hoffset, hown⟩ := hw
  cases hhandle.symm.trans hh'
  have hlen : ((bytes.drop k).take m).length = m := by rw [List.length_take]; omega
  refine ⟨⟨h.inode, h.offset + m⟩, ?_, by rw [hoffset], fun j hj => ?_⟩
  · have hself := Shared.setHandle_self (d := w.disk) (i := i) (n := n) (h := ⟨h.inode, h.offset + m⟩)
    rw [hdisk, Shared.write, hlen]
    exact hself
  · rw [hdisk] at hj ⊢
    obtain ⟨hinode, hcontent, hsynced⟩ := hown j hj
    refine ⟨hinode, ?_, hsynced⟩
    subst hinode
    calc (w.disk.write i n h ((bytes.drop k).take m)).tree.content h.inode
        = splice (w.disk.tree.content h.inode) h.offset ((bytes.drop k).take m) := FileTree.overwrite_self
      _ = bytes.take (k + m) := by rw [hcontent, hoffset, splice_take hk]

/-- A file that has just been opened is empty. -/
theorem Writing.opened {bytes : Bytes} {w w' : World ι} (hw : NotOpened i n w)
    (hdisk : w'.disk = w.disk.openTruncate i n) : Writing i n bytes 0 w' := by
  refine ⟨⟨w.disk.tree.inodeFor n, 0⟩, ?_, rfl, fun j hj => ?_⟩
  · rw [hdisk]
    exact Shared.setHandle_self
  · rw [hdisk] at hj ⊢
    change Function.update w.disk.opener (w.disk.tree.inodeFor n) (some (i, n)) j = _ at hj
    by_cases hinode : j = w.disk.tree.inodeFor n
    · subst hinode
      refine ⟨rfl, ?_, Function.update_self ..⟩
      rw [List.take_zero]
      exact Function.update_self ..
    · rw [Function.update_of_ne hinode] at hj
      exact absurd hj (hw j)

omit [DecidableEq ι] in
theorem Writing.whole {bytes : Bytes} {w : World ι} {j : Nat} (hw : Writing i n bytes bytes.length w)
    (hopener : w.disk.opener j = some (i, n)) : w.disk.tree.content j = bytes := by
  obtain ⟨h, -, -, hown⟩ := hw
  rw [(hown j hopener).2.1, List.take_length]

theorem Writing.flushed {bytes : Bytes} {k : Nat} {w w' : World ι} (hw : Writing i n bytes k w)
    (hsync : ∃ h, w.disk.handle i n = some h ∧ w'.disk = w.disk.sync i n h) : Flushed i n w' := by
  obtain ⟨h, hhandle, -, hown⟩ := hw
  obtain ⟨h', hhandle', hdisk⟩ := hsync
  cases hhandle.symm.trans hhandle'
  intro j hj
  rw [hdisk] at hj ⊢
  have hopener : w.disk.opener j = some (i, n) := hj
  have hinode : j = h.inode := (hown j hopener).1
  subst hinode
  exact Shared.sync_own hopener

section
variable {F : World ι → Prop} {bytes : Bytes} {k : Nat} (hother : Undisturbed step prom i)
  (hF : Stable step prom i F)
  (hwrite : ∀ k buf w x w', Writing i n bytes k w → F w → step i w ⟨.write n buf, x⟩ w' →
    prom i w ⟨.write n buf, x⟩ ∧ F w')
  (hk : k ≤ bytes.length) (hw : Writing i n bytes k w ∧ F w)
include hother hF hwrite hk hw

/-- One write takes the prefix further by what it returns. `F` is what the writes
themselves leave as it is. -/
theorem write_promises :
    Promises step prom i (fun x w' => F w' ∧ ∀ m, x = .ok m →
        m ≤ (bytes.drop k).length ∧ Writing i n bytes (k + m) w')
      (request (A := SysAns) (.write n (bytes.drop k))) w := by
  have hwriting : ∀ k, Stable step prom i (Writing i n bytes k) := fun k => hother.stable writing_durable
  refine promises_request (P := fun w => Writing i n bytes k w ∧ F w) ?_ ?_ ?_ hw
  · exact fun j hj w e w' hs hp h => ⟨hwriting k j hj w e w' hs hp h.1, hF j hj w e w' hs hp h.2⟩
  · exact fun x j hj w e w' hs hp h => ⟨hF j hj w e w' hs hp h.1,
      fun m hm => ⟨(h.2 m hm).1, hwriting _ j hj w e w' hs hp (h.2 m hm).2⟩⟩
  · intro w x w' hw hstep
    obtain ⟨hprom, hF'⟩ := hwrite k _ w x w' hw.1 hw.2 hstep
    refine ⟨hprom, hF', ?_⟩
    intro m hm
    subst hm
    obtain ⟨h, hhandle, hm, hdisk⟩ := (hother.calls i w _ w' hstep).1
    exact ⟨hm, hw.1.write hk hhandle hdisk hm⟩

/-- Writing on from a prefix: it ends with all of the bytes, or fails. -/
theorem writeAll_promises :
    Promises step prom i (fun r w' => F w' ∧ (r = .ok () → Writing i n bytes bytes.length w'))
      (writeAll n (bytes.drop k)) w := by
  have hfailed : ∀ {msg : String} {w : World ι}, F w → Promises step prom i
      (fun (r : Except String Unit) w' => F w' ∧ (r = .ok () → Writing i n bytes bytes.length w'))
      (pure (.error msg)) w := by
    intro msg w hw
    refine promises_pure ?_ ⟨hw, fun h => by cases h⟩
    exact fun j hj w e w' hs hp h => ⟨hF j hj w e w' hs hp h.1, fun h => by cases h⟩
  induction hleft : bytes.length - k using Nat.strong_induction_on generalizing k w with
  | _ left ih =>
  rw [writeAll]
  by_cases hdone : bytes.drop k = []
  · have hall : k = bytes.length := by
      have := List.drop_eq_nil_iff.mp hdone
      omega
    subst hall
    rw [if_pos hdone]
    refine promises_pure ?_ ⟨hw.2, fun _ => hw.1⟩
    exact fun j hj w e w' hs hp h => ⟨hF j hj w e w' hs hp h.1,
      fun hr => hother.stable writing_durable j hj w e w' hs hp (h.2 hr)⟩
  · rw [if_neg hdone]
    refine promises_bind (write_promises hother hF hwrite hk hw) (fun x w' hx => ?_)
    obtain ⟨hFw, hwritten⟩ := hx w' .refl
    cases x with
    | error e => exact hfailed hFw
    | ok m =>
      cases m with
      | zero => exact hfailed hFw
      | succ m =>
        obtain ⟨hm, hwriting'⟩ := hwritten (m + 1) rfl
        have hlen : (bytes.drop k).length = bytes.length - k := List.length_drop
        change Promises step prom i _ (writeAll _ ((bytes.drop k).drop (m + 1))) w'
        rw [List.drop_drop]
        exact ih (bytes.length - (k + (m + 1))) (by omega) (by omega) ⟨hwriting', hFw⟩ rfl

end

/-- Writing the temporary file of a keyring. -/
theorem writeTmp_promises (hother : Undisturbed step prom i)
    (hprom : ∀ w e, SavePromise path Mine i w e → prom i w e) (hL : Recorded L) {line : String}
    (hw : Writing i (path.withExtension "tmp") (utf8 line) 0 w ∧ L w) :
    Promises step prom i (fun r w' => L w' ∧
        (r = .ok () → Writing i (path.withExtension "tmp") (utf8 line) (utf8 line).length w'))
      (lower syscalls (os (.writeAll (path.withExtension "tmp") line))) w := by
  have hcall : lower syscalls (os (.writeAll (path.withExtension "tmp") line)) =
    writeAll (path.withExtension "tmp") (utf8 line) := lower_request
  rw [hcall, ← List.drop_zero (l := utf8 line)]
  refine writeAll_promises hother (hother.stable hL.durable) ?_ (Nat.zero_le _) hw
  intro k buf w x w' hwriting hLw hstep
  refine ⟨hprom w _ ?_, hL w w' hLw (hother.grows hstep)⟩
  cases x with
  | error e => trivial
  | ok m =>
    refine ⟨rfl, fun h hhandle hopener => ?_⟩
    obtain ⟨_, -, -, hown⟩ := hwriting
    exact (hown h.inode hopener).2.2

/-- Opening the temporary file. -/
theorem open_promises (hother : Undisturbed step prom i)
    (hprom : ∀ w e, SavePromise path Mine i w e → prom i w e) (hL : Recorded L) (bytes : Bytes)
    {mode : Option UInt32} (hw : NotOpened i (path.withExtension "tmp") w ∧ L w) :
    Promises step prom i
      (fun r w' => L w' ∧ (r = .ok () → Writing i (path.withExtension "tmp") bytes 0 w'))
      (lower syscalls (os (.openTruncate (path.withExtension "tmp") mode))) w := by
  rw [os, lower_request]
  refine promises_request (hother.stable (notOpened_durable.and hL.durable)) ?_ ?_ hw
  · exact fun x j hj w e w' hs hp h => ⟨hL w w' h.1 (hother.grows hs),
      fun hr => hother.stable writing_durable j hj w e w' hs hp (h.2 hr)⟩
  · intro w x w' hw hstep
    have hsys := hother.calls i w _ w' hstep
    have hLw' := hL w w' hw.2 (sysStep_log hsys)
    cases x with
    | error e => exact ⟨hprom w _ trivial, hLw', fun hr => by cases hr⟩
    | ok u => exact ⟨hprom w _ rfl, hLw', fun _ => Writing.opened hw.1 hsys.1⟩

/-- Syncing it when a line of one's own has been written. -/
theorem sync_promises (hother : Undisturbed step prom i)
    (hprom : ∀ w e, SavePromise path Mine i w e → prom i w e) (hL : Recorded L) {line : String}
    (hmine : ∀ w, L w → Mine i w.log line)
    (hw : Writing i (path.withExtension "tmp") (utf8 line) (utf8 line).length w ∧ L w) :
    Promises step prom i (fun r w' => L w' ∧ (r = .ok () → Flushed i (path.withExtension "tmp") w'))
      (lower syscalls (os (.syncAll (path.withExtension "tmp")))) w := by
  rw [os, lower_request]
  refine promises_request (hother.stable (writing_durable.and hL.durable)) ?_ ?_ hw
  · exact fun x j hj w e w' hs hp h => ⟨hL w w' h.1 (hother.grows hs),
      fun hr => hother.stable flushed_durable j hj w e w' hs hp (h.2 hr)⟩
  · intro w x w' hw hstep
    have hsys := hother.calls i w _ w' hstep
    have hLw' := hL w w' hw.2 (sysStep_log hsys)
    cases x with
    | error e => exact ⟨hprom w _ trivial, hLw', fun hr => by cases hr⟩
    | ok u =>
      refine ⟨hprom w _ ⟨rfl, ?_⟩, hLw', fun _ => hw.1.flushed hsys.1⟩
      intro h _ hopener
      exact ⟨line, hmine w hw.2, hw.1.whole hopener⟩

/-- Renaming it when it has been synced. -/
theorem rename_promises (hother : Undisturbed step prom i)
    (hprom : ∀ w e, SavePromise path Mine i w e → prom i w e) (hL : Recorded L)
    (hw : Flushed i (path.withExtension "tmp") w ∧ L w) :
    Promises step prom i
      (fun r w' => L w' ∧ (r = .ok () →
        (i, (⟨.file (.rename (path.withExtension "tmp") path), .ok ()⟩ : SysEvent)) ∈ w'.log))
      (lower syscalls (os (.rename (path.withExtension "tmp") path))) w := by
  rw [os, lower_request]
  refine promises_request (hother.stable (flushed_durable.and hL.durable)) ?_ ?_ hw
  · exact fun x j hj w e w' hs hp h =>
      ⟨hL w w' h.1 (hother.grows hs), fun hr => hother.grows hs (h.2 hr)⟩
  · intro w x w' hw hstep
    have hsys := hother.calls i w _ w' hstep
    have hLw' := hL w w' hw.2 (sysStep_log hsys)
    cases x with
    | error e => exact ⟨hprom w _ trivial, hLw', fun hr => by cases hr⟩
    | ok u => exact ⟨hprom w _ ⟨rfl, rfl, hw.1⟩, hLw', fun _ => sysStep_logged hsys⟩

/-- Wherever the others run in between, a save keeps its promise; one that succeeds has
renamed. -/
theorem saveKeyring_promises (hother : Undisturbed step prom i)
    (hprom : ∀ w e, SavePromise path Mine i w e → prom i w e) (hL : Recorded L)
    (hmine : ∀ w line, L w → SealedAs P sessionJson passphrase line → Mine i w.log line)
    (hw : NotOpened i (path.withExtension "tmp") w ∧ L w) :
    Promises step prom i
      (fun r w' => L w' ∧ (r = .ok () →
        (i, (⟨.file (.rename (path.withExtension "tmp") path), .ok ()⟩ : SysEvent)) ∈ w'.log))
      (lower syscalls (saveKeyring P path sessionJson passphrase).run) w := by
  have hclosed := (notOpened_durable (i := i) (n := path.withExtension "tmp")).and hL.durable
  unfold saveKeyring
  rw [lower_except_bind]
  refine promises_except_bind (sealKeyring_promises hother hprom hclosed hw) ?_ ?_
  · exact fun e w h => ⟨h.1.2, fun hr => by cases hr⟩
  intro line w h
  obtain ⟨hw, hline⟩ := h
  have hsealed := hline line rfl
  rw [lower_except_bind]
  refine promises_except_bind (ensureParent_promises hother hprom hclosed hw path) ?_ ?_
  · exact fun e w h => ⟨h.2, fun hr => by cases hr⟩
  intro _ w hw
  refine mapErr_promises (open_promises hother hprom hL (utf8 line) hw) ?_ ?_
  · exact fun e w h => ⟨h.1, fun hr => by cases hr⟩
  intro _ w h
  refine mapErr_promises (writeTmp_promises hother hprom hL ⟨h.2 rfl, h.1⟩) ?_ ?_
  · exact fun e w h => ⟨h.1, fun hr => by cases hr⟩
  intro _ w h
  refine mapErr_promises
    (sync_promises hother hprom hL (fun w hLw => hmine w line hLw hsealed) ⟨h.2 rfl, h.1⟩) ?_ ?_
  · exact fun e w h => ⟨h.1, fun hr => by cases hr⟩
  intro _ w h
  exact mapError_promises (f := KeyringError.io) (rename_promises hother hprom hL ⟨h.2 rfl, h.1⟩)

end

end

end

end Cryptile
