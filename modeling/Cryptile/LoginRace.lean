import Cryptile.CommandPromise
import Cryptile.SaveRace

/-
  LoginRace — whose session is in the keyring after a login and a command

  Nothing locks the directory, and a command does not look at the keyring again before
  it re-seals. So a command that has loaded its session before a login replaces the
  keyring, and re-seals after it, puts the older session back. `login_or_older_session`
  says that this is the only way: as long as neither writes to or renames a file that
  the other has opened since, the config is the login's, and the keyring holds a session
  of the login or what such a command has re-sealed.
-/

namespace Cryptile
open Text Interaction Inodes

/-! ## What the keyring can hold -/

section
variable (P : Primitives) (dir : Path) (args : LoginArgs) (log : RaceLog)

/-- The line holds a session of the login: the one it was granted, or what that was refreshed to. -/
def OfLogin (line : String) : Prop :=
  ∃ raw, SealedByLogin P args log raw ∧ Relation.ReflTransGen (Refreshed P dir log) raw line

/-- The command loaded the line before the login replaced the keyring, and has replaced
it in turn. -/
def LoadedBefore (raw : String) : Prop :=
  List.Sublist [(.command, keyringRead dir raw), (.login, keyringInstalled dir),
    (.command, keyringInstalled dir)] log

/-- The line holds what such a session was refreshed to. -/
def Older (line : String) : Prop :=
  ∃ raw, LoadedBefore dir log raw ∧ Relation.TransGen (Refreshed P dir log) raw line

/-- A line that the keyring can hold once the login has replaced it. -/
def Held (line : String) : Prop := OfLogin P dir args log line ∨ Older P dir log line

end

section
variable {P : Primitives} {dir : Path} {args : LoginArgs} {log log' : RaceLog} {raw line : String}

theorem Held.mono (hlog : List.Sublist log log') (h : Held P dir args log line) :
    Held P dir args log' line := by
  have hrefreshed : ∀ a b, Refreshed P dir log a b → Refreshed P dir log' a b :=
    fun a b h => h.mono hlog.subset
  obtain ⟨raw, hsealed, hchain⟩ | ⟨raw, hloaded, hchain⟩ := h
  · exact .inl ⟨raw, hsealed.mono hlog.subset, Relation.ReflTransGen.mono hrefreshed _ _ hchain⟩
  · exact .inr ⟨raw, hloaded.trans hlog, Relation.TransGen.mono hrefreshed _ _ hchain⟩

/-- What a held session is refreshed to is held. -/
theorem Held.refreshed (h : Held P dir args log raw) (hstep : Refreshed P dir log raw line) :
    Held P dir args log line := by
  obtain ⟨first, hsealed, hchain⟩ | ⟨first, hloaded, hchain⟩ := h
  · exact .inl ⟨first, hsealed, hchain.tail hstep⟩
  · exact .inr ⟨first, hloaded, hchain.tail hstep⟩

end

/-! ## The invariant -/

/-- The files are whole; once it is in place the config is the login's and the keyring
holds a line that it can hold, which is also all that the command can have loaded since. -/
structure RaceState (P : Primitives) (dir : Path) (args : LoginArgs) (config : String) (t : FileTree Path)
    (w : World Party) : Prop where
  whole : WholeFiles (keyringPath dir) (OwnLine P dir args) t w
  config : (.login, configInstalled dir) ∈ w.log → ∃ j, w.disk.tree.names (configPath dir) = some j ∧
    w.disk.opener j = some (.login, configTmp dir) ∧ w.disk.tree.content j = utf8 config
  keyring : (.login, keyringInstalled dir) ∈ w.log → ∃ line,
    w.disk.tree.read (keyringPath dir) = some (utf8 line) ∧ Held P dir args w.log line
  loads : ∀ raw, List.Sublist [(.login, keyringInstalled dir), (.command, keyringRead dir raw)] w.log →
    Held P dir args w.log raw

section
variable {P : Primitives} {dir : Path} {args : LoginArgs} {config : String} {t : FileTree Path} {i : Party}
  {w w' : World Party} {e : SysEvent}

theorem RaceState.start : RaceState P dir args config t (World.start t) where
  whole := .start
  config h := by cases h
  keyring h := by cases h
  loads raw h := by cases h

theorem keyring_ne_tmp : keyringPath dir ≠ (keyringPath dir).withExtension "tmp" :=
  keyringTmp_eq ▸ join_ne (by decide)

theorem keyring_ne_configTmp : keyringPath dir ≠ configTmp dir := configTmp_eq ▸ join_ne (by decide)

theorem keyring_ne_config : keyringPath dir ≠ configPath dir := join_ne (by decide)

theorem config_ne_tmp : configPath dir ≠ (keyringPath dir).withExtension "tmp" :=
  keyringTmp_eq ▸ join_ne (by decide)

theorem config_ne_configTmp : configPath dir ≠ configTmp dir := configTmp_eq ▸ join_ne (by decide)

theorem installed_ne : configInstalled dir ≠ keyringInstalled dir := by
  intro h
  simp only [configInstalled, keyringInstalled, Sigma.mk.injEq, SysReq.file.injEq, OsReq.rename.injEq] at h
  exact keyring_ne_config h.1.2.symm

/-- What is opened is a temporary file. -/
theorem opened_tmp {p : Path} {mode : Option UInt32}
    (h : RacePromise P dir args config i w ⟨.file (.openTruncate p mode), .ok ()⟩) :
    p = (keyringPath dir).withExtension "tmp" ∨ p = configTmp dir := by
  obtain h | ⟨-, h⟩ := h
  · exact .inl h
  · exact .inr h

theorem opened_ne_keyring {p : Path} {mode : Option UInt32}
    (h : RacePromise P dir args config i w ⟨.file (.openTruncate p mode), .ok ()⟩) : keyringPath dir ≠ p := by
  obtain rfl | rfl := opened_tmp h
  · exact keyring_ne_tmp
  · exact keyring_ne_configTmp

theorem opened_ne_config {p : Path} {mode : Option UInt32}
    (h : RacePromise P dir args config i w ⟨.file (.openTruncate p mode), .ok ()⟩) : configPath dir ≠ p := by
  obtain rfl | rfl := opened_tmp h
  · exact config_ne_tmp
  · exact config_ne_configTmp

/-- What is written has not been synced. -/
theorem written_unsynced {p : Path} {buf : Bytes} {n : Nat} {h : Handle}
    (hwhole : WholeFiles (keyringPath dir) (OwnLine P dir args) t w)
    (hprom : RacePromise P dir args config i w ⟨.write p buf, .ok n⟩)
    (hhandle : w.disk.handle i p = some h) (hown : w.disk.opener h.inode = some (i, p)) :
    w.disk.synced h.inode = false := by
  obtain ⟨-, hunsynced⟩ | ⟨-, rfl, -⟩ := hprom
  · exact hunsynced h hhandle hown
  · cases hsynced : w.disk.synced h.inode with
    | false => rfl
    | true =>
      obtain ⟨k, line, hopener, -⟩ := hwhole.synced h.inode hsynced
      have htmp := congrArg Prod.snd (Option.some.inj (hown.symm.trans hopener))
      exact absurd htmp.symm keyringTmp_ne_configTmp

theorem race_wholeFiles (hwhole : WholeFiles (keyringPath dir) (OwnLine P dir args) t w)
    (hstep : ownStep i w e w') (hprom : RacePromise P dir args config i w e) :
    WholeFiles (keyringPath dir) (OwnLine P dir args) t w' := by
  have hmine : ∀ i line log log', log ⊆ log' → OwnLine P dir args i log line → OwnLine P dir args i log' line :=
    fun _ _ _ _ hlog h => h.mono hlog
  obtain ⟨hown, hsys⟩ := hstep
  have hlog := sysStep_log hsys
  have hchange := diskChange hsys.1
  generalize hdisk : w'.disk = d' at hchange
  cases hchange with
  | idle _ => exact hwhole.idle hmine hlog hdisk
  | opened => exact hwhole.opened hmine hlog (opened_ne_keyring hprom) hdisk
  | wrote hhandle _ =>
    have hopener := hown _ hhandle
    exact hwhole.wrote hmine hlog hopener (written_unsynced hwhole hprom hhandle hopener) hdisk
  | synced hhandle =>
    obtain ⟨rfl, hline⟩ | ⟨-, hnever⟩ := hprom
    · exact hwhole.flushed hmine hlog (hline _ hhandle) hdisk
    · exact hnever.elim
  | renamed hsource =>
    obtain ⟨rfl, rfl, hsynced⟩ | ⟨-, rfl, rfl, -⟩ := hprom
    · exact hwhole.renamed hmine hlog hsource (fun j hj => hsynced j (hown j hj)) hdisk
    · exact hwhole.renamed_other hmine hlog keyring_ne_configTmp keyring_ne_config hdisk

/-- An event of a party that is in the log now was there before, or is this one. -/
theorem logged_before {k : Party} {e₀ : SysEvent} (hsys : sysStep i w e w') (h : (k, e₀) ∈ w'.log) :
    (k, e₀) ∈ w.log ∨ k = i ∧ e₀ = e := by
  rw [hsys.2] at h
  obtain h | h := List.mem_append.mp h
  · exact .inl h
  · cases List.mem_singleton.mp h
    exact .inr ⟨rfl, rfl⟩

/-- The config stays the login's. -/
theorem race_config (hstate : RaceState P dir args config t w) (hstep : ownStep i w e w')
    (hprom : RacePromise P dir args config i w e) (hin : (.login, configInstalled dir) ∈ w'.log) :
    ∃ j, w'.disk.tree.names (configPath dir) = some j ∧ w'.disk.opener j = some (.login, configTmp dir) ∧
      w'.disk.tree.content j = utf8 config := by
  obtain ⟨hown, hsys⟩ := hstep
  have hbefore := logged_before hsys hin
  have hchange := diskChange hsys.1
  generalize w'.disk = d' at hchange ⊢
  cases hchange with
  | idle hkept =>
    obtain hin | ⟨-, he⟩ := hbefore
    · exact hstate.config hin
    · exact absurd he.symm (hkept _ _ _)
  | @opened p =>
    obtain hin | ⟨-, he⟩ := hbefore
    · obtain ⟨j, hname, hopener, hcontent⟩ := hstate.config hin
      have hne : configPath dir ≠ p := opened_ne_config hprom
      have hj := FileTree.inodeFor_ne hname hne
      exact ⟨j, (Shared.openTruncate_names hne).trans hname, (Shared.openTruncate_opener hj).trans hopener,
        (Shared.openTruncate_content hj).trans hcontent⟩
    · cases he
  | @wrote p buf n h hhandle _ =>
    obtain hin | ⟨-, he⟩ := hbefore
    · obtain ⟨j, hname, hopener, hcontent⟩ := hstate.config hin
      -- the writer has opened another file, or one that has still its temporary name
      have hj : j ≠ h.inode := by
        intro hj
        subst hj
        cases (hown h hhandle).symm.trans hopener
        obtain ⟨htmp, -⟩ | ⟨-, -, hnamed⟩ := hprom
        · exact keyringTmp_ne_configTmp htmp.symm
        · exact config_ne_configTmp (w.disk.tree.single _ _ _ hname (hnamed h hhandle))
      exact ⟨j, hname, hopener, (FileTree.overwrite_content hj).trans hcontent⟩
    · cases he
  | synced _ =>
    obtain hin | ⟨-, he⟩ := hbefore
    · exact hstate.config hin
    · cases he
  | @renamed source target hsource =>
    obtain ⟨rfl, rfl, -⟩ | ⟨rfl, rfl, rfl, hcontent⟩ := hprom
    · obtain hin | ⟨-, he⟩ := hbefore
      · obtain ⟨j, hname, hkept⟩ := hstate.config hin
        exact ⟨j, (FileTree.rename_names config_ne_tmp keyring_ne_config.symm).trans hname, hkept⟩
      · exact absurd he installed_ne
    · obtain ⟨j, hname⟩ := Option.isSome_iff_exists.mp hsource
      have hopener := hown j hname
      exact ⟨j, FileTree.rename_target.trans hname, hopener, hcontent j hopener⟩

/-- The file that replaces the keyring holds a line of whoever renames it. -/
theorem keyring_replaced (hwhole : WholeFiles (keyringPath dir) (OwnLine P dir args) t w)
    (hown : OwnFiles i w (keyringInstalled dir))
    (hsource : (w.disk.tree.names ((keyringPath dir).withExtension "tmp")).isSome = true)
    (hsynced : ∀ j, w.disk.opener j = some (i, (keyringPath dir).withExtension "tmp") →
      w.disk.synced j = true) :
    ∃ line, (w.disk.rename ((keyringPath dir).withExtension "tmp") (keyringPath dir)).tree.read
      (keyringPath dir) = some (utf8 line) ∧ OwnLine P dir args i w.log line := by
  obtain ⟨j, hname⟩ := Option.isSome_iff_exists.mp hsource
  have hopener := hown j hname
  obtain ⟨k, line, hopener', hline, hcontent⟩ := hwhole.synced j (hsynced j hopener)
  cases hopener.symm.trans hopener'
  refine ⟨line, ?_, hline⟩
  rw [Shared.rename, FileTree.rename_read, FileTree.read, hname, Option.map_some, hcontent]

/-- A command that re-seals has loaded a line after the login replaced the keyring, which
is one that it can hold, or before. -/
theorem resealed_held {log : RaceLog} {raw line : String}
    (hloads : ∀ raw, List.Sublist [(.login, keyringInstalled dir), (.command, keyringRead dir raw)] log →
      Held P dir args log raw)
    (hin : (.login, keyringInstalled dir) ∈ log) (hline : Refreshed P dir log raw line) :
    Held P dir args (log ++ [(.command, keyringInstalled dir)]) line := by
  have hread : (.command, keyringRead dir raw) ∈ log := by
    obtain ⟨_, _, _, hloaded, -⟩ := hline
    exact hloaded.1
  have hne : ((.login, keyringInstalled dir) : Party × SysEvent) ≠ (.command, keyringRead dir raw) := by
    intro h
    cases congrArg Prod.fst h
  have hgrows : List.Sublist log (log ++ [(.command, keyringInstalled dir)]) := List.sublist_append_left _ _
  obtain hafter | hbefore := either_order hin hread hne
  · exact ((hloads raw hafter).refreshed hline).mono hgrows
  · have hloaded : LoadedBefore dir (log ++ [(.command, keyringInstalled dir)]) raw :=
      hbefore.append (List.Sublist.refl _)
    exact .inr ⟨raw, hloaded, .single (hline.mono hgrows.subset)⟩

/-- The keyring keeps a line that it can hold. -/
theorem race_keyring (hstate : RaceState P dir args config t w) (hstep : ownStep i w e w')
    (hprom : RacePromise P dir args config i w e) (hin : (.login, keyringInstalled dir) ∈ w'.log) :
    ∃ line, w'.disk.tree.read (keyringPath dir) = some (utf8 line) ∧ Held P dir args w'.log line := by
  obtain ⟨hown, hsys⟩ := hstep
  have hbefore := logged_before hsys hin
  have hgrows : List.Sublist w.log w'.log := by
    rw [hsys.2]
    exact List.sublist_append_left _ _
  have hkept : (.login, keyringInstalled dir) ∈ w.log →
      w'.disk.tree.read (keyringPath dir) = w.disk.tree.read (keyringPath dir) →
      ∃ line, w'.disk.tree.read (keyringPath dir) = some (utf8 line) ∧ Held P dir args w'.log line := by
    intro hin hsame
    obtain ⟨line, hread, hheld⟩ := hstate.keyring hin
    exact ⟨line, hsame.trans hread, hheld.mono hgrows⟩
  have hchange := diskChange hsys.1
  generalize hdisk : w'.disk = d' at hchange hkept ⊢
  cases hchange with
  | idle hnever =>
    obtain hin | ⟨-, he⟩ := hbefore
    · exact hkept hin rfl
    · exact absurd he.symm (hnever _ _ _)
  | @opened p =>
    obtain hin | ⟨-, he⟩ := hbefore
    · exact hkept hin (FileTree.truncate_read_other (opened_ne_keyring hprom))
    · cases he
  | @wrote p buf n h hhandle _ =>
    obtain hin | ⟨-, he⟩ := hbefore
    · have hopener := hown h hhandle
      have hunsynced := written_unsynced hstate.whole hprom hhandle hopener
      refine hkept hin (FileTree.overwrite_read (fun hname => ?_))
      obtain hsynced | ⟨hnone, -⟩ := hstate.whole.keyring h.inode hname
      · cases hunsynced.symm.trans hsynced
      · cases hopener.symm.trans hnone
    · cases he
  | synced _ =>
    obtain hin | ⟨-, he⟩ := hbefore
    · exact hkept hin rfl
    · cases he
  | @renamed source target hsource =>
    obtain ⟨rfl, rfl, hsynced⟩ | ⟨rfl, rfl, rfl, -⟩ := hprom
    · obtain ⟨line, hread, hline⟩ := keyring_replaced hstate.whole hown hsource hsynced
      refine ⟨line, hread, ?_⟩
      cases i with
      | login => exact .inl ⟨line, SealedByLogin.mono hgrows.subset hline, .refl⟩
      | command =>
        obtain ⟨raw, hrefreshed⟩ := hline
        have hin : (.login, keyringInstalled dir) ∈ w.log := by
          obtain hin | ⟨he, -⟩ := hbefore
          · exact hin
          · cases he
        rw [hsys.2]
        exact resealed_held hstate.loads hin hrefreshed
    · obtain hin | ⟨-, he⟩ := hbefore
      · exact hkept hin (FileTree.rename_read_other keyring_ne_configTmp keyring_ne_config)
      · exact absurd he.symm installed_ne

/-- What the command loads once the login has replaced the keyring is a line that it can hold. -/
theorem race_loads (hstate : RaceState P dir args config t w) (hsys : sysStep i w e w') (raw : String)
    (hin : List.Sublist [(.login, keyringInstalled dir), (.command, keyringRead dir raw)] w'.log) :
    Held P dir args w'.log raw := by
  have hgrows : List.Sublist w.log w'.log := by
    rw [hsys.2]
    exact List.sublist_append_left _ _
  rw [hsys.2] at hin
  obtain hbefore | ⟨hinstalled, he⟩ := in_order_append hin
  · exact (hstate.loads raw hbefore).mono hgrows
  · cases he
    obtain ⟨line, hread, hheld⟩ := hstate.keyring hinstalled
    have hraw : raw = line := utf8_injective (Option.some.inj (hsys.1.1.symm.trans hread))
    rw [hraw]
    exact hheld.mono hgrows

/-- A step that keeps its promise, on files of its own, keeps all of this. -/
theorem RaceState.step (hstate : RaceState P dir args config t w) (hstep : ownStep i w e w')
    (hprom : RacePromise P dir args config i w e) : RaceState P dir args config t w' where
  whole := race_wholeFiles hstate.whole hstep hprom
  config := race_config hstate hstep hprom
  keyring := race_keyring hstate hstep hprom
  loads := race_loads hstate hstep.2

end

/-! ## Both at once -/

/-- A login and a command, on the state directory they find. -/
def racers (P : Primitives) (encodeConfig : StateConfig → String)
    (decodeConfig : String → Except String StateConfig) (renderJson : FieldBag → String) (dir : Path)
    (text : String) (args : LoginArgs) (cmd : Command) (t : FileTree Path) :
    Pool SysAns (World Party) (fun _ : Party => ExitCode) where
  state := .start t
  progs
    | .login => lower (stateCalls P encodeConfig decodeConfig dir) (loginCommand text args)
    | .command => lower (stateCalls P encodeConfig decodeConfig dir) (cmd.run renderJson)

section
variable {P : Primitives} {encodeConfig : StateConfig → String}
  {decodeConfig : String → Except String StateConfig} {renderJson : FieldBag → String} {dir : Path}
  {text : String} {args : LoginArgs} {cmd : Command} {t : FileTree Path}
  {w : Pool SysAns (World Party) (fun _ : Party => ExitCode)}

theorem racers_promise (i : Party) :
    Promises ownStep (RacePromise P dir args (encodeConfig ⟨args.server, args.account⟩)) i
      (fun code w => i = .login → code = 0 → InPlace dir w)
      ((racers P encodeConfig decodeConfig renderJson dir text args cmd t).progs i) (World.start t) := by
  have hnone : ∀ (i : Party) n, NotOpened i n (World.start t) := fun _ _ _ hj => by cases hj
  cases i with
  | login => exact (login_promises ⟨hnone _ _, hnone _ _⟩).mono (fun _ _ h _ => h)
  | command => exact (command_promises cmd (hnone _ _)).mono (fun _ _ _ he => by cases he)

theorem racers_state
    (h : Interleaved ownStep (racers P encodeConfig decodeConfig renderJson dir text args cmd t) w) :
    RaceState P dir args (encodeConfig ⟨args.server, args.account⟩) t w.state :=
  interleaved_invariant h racers_promise .start (fun _ _ _ _ hs => hs.step)

theorem RaceState.config_read {config : String} {w : World Party} (h : RaceState P dir args config t w)
    (hin : (.login, configInstalled dir) ∈ w.log) :
    w.disk.tree.read (configPath dir) = some (utf8 config) := by
  obtain ⟨j, hname, -, hcontent⟩ := h.config hin
  rw [FileTree.read, hname, Option.map_some, hcontent]

/-- After a login that ends with success the config is its own, and the keyring holds a
session of it, or what an older session was refreshed to that a command had loaded before
the login replaced the keyring and has re-sealed after. -/
theorem login_or_older_session
    (h : Interleaved ownStep (racers P encodeConfig decodeConfig renderJson dir text args cmd t) w)
    (hdone : w.progs .login = .done .success) :
    w.state.disk.tree.read (configPath dir) = some (utf8 (encodeConfig ⟨args.server, args.account⟩)) ∧
    ∃ line, w.state.disk.tree.read (keyringPath dir) = some (utf8 line) ∧
      (OfLogin P dir args w.state.log line ∨ Older P dir w.state.log line) := by
  obtain ⟨hconfig, hkeyring⟩ := interleaved_done h racers_promise hdone rfl rfl
  have hstate := racers_state h
  exact ⟨hstate.config_read hconfig, hstate.keyring hkeyring⟩

end

/-! ## A re-seal over a newer login -/

/-- The config as `plainConfig` writes it, by the quotes around its values. -/
def plainDecode (raw : String) : Except String StateConfig :=
  match split raw '"' with
  | [_, _, _, server, _, _, _, account, _] => .ok ⟨server, account⟩
  | _ => .error "expected a config"

/-- A directory with a finished login to `https://a`. -/
def oldTree : FileTree Path where
  names n := if n = ["config.json"] then some 0 else if n = ["keyring"] then some 1 else none
  content i := if i = 0 then utf8 (plainConfig ⟨"https://a", "me"⟩) else utf8 (plainKeyringLine "a")
  next := 2
  fresh n i h := by
    split at h
    · cases h; decide
    · split at h
      · cases h; decide
      · cases h
  single n m i hn hm := by
    split at hn
    · next hn' =>
      cases hn
      split at hm
      · next hm' => rw [hn', hm']
      · split at hm
        · cases hm
        · cases hm
    · split at hn
      · next hn' =>
        cases hn
        split at hm
        · cases hm
        · split at hm
          · next hm' => rw [hn', hm']
          · cases hm
      · cases hn

/-- The login is to another server. -/
def secondLogin : LoginArgs := ⟨"https://b", "me", some "PW", some "MP", none, none, none⟩

def oldRacers : Pool SysAns (World Party) (fun _ : Party => ExitCode) :=
  racers plainPrimitives plainConfig plainDecode (fun _ => "") [] "" secondLogin (.list none (some "PW"))
    oldTree

/-- What the command does until it re-seals. -/
def listCalls : CliTrace :=
  [⟨.loggedIn, true⟩, ⟨.loadConfig, .ok ⟨"https://a", "me"⟩⟩, ⟨.envVar "PW", some "pw"⟩,
    ⟨.loadSession "pw", .ok ⟨"vw", "a"⟩⟩, ⟨.newProvider "https://a" true, .ok ()⟩,
    ⟨.provider (.sessionExpiry ⟨"vw", "a"⟩), some 0⟩, ⟨.systemTime, some 0⟩,
    refreshEvent ⟨"vw", "a"⟩ (.ok ⟨"vw", "a2"⟩), ⟨.provider (.listNamespaces ⟨"vw", "a2"⟩), .ok []⟩]

def listTrace : List SysEvent :=
  [⟨.file (.isFile ["config.json"]), true⟩, ⟨.file (.isFile ["keyring"]), true⟩,
    ⟨.file (.readToString ["config.json"]), .ok (plainConfig ⟨"https://a", "me"⟩)⟩,
    ⟨.cli (.envVar "PW"), some "pw"⟩, ⟨.file (.readToString ["keyring"]), .ok (plainKeyringLine "a")⟩,
    ⟨.cli (.newProvider "https://a" true), .ok ()⟩,
    ⟨.cli (.provider (.sessionExpiry ⟨"vw", "a"⟩)), some 0⟩, ⟨.cli .systemTime, some 0⟩,
    ⟨.cli (.provider (.refreshSession ⟨"vw", "a"⟩)), .ok ⟨"vw", "a2"⟩⟩,
    ⟨.cli (.provider (.listNamespaces ⟨"vw", "a2"⟩)), .ok []⟩]

/-- What the login does until it saves. -/
def loginCalls : CliTrace :=
  [⟨.envVar "PW", some "pw"⟩, ⟨.envVar "MP", some "secret"⟩, ⟨.newProvider "https://b" false, .ok ()⟩,
    ⟨.stdinIsTerminal, false⟩, ⟨.provider (.login ⟨"me", "secret", none, none⟩), .ok ⟨"vw", "b"⟩⟩,
    ⟨.loadConfig, .ok ⟨"https://a", "me"⟩⟩]

def loginTrace : List SysEvent :=
  [⟨.cli (.envVar "PW"), some "pw"⟩, ⟨.cli (.envVar "MP"), some "secret"⟩,
    ⟨.cli (.newProvider "https://b" false), .ok ()⟩, ⟨.cli .stdinIsTerminal, false⟩,
    ⟨.cli (.provider (.login ⟨"me", "secret", none, none⟩)), .ok ⟨"vw", "b"⟩⟩,
    ⟨.file (.readToString ["config.json"]), .ok (plainConfig ⟨"https://a", "me"⟩)⟩]

def configTrace : List SysEvent := (configEvents plainConfig [] ⟨"https://b", "me"⟩).map asSyscall

/-- The calls of the login up to where it has synced its line. -/
def loginSaves : List SysEvent :=
  loginTrace ++ (configTrace ++ (openTrace ++ flushTrace (utf8 (plainKeyringLine "b"))))

def loginEnd : List SysEvent := renameTrace ++ [⟨.cli (.println "logged in; session sealed in "), ()⟩]

/-- The rename that comes too late, for a file that is gone. -/
def failedEnd : List SysEvent :=
  [⟨.file (.rename ["keyring.tmp"] ["keyring"]), .error "not found"⟩,
    ⟨.cli (.eprintln (.text "warn: could not re-seal refreshed session: i/o error: not found")), ()⟩]

def resealTrace (last : List SysEvent) : List SysEvent :=
  openTrace ++ (flushTrace (utf8 (plainKeyringLine "a2")) ++ last)

theorem oldConfig_runs : Runs (stateCalls plainPrimitives plainConfig plainDecode [] .loadConfig)
    [⟨.file (.readToString ["config.json"]), .ok (plainConfig ⟨"https://a", "me"⟩)⟩]
    (.ok ⟨"https://a", "me"⟩) := loadConfig_runs (by decide)

theorem listCalls_carried : CarriedOut (stateCalls plainPrimitives plainConfig plainDecode []) listCalls
    listTrace := by
  have hopen : openKeyring plainPrimitives (plainKeyringLine "a") "pw" = .ok "a" := by
    rw [plainKeyringLine_opens]
    decide
  have hlogged : Runs (lower syscalls (loggedIn []))
      [⟨.file (.isFile ["config.json"]), true⟩, ⟨.file (.isFile ["keyring"]), true⟩] true :=
    ⟨true, _, rfl, true, _, rfl, rfl, rfl⟩
  exact ⟨_, _, rfl, hlogged, _, _, rfl, oldConfig_runs, [_], _, rfl, runs_request.mpr rfl, _, _, rfl,
    loadSession_runs hopen,
    [_], _, rfl, runs_request.mpr rfl, [_], _, rfl, runs_request.mpr rfl, [_], _, rfl, runs_request.mpr rfl,
    [_], _, rfl, runs_request.mpr rfl, [_], _, rfl, runs_request.mpr rfl, rfl⟩

/-- The command, by how its re-seal ends. -/
theorem command_runs_reseal :
    Runs (oldRacers.progs .command) (listTrace ++ resealTrace renameTrace) .success ∧
    Runs (oldRacers.progs .command) (listTrace ++ resealTrace failedEnd) .success := by
  have hdone : Runs (Command.run (fun _ => "") (.list none (some "PW")))
      (listCalls ++ [⟨.saveKeyring "a2" "pw", .ok ()⟩]) .success := runs_of_replay (by decide)
  have hfailed : Runs (Command.run (fun _ => "") (.list none (some "PW")))
      (listCalls ++ [⟨.saveKeyring "a2" "pw", .error "i/o error: not found"⟩,
        ⟨.eprintln (.text "warn: could not re-seal refreshed session: i/o error: not found"), ()⟩])
      .success := runs_of_replay (by decide)
  have hsave : Runs (stateCalls plainPrimitives plainConfig plainDecode [] (.saveKeyring "a2" "pw"))
      (resealTrace renameTrace) (.ok ()) := runs_map.mpr ⟨_, save_runs "a2", rfl⟩
  have hunsaved : Runs (stateCalls plainPrimitives plainConfig plainDecode [] (.saveKeyring "a2" "pw"))
      (resealTrace (failedEnd.take 1)) (.error "i/o error: not found") := by
    have hruns : Runs (saveKeyring plainPrimitives ["keyring"] "a2" "pw").run
        ((keyringEvents [] (zeros 16) (zeros 16) (plainKeyringLine "a2")).dropLast ++
          [⟨.rename ["keyring.tmp"] ["keyring"], .error "not found"⟩]) (.error (.io "not found")) :=
      ⟨_, _, rfl, _, _, rfl, _, _, rfl, _, _, rfl, _, _, rfl, _, _, rfl, _, _, rfl, _, _, rfl, rfl, rfl⟩
    have hcarried := carriedOut_syscalls (t := (keyringEvents [] (zeros 16) (zeros 16)
      (plainKeyringLine "a2")).dropLast ++ [⟨.rename ["keyring.tmp"] ["keyring"], .error "not found"⟩])
      (by simp [keyringEvents, WritesSome, plainKeyringLine_ne_nil])
    exact runs_map.mpr ⟨_, runs_lower.mpr ⟨_, hruns, hcarried⟩, rfl⟩
  refine ⟨runs_lower.mpr ⟨_, hdone, listCalls_carried.append ⟨_, [], ?_, hsave, rfl⟩⟩,
    runs_lower.mpr ⟨_, hfailed, listCalls_carried.append ⟨_, _, ?_, hunsaved, [_], [], rfl,
      runs_request.mpr rfl, rfl⟩⟩⟩
  · rw [List.append_nil]
  · rfl

/-- The login, from its first call to its last. -/
theorem login_runs_through : Runs (oldRacers.progs .login) (loginSaves ++ loginEnd) .success := by
  have hcalls : Runs (loginCommand "" secondLogin)
      (loginCalls ++ [⟨.saveLogin ⟨"https://b", "me"⟩ "b" "pw", .ok ()⟩,
        ⟨.println "logged in; session sealed in ", ()⟩]) .success := runs_of_replay (by decide)
  have hsave : Runs (saveLogin plainPrimitives plainConfig [] ⟨"https://b", "me"⟩ "b" "pw").run
      (configEvents plainConfig [] ⟨"https://b", "me"⟩ ++
        keyringEvents [] (zeros 16) (zeros 16) (plainKeyringLine "b")) (.ok ()) :=
    saveLogin_runs (plainKeyringLine_line "b")
  have hconfig : CarriedOut syscalls (configEvents plainConfig [] ⟨"https://b", "me"⟩) configTrace := by
    have hne : utf8 (plainConfig ⟨"https://b", "me"⟩) ≠ [] := utf8_ne_nil (by decide)
    exact carriedOut_syscalls (by simp [configEvents, WritesSome, hne])
  have hstored : Runs (lower syscalls (saveLogin plainPrimitives plainConfig [] ⟨"https://b", "me"⟩ "b" "pw").run)
      (configTrace ++ (openTrace ++ (flushTrace (utf8 (plainKeyringLine "b")) ++ renameTrace))) (.ok ()) :=
    runs_lower.mpr ⟨_, hsave, hconfig.append (keyringEvents_carried "b")⟩
  have hshape : loginSaves ++ loginEnd = loginTrace ++ ((configTrace ++ (openTrace ++
      (flushTrace (utf8 (plainKeyringLine "b")) ++ renameTrace))) ++
      [⟨.cli (.println "logged in; session sealed in "), ()⟩]) := by simp [loginSaves, loginEnd]
  rw [hshape]
  exact runs_lower.mpr ⟨_, hcalls, [_], _, rfl, runs_request.mpr rfl, [_], _, rfl, runs_request.mpr rfl,
    [_], _, rfl, runs_request.mpr rfl, [_], _, rfl, runs_request.mpr rfl, [_], _, rfl, runs_request.mpr rfl,
    _, _, rfl, oldConfig_runs, _, [⟨.cli (.println "logged in; session sealed in "), ()⟩], rfl, hstored, [_], [], rfl,
    runs_request.mpr rfl, rfl⟩

/-- Writing a config: the file is the login's own when it is renamed. -/
theorem config_effects (d : Shared Party Path) : ∃ d', Effects ownStep .login d configTrace d' := by
  have hstart : Effects tidyStep .login d [⟨.file (.createDirAll []), .ok ()⟩,
      ⟨.file (.setMode [] 0o700), .ok ()⟩] d := idle_effects (by simp [isIdle, diskEffect])
  have hopen : Effects tidyStep .login d [⟨.file (.openTruncate ["config.json.tmp"] none), .ok ()⟩]
      (d.openTruncate .login ["config.json.tmp"]) := truncate_effects
  have hname : (d.openTruncate Party.login ["config.json.tmp"]).tree.names ["config.json.tmp"] =
      some (d.tree.inodeFor ["config.json.tmp"]) := FileTree.truncate_self
  have hopened : JustOpened Party.login ["config.json.tmp"] (d.tree.inodeFor ["config.json.tmp"])
      (d.openTruncate .login ["config.json.tmp"]) := justOpened
  obtain ⟨d₁, hwrite, hname, hopener⟩ : ∃ d₁, Effects tidyStep .login
      (d.openTruncate .login ["config.json.tmp"]) [⟨.write ["config.json.tmp"]
        (utf8 (plainConfig ⟨"https://b", "me"⟩)), .ok (utf8 (plainConfig ⟨"https://b", "me"⟩)).length⟩] d₁ ∧
      d₁.tree.names ["config.json.tmp"] = some (d.tree.inodeFor ["config.json.tmp"]) ∧
      d₁.opener (d.tree.inodeFor ["config.json.tmp"]) = some (.login, ["config.json.tmp"]) :=
    ⟨(d.openTruncate .login ["config.json.tmp"]).write .login ["config.json.tmp"] ⟨_, 0⟩ _,
      write_effects hopened _, hname, hopened.opener⟩
  have hmode : Effects tidyStep .login d₁ [⟨.file (.setMode ["config.json.tmp"] 0o600), .ok ()⟩] d₁ :=
    idle_effects (by simp [isIdle, diskEffect])
  have hrename : Effects ownStep .login d₁ [⟨.file (.rename ["config.json.tmp"] ["config.json"]), .ok ()⟩]
      (d₁.rename ["config.json.tmp"] ["config.json"]) := by
    refine .cons (fun log => ⟨fun j hj => ?_, ⟨congrArg Option.isSome hname, rfl⟩, rfl⟩) .nil
    cases hname.symm.trans hj
    exact hopener
  exact ⟨_, (((hstart.append hopen).append hwrite).append hmode).mono tidy_own |>.append hrename⟩

/-- The command has refreshed its session and not re-sealed yet, when the login has synced
its own. -/
theorem both_ready {rest : List SysEvent}
    (h : Runs (oldRacers.progs .command) (listTrace ++ rest) .success) :
    ∃ w j, Interleaved ownStep oldRacers w ∧ Leads rest (w.progs .command) (.done .success) ∧
      Leads loginEnd (w.progs .login) (.done .success) ∧
      w.state.disk.tree.names ["keyring.tmp"] = some j ∧
      w.state.disk.opener j = some (.login, ["keyring.tmp"]) ∧ w.state.disk.synced j = true ∧
      w.state.log = listTrace.map (Prod.mk .command) ++ loginSaves.map (Prod.mk .login) := by
  obtain ⟨loaded, hlist, hrest⟩ := (leads_done.mpr h).split
  have hlistEffects : Effects tidyStep .command oldRacers.state.disk listTrace oldRacers.state.disk := by
    have hconfig : oldRacers.state.disk.tree.read ["config.json"] =
        some (utf8 (plainConfig ⟨"https://a", "me"⟩)) := rfl
    have hkeyring : oldRacers.state.disk.tree.read ["keyring"] = some (utf8 (plainKeyringLine "a")) := rfl
    have hnames : (oldRacers.state.disk.tree.names ["config.json"]).isSome = true ∧
        (oldRacers.state.disk.tree.names ["keyring"]).isSome = true := ⟨rfl, rfl⟩
    exact idle_effects (by simp [listTrace, isIdle, diskEffect, hconfig, hkeyring, hnames])
  obtain ⟨w₁, hw₁, hdisk₁, hprog₁, hother₁, hlog₁⟩ := given_floor (w := oldRacers) hlist (hlistEffects.mono tidy_own)
  have hloginEffects : Effects tidyStep .login w₁.state.disk loginTrace w₁.state.disk := by
    have hconfig : w₁.state.disk.tree.read ["config.json"] =
        some (utf8 (plainConfig ⟨"https://a", "me"⟩)) := by
      rw [hdisk₁]
      rfl
    exact idle_effects (by simp [loginTrace, isIdle, diskEffect, hconfig])
  obtain ⟨d₂, hconfigEffects⟩ := config_effects w₁.state.disk
  have hopened : JustOpened Party.login ["keyring.tmp"] (d₂.tree.inodeFor ["keyring.tmp"])
      (d₂.openTruncate .login ["keyring.tmp"]) := justOpened
  obtain ⟨d₃, hflushEffects, hnames, hopener, hsynced, -⟩ :=
    flush_effects hopened (utf8 (plainKeyringLine "b"))
  have heffects := (hloginEffects.mono tidy_own).append
    (hconfigEffects.append ((open_effects.append hflushEffects).mono tidy_own))
  have hlogin : Leads (loginSaves ++ loginEnd) (w₁.progs .login) (.done .success) := by
    rw [hother₁ .login (by decide)]
    exact leads_done.mpr login_runs_through
  obtain ⟨synced, hready, hend⟩ := hlogin.split
  obtain ⟨w₂, hw₂, hdisk₂, hprog₂, hother₂, hlog₂⟩ := given_floor (w := w₁) hready heffects
  refine ⟨w₂, d₂.tree.inodeFor ["keyring.tmp"], hw₁.trans hw₂, ?_, hprog₂ ▸ hend, ?_, ?_, hdisk₂ ▸ hsynced, ?_⟩
  · rw [hother₂ .command (by decide), hprog₁]
    exact hrest
  · rw [hdisk₂, hnames]
    exact FileTree.truncate_self
  · rw [hdisk₂, hopener]
    exact hopened.opener
  · rw [hlog₂, hlog₁]
    rfl

/-- The command re-seals after the login: each on files of its own, and both succeed. -/
theorem stale_run : ∃ w, Interleaved ownStep oldRacers w ∧ w.progs .login = .done .success ∧
    w.progs .command = .done .success ∧
    w.state.disk.tree.read ["keyring"] = some (utf8 (plainKeyringLine "a2")) ∧
    w.state.log = listTrace.map (Prod.mk .command) ++ (loginSaves ++ loginEnd).map (Prod.mk .login) ++
      (resealTrace renameTrace).map (Prod.mk .command) := by
  obtain ⟨w₁, j, hw₁, hlist, hlogin, hname, hopener, hsynced, hlog₁⟩ := both_ready command_runs_reseal.1
  have hlast : ∀ d : Shared Party Path, Effects tidyStep .login d
      [⟨.cli (.println "logged in; session sealed in "), ()⟩] d :=
    fun d => idle_effects (by simp [isIdle, diskEffect])
  obtain ⟨w₂, hw₂, hdisk₂, hdone, hother₂, hlog₂⟩ := given_floor (w := w₁) hlogin
    (((rename_effects hname hopener hsynced).append (hlast _)).mono tidy_own)
  have hopened : JustOpened Party.command ["keyring.tmp"] (w₂.state.disk.tree.inodeFor ["keyring.tmp"])
      (w₂.state.disk.openTruncate .command ["keyring.tmp"]) := justOpened
  obtain ⟨d₃, hflush, hnames₃, hopener₃, hsynced₃, hcontent₃⟩ :=
    flush_effects hopened (utf8 (plainKeyringLine "a2"))
  have hname₃ : d₃.tree.names ["keyring.tmp"] = some (w₂.state.disk.tree.inodeFor ["keyring.tmp"]) := by
    rw [hnames₃]
    exact FileTree.truncate_self
  have hrename := rename_effects hname₃ (hopener₃ ▸ hopened.opener) hsynced₃
  rw [← hother₂ .command (by decide)] at hlist
  obtain ⟨w₃, hw₃, hdisk₃, hdone₃, hother₃, hlog₃⟩ := given_floor (w := w₂) hlist
    ((open_effects.append (hflush.append hrename)).mono tidy_own)
  refine ⟨w₃, (hw₁.trans hw₂).trans hw₃, (hother₃ .login (by decide)).trans hdone, hdone₃, ?_, ?_⟩
  · rw [hdisk₃, Shared.rename, FileTree.rename_read, FileTree.read, hname₃, Option.map_some, hcontent₃]
  · rw [hlog₃, hlog₂, hlog₁]
    simp [loginSaves]

/-- The command opens the file that the login has synced and renames: what it then writes
it writes to the keyring. -/
theorem overtaken_run : ∃ w, Interleaved sysStep oldRacers w ∧ w.progs .login = .done .success ∧
    w.progs .command = .done .success ∧
    w.state.disk.tree.read ["keyring"] = some (utf8 (plainKeyringLine "a2")) ∧
    w.state.log = listTrace.map (Prod.mk .command) ++ loginSaves.map (Prod.mk .login) ++
      openTrace.map (Prod.mk .command) ++ loginEnd.map (Prod.mk .login) ++
      (flushTrace (utf8 (plainKeyringLine "a2")) ++ failedEnd).map (Prod.mk .command) := by
  obtain ⟨w₁, j, hw₁, hlist, hlogin, hname, -, -, hlog₁⟩ := both_ready command_runs_reseal.2
  obtain ⟨opened, hopen, hrest⟩ := hlist.split
  obtain ⟨w₂, hw₂, hdisk₂, hprog₂, hother₂, hlog₂⟩ := given_floor (w := w₁) hopen
    (open_effects.mono tidy_sys)
  have hinode : w₁.state.disk.tree.inodeFor ["keyring.tmp"] = j := by
    rw [FileTree.inodeFor, hname, Option.getD_some]
  have hname₂ : w₂.state.disk.tree.names ["keyring.tmp"] = some j := by
    rw [hdisk₂, ← hinode]
    exact FileTree.truncate_self
  have hopened₂ : JustOpened .command ["keyring.tmp"] j w₂.state.disk := by
    rw [hdisk₂, ← hinode]
    exact justOpened
  have hend : Effects sysStep .login w₂.state.disk loginEnd
      (w₂.state.disk.rename ["keyring.tmp"] ["keyring"]) :=
    .cons (fun _ => ⟨⟨congrArg Option.isSome hname₂, rfl⟩, rfl⟩) (.cons (fun _ => ⟨rfl, rfl⟩) .nil)
  rw [← hother₂ .login (by decide)] at hlogin
  obtain ⟨w₃, hw₃, hdisk₃, hdone₃, hother₃, hlog₃⟩ := given_floor (w := w₂) hlogin hend
  have hopened₃ : JustOpened .command ["keyring.tmp"] j w₃.state.disk := by
    rw [hdisk₃]
    exact ⟨hopened₂.handle, hopened₂.opener, hopened₂.empty⟩
  have hname₃ : w₃.state.disk.tree.names ["keyring"] = some j := by
    rw [hdisk₃]
    exact FileTree.rename_target.trans hname₂
  obtain ⟨d₄, hflush, hnames₄, -, -, hcontent₄⟩ := flush_effects hopened₃ (utf8 (plainKeyringLine "a2"))
  have hfailed : Effects sysStep .command d₄ failedEnd d₄ :=
    .cons (fun _ => ⟨rfl, rfl⟩) (.cons (fun _ => ⟨rfl, rfl⟩) .nil)
  rw [← hprog₂, ← hother₃ .command (by decide)] at hrest
  obtain ⟨w₄, hw₄, hdisk₄, hdone₄, hother₄, hlog₄⟩ := given_floor (w := w₃) hrest
    ((hflush.mono tidy_sys).append hfailed)
  have hbefore : Interleaved sysStep oldRacers w₁ := interleaved_mono (fun _ _ _ _ h => h.2) hw₁
  refine ⟨w₄, ((hbefore.trans hw₂).trans hw₃).trans hw₄, (hother₄ .login (by decide)).trans hdone₃,
    hdone₄, ?_, ?_⟩
  · rw [hdisk₄, FileTree.read, hnames₄, hname₃, Option.map_some, hcontent₄]
  · rw [hlog₄, hlog₃, hlog₂, hlog₁]

/-- The session an event grants the login. -/
def loginGrantOf : Party × SysEvent → Option Session
  | (.login, ⟨.cli (.provider (.login _)), .ok s⟩) => some s
  | _ => none

/-- The line the command loads its session from. -/
def loadedLineOf : Party × SysEvent → Option String
  | (.command, ⟨.file (.readToString path), .ok raw⟩) => if path = ["keyring"] then some raw else none
  | _ => none

/-- Whether the command has replaced a file. -/
def replaces : Party × SysEvent → Bool
  | (.command, ⟨.file (.rename _ _), .ok _⟩) => true
  | _ => false

/-- The line of the refreshed older session is none of the newer login's. -/
theorem older_not_ofLogin {log : RaceLog} (hgrants : log.filterMap loginGrantOf = [⟨"vw", "b"⟩])
    (hlines : log.filterMap loadedLineOf = [plainKeyringLine "a"]) :
    ¬ OfLogin plainPrimitives [] secondLogin log (plainKeyringLine "a2") := by
  intro h
  obtain ⟨raw, ⟨s, passphrase, hgranted, hsealed⟩, hchain⟩ := h
  obtain ⟨-, params, -, hlogin⟩ := hgranted
  have hs : s ∈ log.filterMap loginGrantOf := List.mem_filterMap.mpr ⟨_, hlogin, rfl⟩
  rw [hgrants] at hs
  obtain rfl := List.mem_singleton.mp hs
  -- what the login was granted opens to that, and to nothing that was there before
  have hother : ∀ text, trim text ≠ "b" → raw ≠ plainKeyringLine text := by
    intro text htext hraw
    obtain ⟨salt, iv, hline⟩ := hsealed
    have hopen : openKeyring plainPrimitives ("" ++ raw ++ "") passphrase = .ok (trim "b") :=
      openKeyring_keyringLine plainPrimitives_lawful hline (by simp) (by simp)
    rw [String.empty_append, String.append_empty, hraw, plainKeyringLine_opens] at hopen
    exact htext ((Except.ok.inj hopen).trans (by decide))
  obtain rfl | ⟨next, hrefreshed, -⟩ := Relation.ReflTransGen.cases_head hchain
  · exact hother "a2" (by decide) rfl
  · obtain ⟨_, _, _, hloaded, -⟩ := hrefreshed
    have hline : raw ∈ log.filterMap loadedLineOf := List.mem_filterMap.mpr ⟨_, hloaded.1, rfl⟩
    rw [hlines] at hline
    exact hother "a" (by decide) (List.mem_singleton.mp hline)

theorem login_or_older_session_stale : ∃ w, Interleaved ownStep oldRacers w ∧
    w.state.disk.tree.read (configPath []) = some (utf8 (plainConfig ⟨"https://b", "me"⟩)) ∧
    ∃ line, w.state.disk.tree.read (keyringPath []) = some (utf8 line) ∧
      (OfLogin plainPrimitives [] secondLogin w.state.log line ∨
        Older plainPrimitives [] w.state.log line) := by
  obtain ⟨w, hw, hdone, -⟩ := stale_run
  exact ⟨w, hw, login_or_older_session hw hdone⟩

/-- Both have succeeded and the config is the newer login's, but the keyring holds a session
of the older one: by a re-seal that comes late, or through a file that both have opened. -/
theorem older_session_under_newer_config :
    (∃ w, Interleaved ownStep oldRacers w ∧ w.progs .login = .done .success ∧
      w.progs .command = .done .success ∧
      w.state.disk.tree.read (configPath []) = some (utf8 (plainConfig ⟨"https://b", "me"⟩)) ∧
      ∃ line, w.state.disk.tree.read (keyringPath []) = some (utf8 line) ∧
        ¬ OfLogin plainPrimitives [] secondLogin w.state.log line) ∧
    ∃ w, Interleaved sysStep oldRacers w ∧ w.progs .login = .done .success ∧
      w.progs .command = .done .success ∧
      ∃ line, w.state.disk.tree.read (keyringPath []) = some (utf8 line) ∧
        ¬ OfLogin plainPrimitives [] secondLogin w.state.log line ∧
        ¬ Older plainPrimitives [] w.state.log line := by
  refine ⟨?_, ?_⟩
  · obtain ⟨w, hw, hlogin, hcommand, hread, hlog⟩ := stale_run
    have hin : InPlace [] w.state := interleaved_done hw racers_promise hlogin rfl rfl
    refine ⟨w, hw, hlogin, hcommand, (racers_state hw).config_read hin.1, _, hread, ?_⟩
    exact older_not_ofLogin (by rw [hlog]; rfl) (by rw [hlog]; rfl)
  · obtain ⟨w, hw, hlogin, hcommand, hread, hlog⟩ := overtaken_run
    refine ⟨w, hw, hlogin, hcommand, _, hread, ?_, ?_⟩
    · exact older_not_ofLogin (by rw [hlog]; rfl) (by rw [hlog]; rfl)
    · intro h
      obtain ⟨raw, hloaded, -⟩ := h
      have hin : (.command, keyringInstalled []) ∈ w.state.log := hloaded.subset (by simp)
      have hnone : w.state.log.any replaces = false := by
        rw [hlog]
        rfl
      exact List.any_eq_false.mp hnone _ hin rfl

end Cryptile
