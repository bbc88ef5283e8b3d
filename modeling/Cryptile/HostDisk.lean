import Cryptile.Confinement
import Cryptile.EndToEnd
import Cryptile.Lib.Safety

/-
  HostDisk — the files of one login, whatever a process does and wherever it is stopped

  The requests of a process move a disk (`hostStep`), within what the server and the
  user answer. `Kept` says of the three files of a login what every process relies on:
  the config is that of the login, the keyring seals a session that can be used under
  its passphrase, and what the cache opens to is the index of the payload. A request
  that is sanctioned keeps it, also one that is cut short (`hostCalls_kept`).

  Correspondence (Rust ↔ Lean):
    `State::save_login`                        ↔ `saveLogin_kept`
    `Keyring::save`                            ↔ `saveKeyring_kept`
    `SyncCache::store` and its callers         ↔ `storeCache_safe`, `bulkOp_kept`, `getSecret_kept`
    `fs::remove_file` of the cache             ↔ `hostEffect` of `removeFile`
-/

namespace Cryptile
open Text Interaction Serde Files

/-! ## Files under a process -/

section
variable {τ : Type}

/-- A file that is there is seen, and can be read. -/
def seen (d : Disk Path τ) : Sigma HostAns → Prop
  | ⟨.os (.isFile path), b⟩ => (d path).isSome = true → b = true
  | ⟨.os (.readToString path), x⟩ => (d path).isSome = true → ∃ raw, x = .ok raw
  | _ => True

def hostEffect (who : τ) (d : Disk Path τ) : Sigma HostAns → Disk Path τ → Prop
  | ⟨.os q, x⟩, d' => fileStep who d ⟨q, x⟩ d'
  -- a failure to remove is not seen
  | ⟨.removeFile path, _⟩, d' => d' = d ∨ d' = Function.update d path none
  | _, d' => d' = d

/-- One request of a process, answered within `R`. -/
def hostStep (R : ∀ q, HostAns q → Prop) (who : τ) (d : Disk Path τ) (e : Sigma HostAns)
    (d' : Disk Path τ) : Prop :=
  R e.1 e.2 ∧ seen d e ∧ hostEffect who d e d'

/-- The same of a request to the machine. -/
def osStep (R : ∀ q, HostAns q → Prop) (who : τ) (d : Disk Path τ) (e : Sigma OsAns)
    (d' : Disk Path τ) : Prop := hostStep R who d ⟨.os e.1, e.2⟩ d'

variable {R : ∀ q, HostAns q → Prop} {who : τ} {d : Disk Path τ} {α : Type}
  {post : α → Disk Path τ → Prop} {crash : Disk Path τ → Prop}

/-- What is safe on a disk that counts its renames is safe under a process. -/
theorem disk_safe {p : Os α} {r : List Path}
    (h : Safe (diskStep who) (fun a m => post a m.files) (fun m => crash m.files) p ⟨d, r⟩) :
    Safe (osStep R who) post crash p d := by
  have hsim : ∀ (d : Disk Path τ) (m : Machine τ) e d', m.files = d → osStep R who d e d' →
      ∃ m', diskStep who m e m' ∧ m'.files = d' := by
    rintro _ m ⟨q, x⟩ d' rfl ⟨-, -, heffect⟩
    exact ⟨⟨d', m.replaced ++ (renamed ⟨q, x⟩).toList⟩, ⟨heffect, rfl⟩, rfl⟩
  refine (h.simulate hsim rfl).mono ?_ ?_
  · rintro a _ ⟨m', hpost, rfl⟩
    exact hpost
  · rintro _ ⟨m', hcrash, rfl⟩
    exact hcrash

theorem onMachine_safe {p : Os α} (h : Safe (osStep R who) post crash p d) :
    Safe (hostStep R who) post crash (onMachine p) d := by
  refine Safe.lower (h := fun q => host (.os q)) ?_ h
  exact fun q d after hcrash hstep => safe_ask hcrash hstep

end

/-! ## What the processes of a login keep -/

/-- A login as its processes know it: where it is kept and under which passphrase, what
its server serves, and the sessions that can be used. -/
structure LocalLogin where
  dir : Path
  cfg : StateConfig
  passphrase : String
  userKey : SymmetricKey
  bundle : SyncBundle
  usable : VwSession → Prop

/-- The files of a login are there. -/
def Present (dir : Path) (d : Disk Path StateConfig) : Prop :=
  (d (configPath dir)).isSome = true ∧ (d (keyringPath dir)).isSome = true

/-- The three files of a login hold what is its own, and are there if they have to be. -/
structure Kept (P : Primitives) (D : Codecs) (l : LocalLogin) (there : Prop)
    (d : Disk Path StateConfig) : Prop where
  config : ∀ raw, (d (configPath l.dir)).map File.content = some raw → raw = D.encodeConfig l.cfg
  keyring : ∀ raw, (d (keyringPath l.dir)).map File.content = some raw →
    ∃ sess, SealedAs P (D.handleOf sess) l.passphrase raw ∧ l.usable sess
  cache : ∀ raw, (d (cachePath l.dir)).map File.content = some raw →
    Indexes P D.decoders l.userKey l.bundle raw
  present : there → Present l.dir d

/-- The names of a login are other ones. -/
structure Apart (dir tmp : Path) : Prop where
  config : configPath dir ≠ tmp
  keyring : keyringPath dir ≠ tmp
  cache : cachePath dir ≠ tmp

section
variable {dir : Path}

theorem join_ne_join_join {a b c : String} : dir.join a ≠ (dir.join b).join c := by
  intro h
  have hlength := congrArg List.length h
  simp [Path.join] at hlength

theorem cacheTmp_eq : (cachePath dir).withExtension "tmp" = (dir.join "cache").join "cipher-index.tmp" := by
  rw [cachePath, withExtension_join]
  rfl

theorem configTmp_apart : Apart dir (configTmp dir) := by
  rw [configTmp_eq]
  exact ⟨join_ne (by decide), join_ne (by decide), join_ne_join_join.symm⟩

theorem keyringTmp_apart : Apart dir ((keyringPath dir).withExtension "tmp") := by
  rw [keyringTmp_eq]
  exact ⟨join_ne (by decide), join_ne (by decide), join_ne_join_join.symm⟩

theorem cacheTmp_apart : Apart dir ((cachePath dir).withExtension "tmp") := by
  rw [cacheTmp_eq]
  exact ⟨join_ne_join_join, join_ne_join_join, join_ne (by decide)⟩

end

section
variable {P : Primitives} {D : Codecs} {l : LocalLogin} {there : Prop} {d d' : Disk Path StateConfig}
  {m m' : Machine StateConfig}

theorem Kept.of_files (h : Kept P D l there d) (hconfig : d' (configPath l.dir) = d (configPath l.dir))
    (hkeyring : d' (keyringPath l.dir) = d (keyringPath l.dir))
    (hcache : d' (cachePath l.dir) = d (cachePath l.dir)) : Kept P D l there d' where
  config := hconfig ▸ h.config
  keyring := hkeyring ▸ h.keyring
  cache := hcache ▸ h.cache
  present ht := by
    rw [Present, hconfig, hkeyring]
    exact h.present ht

/-- Writing a temporary file keeps the three. -/
theorem Kept.touched {tmp : Path} (h : Kept P D l there m.files) (htmp : Apart l.dir tmp)
    (ht : Touched tmp m m') : Kept P D l there m'.files :=
  h.of_files (ht.only _ htmp.config) (ht.only _ htmp.keyring) (ht.only _ htmp.cache)

/-- A file that is gone is no cache. -/
theorem Kept.uncached (h : Kept P D l there d) :
    Kept P D l there (Function.update d (cachePath l.dir) none) := by
  have hconfig : Function.update d (cachePath l.dir) none (configPath l.dir) = d (configPath l.dir) :=
    Function.update_of_ne join_ne_join_join _ _
  have hkeyring : Function.update d (cachePath l.dir) none (keyringPath l.dir) = d (keyringPath l.dir) :=
    Function.update_of_ne join_ne_join_join _ _
  refine ⟨hconfig ▸ h.config, hkeyring ▸ h.keyring, ?_, ?_⟩
  · intro raw hraw
    rw [Function.update_self] at hraw
    cases hraw
  · intro ht
    rw [Present, hconfig, hkeyring]
    exact h.present ht

theorem Kept.published_config {who : StateConfig} (h : Kept P D l there m.files)
    (hp : Published (configTmp l.dir) (configPath l.dir) ⟨D.encodeConfig l.cfg, who⟩ m m') :
    Kept P D l there m'.files ∧ (m'.files (configPath l.dir)).isSome = true := by
  have hkeyring : m'.files (keyringPath l.dir) = m.files (keyringPath l.dir) :=
    hp.others _ configTmp_apart.keyring (join_ne (by decide))
  have hcache : m'.files (cachePath l.dir) = m.files (cachePath l.dir) :=
    hp.others _ configTmp_apart.cache join_ne_join_join.symm
  have hsome : (m'.files (configPath l.dir)).isSome = true := by rw [hp.file]; rfl
  refine ⟨⟨?_, hkeyring ▸ h.keyring, hcache ▸ h.cache, ?_⟩, hsome⟩
  · intro raw hraw
    rw [hp.file] at hraw
    exact (Option.some.inj hraw).symm
  · intro ht
    exact ⟨hsome, hkeyring ▸ (h.present ht).2⟩

theorem Kept.published_keyring {who : StateConfig} {sess : VwSession} (h : Kept P D l there m.files)
    (husable : l.usable sess)
    (hs : KeyringSaved P (keyringPath l.dir) (D.handleOf sess) l.passphrase who m m') :
    Kept P D l there m'.files ∧ m'.files (configPath l.dir) = m.files (configPath l.dir) ∧
      (m'.files (keyringPath l.dir)).isSome = true := by
  obtain ⟨line, hline, hp⟩ := hs
  have hconfig : m'.files (configPath l.dir) = m.files (configPath l.dir) :=
    hp.others _ keyringTmp_apart.config (join_ne (by decide))
  have hcache : m'.files (cachePath l.dir) = m.files (cachePath l.dir) :=
    hp.others _ keyringTmp_apart.cache join_ne_join_join.symm
  have hsome : (m'.files (keyringPath l.dir)).isSome = true := by rw [hp.file]; rfl
  refine ⟨⟨hconfig ▸ h.config, ?_, hcache ▸ h.cache, ?_⟩, hconfig, hsome⟩
  · intro raw hraw
    rw [hp.file] at hraw
    cases hraw
    exact ⟨sess, hline, husable⟩
  · intro ht
    exact ⟨hconfig ▸ (h.present ht).1, hsome⟩

theorem Kept.published_cache {who : StateConfig} {line : String} (h : Kept P D l there m.files)
    (hindex : Indexes P D.decoders l.userKey l.bundle line)
    (hp : Published ((cachePath l.dir).withExtension "tmp") (cachePath l.dir) ⟨line, who⟩ m m') :
    Kept P D l there m'.files := by
  have hconfig : m'.files (configPath l.dir) = m.files (configPath l.dir) :=
    hp.others _ cacheTmp_apart.config join_ne_join_join
  have hkeyring : m'.files (keyringPath l.dir) = m.files (keyringPath l.dir) :=
    hp.others _ cacheTmp_apart.keyring join_ne_join_join
  refine ⟨hconfig ▸ h.config, hkeyring ▸ h.keyring, ?_, ?_⟩
  · intro raw hraw
    rw [hp.file] at hraw
    cases hraw
    exact hindex
  · intro ht
    rw [Present, hconfig, hkeyring]
    exact h.present ht

end

/-! ## The three writers -/

section
variable {P : Primitives} {D : Codecs} {l : LocalLogin} {there : Prop} {who : StateConfig}
  {m : Machine StateConfig} {sess : VwSession}

/-- A re-seal keeps the files of its login. -/
theorem saveKeyring_kept (h : Kept P D l there m.files) (husable : l.usable sess) :
    Safe (diskStep who)
      (fun r m' => Kept P D l there m'.files ∧ m'.files (configPath l.dir) = m.files (configPath l.dir) ∧
        (r = .ok () → (m'.files (keyringPath l.dir)).isSome = true))
      (fun m' => Kept P D l there m'.files)
      (saveKeyring P (keyringPath l.dir) (D.handleOf sess) l.passphrase).run m := by
  refine (saveKeyring_safe (keyringPath l.dir) m).mono ?_ ?_
  · rintro r m' (⟨e, rfl, ht⟩ | ⟨rfl, hs⟩)
    · exact ⟨h.touched keyringTmp_apart ht, ht.only _ keyringTmp_apart.config, by simp⟩
    · obtain ⟨hkept, hconfig, hsome⟩ := h.published_keyring husable hs
      exact ⟨hkept, hconfig, fun _ => hsome⟩
  · rintro m' (ht | hs)
    · exact h.touched keyringTmp_apart ht
    · exact (h.published_keyring husable hs).1

/-- So does a login of the same account; one that succeeds leaves them there. -/
theorem saveLogin_kept (h : Kept P D l there m.files) (husable : l.usable sess) :
    Safe (diskStep who)
      (fun r m' => Kept P D l there m'.files ∧ (r = .ok () → Present l.dir m'.files))
      (fun m' => Kept P D l there m'.files)
      (saveLogin P D.encodeConfig l.dir l.cfg (D.handleOf sess) l.passphrase).run m := by
  have hkept : ∀ m', Touched (configTmp l.dir) m m' → Kept P D l there m'.files :=
    fun m' ht => h.touched configTmp_apart ht
  have hfailed : ∀ {e : String} {m'}, Touched (configTmp l.dir) m m' → Kept P D l there m'.files ∧
      ((.error e : Except String Unit) = .ok () → Present l.dir m'.files) :=
    fun ht => ⟨hkept _ ht, by simp⟩
  have hstart : Touched (configTmp l.dir) m m := .refl _ _
  unfold saveLogin
  refine mapErr_safe (quiet_safe (q := .createDirAll _) rfl h) ?_ ?_
  · rintro e _ rfl
    exact hfailed hstart
  rintro _ _ rfl
  refine safe_lift_bind (quiet_safe (q := .setMode _ _) rfl h) ?_
  rintro _ _ rfl
  refine mapErr_safe (openTruncate_safe hkept) (fun e s ht => hfailed ht) ?_
  intro _ m₁ h₁
  refine mapErr_safe (writeAll_safe (fun m' ht => hkept m' (h₁.trans ht)))
    (fun e s ht => hfailed (h₁.trans ht.1)) ?_
  rintro _ m₂ ⟨h₂, hcontent⟩
  have hwritten := h₁.trans h₂
  refine safe_lift_bind (quiet_safe (q := .setMode _ _) rfl (hkept _ hwritten)) ?_
  rintro _ _ rfl
  obtain ⟨hconfig, hthere⟩ := h.published_config (hwritten.publish (hcontent rfl) (configPath l.dir))
  refine mapErr_safe (rename_safe (hkept _ hwritten) hconfig) ?_ ?_
  · rintro e s (⟨e', -, rfl⟩ | ⟨hx, -⟩)
    · exact hfailed hwritten
    · cases hx
  rintro _ s (⟨e', hx, -⟩ | ⟨-, rfl⟩)
  · cases hx
  refine safe_map ((saveKeyring_kept hconfig husable).mono ?_ (fun _ hs => hs))
  rintro r m' ⟨hkept', hsame, hkeyring⟩
  refine ⟨hkept', fun hr => ⟨hsame ▸ hthere, hkeyring ?_⟩⟩
  cases r with
  | error e => cases hr
  | ok u => rfl

/-- Wherever storing the cache stops, the file is the old one or the line it has sealed. -/
theorem storeCache_safe {τ : Type} {who : τ} {J : Decoders} {userKey : SymmetricKey} {data : CacheData}
    {post : Except String Unit → Machine τ → Prop} {crash : Machine τ → Prop} {path : Path} {m : Machine τ}
    (hpost : ∀ r m', crash m' → post r m')
    (htouched : ∀ m', Touched (path.withExtension "tmp") m m' → crash m')
    (hstored : ∀ m' line salt iv, sealLine P J userKey data salt iv = .ok line →
      Published (path.withExtension "tmp") path ⟨line, who⟩ m m' → crash m') :
    Safe (diskStep who) post crash (storeCache P J path userKey data).run m := by
  have hstart : Touched (path.withExtension "tmp") m m := .refl _ _
  have hquiet : ∀ {q : OsReq} {m'}, keepsFiles q = true → Touched (path.withExtension "tmp") m m' →
      Safe (diskStep who) (fun _ m'' => m'' = m') crash (os q) m' :=
    fun hq ht => quiet_safe hq (htouched _ ht)
  have hseal : Safe (diskStep who)
      (fun r m' => m' = m ∧ ∀ line, r = .ok line → ∃ salt iv, sealLine P J userKey data salt iv = .ok line)
      crash (sealCache P J userKey data).run m := by
    unfold sealCache
    refine safe_except_bind (hquiet rfl hstart) (by rintro e _ rfl; simp) ?_
    rintro salt _ rfl
    refine safe_except_bind (hquiet rfl hstart) (by rintro e _ rfl; simp) ?_
    rintro iv _ rfl
    exact safe_pure ⟨rfl, fun line hline => ⟨salt, iv, hline⟩⟩ (htouched _ hstart)
  unfold storeCache
  refine safe_except_bind hseal ?_ ?_
  · rintro e _ ⟨rfl, -⟩
    exact hpost _ _ (htouched _ hstart)
  rintro line m ⟨rfl, hline⟩
  obtain ⟨salt, iv, hsealed⟩ := hline line rfl
  have hrest : Safe (diskStep who) post crash
      (do ExceptT.mk (os (.openTruncate (path.withExtension "tmp") (some 0o600)))
          ExceptT.mk (os (.writeAll (path.withExtension "tmp") line))
          ExceptT.mk (os (.syncAll (path.withExtension "tmp")))
          ExceptT.mk (os (.rename (path.withExtension "tmp") path)) : ExceptT String Os Unit).run m := by
    refine safe_except_bind (openTruncate_safe htouched) (fun e m' ht => hpost _ _ (htouched _ ht)) ?_
    intro _ m₁ h₁
    refine safe_except_bind (writeAll_safe (fun m' ht => htouched _ (h₁.trans ht)))
      (fun e m' ht => hpost _ _ (htouched _ (h₁.trans ht.1))) ?_
    rintro _ m₂ ⟨h₂, hcontent⟩
    have hwritten := h₁.trans h₂
    refine safe_except_bind (hquiet (q := .syncAll _) rfl hwritten) ?_ ?_
    · rintro e _ rfl
      exact hpost _ _ (htouched _ hwritten)
    rintro _ _ rfl
    have hpublished := hstored _ line salt iv hsealed (hwritten.publish (hcontent rfl) path)
    refine (rename_safe (htouched _ hwritten) hpublished).mono ?_ (fun _ hs => hs)
    rintro x s (⟨e, rfl, rfl⟩ | ⟨rfl, rfl⟩)
    · exact hpost _ _ (htouched _ hwritten)
    · exact hpost _ _ hpublished
  cases path.parent with
  | none => exact hrest
  | some parent =>
    refine safe_except_bind (hquiet (q := .createDirAll _) rfl hstart) ?_ ?_
    · rintro e _ rfl
      exact hpost _ _ (htouched _ hstart)
    rintro _ _ rfl
    refine safe_lift_bind (hquiet (q := .setMode _ _) rfl hstart) ?_
    rintro _ _ rfl
    exact hrest

/-- Rewriting the cache with the bundle of the payload keeps it its index. -/
theorem writeCache_kept (hP : P.Lawful) (hD : D.Lawful) (h : Kept P D l there m.files) :
    Safe (diskStep who) (fun _ m' => Kept P D l there m'.files) (fun m' => Kept P D l there m'.files)
      (writeCache P D.decoders (some (cachePath l.dir)) sess l.userKey l.bundle) m := by
  have hJ := hD.index
  unfold writeCache
  refine safe_map (storeCache_safe (fun _ _ hkept => hkept) (fun m' ht => h.touched cacheTmp_apart ht) ?_)
  intro m' line salt iv hsealed hp
  refine h.published_cache ?_ hp
  intro data hdata
  rw [unsealLine_sealLine hP hJ hsealed] at hdata
  exact ⟨sess, (Option.some.inj hdata).symm⟩

end

/-! ## The requests of a process -/

/-- What leaves the files of a login alone, or drops its cache. -/
def isHarmless (dir : Path) : HostReq → Prop
  | .os q => keepsFiles q = true
  | .removeFile path => path = cachePath dir
  | _ => True

/-- What may be asked for a login: a session is of its account before its payload is
fetched, and can be used before it is sealed. -/
def Sanctioned (D : Codecs) (opened : Session → Prop) (l : LocalLogin) : CliReq → Prop
  | .provider (.listSecrets s _) | .provider (.getNamespaceSecrets s _) | .provider (.getSecret s _) =>
    opened s
  | .saveKeyring sessionJson passphrase =>
    passphrase = l.passphrase ∧ ∃ sess, sessionJson = D.handleOf sess ∧ l.usable sess
  | .saveLogin cfg sessionJson passphrase =>
    cfg = l.cfg ∧ passphrase = l.passphrase ∧ ∃ sess, sessionJson = D.handleOf sess ∧ l.usable sess
  | _ => True

section
variable {P : Primitives} {D : Codecs} {deviceId : String} {backend : Option CeremonyBackend}
  {R : ∀ q, HostAns q → Prop} {l : LocalLogin} {there : Prop} {who : StateConfig}
  {d d' : Disk Path StateConfig}

theorem fileStep_keeps {q : OsReq} {x : OsAns q} (hq : keepsFiles q = true)
    (h : fileStep who d ⟨q, x⟩ d') : d' = d := by
  cases q with
  | openTruncate _ _ => cases hq
  | writeAll _ _ => cases hq
  | rename _ _ => cases hq
  | isFile _ => exact h.2
  | readToString _ =>
    cases x with
    | ok _ => exact h.2
    | error _ => exact h
  | _ => exact h

theorem Kept.harmless (h : Kept P D l there d) {q : HostReq} {x : HostAns q} (hq : isHarmless l.dir q)
    (hstep : hostStep R who d ⟨q, x⟩ d') : Kept P D l there d' := by
  obtain ⟨-, -, heffect⟩ := hstep
  cases q with
  | os q =>
    obtain rfl := fileStep_keeps hq heffect
    exact h
  | removeFile path =>
    obtain rfl : path = cachePath l.dir := hq
    obtain rfl | rfl := heffect
    · exact h
    · exact h.uncached
  | _ =>
    obtain rfl : d' = d := heffect
    exact h

theorem harmless_kept {α : Type} {p : Host α} (hp : Asks (isHarmless l.dir) p) (h : Kept P D l there d) :
    Safe (hostStep R who) (fun _ d' => Kept P D l there d') (Kept P D l there) p d :=
  safe_of_asks (fun _ _ _ _ hq hkept hstep => hkept.harmless hq hstep) hp h

theorem quiet_kept {α : Type} {p : Os α} (hp : Asks (fun q => keepsFiles q = true) p)
    (h : Kept P D l there d) :
    Safe (osStep R who) (fun _ d' => Kept P D l there d') (Kept P D l there) p d :=
  safe_of_asks (fun _ _ _ _ hq hkept hstep => hkept.harmless (q := .os _) hq hstep) hp h

theorem answersIn_os {q : OsReq} {x : OsAns q}
    (h : answersIn (osStep R who) (Kept P D l there) q x) : R (.os q) x := by
  obtain ⟨d, d', -, hR, -⟩ := h
  exact hR

section
variable {acc : Account P D.decoders (fun q => R (.os q))} {s : Session} {sess : VwSession}

/-- What a session of the account fetches is the bundle, if anything. -/
theorem Account.sync_ok {token : String} {b : SyncBundle}
    (h : Returns (fun q => R (.os q)) (syncAndKeys P D.decoders token acc.userKey).run (.ok b)) :
    b = acc.bundle := by
  by_cases htoken : acc.honours token
  · have hb := syncAndKeys_returns (acc.served token htoken) h
    rw [acc.decrypted] at hb
    exact Except.ok.inj hb
  · cases Account.sync_refused htoken h

theorem sync_kept (hkey : acc.userKey = l.userKey) (hbundle : acc.bundle = l.bundle) (token : String)
    (h : Kept P D l there d) :
    Safe (osStep R who)
      (fun r d' => Kept P D l there d' ∧ ∀ b, r = .ok b → b = l.bundle)
      (Kept P D l there) (syncAndKeys P D.decoders token l.userKey).run d := by
  have hasks : Asks (fun q => keepsFiles q = true) (syncAndKeys P D.decoders token l.userKey).run := by
    refine (syncAndKeys_asks token).mono (fun q hq => ?_)
    cases q <;> first | rfl | cases hq
  refine (quiet_kept hasks h).returns.mono ?_ (fun _ hs => hs)
  rintro r d' ⟨hkept, hr⟩
  refine ⟨hkept, ?_⟩
  rintro b rfl
  rw [← hkey] at hr
  exact (Account.sync_ok (hr.mono (fun _ _ hx => answersIn_os hx))).trans hbundle

variable (hP : P.Lawful) (hD : D.Lawful) (hkey : acc.userKey = l.userKey)
  (hbundle : acc.bundle = l.bundle)
include hP hD hkey hbundle

theorem bulkOp_kept {α : Type}
    {loop : String → List (String × SymmetricKey) → SymmetricKey → List Cipher → α} {ns : Namespace}
    (hopens : acc.Opens s sess) (h : Kept P D l there d) :
    Safe (osStep R who) (fun _ d' => Kept P D l there d') (Kept P D l there)
      (bulkOp P D.decoders loop (some (cachePath l.dir)) s ns).run d := by
  unfold bulkOp
  rw [hopens.parsed]
  refine safe_settled_bind h (fun _ _ => h) ?_
  rintro _ ⟨⟩
  rw [hopens.opened, hkey]
  refine safe_settled_bind h (fun _ _ => h) ?_
  rintro _ ⟨⟩
  refine safe_except_bind (sync_kept hkey hbundle _ h) (fun _ _ hr => hr.1) ?_
  rintro b d ⟨h, hb⟩
  obtain rfl := hb b rfl
  refine safe_settled_bind h (fun _ _ => h) (fun collId _ => ?_)
  refine safe_lift_bind (disk_safe (r := []) (writeCache_kept hP hD h)) ?_
  intro _ d h
  exact safe_pure h h

theorem getSecret_kept {r : Ref} (hopens : acc.Opens s sess) (h : Kept P D l there d) :
    Safe (osStep R who) (fun _ d' => Kept P D l there d') (Kept P D l there)
      (getSecret P D.decoders (some (cachePath l.dir)) s r).run d := by
  unfold getSecret
  by_cases hscheme : r.scheme ≠ "vw"
  · rw [if_pos hscheme]
    exact safe_pure h h
  rw [if_neg hscheme]
  change Safe _ _ _ (ExceptT.mk (pure (parseSession D.decoders s)) >>= _).run d
  rw [hopens.parsed]
  refine safe_settled_bind h (fun _ _ => h) ?_
  rintro _ ⟨⟩
  rw [hopens.opened, hkey]
  refine safe_settled_bind h (fun _ _ => h) ?_
  rintro _ ⟨⟩
  split
  · exact safe_pure h h
  have hcached : ∀ coll item, Asks (fun q => keepsFiles q = true)
      (getSecretCached P D.decoders (cachePath l.dir) sess l.userKey coll item).run := by
    intro coll item
    refine (getSecretCached_asks hopens.parsed coll item).mono ?_
    rintro q (hq | rfl)
    · cases q <;> first | rfl | exact hq.elim
    · rfl
  refine safe_except_bind (quiet_kept (hcached _ _) h) (fun _ _ hr => hr) ?_
  intro found d h
  cases found with
  | some secret => exact safe_pure h h
  | none =>
    unfold getSecretCold
    refine safe_except_bind (sync_kept hkey hbundle _ h) (fun _ _ hr => hr.1) ?_
    rintro b d ⟨h, hb⟩
    obtain rfl := hb b rfl
    split
    · exact safe_pure h h
    · refine safe_settled_bind h (fun _ _ => h) (fun secret _ => ?_)
      refine safe_lift_bind (disk_safe (r := []) (writeCache_kept hP hD h)) ?_
      intro _ d h
      exact safe_pure h h

/-- A request that is sanctioned keeps the files of the login, wherever it is stopped. -/
theorem hostCalls_kept {q : CliReq} (hq : Sanctioned D acc.Opened l q) (h : Kept P D l there d) :
    Safe (hostStep R who) (fun _ d' => Kept P D l there d') (Kept P D l there)
      (hostCalls P D deviceId backend l.dir q) d := by
  have hscoped : (∀ r, scope P D deviceId backend l.dir (fun _ _ => True) q r → isHarmless l.dir r) →
      Safe (hostStep R who) (fun _ d' => Kept P D l there d') (Kept P D l there)
        (hostCalls P D deviceId backend l.dir q) d :=
    fun hharmless => harmless_kept ((hostCalls_asks q).mono hharmless) h
  cases q with
  | provider q =>
    cases q with
    | listSecrets s ns =>
      obtain ⟨sess, hopens⟩ := hq
      exact onMachine_safe (bulkOp_kept hP hD hkey hbundle hopens h)
    | getNamespaceSecrets s ns =>
      obtain ⟨sess, hopens⟩ := hq
      exact onMachine_safe (bulkOp_kept hP hD hkey hbundle hopens h)
    | getSecret s r =>
      obtain ⟨sess, hopens⟩ := hq
      exact onMachine_safe (getSecret_kept hP hD hkey hbundle hopens h)
    | _ =>
      refine hscoped (fun r hr => ?_)
      cases r with
      | os r => cases r <;> first | rfl | exact hr.elim
      | _ => exact hr.elim
  | saveKeyring sessionJson passphrase =>
    obtain ⟨rfl, sess, rfl, husable⟩ := hq
    refine safe_map (onMachine_safe ((disk_safe (r := []) ?_)))
    exact (saveKeyring_kept h husable).mono (fun _ _ hr => hr.1) (fun _ hs => hs)
  | saveLogin cfg sessionJson passphrase =>
    obtain ⟨rfl, rfl, sess, rfl, husable⟩ := hq
    refine onMachine_safe (disk_safe (r := []) ?_)
    exact (saveLogin_kept h husable).mono (fun _ _ hr => hr.1) (fun _ hs => hs)
  | loggedIn =>
    refine hscoped (fun r hr => ?_)
    obtain rfl | rfl := hr <;> rfl
  | addToAgent value label =>
    refine hscoped (fun r hr => ?_)
    have hhand := hr.1.1
    cases r with
    | os r => cases r <;> first | rfl | exact hhand.elim
    | removeFile _ => exact hhand.elim
    | _ => exact trivial
  | systemTime | loadConfig | loadSession _ | removeCache | envVar _ | stdinIsTerminal | promptPassword _
  | newProvider _ _ | println _ | eprintln _ =>
    refine hscoped (fun r hr => ?_)
    obtain rfl := hr
    first | exact trivial | rfl

end

end

end Cryptile
