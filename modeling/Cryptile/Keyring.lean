import Cryptile.Disk

/-
  Keyring — the sealed session on disk

  The session is sealed under the passphrase and written to a temporary file that
  is then renamed to the keyring. `saveKeyring_safe` is what that gives: wherever a
  save stops, the keyring is the old one or a line that this save has sealed.

  Correspondence (Rust ↔ Lean):
    `KeyringError`                        ↔ `KeyringError`
    `derive_kek`, `split_kek`, `hmac_tag` ↔ `deriveKek`, `splitKek`, `hmacTag`
    `seal`, `open`                        ↔ `sealKeyring` and `keyringLine`, `openKeyring`
    `Keyring::save`, `load`               ↔ `saveKeyring` with `ensureParent`, `loadKeyring`
-/

namespace Cryptile
open Text Interaction Files

def keyringMagic : String := "crk1"

inductive KeyringError where
  | io (e : String)
  | format
  | tamper
  | crypto (e : String)
  deriving DecidableEq, Repr

def KeyringError.display : KeyringError → String
  | .io e => "i/o error: " ++ e
  | .format => "keyring format not recognized (expected " ++ keyringMagic ++ ")"
  | .tamper => "wrong passphrase or corrupted keyring (MAC mismatch)"
  | .crypto e => "crypto failure: " ++ e

section
variable (P : Primitives)

/-- Argon2id with t = 3, m = 64 MiB and p = 4. -/
def deriveKek (passphrase : String) (salt : Bytes) : Except KeyringError (Block 64) :=
  (P.argon2id64 65536 3 4 (utf8 passphrase) salt).mapError .crypto

def splitKek (kek : Block 64) : Block 32 × Block 32 :=
  (⟨kek.1.take 32, by simp [kek.2]⟩, ⟨kek.1.drop 32, by simp [kek.2]⟩)

def hmacTag (macKey : Block 32) (ivCt : Bytes) : Block 32 := P.hmacSha256 macKey.1 ivCt

def keyringLine (plaintext passphrase : String) (salt iv : Block 16) : Except KeyringError String := do
  let kek ← deriveKek P passphrase salt.1
  let keys := splitKek kek
  let ct := P.cbcEncrypt keys.1 iv (utf8 plaintext)
  let t := hmacTag P keys.2 (iv.1 ++ ct)
  return keyringMagic ++ "." ++ Base64.encode salt.1 ++ "." ++ Base64.encode iv.1 ++ "." ++
    Base64.encode ct ++ "." ++ Base64.encode t.1

def sealKeyring (plaintext passphrase : String) : ExceptT KeyringError Os String := do
  let salt ← mapErr .crypto (os (.random 16))
  let iv ← mapErr .crypto (os (.random 16))
  ExceptT.mk (pure (keyringLine P plaintext passphrase salt iv))

/-- Create the directory; tighten it if it is as wide open as a new one. -/
def ensureParent (path : Path) : ExceptT KeyringError Os Unit :=
  match path.parent with
  | none => return ()
  | some parent => do
    mapErr .io (os (.createDirAll parent))
    let mode ← mapErr .io (os (.modeOf parent))
    if mode &&& 0o777 = 0o755 then mapErr .io (os (.setMode parent 0o700))

def saveKeyring (path : Path) (sessionJson passphrase : String) : ExceptT KeyringError Os Unit := do
  let line ← sealKeyring P sessionJson passphrase
  ensureParent path
  let tmp := path.withExtension "tmp"
  mapErr .io (os (.openTruncate tmp (some 0o600)))
  mapErr .io (os (.writeAll tmp line))
  mapErr .io (os (.syncAll tmp))
  mapErr .io (os (.rename tmp path))

/-- Check the format, then the MAC, then decrypt: what fails after the format is `tamper`. -/
def openKeyring (line passphrase : String) : Except KeyringError String :=
  match split (trim line) '.' with
  | [magic, salt, iv, ct, t] => do
    if magic ≠ keyringMagic then throw .format
    let salt ← (Base64.decode salt).elim (.error .format) .ok
    let iv ← ((Base64.decode iv).bind (toBlock 16)).elim (.error .format) .ok
    let ct ← (Base64.decode ct).elim (.error .format) .ok
    let t ← ((Base64.decode t).bind (toBlock 32)).elim (.error .format) .ok
    let kek ← deriveKek P passphrase salt
    let keys := splitKek kek
    if hmacTag P keys.2 (iv.1 ++ ct) ≠ t then throw .tamper
    let pt ← (P.cbcDecrypt keys.1 iv ct).elim (.error .tamper) .ok
    let text ← (fromUtf8 pt).elim (.error .tamper) .ok
    -- the session's own text is trimmed too, not only the line of the file
    return trim text
  | _ => .error .format

def loadKeyring (path : Path) (passphrase : String) : ExceptT KeyringError Os String := do
  let raw ← mapErr .io (os (.readToString path))
  ExceptT.mk (pure (openKeyring P raw passphrase))

end

/-! ## Opening what was sealed -/

section
variable {P : Primitives} {plaintext passphrase line : String}

theorem sealKeyring_line {tr : OsTrace}
    (h : Runs (sealKeyring P plaintext passphrase).run tr (.ok line)) :
    ∃ salt iv, keyringLine P plaintext passphrase salt iv = .ok line := by
  unfold sealKeyring at h
  obtain ⟨_, e, _⟩ | ⟨_, salt, _, rfl, _, h⟩ := runs_except_bind.mp h
  · cases e
  obtain ⟨_, e, _⟩ | ⟨_, iv, _, rfl, _, h⟩ := runs_except_bind.mp h
  · cases e
  exact ⟨salt, iv, h.2.symm⟩

theorem keyringMagic_no_blank : ∀ x ∈ keyringMagic.toList, isWhitespace x = false := by
  have hall : keyringMagic.toList.all (fun x => !isWhitespace x) = true := by decide
  intro x hx
  simpa using List.all_eq_true.mp hall x hx

/-- A line opens to the trimmed text it was sealed from, whatever white space is around it. -/
theorem openKeyring_keyringLine (hP : P.Lawful) {salt iv : Block 16}
    (h : keyringLine P plaintext passphrase salt iv = .ok line) {front back : String}
    (hfront : ∀ c ∈ front.toList, isWhitespace c = true)
    (hback : ∀ c ∈ back.toList, isWhitespace c = true) :
    openKeyring P (front ++ line ++ back) passphrase = .ok (trim plaintext) := by
  unfold keyringLine at h
  cases hkek : deriveKek P passphrase salt.1 with
  | error e => rw [hkek] at h; cases h
  | ok kek =>
    rw [hkek] at h
    cases h
    rw [openKeyring, trim_append_blank hfront hback, split_dotted]
    · simp [Base64.decode_encode, hkek, hP (splitKek kek).1 iv (utf8 plaintext), fromUtf8_utf8, bind,
        Except.bind, pure, Except.pure]
    · intro s hs
      simp only [List.mem_cons, List.not_mem_nil, or_false] at hs
      obtain rfl | rfl | rfl | rfl | rfl := hs
      · decide
      all_goals exact Base64.encode_no_dot _
    · intro s hs
      simp only [List.mem_cons, List.not_mem_nil, or_false] at hs
      obtain rfl | rfl | rfl | rfl | rfl := hs
      · exact keyringMagic_no_blank
      all_goals exact Base64.encode_no_blank _

end

/-- A sealed text comes back byte for byte exactly when it has no white space at its ends. -/
theorem keyring_round_trip_iff {P : Primitives} (hP : P.Lawful) {plaintext passphrase line : String}
    {tr : OsTrace} (h : Runs (sealKeyring P plaintext passphrase).run tr (.ok line))
    {front back : String} (hfront : ∀ c ∈ front.toList, isWhitespace c = true)
    (hback : ∀ c ∈ back.toList, isWhitespace c = true) :
    openKeyring P (front ++ line ++ back) passphrase = .ok plaintext ↔ Bare plaintext := by
  obtain ⟨salt, iv, hline⟩ := sealKeyring_line h
  rw [openKeyring_keyringLine hP hline hfront hback, Except.ok.injEq]
  exact trim_eq_self_iff plaintext

/-- The line of a text under the plain primitives. -/
def plainKeyringLine (plaintext : String) : String :=
  keyringMagic ++ "." ++ Base64.encode (zeros 16).1 ++ "." ++ Base64.encode (zeros 16).1 ++ "." ++
    Base64.encode (pkcs7 (utf8 plaintext)) ++ "." ++ Base64.encode (zeros 32).1

theorem plainKeyringLine_sealed (plaintext passphrase : String) :
    Runs (sealKeyring plainPrimitives plaintext passphrase).run
      [⟨.random 16, .ok (zeros 16)⟩, ⟨.random 16, .ok (zeros 16)⟩] (.ok (plainKeyringLine plaintext)) :=
  ⟨.ok (zeros 16), _, rfl, .ok (zeros 16), _, rfl, rfl, rfl⟩

theorem keyring_round_trip_iff_json :
    openKeyring plainPrimitives ("" ++ plainKeyringLine "{}" ++ "\n") "pw" = .ok "{}" ↔ Bare "{}" := by
  refine keyring_round_trip_iff plainPrimitives_lawful (plainKeyringLine_sealed "{}" "pw") (by simp) ?_
  intro c hc
  obtain rfl : c = '\n' := by simpa using hc
  decide

theorem plainKeyringLine_opens (plaintext passphrase : String) :
    openKeyring plainPrimitives (plainKeyringLine plaintext) passphrase = .ok (trim plaintext) := by
  obtain ⟨salt, iv, hline⟩ := sealKeyring_line (plainKeyringLine_sealed plaintext passphrase)
  have hopen : openKeyring plainPrimitives ("" ++ plainKeyringLine plaintext ++ "") passphrase =
      .ok (trim plaintext) := openKeyring_keyringLine plainPrimitives_lawful hline (by simp) (by simp)
  rwa [String.empty_append, String.append_empty] at hopen

/-- A text that ends in a newline comes back without it. -/
theorem trailing_newline_is_lost :
    Runs (sealKeyring plainPrimitives "key\n" "pw").run
      [⟨.random 16, .ok (zeros 16)⟩, ⟨.random 16, .ok (zeros 16)⟩] (.ok (plainKeyringLine "key\n")) ∧
    openKeyring plainPrimitives (plainKeyringLine "key\n") "pw" = .ok "key" ∧
    openKeyring plainPrimitives (plainKeyringLine "key\n") "pw" ≠ .ok "key\n" := by
  have hopen : openKeyring plainPrimitives (plainKeyringLine "key\n") "pw" = .ok "key" := by
    have htrim : trim "key\n" = "key" := by decide
    rw [plainKeyringLine_opens, htrim]
  refine ⟨plainKeyringLine_sealed "key\n" "pw", hopen, ?_⟩
  rw [hopen]
  decide

/-! ## Where a save can stop -/

/-- A line that a save of this session can have sealed. -/
def SealedAs (P : Primitives) (sessionJson passphrase line : String) : Prop :=
  ∃ salt iv, keyringLine P sessionJson passphrase salt iv = .ok line

section
variable {P : Primitives} {τ : Type} {who : τ} {m : Machine τ} {crash : Machine τ → Prop}
  {path tmp : Path} {sessionJson passphrase : String}

theorem sealKeyring_safe (hcrash : crash m) :
    Safe (diskStep who)
      (fun r m' => m' = m ∧ ∀ line, r = .ok line → SealedAs P sessionJson passphrase line) crash
      (sealKeyring P sessionJson passphrase).run m := by
  unfold sealKeyring
  refine mapErr_safe (quiet_safe rfl hcrash) (by rintro e s rfl; simp) ?_
  rintro salt s rfl
  refine mapErr_safe (quiet_safe rfl hcrash) (by rintro e s rfl; simp) ?_
  rintro iv s rfl
  exact safe_pure ⟨rfl, fun line hline => ⟨salt, iv, hline⟩⟩ hcrash

theorem ensureParent_safe (hcrash : crash m) :
    Safe (diskStep who) (fun _ m' => m' = m) crash (ensureParent path).run m := by
  unfold ensureParent
  cases path.parent with
  | none => exact safe_pure rfl hcrash
  | some parent =>
    refine mapErr_safe (quiet_safe rfl hcrash) (by rintro e s rfl; rfl) ?_
    rintro _ s rfl
    refine mapErr_safe (quiet_safe rfl hcrash) (by rintro e s rfl; rfl) ?_
    rintro mode s rfl
    split
    · exact safe_map (quiet_safe rfl hcrash)
    · exact safe_pure rfl hcrash

/-- The save has put a line of its own into place. -/
def KeyringSaved (P : Primitives) (path : Path) (sessionJson passphrase : String) (who : τ)
    (m m' : Machine τ) : Prop :=
  ∃ line, SealedAs P sessionJson passphrase line ∧
    Published (path.withExtension "tmp") path ⟨line, who⟩ m m'

/-- Wherever a save stops, the keyring is the old one or the line it has sealed. -/
theorem saveKeyring_safe (path : Path) (m : Machine τ) :
    Safe (diskStep who)
      (fun r m' => (∃ e, r = .error e ∧ Touched (path.withExtension "tmp") m m') ∨
        r = .ok () ∧ KeyringSaved P path sessionJson passphrase who m m')
      (fun m' => Touched (path.withExtension "tmp") m m' ∨
        KeyringSaved P path sessionJson passphrase who m m')
      (saveKeyring P path sessionJson passphrase).run m := by
  have hstart : Touched (path.withExtension "tmp") m m := .refl _ _
  unfold saveKeyring
  refine safe_except_bind (sealKeyring_safe (.inl hstart)) ?_ ?_
  · rintro e s ⟨rfl, -⟩
    exact .inl ⟨e, rfl, hstart⟩
  rintro line s ⟨rfl, hline⟩
  have hsealed := hline line rfl
  refine safe_except_bind (ensureParent_safe (.inl hstart)) ?_ ?_
  · rintro e s rfl
    exact .inl ⟨e, rfl, hstart⟩
  rintro _ s rfl
  refine mapErr_safe (openTruncate_safe (fun m' h => Or.inl h)) (fun e s h => .inl ⟨_, rfl, h⟩) ?_
  intro _ m₁ h₁
  refine mapErr_safe (writeAll_safe (fun m' h => Or.inl (h₁.trans h)))
    (fun e s h => .inl ⟨_, rfl, h₁.trans h.1⟩) ?_
  rintro _ m₂ ⟨h₂, hcontent⟩
  have hwritten := h₁.trans h₂
  refine mapErr_safe (quiet_safe (q := .syncAll _) rfl ?_) ?_ ?_
  · exact .inl hwritten
  · rintro e s rfl
    exact .inl ⟨_, rfl, hwritten⟩
  rintro _ s rfl
  -- up to here only the temporary file was touched; the rename is the one step that counts
  have hsaved := hwritten.publish (hcontent rfl) path
  refine safe_map ((rename_safe ?_ ?_).mono ?_ (fun _ h => h))
  · exact .inl hwritten
  · exact .inr ⟨line, hsealed, hsaved⟩
  · rintro x s (⟨e, rfl, rfl⟩ | ⟨rfl, rfl⟩)
    · exact .inl ⟨_, rfl, hwritten⟩
    · exact .inr ⟨rfl, line, hsealed, hsaved⟩

end

end Cryptile
