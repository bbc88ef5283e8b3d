import Cryptile.Keyring

/-
  KeyringOutcomes — what the opening of a line can come to

  A line is split and its parts decoded, a key is derived, the tag is compared and
  the text decrypted. What fails before the derivation is `format`, what fails
  after it `tamper`. The iv and the tag are held to the lengths that sealing
  writes; the salt is not, so that a line with another salt gets as far as the
  derivation, and a salt that Argon2 refuses has an outcome of its own.
-/

namespace Cryptile
open Text

/-! ## The parts of a line -/

/-- The bytes in the four parts after the magic. -/
structure LineParts where
  salt : Bytes
  iv : Bytes
  ct : Bytes
  tag : Bytes

/-- The trimmed line is the magic and the four parts in Base64. -/
def LineReads (line : String) (p : LineParts) : Prop :=
  ∃ salt iv ct tag, trim line = keyringMagic ++ "." ++ salt ++ "." ++ iv ++ "." ++ ct ++ "." ++ tag ∧
    Base64.decode salt = some p.salt ∧ Base64.decode iv = some p.iv ∧
    Base64.decode ct = some p.ct ∧ Base64.decode tag = some p.tag

/-- The lengths that sealing writes. -/
structure LineParts.WellFormed (p : LineParts) : Prop where
  salt : p.salt.length = 16
  iv : p.iv.length = 16
  tag : p.tag.length = 32

/-- The line splits into the parts it reads as. -/
theorem lineReads_split {line : String} {p : LineParts} : LineReads line p ↔
    ∃ salt iv ct tag, split (trim line) '.' = [keyringMagic, salt, iv, ct, tag] ∧
      Base64.decode salt = some p.salt ∧ Base64.decode iv = some p.iv ∧
      Base64.decode ct = some p.ct ∧ Base64.decode tag = some p.tag := by
  have hdot : String.singleton '.' = "." := rfl
  refine ⟨?_, ?_⟩
  · intro h
    obtain ⟨salt, iv, ct, tag, hline, hsalt, hiv, hct, htag⟩ := h
    refine ⟨salt, iv, ct, tag, split_eq_five.mpr ⟨by rw [hline, hdot], ?_⟩, hsalt, hiv, hct, htag⟩
    intro part hpart
    simp only [List.mem_cons, List.not_mem_nil, or_false] at hpart
    rcases hpart with rfl | rfl | rfl | rfl | rfl
    · decide
    · exact Base64.decode_no_dot hsalt
    · exact Base64.decode_no_dot hiv
    · exact Base64.decode_no_dot hct
    · exact Base64.decode_no_dot htag
  · intro h
    obtain ⟨salt, iv, ct, tag, hsplit, hparts⟩ := h
    refine ⟨salt, iv, ct, tag, ?_, hparts⟩
    rw [(split_eq_five.mp hsplit).1, hdot]

/-- A line reads one way. -/
theorem lineReads_unique {line : String} {p p' : LineParts} (h : LineReads line p) (h' : LineReads line p') :
    p' = p := by
  obtain ⟨_, _, _, _, hsplit, hsalt, hiv, hct, htag⟩ := lineReads_split.mp h
  obtain ⟨_, _, _, _, hsplit', hsalt', hiv', hct', htag'⟩ := lineReads_split.mp h'
  rw [hsplit] at hsplit'
  cases hsplit'
  cases p
  cases p'
  rw [hsalt] at hsalt'
  rw [hiv] at hiv'
  rw [hct] at hct'
  rw [htag] at htag'
  cases hsalt'
  cases hiv'
  cases hct'
  cases htag'
  rfl

/-! ## Opening, part by part -/

section
variable (P : Primitives)

/-- What is left once the key is derived. -/
def verifyThenDecrypt (kek : Block 64) (iv : Block 16) (ct : Bytes) (t : Block 32) : Except KeyringError String := do
  let keys := splitKek kek
  if hmacTag P keys.2 (iv.1 ++ ct) ≠ t then throw .tamper
  let pt ← (P.cbcDecrypt keys.1 iv ct).elim (.error .tamper) .ok
  let text ← (fromUtf8 pt).elim (.error .tamper) .ok
  return trim text

/-- The tag of the parts is the one under the key of the passphrase and the salt. -/
def LineParts.Verifies (p : LineParts) (passphrase : String) : Prop :=
  ∃ kek, deriveKek P passphrase p.salt = .ok kek ∧
    (hmacTag P (splitKek kek).2 (p.iv ++ p.ct)).1 = p.tag

/-- What Argon2 promises of salts: at least eight bytes. -/
structure Primitives.SaltLaw : Prop where
  rejects : ∀ passphrase salt, salt.length < 8 →
    ∃ e, P.argon2id64 65536 3 4 passphrase salt = .error e
  accepts : ∀ passphrase salt, 8 ≤ salt.length →
    ∃ kek, P.argon2id64 65536 3 4 passphrase salt = .ok kek

/-- Three outcomes, and a corrupted line is told from a wrong passphrase by none of them. -/
structure ThreeOutcomes (line passphrase : String) : Prop where
  three : (∃ text, openKeyring P line passphrase = .ok text) ∨
    openKeyring P line passphrase = .error .tamper ∨ openKeyring P line passphrase = .error .format
  format : openKeyring P line passphrase = .error .format ↔ ¬ ∃ p, LineReads line p ∧ p.WellFormed
  verified : ∀ text, openKeyring P line passphrase = .ok text →
    ∃ p, LineReads line p ∧ p.Verifies P passphrase
  hidden : ∀ p line' p', LineReads line p → p.WellFormed → LineReads line' p' → p'.WellFormed →
    ∀ passphrase' e e', openKeyring P line' passphrase = .error e →
      openKeyring P line passphrase' = .error e' → e = e'

end

section
variable {P : Primitives} {line passphrase : String} {p : LineParts}

theorem openKeyring_reads (h : LineReads line p) (hiv : p.iv.length = 16) (htag : p.tag.length = 32) :
    openKeyring P line passphrase = (deriveKek P passphrase p.salt).bind
      (fun kek => verifyThenDecrypt P kek ⟨p.iv, hiv⟩ p.ct ⟨p.tag, htag⟩) := by
  obtain ⟨salt, iv, ct, tag, hsplit, hsalt, hdiv, hct, hdtag⟩ := lineReads_split.mp h
  have hblock : ∀ {n : Nat} {b : Bytes} (hb : b.length = n), toBlock n b = some ⟨b, hb⟩ :=
    fun hb => dif_pos hb
  unfold openKeyring
  rw [hsplit]
  simp only [hsalt, hdiv, hct, hdtag, Option.bind_some, hblock hiv, hblock htag, Option.elim_some,
    ne_eq, not_true_eq_false, if_false]
  rfl

/-- A line that cannot be read as parts with an iv and a tag is no keyring. -/
theorem openKeyring_unread (h : ∀ p, LineReads line p → p.iv.length = 16 → p.tag.length ≠ 32) :
    openKeyring P line passphrase = .error .format := by
  unfold openKeyring
  split
  · next magic salt iv ct tag hsplit =>
    by_cases hmagic : magic = keyringMagic
    · subst hmagic
      cases hsalt : Base64.decode salt with
      | none => rfl
      | some saltBytes =>
        cases hiv : Base64.decode iv with
        | none => rfl
        | some ivBytes =>
          cases hct : Base64.decode ct with
          | none => cases hb : toBlock 16 ivBytes <;> simp [hb] <;> rfl
          | some ctBytes =>
            cases htag : Base64.decode tag with
            | none => cases hb : toBlock 16 ivBytes <;> simp [hb] <;> rfl
            | some tagBytes =>
              have hread : LineReads line ⟨saltBytes, ivBytes, ctBytes, tagBytes⟩ :=
                lineReads_split.mpr ⟨salt, iv, ct, tag, hsplit, hsalt, hiv, hct, htag⟩
              by_cases hlen : ivBytes.length = 16
              · have hne := h _ hread hlen
                simp [toBlock, hlen, hne]
                rfl
              · simp [toBlock, hlen]
                rfl
    · rw [if_pos hmagic]
      rfl
  · rfl

theorem verifyThenDecrypt_outcome (kek : Block 64) (iv : Block 16) (ct : Bytes) (t : Block 32) :
    (∃ text, verifyThenDecrypt P kek iv ct t = .ok text ∧ hmacTag P (splitKek kek).2 (iv.1 ++ ct) = t) ∨
      verifyThenDecrypt P kek iv ct t = .error .tamper := by
  by_cases htag : hmacTag P (splitKek kek).2 (iv.1 ++ ct) = t
  · cases hpt : P.cbcDecrypt (splitKek kek).1 iv ct with
    | none =>
      right
      simp [verifyThenDecrypt, htag, hpt, bind, Except.bind]
    | some pt =>
      cases htext : fromUtf8 pt with
      | none =>
        right
        simp [verifyThenDecrypt, htag, hpt, htext, bind, Except.bind]
      | some text =>
        left
        refine ⟨trim text, ?_, htag⟩
        simp [verifyThenDecrypt, htag, hpt, htext, bind, Except.bind, pure, Except.pure]
  · right
    rw [verifyThenDecrypt, if_pos htag]
    rfl

/-- Once the parts are read, only the derivation can fail in a way of its own. -/
theorem openKeyring_reads_outcome (h : LineReads line p) (hiv : p.iv.length = 16)
    (htag : p.tag.length = 32) :
    (∃ e, deriveKek P passphrase p.salt = .error (.crypto e) ∧
      openKeyring P line passphrase = .error (.crypto e)) ∨
    (∃ text, openKeyring P line passphrase = .ok text ∧ p.Verifies P passphrase) ∨
    openKeyring P line passphrase = .error .tamper := by
  rw [openKeyring_reads h hiv htag]
  cases hkek : P.argon2id64 65536 3 4 (utf8 passphrase) p.salt with
  | error e =>
    have hderive : deriveKek P passphrase p.salt = .error (.crypto e) := by rw [deriveKek, hkek]; rfl
    rw [hderive]
    exact .inl ⟨e, rfl, rfl⟩
  | ok kek =>
    have hderive : deriveKek P passphrase p.salt = .ok kek := by rw [deriveKek, hkek]; rfl
    rw [hderive]
    obtain ⟨text, htext, hverify⟩ | htamper :=
      verifyThenDecrypt_outcome (P := P) kek ⟨p.iv, hiv⟩ p.ct ⟨p.tag, htag⟩
    · exact .inr (.inl ⟨text, htext, kek, hderive, congrArg Subtype.val hverify⟩)
    · exact .inr (.inr htamper)

/-- A line as sealing writes it opens under a key that verifies it, or it is tampered with. -/
theorem openKeyring_wellFormed (hP : P.SaltLaw) (h : LineReads line p) (hp : p.WellFormed) :
    (∃ text, openKeyring P line passphrase = .ok text ∧ p.Verifies P passphrase) ∨
      openKeyring P line passphrase = .error .tamper := by
  obtain ⟨e, hderive, -⟩ | houtcome := openKeyring_reads_outcome (P := P) h hp.iv hp.tag
  · obtain ⟨kek, hkek⟩ := hP.accepts (utf8 passphrase) p.salt (by rw [hp.salt]; decide)
    rw [deriveKek, hkek] at hderive
    cases hderive
  · exact houtcome

theorem openKeyring_wellFormed_error (hP : P.SaltLaw) (h : LineReads line p) (hp : p.WellFormed)
    {e : KeyringError} (he : openKeyring P line passphrase = .error e) : e = .tamper := by
  obtain ⟨text, htext, -⟩ | htamper := openKeyring_wellFormed hP h hp
  · rw [htext] at he
    cases he
  · rw [htamper] at he
    exact (Except.error.inj he).symm

theorem ThreeOutcomes.of_wellFormed (hP : P.SaltLaw) (h : LineReads line p) (hp : p.WellFormed) :
    ThreeOutcomes P line passphrase := by
  have houtcome : (∃ text, openKeyring P line passphrase = .ok text ∧ p.Verifies P passphrase) ∨
      openKeyring P line passphrase = .error .tamper := openKeyring_wellFormed hP h hp
  refine ⟨?_, ⟨?_, ?_⟩, ?_, ?_⟩
  · obtain ⟨text, htext, -⟩ | htamper := houtcome
    · exact .inl ⟨text, htext⟩
    · exact .inr (.inl htamper)
  · intro hformat
    cases openKeyring_wellFormed_error hP h hp hformat
  · intro hnone
    exact absurd ⟨p, h, hp⟩ hnone
  · intro text htext
    obtain ⟨_, -, hverify⟩ | htamper := houtcome
    · exact ⟨p, h, hverify⟩
    · rw [htext] at htamper
      cases htamper
  · intro q line' p' hq hqw hread' hp' passphrase' e e' he he'
    rw [openKeyring_wellFormed_error hP hread' hp' he, openKeyring_wellFormed_error hP hq hqw he']

theorem ThreeOutcomes.of_unread (h : ∀ p, LineReads line p → p.iv.length = 16 → p.tag.length ≠ 32) :
    ThreeOutcomes P line passphrase := by
  have hformat : openKeyring P line passphrase = .error .format := openKeyring_unread h
  refine ⟨.inr (.inr hformat), ⟨?_, fun _ => hformat⟩, ?_, ?_⟩
  · intro _ hwell
    obtain ⟨p, hread, hp⟩ := hwell
    exact h p hread hp.iv hp.tag
  · intro text htext
    rw [hformat] at htext
    cases htext
  · intro p line' p' hread hp
    exact absurd hp.tag (h p hread hp.iv)

/-- A line of another salt is not refused as a format. -/
theorem ThreeOutcomes.salt_length (h : ThreeOutcomes P line passphrase) (hread : LineReads line p)
    (hiv : p.iv.length = 16) (htag : p.tag.length = 32) : p.salt.length = 16 := by
  by_contra hsalt
  have hnone : ¬ ∃ q, LineReads line q ∧ q.WellFormed := by
    intro hex
    obtain ⟨q, hq, hwell⟩ := hex
    rw [lineReads_unique hread hq] at hwell
    exact hsalt hwell.salt
  have hformat := h.format.mpr hnone
  rcases openKeyring_reads_outcome (P := P) hread hiv htag with ⟨e, -, he⟩ | ⟨text, htext, -⟩ | htamper
  · rw [he] at hformat
    cases hformat
  · rw [htext] at hformat
    cases hformat
  · rw [htamper] at hformat
    cases hformat

end

/-- Opening has its three outcomes, and tells nothing else, exactly where a line with an
iv and a tag has a salt of sixteen bytes as well. -/
theorem three_outcomes_iff {P : Primitives} (hP : P.SaltLaw) (line passphrase : String) :
    ThreeOutcomes P line passphrase ↔
      ∀ p, LineReads line p → p.iv.length = 16 → p.tag.length = 32 → p.salt.length = 16 := by
  refine ⟨?_, ?_⟩
  · intro h p hread hiv htag
    exact h.salt_length hread hiv htag
  · intro hsalt
    by_cases hex : ∃ p, LineReads line p ∧ p.iv.length = 16 ∧ p.tag.length = 32
    · obtain ⟨p, hread, hiv, htag⟩ := hex
      exact .of_wellFormed hP hread ⟨hsalt p hread hiv htag, hiv, htag⟩
    · exact .of_unread (fun p hread hiv htag => hex ⟨p, hread, hiv, htag⟩)

/-! ## A salt that is too short -/

/-- The plain primitives, with the salts that Argon2 takes. -/
def saltedPrimitives : Primitives :=
  { plainPrimitives with
    argon2id64 := fun _ _ _ _ salt => if salt.length < 8 then .error "salt is too short" else .ok (zeros 64) }

theorem saltedPrimitives_law : saltedPrimitives.SaltLaw :=
  ⟨fun _ _ h => ⟨"salt is too short", if_pos h⟩, fun _ _ h => ⟨zeros 64, if_neg (Nat.not_lt.mpr h)⟩⟩

theorem three_outcomes_iff_plain : ThreeOutcomes saltedPrimitives (plainKeyringLine "key") "pw" ↔
    ∀ p, LineReads (plainKeyringLine "key") p → p.iv.length = 16 → p.tag.length = 32 →
      p.salt.length = 16 :=
  three_outcomes_iff saltedPrimitives_law (plainKeyringLine "key") "pw"

/-- The line of the empty text with the salt taken out. -/
def saltlessLine : String :=
  keyringMagic ++ "." ++ "" ++ "." ++ Base64.encode (zeros 16).1 ++ "." ++
    Base64.encode (pkcs7 []) ++ "." ++ Base64.encode (zeros 32).1

def saltlessParts : LineParts := ⟨[], (zeros 16).1, pkcs7 [], (zeros 32).1⟩

theorem saltlessLine_reads : LineReads saltlessLine saltlessParts :=
  ⟨"", _, _, _, by decide, rfl, Base64.decode_encode _, Base64.decode_encode _, Base64.decode_encode _⟩

/-- A line without its salt has a fourth outcome. -/
theorem missing_salt_is_crypto :
    openKeyring saltedPrimitives saltlessLine "pw" = .error (.crypto "salt is too short") ∧
    ¬ ThreeOutcomes saltedPrimitives saltlessLine "pw" := by
  have hopen : openKeyring saltedPrimitives saltlessLine "pw" = .error (.crypto "salt is too short") := by
    rw [openKeyring_reads saltlessLine_reads rfl rfl]
    rfl
  refine ⟨hopen, ?_⟩
  intro h
  obtain ⟨_, hok⟩ | htamper | hformat := h.three
  · rw [hopen] at hok
    cases hok
  · rw [hopen] at htamper
    cases htamper
  · rw [hopen] at hformat
    cases hformat

end Cryptile
