import Cryptile.Vaultwarden.Cache

/-
  FailsClosed — what an encrypted string opens to, for every string

  A string that opens has a tag over its iv and its ciphertext, and the tag is
  compared before anything else is looked at: the length of the iv and that of the
  ciphertext are checked after it, the padding last. `TaggedAs` reads the three
  parts off the text; the rest says what becomes of them.
-/

namespace Cryptile
open Text

/-! ## The parts of a string -/

/-- A type with a tag, a dot, and three base64 parts between bars. -/
def TaggedAs (s : String) (iv ct tag : Bytes) : Prop :=
  ∃ ty a b c : String, s = ty ++ "." ++ a ++ "|" ++ b ++ "|" ++ c ∧ '.' ∉ ty.toList ∧
    (parseUint 255 ty = some 1 ∨ parseUint 255 ty = some 2) ∧
    '|' ∉ a.toList ∧ '|' ∉ b.toList ∧ '|' ∉ c.toList ∧
    Base64.decode a = some iv ∧ Base64.decode b = some ct ∧ Base64.decode c = some tag

theorem split_bars {s a b c : String} : split s '|' = [a, b, c] ↔
    s = a ++ "|" ++ b ++ "|" ++ c ∧ '|' ∉ a.toList ∧ '|' ∉ b.toList ∧ '|' ∉ c.toList := by
  refine ⟨?_, ?_⟩
  · intro h
    have hl : splitList '|' s.toList = [a.toList, b.toList, c.toList] := by
      have hm := congrArg (List.map String.toList) h
      simpa [split, Function.comp_def] using hm
    obtain ⟨hs, hbars⟩ := splitList_eq_three.mp hl
    refine ⟨String.toList_injective ?_, hbars⟩
    simp [hs]
  · intro h
    obtain ⟨rfl, hbars⟩ := h
    have hl := splitList_eq_three.mpr ⟨rfl, hbars⟩
    simp [split, hl]

theorem decPart_eq_ok {p : String} {b : Bytes} : decPart p = .ok b ↔ Base64.decode p = some b := by
  unfold decPart
  cases Base64.decode p <;> simp

/-- The two kinds that carry a tag. -/
def EncStringType.tagged : EncStringType → Bool
  | .aesCbc128HmacSha256B64 | .aesCbc256HmacSha256B64 => true
  | _ => false

theorem parse_of_tagged {s : String} {iv ct tag : Bytes} (h : TaggedAs s iv ct tag) :
    ∃ kind, kind.tagged = true ∧ EncString.parse s = .ok ⟨kind, iv, ct, some tag⟩ := by
  obtain ⟨ty, a, b, c, hs, hdot, hty, ha, hb, hc, hiv, hct, htag⟩ := h
  have honce : splitOnce s "." = some (ty, a ++ "|" ++ b ++ "|" ++ c) :=
    (splitOnce_char_eq_some rfl).mpr ⟨by rw [hs]; simp [String.append_assoc], hdot⟩
  have hparts := split_bars.mpr ⟨rfl, ha, hb, hc⟩
  have hdec := And.intro (decPart_eq_ok.mpr hiv) (And.intro (decPart_eq_ok.mpr hct) (decPart_eq_ok.mpr htag))
  rcases hty with hty | hty
  · refine ⟨.aesCbc128HmacSha256B64, rfl, ?_⟩
    simp [EncString.parse, honce, hty, EncStringType.ofWire, hparts, hdec.1, hdec.2.1, hdec.2.2,
      bind, Except.bind, pure, Except.pure]
  · refine ⟨.aesCbc256HmacSha256B64, rfl, ?_⟩
    simp [EncString.parse, honce, hty, EncStringType.ofWire, hparts, hdec.1, hdec.2.1, hdec.2.2,
      bind, Except.bind, pure, Except.pure]

theorem ofWire_tagged {n : Nat} {kind : EncStringType} (h : EncStringType.ofWire n = .ok kind)
    (hkind : kind.tagged = true) : n = 1 ∨ n = 2 := by
  unfold EncStringType.ofWire at h
  split at h <;> cases h
  · cases hkind
  · exact Or.inl rfl
  · exact Or.inr rfl
  · cases hkind
  · cases hkind

theorem three_parts {kind : EncStringType} {a b c : String} {es : EncString}
    (h : (do return { kind := kind, iv := ← decPart a, ct := ← decPart b, mac := some (← decPart c) } :
      Except CryptoError EncString) = .ok es) :
    ∃ tag, es.mac = some tag ∧ Base64.decode a = some es.iv ∧ Base64.decode b = some es.ct ∧
      Base64.decode c = some tag := by
  obtain ⟨iv, hiv, h⟩ := except_bind_ok h
  obtain ⟨ct, hct, h⟩ := except_bind_ok h
  obtain ⟨tag, htag, h⟩ := except_bind_ok h
  cases h
  exact ⟨tag, rfl, decPart_eq_ok.mp hiv, decPart_eq_ok.mp hct, decPart_eq_ok.mp htag⟩

theorem tagged_of_parse {s : String} {es : EncString} (h : EncString.parse s = .ok es)
    (hkind : es.kind.tagged = true) : ∃ tag, es.mac = some tag ∧ TaggedAs s es.iv es.ct tag := by
  unfold EncString.parse at h
  cases honce : splitOnce s "." with
  | none => rw [honce] at h; cases h
  | some p =>
    obtain ⟨ty, rest⟩ := p
    obtain ⟨rfl, hdot⟩ := (splitOnce_char_eq_some (x := '.') rfl).mp honce
    cases hty : parseUint 255 ty with
    | none => simp only [honce, hty] at h; cases h
    | some n =>
      simp only [honce, hty] at h
      obtain ⟨kind, hw, h⟩ := except_bind_ok h
      have hparts : ∀ {a b c : String} {tag : Bytes}, split rest '|' = [a, b, c] →
          kind.tagged = true → Base64.decode a = some es.iv → Base64.decode b = some es.ct →
          Base64.decode c = some tag → TaggedAs (ty ++ "." ++ rest) es.iv es.ct tag := by
        intro a b c tag hsplit hk hiv hct htag
        obtain ⟨rfl, ha, hb, hc⟩ := split_bars.mp hsplit
        refine ⟨ty, a, b, c, by simp [String.append_assoc], hdot, ?_, ha, hb, hc, hiv, hct, htag⟩
        rcases ofWire_tagged hw hk with rfl | rfl
        · exact Or.inl hty
        · exact Or.inr hty
      split at h
      · obtain ⟨_, -, h⟩ := except_bind_ok h
        obtain ⟨_, -, h⟩ := except_bind_ok h
        cases h
        cases hkind
      · next hsplit =>
        obtain ⟨tag, hmac, hiv, hct, htag⟩ := three_parts h
        exact ⟨tag, hmac, hparts hsplit rfl hiv hct htag⟩
      · next hsplit =>
        obtain ⟨tag, hmac, hiv, hct, htag⟩ := three_parts h
        exact ⟨tag, hmac, hparts hsplit rfl hiv hct htag⟩
      · obtain ⟨_, -, h⟩ := except_bind_ok h
        cases h
        cases hkind
      · obtain ⟨_, -, h⟩ := except_bind_ok h
        cases h
        cases hkind
      · cases h

theorem TaggedAs.unique {s : String} {iv ct tag iv' ct' tag' : Bytes} (h : TaggedAs s iv ct tag)
    (h' : TaggedAs s iv' ct' tag') : iv = iv' ∧ ct = ct' ∧ tag = tag' := by
  obtain ⟨kind, -, hp⟩ := parse_of_tagged h
  obtain ⟨kind', -, hp'⟩ := parse_of_tagged h'
  rw [hp] at hp'
  cases hp'
  exact ⟨rfl, rfl, rfl⟩

/-! ## Opening -/

section
variable (P : Primitives)

/-- Parse, then decrypt. -/
def openString (s : String) (key : SymmetricKey) : Except CryptoError Bytes := do
  (← EncString.parse s).decryptSymmetric P key

/-- What the tag of a string is compared with. -/
def tagFor (key : SymmetricKey) (iv ct : Bytes) : Bytes := (P.hmacSha256 key.mac.1 (iv ++ ct)).1

variable {P} {s : String} {key : SymmetricKey} {iv ct tag : Bytes}

theorem openString_tagged (h : TaggedAs s iv ct tag) : openString P s key =
    if tagFor P key iv ct ≠ tag then .error .macMismatch else decryptCbc P iv ct key.enc := by
  obtain ⟨kind, hkind, hp⟩ := parse_of_tagged h
  unfold openString
  rw [hp]
  cases kind with
  | aesCbc128HmacSha256B64 => rfl
  | aesCbc256HmacSha256B64 => rfl
  | _ => cases hkind

end

/-- What parsing refuses a string with. -/
def Refuses (e : CryptoError) : Prop :=
  e = .malformedEncString ∨ ∃ kind, e = .unsupportedEncString kind

theorem decPart_refuses {p : String} {e : CryptoError} (h : decPart p = .error e) : Refuses e := by
  unfold decPart at h
  split at h
  · cases h
  · cases h
    exact Or.inl rfl

theorem ofWire_refuses {n : Nat} {e : CryptoError} (h : EncStringType.ofWire n = .error e) :
    Refuses e := by
  unfold EncStringType.ofWire at h
  split at h <;> cases h
  exact Or.inr ⟨_, rfl⟩

theorem decPart_bind_refuses {p : String} {β : Type} {f : Bytes → Except CryptoError β}
    {e : CryptoError} (hf : ∀ b, f b = .error e → Refuses e) (h : decPart p >>= f = .error e) :
    Refuses e := by
  rcases except_bind_error h with hp | ⟨b, -, hb⟩
  · exact decPart_refuses hp
  · exact hf b hb

theorem parse_refuses {s : String} {e : CryptoError} (h : EncString.parse s = .error e) :
    Refuses e := by
  unfold EncString.parse at h
  cases honce : splitOnce s "." with
  | none =>
    rw [honce] at h
    cases h
    exact Or.inl rfl
  | some p =>
    obtain ⟨ty, rest⟩ := p
    cases hty : parseUint 255 ty with
    | none =>
      simp only [honce, hty] at h
      cases h
      exact Or.inl rfl
    | some n =>
      simp only [honce, hty] at h
      rcases except_bind_error h with hw | ⟨kind, -, h⟩
      · exact ofWire_refuses hw
      · split at h
        · exact decPart_bind_refuses (fun _ => decPart_bind_refuses (fun _ h => by cases h)) h
        · exact decPart_bind_refuses (fun _ => decPart_bind_refuses
            (fun _ => decPart_bind_refuses (fun _ h => by cases h))) h
        · exact decPart_bind_refuses (fun _ => decPart_bind_refuses
            (fun _ => decPart_bind_refuses (fun _ h => by cases h))) h
        · exact decPart_bind_refuses (fun _ h => by cases h) h
        · exact decPart_bind_refuses (fun _ h => by cases h) h
        · cases h
          exact Or.inl rfl

section
variable {P : Primitives} {s : String} {key : SymmetricKey} {iv ct tag : Bytes}

/-- A string without the parts never gets as far as a tag. -/
theorem openString_untagged (h : ∀ iv ct tag, ¬ TaggedAs s iv ct tag) :
    ∃ e, openString P s key = .error e ∧ Refuses e := by
  unfold openString
  cases hp : EncString.parse s with
  | error e => exact ⟨e, rfl, parse_refuses hp⟩
  | ok es =>
    cases hkind : es.kind.tagged with
    | true =>
      obtain ⟨tag, -, htagged⟩ := tagged_of_parse hp hkind
      exact absurd htagged (h _ _ _)
    | false =>
      refine ⟨.unsupportedEncString es.kind.toU8, ?_, Or.inr ⟨_, rfl⟩⟩
      change es.decryptSymmetric P key = _
      unfold EncString.decryptSymmetric
      cases hk : es.kind with
      | aesCbc128HmacSha256B64 => rw [hk] at hkind; cases hkind
      | aesCbc256HmacSha256B64 => rw [hk] at hkind; cases hkind
      | _ => rfl

/-- What has the shape of a block cipher's text. -/
def WholeBlocks (iv ct : Bytes) : Prop := iv.length = 16 ∧ ct ≠ [] ∧ ct.length % 16 = 0

theorem decryptCbc_whole {enc : Block 32} (h : WholeBlocks iv ct) : decryptCbc P iv ct enc =
    match P.cbcDecrypt enc ⟨iv, h.1⟩ ct with
    | some pt => .ok pt
    | none => .error .badPadding := by
  obtain ⟨hiv, hct, hlen⟩ := h
  have hblock : toBlock 16 iv = some ⟨iv, hiv⟩ := toBlock_val ⟨iv, hiv⟩
  have hne : ct.isEmpty = false := by simpa using hct
  simp only [decryptCbc, hblock, hne, hlen]
  rfl

theorem decryptCbc_not_whole {enc : Block 32} (h : ¬ WholeBlocks iv ct) :
    decryptCbc P iv ct enc = .error .malformedEncString := by
  unfold decryptCbc
  by_cases hiv : iv.length = 16
  · have hblock : toBlock 16 iv = some ⟨iv, hiv⟩ := toBlock_val ⟨iv, hiv⟩
    rw [hblock]
    by_cases hct : ct = []
    · simp [hct]
    · have hlen : ct.length % 16 ≠ 0 := fun hlen => h ⟨hiv, hct, hlen⟩
      simp [hlen]
  · simp [toBlock, hiv]

/-- What a string opens to under a key, whatever the string. -/
structure FailsClosed (P : Primitives) (s : String) (key : SymmetricKey) : Prop where
  opens : ∀ p, openString P s key = .ok p ↔ ∃ iv ct tag, TaggedAs s iv ct tag ∧
    tag = tagFor P key iv ct ∧ ct ≠ [] ∧ ct.length % 16 = 0 ∧
    ∃ hiv : iv.length = 16, P.cbcDecrypt key.enc ⟨iv, hiv⟩ ct = some p
  wrongTag : ∀ iv ct tag, TaggedAs s iv ct tag → tag ≠ tagFor P key iv ct →
    openString P s key = .error .macMismatch
  badPadding : openString P s key = .error .badPadding → ∃ iv ct tag, TaggedAs s iv ct tag ∧
    tag = tagFor P key iv ct
  /-- Strings that open and agree on the tag hold the same, if no two messages share it. -/
  sameTag : ∀ s' p p' iv ct iv' ct' tag, openString P s key = .ok p → openString P s' key = .ok p' →
    TaggedAs s iv ct tag → TaggedAs s' iv' ct' tag →
    (P.hmacSha256 key.mac.1 (iv ++ ct) = P.hmacSha256 key.mac.1 (iv' ++ ct') →
      iv ++ ct = iv' ++ ct') →
    iv = iv' ∧ ct = ct'

theorem openString_ok_iff {p : Bytes} : openString P s key = .ok p ↔ ∃ iv ct tag, TaggedAs s iv ct tag ∧
    tag = tagFor P key iv ct ∧ ct ≠ [] ∧ ct.length % 16 = 0 ∧
    ∃ hiv : iv.length = 16, P.cbcDecrypt key.enc ⟨iv, hiv⟩ ct = some p := by
  refine ⟨?_, ?_⟩
  · intro h
    by_cases htagged : ∃ iv ct tag, TaggedAs s iv ct tag
    · obtain ⟨iv, ct, tag, ht⟩ := htagged
      rw [openString_tagged ht] at h
      split at h
      · cases h
      · next htag =>
        rw [not_not] at htag
        by_cases hw : WholeBlocks iv ct
        · rw [decryptCbc_whole hw] at h
          refine ⟨iv, ct, tag, ht, htag.symm, hw.2.1, hw.2.2, hw.1, ?_⟩
          cases hc : P.cbcDecrypt key.enc ⟨iv, hw.1⟩ ct with
          | none => rw [hc] at h; cases h
          | some pt => rw [hc] at h; cases h; rfl
        · rw [decryptCbc_not_whole hw] at h
          cases h
    · obtain ⟨e, he, -⟩ := openString_untagged (P := P) (fun iv ct tag ht => htagged ⟨iv, ct, tag, ht⟩)
      rw [he] at h
      cases h
  · intro h
    obtain ⟨iv, ct, tag, ht, htag, hct, hlen, hiv, hp⟩ := h
    rw [openString_tagged ht, if_neg (not_not.mpr htag.symm), decryptCbc_whole ⟨hiv, hct, hlen⟩, hp]

theorem openString_wrongTag (ht : TaggedAs s iv ct tag) (h : tag ≠ tagFor P key iv ct) :
    openString P s key = .error .macMismatch := by
  rw [openString_tagged ht, if_pos h.symm]

theorem openString_badPadding (h : openString P s key = .error .badPadding) :
    ∃ iv ct tag, TaggedAs s iv ct tag ∧ tag = tagFor P key iv ct := by
  by_cases htagged : ∃ iv ct tag, TaggedAs s iv ct tag
  · obtain ⟨iv, ct, tag, ht⟩ := htagged
    refine ⟨iv, ct, tag, ht, ?_⟩
    by_contra hne
    rw [openString_wrongTag ht hne] at h
    cases h
  · obtain ⟨e, he, hr⟩ := openString_untagged (P := P) (fun iv ct tag ht => htagged ⟨iv, ct, tag, ht⟩)
    rw [he] at h
    cases h
    rcases hr with hr | ⟨_, hr⟩ <;> cases hr

/-- The iv has one length, so that the tag of two parts joined is that of the parts. -/
theorem parts_of_tag {s' : String} {p p' iv' ct' : Bytes} (h : openString P s key = .ok p)
    (h' : openString P s' key = .ok p') (ht : TaggedAs s iv ct tag) (ht' : TaggedAs s' iv' ct' tag)
    (hfree : P.hmacSha256 key.mac.1 (iv ++ ct) = P.hmacSha256 key.mac.1 (iv' ++ ct') →
      iv ++ ct = iv' ++ ct') : iv = iv' ∧ ct = ct' := by
  obtain ⟨iv₁, ct₁, tag₁, ht₁, htag, -, -, hiv, -⟩ := openString_ok_iff.mp h
  obtain ⟨iv₂, ct₂, tag₂, ht₂, htag', -, -, hiv', -⟩ := openString_ok_iff.mp h'
  obtain ⟨rfl, rfl, rfl⟩ := ht.unique ht₁
  obtain ⟨rfl, rfl, rfl⟩ := ht'.unique ht₂
  have hmac : P.hmacSha256 key.mac.1 (iv ++ ct) = P.hmacSha256 key.mac.1 (iv' ++ ct') :=
    Subtype.ext (htag.symm.trans htag')
  exact List.append_inj (hfree hmac) (hiv.trans hiv'.symm)

theorem encString_failsClosed (P : Primitives) (s : String) (key : SymmetricKey) :
    FailsClosed P s key where
  opens _ := openString_ok_iff
  wrongTag _ _ _ := openString_wrongTag
  badPadding := openString_badPadding
  sameTag _ _ _ _ _ _ _ _ := parts_of_tag

end

end Cryptile
