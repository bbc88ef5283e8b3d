import Cryptile.Ops
import Cryptile.Vaultwarden.FieldBag

/-
  FieldPresence — what a field's presence says, and its absence

  A field that does not decrypt fails the whole cipher, it is not left out. A field
  whose string holds the empty text is not left out either: emptiness is tested on
  the string. Both promises hold exactly where there is nothing to leave out.
-/

namespace Cryptile
open Text Collect

/-! ## Fields that do not decrypt -/

section
variable (P : Primitives) (key : SymmetricKey)

/-- Mapping fails with the name only; the fields that open are there, the others are not. -/
def SkipsFields (cipher : Cipher) : Prop :=
  ((∃ e, mapCipher P key cipher = .error e) ↔ ∃ e, decryptStr P cipher.name key = .error e) ∧
  ∀ name, decryptStr P cipher.name key = .ok name →
    ∃ secret, mapCipher P key cipher = .ok secret ∧ secret.info.name = name ∧
      secret.fields = collect (okEntries (cipherEntries P key cipher))

/-- Fields are skipped as they should be exactly where there is nothing to skip, or no
name to map the cipher under. -/
theorem skipsFields_iff (cipher : Cipher) :
    SkipsFields P key cipher ↔ (∃ e, decryptStr P cipher.name key = .error e) ∨
      ∀ enc ∈ readStrings P key cipher, Opens P key enc := by
  unfold SkipsFields
  cases hname : decryptStr P cipher.name key with
  | error e =>
    have herr : mapCipher P key cipher = .error e := by
      rw [mapCipher, hname]
      rfl
    simp [herr]
  | ok name =>
    refine ⟨?_, ?_⟩
    · intro h
      obtain ⟨secret, hs, -⟩ := h.2 name rfl
      obtain ⟨_, -, hok, -⟩ := mapCipher_ok_iff.mp hs
      exact Or.inr (entries_ok_iff.mp hok)
    · intro h
      rcases h with ⟨e, he⟩ | hopens
      · cases he
      · have hs := mapCipher_ok_iff.mpr ⟨name, hname, entries_ok_iff.mpr hopens, rfl⟩
        rw [hs]
        simp

end

/-- A cipher whose password is no encrypted string. -/
def garbledCipher : Cipher :=
  { oneCipher with login := some ⟨some (plainString [0x61]), some "x", none, []⟩ }

/-- Its name and its username decrypt, and yet it does not map. -/
theorem garbled_field_fails_cipher :
    Opens plainPrimitives zeroKey garbledCipher.name ∧
    (∀ secret, mapCipher plainPrimitives zeroKey garbledCipher ≠ .ok secret) ∧
    ¬ SkipsFields plainPrimitives zeroKey garbledCipher := by
  have hname := opens_plainString [0x77, 0x65, 0x62] zeroKey
  have hread : "x" ∈ readStrings plainPrimitives zeroKey garbledCipher := by
    simp [readStrings, garbledCipher, cipherMembers, ofBlock, loginMembers]
  have hmap : ∀ secret, mapCipher plainPrimitives zeroKey garbledCipher ≠ .ok secret := by
    intro secret hs
    obtain ⟨_, -, hok, -⟩ := mapCipher_ok_iff.mp hs
    obtain ⟨text, htext⟩ := entries_ok_iff.mp hok "x" hread
    have hx : decryptStr plainPrimitives "x" zeroKey = .error .malformedEncString := by decide
    rw [hx] at htext
    cases htext
  refine ⟨hname, hmap, fun h => ?_⟩
  obtain ⟨name, hn⟩ := hname
  obtain ⟨secret, hs, -⟩ := h.2 name hn
  exact hmap secret hs

/-! ## Fields that hold nothing -/

/-- A field that is there has a value, and a reference that names one selects it. -/
structure PresentHasValue (secret : Secret) : Prop where
  bag : ∀ (name value : String), secret.fields[name]? = some value → value ≠ ""
  explicit : ∀ (r : Ref) value, r.fieldExplicit = true → getFinish r secret = .ok value → value ≠ ""

section
variable (P : Primitives) (key : SymmetricKey)

def sealedMember (p : String × Option String) : Option (String × String) :=
  match p.2 with
  | some enc => if enc.isEmpty then none else some (p.1, enc)
  | none => none

def sealedCustom (f : Field) : Option (String × String) :=
  match customName P key f, f.value with
  | some name, some enc => if name = "" then none else some (name, enc)
  | _, _ => none

/-- The encrypted value of every field, under the field's name, in the order they are
mapped: the members that are not empty, then the custom fields. -/
def sealedValues (cipher : Cipher) : List (String × String) :=
  (cipherMembers cipher).filterMap sealedMember ++ cipher.fields.filterMap (sealedCustom P key)

/-- Every value that holds the empty text is followed by another of its name. -/
def EmptyOverwritten (cipher : Cipher) : Prop :=
  ∀ before name enc after, sealedValues P key cipher = before ++ (name, enc) :: after →
    decryptStr P enc key = .ok "" → ∃ p ∈ after, p.1 = name

variable {P key} {cipher : Cipher}

/-- The value opened. -/
def opened (P : Primitives) (key : SymmetricKey) (p : String × String) : String × String :=
  (p.1, (textOf P key p.2).getD "")

theorem toOption_member {p : String × Option String} (h : ∃ o, memberEntry P key p = .ok o) :
    (memberEntry P key p).toOption.join = (sealedMember p).map (opened P key) := by
  obtain ⟨name, enc⟩ := p
  cases enc with
  | none => rfl
  | some enc =>
    obtain ⟨text, ht⟩ := memberEntry_ok_iff.mp h enc rfl
    have hopened : opened P key (name, enc) = (name, text) := by
      simp [opened, textOf, ht, Except.toOption]
    simp only [memberEntry, sealedMember, ht]
    split
    · rfl
    · rw [Option.map_some, hopened]
      rfl

theorem toOption_custom {f : Field} (h : ∃ o, customEntry P key f = .ok o) :
    (customEntry P key f).toOption.join = (sealedCustom P key f).map (opened P key) := by
  obtain ⟨o, ho⟩ := h
  rw [ho]
  rcases customEntry_cases ho with ⟨rfl, hnone | hempty⟩ | ⟨name, enc, value, hname, hf, henc, hv, rfl⟩
  · simp [sealedCustom, hnone, Except.toOption]
  · cases hvalue : f.value <;> simp [sealedCustom, hempty, hvalue, Except.toOption]
  · simp [sealedCustom, hf, henc, hname, opened, textOf, hv, Except.toOption]

theorem okEntries_sealed (h : ∀ e ∈ cipherEntries P key cipher, ∃ o, e = .ok o) :
    okEntries ((cipherMembers cipher).map (memberEntry P key)) ++
      okEntries (cipher.fields.map (customEntry P key)) =
    (sealedValues P key cipher).map (opened P key) := by
  rw [sealedValues, List.map_append, List.map_filterMap, List.map_filterMap, okEntries, okEntries,
    List.filterMap_map, List.filterMap_map]
  congr 1
  · apply List.filterMap_congr
    intro p hp
    exact toOption_member ((entries_ok_parts.mp h).1 p hp)
  · apply List.filterMap_congr
    intro f hf
    exact toOption_custom ((entries_ok_parts.mp h).2.2 f hf)

/-- All addresses together are never empty: there is a line end between them. -/
theorem uris_not_empty (uris : List (Option String)) (name : String) :
    (okEntries [urisEntry P key uris]).reverse.lookup name ≠ some "" := by
  rw [lookup_uris]
  split
  · split
    · next htwo =>
      match hs : sealedUris uris with
      | [] => rw [hs] at htwo; simp at htwo
      | [u] => rw [hs] at htwo; simp at htwo
      | u :: w :: rest =>
        rw [List.mapM_cons, List.mapM_cons]
        cases textOf P key u <;> cases textOf P key w <;> cases rest.mapM (textOf P key) <;>
          simp
    · simp
  · simp

/-- No member is called as they are. -/
theorem uris_or_member {l : LoginData} {name : String} :
    ((okEntries [urisEntry P key l.uris]).reverse.lookup name).or
      (memberText P key (loginMembers l) name) = some "" ↔
    memberText P key (loginMembers l) name = some "" := by
  have hempty : (okEntries [urisEntry P key l.uris]).reverse.lookup name ≠ some "" :=
    uris_not_empty l.uris name
  cases huris : (okEntries [urisEntry P key l.uris]).reverse.lookup name with
  | none => simp
  | some text =>
    have hname : name = "uris" := by
      by_contra hname
      rw [lookup_uris, if_neg hname] at huris
      cases huris
    have hnone : memberText P key (loginMembers l) name = none := by
      simp [memberText, loginMembers, List.lookup_cons, hname]
    rw [hnone, Option.or_none, ← huris]
    simp [hempty]

theorem or_congr_some {α : Type} {a b b' : Option α} {v : α} (h : b = some v ↔ b' = some v) :
    a.or b = some v ↔ a.or b' = some v := by
  cases a with
  | none => simpa using h
  | some x => simp

/-- The addresses taken together never hide an empty value, nor are they one. -/
theorem lookup_empty_iff {name : String} (h : ∀ e ∈ cipherEntries P key cipher, ∃ o, e = .ok o) :
    (okEntries (cipherEntries P key cipher)).reverse.lookup name = some "" ↔
    ((sealedValues P key cipher).map (opened P key)).reverse.lookup name = some "" := by
  rw [← okEntries_sealed h, List.reverse_append, List.lookup_append, cipherEntries_eq,
    lookup_okEntries_append, lookup_okEntries_append, cipherMembers, List.map_append,
    lookup_okEntries_append, Option.or_assoc]
  apply or_congr_some
  apply or_congr_some
  cases cipher.login with
  | none => rfl
  | some l =>
    change (okEntries ((loginMembers l).map (memberEntry P key) ++
        [urisEntry P key l.uris])).reverse.lookup name = some "" ↔
      (okEntries ((loginMembers l).map (memberEntry P key))).reverse.lookup name = some ""
    rw [lookup_okEntries_append, lookup_members (loginMembers_nodup l)]
    exact uris_or_member

theorem lookup_opened_iff {name : String} :
    ((sealedValues P key cipher).map (opened P key)).reverse.lookup name = some "" ↔
    ∃ before enc after, sealedValues P key cipher = before ++ (name, enc) :: after ∧
      (textOf P key enc).getD "" = "" ∧ ∀ p ∈ after, p.1 ≠ name := by
  rw [lookup_reverse_eq_some]
  refine ⟨?_, ?_⟩
  · intro h
    obtain ⟨b, a, he, ha⟩ := h
    obtain ⟨before, rest, hs, rfl, hrest⟩ := List.map_eq_append_iff.mp he
    obtain ⟨⟨name', enc⟩, after, rfl, hp, rfl⟩ := List.map_eq_cons_iff.mp hrest
    obtain ⟨rfl, htext⟩ := Prod.mk.inj hp
    exact ⟨before, enc, after, hs, htext, fun p hp => ha (opened P key p) (List.mem_map_of_mem hp)⟩
  · intro h
    obtain ⟨before, enc, after, hs, htext, ha⟩ := h
    refine ⟨before.map (opened P key), after.map (opened P key), ?_, fun p hp => ?_⟩
    · rw [hs, List.map_append, List.map_cons, opened, htext]
    · obtain ⟨q, hq, rfl⟩ := List.mem_map.mp hp
      exact ha q hq

theorem sealed_opens {p : String × String} (h : ∀ e ∈ cipherEntries P key cipher, ∃ o, e = .ok o)
    (hp : p ∈ sealedValues P key cipher) : Opens P key p.2 := by
  rcases List.mem_append.mp hp with hp | hp
  · obtain ⟨⟨name, enc⟩, hm, hs⟩ := List.mem_filterMap.mp hp
    have hok := (entries_ok_parts.mp h).1 _ hm
    cases enc with
    | none => cases hs
    | some enc =>
      simp only [sealedMember] at hs
      split at hs
      · cases hs
      · cases hs
        exact memberEntry_ok_iff.mp hok enc rfl
  · obtain ⟨f, hf, hs⟩ := List.mem_filterMap.mp hp
    obtain ⟨o, ho⟩ := (entries_ok_parts.mp h).2.2 f hf
    rcases customEntry_cases ho with ⟨-, hnone | hempty⟩ | ⟨name, enc, value, hname, hcustom, henc, hv, -⟩
    · simp [sealedCustom, hnone] at hs
    · cases hvalue : f.value <;> simp [sealedCustom, hempty, hvalue] at hs
    · have hp : (name, enc) = p := by simpa [sealedCustom, hcustom, henc, hname] using hs
      rw [← hp]
      exact ⟨value, hv⟩

theorem textOf_of_opens {enc : String} (h : Opens P key enc) :
    (textOf P key enc).getD "" = "" ↔ decryptStr P enc key = .ok "" := by
  obtain ⟨text, ht⟩ := h
  simp [textOf, ht, Except.toOption]

/-- Every field that is there has a value exactly where every string that holds the empty
text is followed by another of its field. -/
theorem presentHasValue_iff {secret : Secret} (h : mapCipher P key cipher = .ok secret) :
    PresentHasValue secret ↔ EmptyOverwritten P key cipher := by
  obtain ⟨_, -, hok, rfl⟩ := mapCipher_ok_iff.mp h
  have hbag : ∀ name, (collect (okEntries (cipherEntries P key cipher)) : FieldBag)[name]? = some "" ↔
      ∃ before enc after, sealedValues P key cipher = before ++ (name, enc) :: after ∧
        (textOf P key enc).getD "" = "" ∧ ∀ p ∈ after, p.1 ≠ name := by
    intro name
    rw [← lookup_opened_iff, ← lookup_empty_iff hok, collect, getElem?_collectInto]
    simp
  refine ⟨?_, ?_⟩
  · intro hp before name enc after hs hempty
    by_contra hno
    have hlast : ∀ p ∈ after, p.1 ≠ name := fun p hpa he => hno ⟨p, hpa, he⟩
    have htext : (textOf P key enc).getD "" = "" := by simp [textOf, hempty, Except.toOption]
    exact hp.bag name "" ((hbag name).mpr ⟨before, enc, after, hs, htext, hlast⟩) rfl
  · intro hover
    have hfield : ∀ (name value : String),
        (collect (okEntries (cipherEntries P key cipher)) : FieldBag)[name]? = some value → value ≠ "" := by
      intro name value hv he
      rw [he] at hv
      obtain ⟨before, enc, after, hs, htext, hlast⟩ := (hbag name).mp hv
      have hopens : Opens P key enc :=
        sealed_opens (p := (name, enc)) hok (by rw [hs]; simp)
      obtain ⟨p, hp, hname⟩ := hover before name enc after hs ((textOf_of_opens hopens).mp htext)
      exact hlast p hp hname
    refine ⟨hfield, fun r value hexplicit hget => ?_⟩
    -- a reference that names its field selects what the bag has under it
    unfold getFinish selectField at hget
    rw [if_pos hexplicit] at hget
    split at hget
    · next hsome =>
      cases hget
      exact hfield r.field _ hsome
    · cases hget

end

/-- A cipher whose password is an encrypted string of nothing. -/
def emptyCipher : Cipher :=
  { oneCipher with login := some ⟨none, some (plainString []), none, []⟩ }

theorem emptyCipher_maps : ∃ secret, mapCipher plainPrimitives zeroKey emptyCipher = .ok secret :=
  mapCipher_password (decryptStr_plainString _ _) rfl (plainString_nonempty _)
    (decryptStr_plainString _ _) rfl rfl rfl rfl rfl

theorem presentHasValue_emptyCipher : ∃ secret,
    mapCipher plainPrimitives zeroKey emptyCipher = .ok secret ∧
    (PresentHasValue secret ↔ EmptyOverwritten plainPrimitives zeroKey emptyCipher) := by
  obtain ⟨secret, hs⟩ := emptyCipher_maps
  exact ⟨secret, hs, presentHasValue_iff hs⟩

/-- The password is there, it is empty, and a reference that names it selects it. -/
theorem empty_field_present : ∃ secret,
    mapCipher plainPrimitives zeroKey emptyCipher = .ok secret ∧
    secret.fields["password"]? = some "" ∧
    getFinish ⟨"vw", "infra/web", "password", true⟩ secret = .ok "" ∧ ¬ PresentHasValue secret := by
  obtain ⟨secret, hs⟩ := emptyCipher_maps
  have hfield : secret.fields["password"]? = some "" := by
    rw [mapCipher_field hs (by decide)]
    have hempty : fromUtf8Lossy [] = "" := by decide
    simp [referenceField, emptyCipher, oneCipher, customText, memberText, sealedText, loginText,
      loginMembers, List.lookup_cons, textOf, decryptStr_plainString, hempty]
    exact ⟨by simpa using plainString_nonempty [], rfl⟩
  have hget : getFinish ⟨"vw", "infra/web", "password", true⟩ secret = .ok "" := by
    simp [getFinish, selectField, Secret.field, hfield]
  exact ⟨secret, hs, hfield, hget, fun h => h.bag _ _ hfield rfl⟩

end Cryptile
