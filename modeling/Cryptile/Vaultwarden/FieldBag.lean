import Cryptile.Lib.Collect
import Cryptile.Vaultwarden.Payload

/-
  FieldBag — what a mapped cipher holds, name by name

  Mapping a cipher is one list of results, collected in order: each member opens to
  a value under its name, adds nothing, or fails the cipher. So a field has the
  value of the last entry of its name, and `referenceField` finds it from the other
  end: the custom fields first, then the blocks against the order they are mapped in.
-/

namespace Cryptile
open Text Collect

section
variable (P : Primitives) (key : SymmetricKey)

/-! ## The entries of a cipher -/

/-- What a member does to the bag: it fails, adds nothing, or puts a value under a name. -/
abbrev BagEntry := Except CryptoError (Option (String × String))

def memberEntry (p : String × Option String) : BagEntry :=
  match p.2 with
  | some enc =>
    if enc.isEmpty then .ok none else (decryptStr P enc key).map (fun v => some (p.1, v))
  | none => .ok none

/-- The addresses that are not empty. -/
def sealedUris (uris : List (Option String)) : List String :=
  (uris.filterMap id).filter (fun u => !u.isEmpty)

/-- All addresses, where there are at least two. -/
def urisEntry (uris : List (Option String)) : BagEntry :=
  if 2 ≤ (sealedUris uris).length then
    ((sealedUris uris).mapM (fun u => decryptStr P u key)).map
      (fun texts => some ("uris", "\n".intercalate texts))
  else .ok none

def customEntry (f : Field) : BagEntry :=
  match f.name, f.value with
  | some n, some v =>
    if n.isEmpty || v.isEmpty then .ok none
    else do
      let fname ← decryptStr P n key
      if fname.isEmpty then return none
      return some (fname, ← decryptStr P v key)
  | _, _ => .ok none

end

/-- The members of each block, under their documented names. -/
def loginMembers (login : LoginData) : List (String × Option String) :=
  [("username", login.username), ("password", login.password), ("totp", login.totp),
    ("uri", (sealedUris login.uris).head?)]

def cardMembers (card : CardData) : List (String × Option String) :=
  [("cardholder_name", card.cardholderName), ("brand", card.brand), ("number", card.number),
    ("exp_month", card.expMonth), ("exp_year", card.expYear), ("code", card.code)]

def identityMembers (i : IdentityData) : List (String × Option String) :=
  [("title", i.title), ("first_name", i.firstName), ("middle_name", i.middleName),
    ("last_name", i.lastName), ("address1", i.address1), ("address2", i.address2),
    ("address3", i.address3), ("city", i.city), ("state", i.state),
    ("postal_code", i.postalCode), ("country", i.country), ("company", i.company),
    ("email", i.email), ("phone", i.phone), ("ssn", i.ssn), ("username", i.username),
    ("passport_number", i.passportNumber), ("license_number", i.licenseNumber)]

def sshKeyMembers (ssh : SshKeyData) : List (String × Option String) :=
  [("private_key", ssh.privateKey), ("public_key", ssh.publicKey),
    ("key_fingerprint", ssh.keyFingerprint)]

/-- A block that is absent has nothing. -/
def ofBlock {α β : Type} (block : Option β) (f : β → List α) : List α := block.elim [] f

/-- The members that are mapped after the login. -/
def laterMembers (cipher : Cipher) : List (String × Option String) :=
  ofBlock cipher.card cardMembers ++ (ofBlock cipher.identity identityMembers ++
    (ofBlock cipher.sshKey sshKeyMembers ++ [("notes", cipher.notes)]))

/-- The members of all blocks, in the order they are mapped. -/
def cipherMembers (cipher : Cipher) : List (String × Option String) :=
  ofBlock cipher.login loginMembers ++ laterMembers cipher

section
variable (P : Primitives) (key : SymmetricKey)

def cipherEntries (cipher : Cipher) : List BagEntry :=
  ofBlock cipher.login (fun l =>
    (loginMembers l).map (memberEntry P key) ++ [urisEntry P key l.uris]) ++
  ((ofBlock cipher.card cardMembers).map (memberEntry P key) ++
  ((ofBlock cipher.identity identityMembers).map (memberEntry P key) ++
  ((ofBlock cipher.sshKey sshKeyMembers).map (memberEntry P key) ++
  (memberEntry P key ("notes", cipher.notes) ::
  cipher.fields.map (customEntry P key)))))

variable {P key} {fields : FieldBag}

theorem insertIf_eq (p : String × Option String) :
    insertIf P key fields p = insertResult fields (memberEntry P key p) := by
  obtain ⟨name, enc⟩ := p
  cases enc with
  | none => rfl
  | some enc =>
    by_cases hempty : enc.isEmpty = true
    · simp [insertIf, memberEntry, hempty, insertResult, Except.map]
    · simp only [insertIf, memberEntry, hempty, insertResult]
      cases decryptStr P enc key <;> rfl

theorem foldlM_eq_collectResults {β : Type} {step : FieldBag → β → Except CryptoError FieldBag}
    {entry : β → BagEntry} (h : ∀ fields b, step fields b = insertResult fields (entry b))
    (items : List β) : items.foldlM step fields = collectResults fields (items.map entry) := by
  rw [collectResults, List.foldlM_map]
  congr 1
  funext fields b
  exact h fields b

theorem insertEach_eq (members : List (String × Option String)) :
    insertEach P key members fields = collectResults fields (members.map (memberEntry P key)) :=
  foldlM_eq_collectResults (fun _ => insertIf_eq) members

theorem mapField_eq (f : Field) :
    mapField P key fields f = insertResult fields (customEntry P key f) := by
  obtain ⟨name, value⟩ := f
  cases name with
  | none => rfl
  | some n =>
    cases value with
    | none => rfl
    | some v =>
      simp only [mapField, customEntry]
      split
      · rfl
      · cases decryptStr P n key with
        | error e => rfl
        | ok fname =>
          change (if fname.isEmpty then Except.ok fields else _) =
            insertResult fields (if fname.isEmpty then Except.ok none else _)
          split
          · rfl
          · cases decryptStr P v key <;> rfl

theorem memberEntry_some {name enc : String} (h : enc.isEmpty = false) :
    memberEntry P key (name, some enc) = (decryptStr P enc key).map (fun v => some (name, v)) := by
  simp [memberEntry, h]

theorem not_isEmpty_of_sealed {uris : List (Option String)} {u : String} (h : u ∈ sealedUris uris) :
    u.isEmpty = false := by
  simpa [sealedUris] using (List.mem_filter.mp h).2

theorem mapUris_eq (uris : List (Option String)) : mapUris P key uris fields =
    collectResults fields
      [memberEntry P key ("uri", (sealedUris uris).head?), urisEntry P key uris] := by
  have hsealed := @not_isEmpty_of_sealed uris
  have hfiltered : (uris.filterMap id).filter (fun u => !u.isEmpty) = sealedUris uris := rfl
  unfold mapUris urisEntry
  rw [hfiltered]
  generalize sealedUris uris = us at hsealed
  match us with
  | [] => rfl
  | [first] =>
    rw [List.head?_cons, memberEntry_some (hsealed (List.mem_singleton.mpr rfl))]
    dsimp only
    cases decryptStr P first key <;> rfl
  | first :: second :: rest =>
    have htwo : 2 ≤ (first :: second :: rest).length := by simp
    rw [List.head?_cons, memberEntry_some (hsealed (List.mem_cons_self ..)), if_pos htwo]
    dsimp only
    cases decryptStr P first key with
    | error e => rfl
    | ok value =>
      change (do
        let joined ← (first :: second :: rest).mapM (fun u => decryptStr P u key)
        return (fields.insert "uri" value).insert "uris" ("\n".intercalate joined)) = _
      cases (first :: second :: rest).mapM (fun u => decryptStr P u key) <;> rfl

theorem mapLogin_eq (login : LoginData) : mapLogin P key login fields = collectResults fields
    ((loginMembers login).map (memberEntry P key) ++ [urisEntry P key login.uris]) := by
  have hsplit : (loginMembers login).map (memberEntry P key) ++ [urisEntry P key login.uris] =
      [("username", login.username), ("password", login.password), ("totp", login.totp)].map
        (memberEntry P key) ++
      [memberEntry P key ("uri", (sealedUris login.uris).head?), urisEntry P key login.uris] := rfl
  rw [hsplit, collectResults_append]
  unfold mapLogin
  rw [insertEach_eq]
  simp only [mapUris_eq]

theorem mapBlock_members {β : Type} {f : β → FieldBag → Except CryptoError FieldBag}
    {members : β → List (String × Option String)}
    (h : ∀ b fields, f b fields = insertEach P key (members b) fields) (block : Option β) :
    mapBlock f block fields =
      collectResults fields ((ofBlock block members).map (memberEntry P key)) := by
  cases block with
  | none => rfl
  | some b => exact (h b fields).trans (insertEach_eq _)

theorem mapCard_eq (card : CardData) (fields : FieldBag) :
    mapCard P key card fields = insertEach P key (cardMembers card) fields := rfl

theorem mapIdentity_eq (i : IdentityData) (fields : FieldBag) :
    mapIdentity P key i fields = insertEach P key (identityMembers i) fields := rfl

theorem mapSshKey_eq (ssh : SshKeyData) (fields : FieldBag) :
    mapSshKey P key ssh fields = insertEach P key (sshKeyMembers ssh) fields := rfl

/-- Mapping the members of a cipher collects its entries. -/
theorem mapFields_eq (cipher : Cipher) :
    mapFields P key cipher = collectResults ∅ (cipherEntries P key cipher) := by
  have hlogin : mapBlock (mapLogin P key) cipher.login ∅ = collectResults ∅
      (ofBlock cipher.login (fun l =>
        (loginMembers l).map (memberEntry P key) ++ [urisEntry P key l.uris])) := by
    cases cipher.login with
    | none => rfl
    | some l => exact mapLogin_eq l
  unfold mapFields cipherEntries
  rw [hlogin, collectResults_append]
  congr 1
  funext fields
  rw [mapBlock_members mapCard_eq, collectResults_append]
  congr 1
  funext fields
  rw [mapBlock_members mapIdentity_eq, collectResults_append]
  congr 1
  funext fields
  rw [mapBlock_members mapSshKey_eq, collectResults_append]
  congr 1
  funext fields
  rw [insertIf_eq, collectResults, List.foldlM_cons]
  congr 1
  funext fields
  exact foldlM_eq_collectResults (fun _ => mapField_eq) _

theorem cipherEntries_eq (cipher : Cipher) : cipherEntries P key cipher =
    ofBlock cipher.login (fun l =>
      (loginMembers l).map (memberEntry P key) ++ [urisEntry P key l.uris]) ++
    ((laterMembers cipher).map (memberEntry P key) ++ cipher.fields.map (customEntry P key)) := by
  simp [cipherEntries, laterMembers]

theorem mem_cipherEntries {cipher : Cipher} {e : BagEntry} : e ∈ cipherEntries P key cipher ↔
    (∃ p ∈ cipherMembers cipher, memberEntry P key p = e) ∨
    (∃ l, cipher.login = some l ∧ urisEntry P key l.uris = e) ∨
    ∃ f ∈ cipher.fields, customEntry P key f = e := by
  rw [cipherEntries_eq, cipherMembers]
  cases cipher.login with
  | none =>
    simp only [ofBlock, Option.elim_none, List.nil_append, List.mem_append, List.mem_map]
    simp
  | some l =>
    simp only [ofBlock, Option.elim_some, List.mem_append, List.mem_map, List.mem_singleton,
      Option.some.injEq, or_and_right, exists_or, exists_eq_left', or_assoc]
    rw [eq_comm (a := e), or_left_comm (a := urisEntry P key l.uris = e)]

/-- A cipher maps where its name and all its entries open. -/
theorem mapCipher_ok_iff {cipher : Cipher} {secret : Secret} : mapCipher P key cipher = .ok secret ↔
    ∃ name, decryptStr P cipher.name key = .ok name ∧
      (∀ e ∈ cipherEntries P key cipher, ∃ o, e = .ok o) ∧
      secret = { info := { id := cipher.id, name := name,
                           namespaceId := cipher.organizationId.getD "",
                           fields := (collect (okEntries (cipherEntries P key cipher)) : FieldBag).keys },
                 fields := collect (okEntries (cipherEntries P key cipher)) } := by
  refine ⟨?_, ?_⟩
  · intro h
    obtain ⟨name, hname, h⟩ := except_bind_ok h
    obtain ⟨fields, hfields, h⟩ := except_bind_ok h
    rw [mapFields_eq, collectResults_ok_iff] at hfields
    obtain ⟨hok, rfl⟩ := hfields
    cases h
    exact ⟨name, hname, hok, rfl⟩
  · intro h
    obtain ⟨name, hname, hok, rfl⟩ := h
    have hfields : mapFields P key cipher = .ok (collect (okEntries (cipherEntries P key cipher))) := by
      rw [mapFields_eq, collectResults_ok_iff]
      exact ⟨hok, rfl⟩
    simp only [mapCipher, hname, hfields]
    rfl

end

/-! ## Which strings are read -/

section
variable (P : Primitives) (key : SymmetricKey)

/-- The name of a custom field, and its value unless the name is empty. -/
def customStrings (f : Field) : List String :=
  match f.name, f.value with
  | some n, some v =>
    if n.isEmpty || v.isEmpty then []
    else if decryptStr P n key = .ok "" then [n] else [n, v]
  | _, _ => []

/-- Every encrypted string a field is made of. -/
def readStrings (cipher : Cipher) : List String :=
  (cipherMembers cipher).filterMap Prod.snd ++ ofBlock cipher.login (fun l => sealedUris l.uris) ++
    cipher.fields.flatMap (customStrings P key)

/-- The string decrypts. -/
def Opens (enc : String) : Prop := ∃ text, decryptStr P enc key = .ok text

variable {P key}

theorem opens_empty : Opens P key "" := ⟨"", rfl⟩

theorem memberEntry_ok_iff {p : String × Option String} :
    (∃ o, memberEntry P key p = .ok o) ↔ ∀ enc, p.2 = some enc → Opens P key enc := by
  obtain ⟨name, enc⟩ := p
  cases enc with
  | none => simp [memberEntry]
  | some enc =>
    by_cases hempty : enc.isEmpty = true
    · have he : enc = "" := by simpa using hempty
      simp [memberEntry, he, opens_empty]
    · rw [memberEntry_some (by simpa using hempty)]
      unfold Opens
      cases hd : decryptStr P enc key <;> simp [Except.map, hd]

theorem customEntry_ok_iff {f : Field} : (∃ o, customEntry P key f = .ok o) ↔
    ∀ enc ∈ customStrings P key f, Opens P key enc := by
  obtain ⟨name, value⟩ := f
  cases name with
  | none => simp [customEntry, customStrings]
  | some n =>
    cases value with
    | none => simp [customEntry, customStrings]
    | some v =>
      simp only [customEntry, customStrings]
      split
      · simp
      · cases hn : decryptStr P n key with
        | error e => simp [Opens, hn, bind, Except.bind]
        | ok fname =>
          by_cases hname : fname = ""
          · simp [hname, Opens, hn, bind, Except.bind, pure, Except.pure]
          · cases hv : decryptStr P v key <;>
              simp [hname, Opens, hn, hv, bind, Except.bind, pure, Except.pure]

theorem urisEntry_ok_iff {uris : List (Option String)} : (∃ o, urisEntry P key uris = .ok o) ↔
    (2 ≤ (sealedUris uris).length → ∀ u ∈ sealedUris uris, Opens P key u) := by
  unfold urisEntry
  by_cases htwo : 2 ≤ (sealedUris uris).length
  · have hmap := mapM_ok_iff (f := fun u => decryptStr P u key) (l := sealedUris uris)
    simp only [htwo, if_true, forall_const]
    refine Iff.trans ?_ hmap
    cases (sealedUris uris).mapM (fun u => decryptStr P u key) <;> simp [Except.map]
  · simp [htwo]

theorem entries_ok_parts {cipher : Cipher} : (∀ e ∈ cipherEntries P key cipher, ∃ o, e = .ok o) ↔
    (∀ p ∈ cipherMembers cipher, ∃ o, memberEntry P key p = .ok o) ∧
    (∀ l, cipher.login = some l → ∃ o, urisEntry P key l.uris = .ok o) ∧
    ∀ f ∈ cipher.fields, ∃ o, customEntry P key f = .ok o := by
  simp only [mem_cipherEntries]
  refine ⟨?_, ?_⟩
  · intro h
    exact ⟨fun p hp => h _ (Or.inl ⟨p, hp, rfl⟩),
      fun l hl => h _ (Or.inr (Or.inl ⟨l, hl, rfl⟩)),
      fun f hf => h _ (Or.inr (Or.inr ⟨f, hf, rfl⟩))⟩
  · intro h e he
    obtain ⟨p, hp, rfl⟩ | ⟨l, hl, rfl⟩ | ⟨f, hf, rfl⟩ := he
    · exact h.1 p hp
    · exact h.2.1 l hl
    · exact h.2.2 f hf

theorem members_ok_iff {members : List (String × Option String)} :
    (∀ p ∈ members, ∃ o, memberEntry P key p = .ok o) ↔
      ∀ enc ∈ members.filterMap Prod.snd, Opens P key enc := by
  rw [List.forall_mem_filterMap]
  exact forall₂_congr (fun _ _ => memberEntry_ok_iff)

theorem customs_ok_iff {fields : List Field} : (∀ f ∈ fields, ∃ o, customEntry P key f = .ok o) ↔
    ∀ enc ∈ fields.flatMap (customStrings P key), Opens P key enc := by
  rw [List.forall_mem_flatMap]
  exact forall₂_congr (fun _ _ => customEntry_ok_iff)

/-- A single address is the member `uri`. -/
theorem single_uri_is_member {l : LoginData} {u : String} (hu : u ∈ sealedUris l.uris)
    (hone : ¬ 2 ≤ (sealedUris l.uris).length) :
    u ∈ (loginMembers l).filterMap Prod.snd := by
  rw [List.mem_filterMap]
  refine ⟨("uri", (sealedUris l.uris).head?), by simp [loginMembers], ?_⟩
  match hs : sealedUris l.uris with
  | [] => rw [hs] at hu; cases hu
  | [v] => rw [hs, List.mem_singleton] at hu; rw [hu]; rfl
  | v :: w :: rest => rw [hs] at hone; simp at hone

/-- Where the members of a login open, its addresses do if each of them does. -/
theorem uris_ok_iff {l : LoginData}
    (hmembers : ∀ enc ∈ (loginMembers l).filterMap Prod.snd, Opens P key enc) :
    (∃ o, urisEntry P key l.uris = .ok o) ↔ ∀ u ∈ sealedUris l.uris, Opens P key u := by
  rw [urisEntry_ok_iff]
  refine ⟨?_, ?_⟩
  · intro h u hu
    by_cases htwo : 2 ≤ (sealedUris l.uris).length
    · exact h htwo u hu
    · exact hmembers u (single_uri_is_member hu htwo)
  · intro h _
    exact h

/-- Every entry opens exactly when every string that is read does. -/
theorem entries_ok_iff {cipher : Cipher} : (∀ e ∈ cipherEntries P key cipher, ∃ o, e = .ok o) ↔
    ∀ enc ∈ readStrings P key cipher, Opens P key enc := by
  unfold readStrings
  rw [entries_ok_parts, members_ok_iff, customs_ok_iff, List.forall_mem_append,
    List.forall_mem_append, and_assoc]
  apply and_congr_right
  intro hmembers
  apply and_congr_left
  intro _
  cases hl : cipher.login with
  | none => simp [ofBlock]
  | some l =>
    have hlogin : ∀ enc ∈ (loginMembers l).filterMap Prod.snd, Opens P key enc := by
      rw [cipherMembers, hl, List.filterMap_append, List.forall_mem_append] at hmembers
      exact hmembers.1
    simpa [ofBlock] using uris_ok_iff hlogin

end

/-! ## A field, from the other end -/

section
variable (P : Primitives) (key : SymmetricKey)

def textOf (enc : String) : Option String := (decryptStr P enc key).toOption

/-- The text of a member that is not empty. -/
def sealedText : Option String → Option String
  | some enc => if enc.isEmpty then none else textOf P key enc
  | none => none

/-- A member by its documented name. -/
def memberText (members : List (String × Option String)) (name : String) : Option String :=
  (members.lookup name).bind (sealedText P key)

/-- `uri` is the first address, `uris` all of them where there are at least two. -/
def loginText (login : LoginData) (name : String) : Option String :=
  if name = "uris" then
    if 2 ≤ (sealedUris login.uris).length then
      ((sealedUris login.uris).mapM (textOf P key)).map ("\n".intercalate ·)
    else none
  else memberText P key (loginMembers login) name

/-- The decrypted name of a custom field that has both a name and a value. -/
def customName (f : Field) : Option String :=
  match f.name, f.value with
  | some n, some v => if n.isEmpty || v.isEmpty then none else textOf P key n
  | _, _ => none

/-- The text of the last custom field of the name. -/
def customText (fields : List Field) (name : String) : Option String :=
  (fields.reverse.find? (fun f => customName P key f == some name)).bind
    (fun f => f.value.bind (textOf P key))

/-- What a field of a cipher holds: a custom field, or the notes, or a member of the
block that was mapped last. -/
def referenceField (cipher : Cipher) (name : String) : Option String :=
  (customText P key cipher.fields name).or <|
  (memberText P key [("notes", cipher.notes)] name).or <|
  (cipher.sshKey.bind (fun ssh => memberText P key (sshKeyMembers ssh) name)).or <|
  (cipher.identity.bind (fun i => memberText P key (identityMembers i) name)).or <|
  (cipher.card.bind (fun card => memberText P key (cardMembers card) name)).or <|
  cipher.login.bind (fun login => loginText P key login name)

variable {P key}

theorem toOption_memberEntry (p : String × Option String) :
    (memberEntry P key p).toOption.join = (sealedText P key p.2).map (Prod.mk p.1) := by
  obtain ⟨name, enc⟩ := p
  cases enc with
  | none => rfl
  | some enc =>
    simp only [memberEntry, sealedText, textOf]
    split
    · rfl
    · cases decryptStr P enc key <;> rfl

theorem lookup_members {members : List (String × Option String)} {name : String}
    (h : (members.map Prod.fst).Nodup) :
    (okEntries (members.map (memberEntry P key))).reverse.lookup name = memberText P key members name := by
  simp only [okEntries, List.filterMap_map, Function.comp_def, toOption_memberEntry]
  exact lookup_reverse_filterMap h

theorem lookup_block {β : Type} {members : β → List (String × Option String)} {name : String}
    (h : ∀ b, ((members b).map Prod.fst).Nodup) (block : Option β) :
    (okEntries ((ofBlock block members).map (memberEntry P key))).reverse.lookup name =
      block.bind (fun b => memberText P key (members b) name) := by
  cases block with
  | none => rfl
  | some b => exact lookup_members (h b)

theorem mapM_toOption {ε α β : Type} {f : α → Except ε β} (l : List α) :
    (l.mapM f).toOption = l.mapM (fun a => (f a).toOption) := by
  induction l with
  | nil => rfl
  | cons a l ih =>
    rw [List.mapM_cons, List.mapM_cons, ← ih]
    cases f a with
    | error e => rfl
    | ok b => cases l.mapM f <;> rfl

theorem lookup_uris {uris : List (Option String)} {name : String} :
    (okEntries [urisEntry P key uris]).reverse.lookup name =
      if name = "uris" then
        if 2 ≤ (sealedUris uris).length then
          ((sealedUris uris).mapM (textOf P key)).map ("\n".intercalate ·)
        else none
      else none := by
  have hmap := mapM_toOption (f := fun u => decryptStr P u key) (sealedUris uris)
  change _ = (sealedUris uris).mapM (textOf P key) at hmap
  rw [← hmap]
  unfold urisEntry
  by_cases htwo : 2 ≤ (sealedUris uris).length
  · rw [if_pos htwo, if_pos htwo]
    cases (sealedUris uris).mapM (fun u => decryptStr P u key) with
    | error e => simp [okEntries, Except.map, Except.toOption]
    | ok texts =>
      by_cases hname : name = "uris"
      · simp [okEntries, Except.map, Except.toOption, hname]
      · simp [okEntries, Except.map, Except.toOption, hname, beq_false_of_ne hname]
  · simp [htwo]

/-- A custom field adds nothing, for want of a name, or it adds its value under its name. -/
theorem customEntry_cases {f : Field} {o : Option (String × String)}
    (h : customEntry P key f = .ok o) :
    (o = none ∧ (customName P key f = none ∨ customName P key f = some "")) ∨
    ∃ name enc value, name ≠ "" ∧ customName P key f = some name ∧ f.value = some enc ∧
      decryptStr P enc key = .ok value ∧ o = some (name, value) := by
  obtain ⟨n, v⟩ := f
  cases n with
  | none =>
    cases h
    exact Or.inl ⟨rfl, Or.inl rfl⟩
  | some n =>
    cases v with
    | none =>
      cases h
      exact Or.inl ⟨rfl, Or.inl rfl⟩
    | some v =>
      simp only [customEntry] at h
      split at h
      · next hempty =>
        cases h
        exact Or.inl ⟨rfl, Or.inl (by simp only [customName, hempty]; rfl)⟩
      · next hempty =>
        obtain ⟨fname, hn, h⟩ := except_bind_ok h
        have hcustom : customName P key ⟨some n, some v⟩ = some fname := by
          simp only [customName, hempty, textOf, hn]
          rfl
        split at h
        · next hname =>
          cases h
          have he : fname = "" := by simpa using hname
          exact Or.inl ⟨rfl, Or.inr (he ▸ hcustom)⟩
        · next hname =>
          obtain ⟨value, hv, h⟩ := except_bind_ok h
          cases h
          exact Or.inr ⟨fname, v, value, by simpa using hname, hcustom, rfl, hv, rfl⟩

/-- What one custom field that opens adds, and that its value is there. -/
theorem lookup_custom {f : Field} {name : String} (hname : name ≠ "")
    (h : ∃ o, customEntry P key f = .ok o) :
    (okEntries [customEntry P key f]).reverse.lookup name =
      (if customName P key f == some name then f.value.bind (textOf P key) else none) ∧
    (customName P key f = some name → (f.value.bind (textOf P key)).isSome) := by
  obtain ⟨o, ho⟩ := h
  rw [ho]
  rcases customEntry_cases ho with ⟨rfl, hnone | hempty⟩ | ⟨fname, enc, value, -, hf, henc, hv, rfl⟩
  · simp [hnone]
  · simp [hempty, Ne.symm hname]
  · have hvalue : textOf P key enc = some value := by simp [textOf, hv, Except.toOption]
    by_cases he : name = fname
    · simp [hf, henc, hvalue, he]
    · simp [hf, henc, hvalue, beq_false_of_ne he, Ne.symm he]

theorem lookup_customs {fields : List Field} {name : String} (hname : name ≠ "")
    (h : ∀ f ∈ fields, ∃ o, customEntry P key f = .ok o) :
    (okEntries (fields.map (customEntry P key))).reverse.lookup name =
      customText P key fields name := by
  induction fields with
  | nil => rfl
  | cons f fields ih =>
    have hrest : ∀ g ∈ fields, ∃ o, customEntry P key g = .ok o :=
      fun g hg => h g (List.mem_cons_of_mem f hg)
    obtain ⟨hhead, -⟩ := lookup_custom hname (h f (List.mem_cons_self ..))
    have hcons : okEntries ((f :: fields).map (customEntry P key)) =
        okEntries [customEntry P key f] ++ okEntries (fields.map (customEntry P key)) := by
      rw [← okEntries_append, List.map_cons, List.singleton_append]
    rw [hcons, List.reverse_append, List.lookup_append, ih hrest, hhead]
    unfold customText
    rw [List.reverse_cons, List.find?_append]
    cases hfind : fields.reverse.find? (fun f => customName P key f == some name) with
    | some g =>
      -- a later field of the name has a value, so the earlier one is not asked
      have hg : g ∈ fields := List.mem_reverse.mp (List.mem_of_find?_eq_some hfind)
      have hgname : customName P key g = some name := by simpa using List.find?_some hfind
      obtain ⟨-, hvalue⟩ := lookup_custom hname (hrest g hg)
      obtain ⟨value, hv⟩ := Option.isSome_iff_exists.mp (hvalue hgname)
      simp [hv]
    | none =>
      by_cases hf : (customName P key f == some name) = true
      · simp [hf]
      · simp [hf]

theorem loginMembers_nodup (l : LoginData) : ((loginMembers l).map Prod.fst).Nodup := by
  simp [loginMembers]

theorem cardMembers_nodup (card : CardData) : ((cardMembers card).map Prod.fst).Nodup := by
  simp [cardMembers]

theorem identityMembers_nodup (i : IdentityData) : ((identityMembers i).map Prod.fst).Nodup := by
  simp [identityMembers]

theorem sshKeyMembers_nodup (ssh : SshKeyData) : ((sshKeyMembers ssh).map Prod.fst).Nodup := by
  simp [sshKeyMembers]

theorem lookup_login {login : Option LoginData} {name : String} :
    (okEntries (ofBlock login (fun l =>
      (loginMembers l).map (memberEntry P key) ++ [urisEntry P key l.uris]))).reverse.lookup name =
    login.bind (fun l => loginText P key l name) := by
  cases login with
  | none => rfl
  | some l =>
    change (okEntries ((loginMembers l).map (memberEntry P key) ++
      [urisEntry P key l.uris])).reverse.lookup name = loginText P key l name
    rw [lookup_okEntries_append, lookup_uris, lookup_members (loginMembers_nodup l), loginText]
    by_cases hname : name = "uris"
    · -- no member is called so
      have hnone : memberText P key (loginMembers l) name = none := by
        simp [memberText, loginMembers, List.lookup_cons, hname]
      rw [hnone, if_pos hname, Option.or_none]
    · rw [if_neg hname, if_neg hname, Option.none_or]

/-- The entries are asked from the end, and the end is where the reference begins. -/
theorem lookup_entries {cipher : Cipher} {name : String} (hname : name ≠ "")
    (h : ∀ e ∈ cipherEntries P key cipher, ∃ o, e = .ok o) :
    (okEntries (cipherEntries P key cipher)).reverse.lookup name = referenceField P key cipher name := by
  obtain ⟨-, -, hcustoms⟩ := entries_ok_parts.mp h
  have hnodup : ([("notes", cipher.notes)].map Prod.fst).Nodup := by simp
  have hnotes : (okEntries [memberEntry P key ("notes", cipher.notes)]).reverse.lookup name =
      memberText P key [("notes", cipher.notes)] name := lookup_members hnodup
  have hcons : memberEntry P key ("notes", cipher.notes) :: cipher.fields.map (customEntry P key) =
      [memberEntry P key ("notes", cipher.notes)] ++ cipher.fields.map (customEntry P key) := rfl
  rw [cipherEntries, hcons, lookup_okEntries_append, lookup_okEntries_append,
    lookup_okEntries_append, lookup_okEntries_append, lookup_okEntries_append, lookup_login,
    lookup_block cardMembers_nodup, lookup_block identityMembers_nodup,
    lookup_block sshKeyMembers_nodup, hnotes, lookup_customs hname hcustoms, referenceField]
  simp only [Option.or_assoc]

theorem cipherMembers_named {cipher : Cipher} : ∀ p ∈ cipherMembers cipher, p.1 ≠ "" := by
  have hblock : ∀ {β : Type} {block : Option β} {members : β → List (String × Option String)},
      (∀ b, ∀ p ∈ members b, p.1 ≠ "") → ∀ p ∈ ofBlock block members, p.1 ≠ "" := by
    intro β block members h p hp
    cases block with
    | none => cases hp
    | some b => exact h b p hp
  simp only [cipherMembers, laterMembers, List.forall_mem_append]
  exact ⟨hblock (by simp [loginMembers]), hblock (by simp [cardMembers]),
    hblock (by simp [identityMembers]), hblock (by simp [sshKeyMembers]), by simp⟩

theorem customEntry_named {f : Field} {p : String × String}
    (h : customEntry P key f = .ok (some p)) : p.1 ≠ "" := by
  rcases customEntry_cases h with ⟨hnone, -⟩ | ⟨name, enc, value, hname, -, -, -, hp⟩
  · cases hnone
  · cases hp
    exact hname

/-- No entry is put under the empty name. -/
theorem entries_named {cipher : Cipher} {p : String × String}
    (h : p ∈ okEntries (cipherEntries P key cipher)) : p.1 ≠ "" := by
  obtain ⟨e, he, hp⟩ := List.mem_filterMap.mp h
  rcases mem_cipherEntries.mp he with ⟨m, hm, rfl⟩ | ⟨l, -, rfl⟩ | ⟨f, -, rfl⟩
  · rw [toOption_memberEntry, Option.map_eq_some_iff] at hp
    obtain ⟨_, -, rfl⟩ := hp
    exact cipherMembers_named m hm
  · unfold urisEntry at hp
    split at hp
    · cases hmap : (sealedUris l.uris).mapM (fun u => decryptStr P u key) with
      | error e => rw [hmap] at hp; cases hp
      | ok texts => rw [hmap] at hp; cases hp; simp
    · cases hp
  · cases hc : customEntry P key f with
    | error e => rw [hc] at hp; cases hp
    | ok o =>
      rw [hc] at hp
      change o = some p at hp
      exact customEntry_named (hp ▸ hc)

theorem mapCipher_field {cipher : Cipher} {secret : Secret} {name : String}
    (h : mapCipher P key cipher = .ok secret) (hname : name ≠ "") :
    secret.fields[name]? = referenceField P key cipher name := by
  obtain ⟨_, -, hok, rfl⟩ := mapCipher_ok_iff.mp h
  rw [← lookup_entries hname hok, collect, getElem?_collectInto]
  simp

theorem mapCipher_unnamed {cipher : Cipher} {secret : Secret}
    (h : mapCipher P key cipher = .ok secret) : secret.fields[""]? = none := by
  obtain ⟨_, -, -, rfl⟩ := mapCipher_ok_iff.mp h
  have hnone : (okEntries (cipherEntries P key cipher)).reverse.lookup "" = none := by
    rw [List.lookup_eq_none_iff]
    intro p hp
    rw [bne_iff_ne]
    exact (entries_named (List.mem_reverse.mp hp)).symm
  rw [collect, getElem?_collectInto, hnone]
  simp

/-- The bag of a secret is the reference, name by name, and its names are told in order. -/
structure IsReference (P : Primitives) (key : SymmetricKey) (cipher : Cipher) (secret : Secret) :
    Prop where
  field : ∀ name, name ≠ "" → secret.fields[name]? = referenceField P key cipher name
  unnamed : secret.fields[""]? = none
  sorted : secret.info.fields.Pairwise (· < ·)
  keys : ∀ name, name ∈ secret.info.fields ↔ name ∈ secret.fields

theorem mapCipher_isReference {cipher : Cipher} {secret : Secret}
    (h : mapCipher P key cipher = .ok secret) : IsReference P key cipher secret := by
  have hfield : ∀ name, name ≠ "" → secret.fields[name]? = referenceField P key cipher name :=
    fun _ => mapCipher_field h
  have hunnamed := mapCipher_unnamed h
  obtain ⟨_, -, -, rfl⟩ := mapCipher_ok_iff.mp h
  refine ⟨hfield, hunnamed, ?_, fun name => ?_⟩
  · have hsorted := Std.ExtTreeMap.ordered_keys
      (t := (collect (okEntries (cipherEntries P key cipher)) : FieldBag))
    exact hsorted.imp (fun hlt => compareOfLessAndEq_eq_lt.mp hlt)
  · exact Std.ExtTreeMap.mem_keys

end

/-- A login with two addresses, and a custom field of the name of a member. -/
def overriddenCipher : Cipher :=
  { oneCipher with
    login := some ⟨some (plainString [0x61]), none, none,
      [some (plainString [0x78]), none, some (plainString [0x79])]⟩
    fields := [⟨some (plainString [0x75, 0x73, 0x65, 0x72, 0x6e, 0x61, 0x6d, 0x65]),
      some (plainString [0x62])⟩] }

theorem opens_plainString (text : Bytes) (key : SymmetricKey) :
    Opens plainPrimitives key (plainString text) :=
  ⟨_, decryptStr_plainString text key⟩

theorem overriddenCipher_isReference : ∃ secret,
    mapCipher plainPrimitives zeroKey overriddenCipher = .ok secret ∧
    IsReference plainPrimitives zeroKey overriddenCipher secret := by
  have hread : ∀ enc ∈ readStrings plainPrimitives zeroKey overriddenCipher,
      Opens plainPrimitives zeroKey enc := by
    intro enc henc
    have hplain : ∃ text, enc = plainString text := by
      simp [readStrings, overriddenCipher, oneCipher, cipherMembers, laterMembers, ofBlock,
        loginMembers, sealedUris, customStrings, plainString_nonempty] at henc
      obtain rfl | rfl | rfl | hcustom := henc
      · exact ⟨_, rfl⟩
      · exact ⟨_, rfl⟩
      · exact ⟨_, rfl⟩
      · split at hcustom <;> simp at hcustom
        · exact ⟨_, hcustom⟩
        · obtain rfl | rfl := hcustom <;> exact ⟨_, rfl⟩
    obtain ⟨text, rfl⟩ := hplain
    exact opens_plainString text zeroKey
  have hok := mapCipher_ok_iff.mpr
    ⟨_, decryptStr_plainString _ _, entries_ok_iff.mpr hread, rfl⟩
  exact ⟨_, hok, mapCipher_isReference hok⟩

end Cryptile
