import Cryptile.Vaultwarden.Login

/-
  AdvertisedKdf — the parameters a server advertises, and those a key is made with

  A server advertises numbers of 64 bits; the derivation takes 32. What is cut off
  on the way is not looked at, the memory is multiplied after it, and every kind
  that is not Argon2id becomes PBKDF2. `UsesAdvertised` says what a key should be
  made with, in numbers that have no bound.
-/

namespace Cryptile
open Text

/-! ## What is advertised -/

/-- A member under either casing, as the server has it. -/
def advertised (v : Json) (keys : List String) : Option Nat :=
  keys.findSome? (fun k => ((v.get k).bind Json.asU64).map UInt64.toNat)

def kindOf (v : Json) : Nat := (advertised v ["kdf", "KDF"]).getD 0

def iterationsOf (v : Json) (default : Nat) : Nat :=
  (advertised v ["kdfIterations", "KdfIterations"]).getD default

/-- The memory in MiB. -/
def memoryOf (v : Json) : Nat := (advertised v ["kdfMemory", "KdfMemory"]).getD 64

def parallelismOf (v : Json) : Nat :=
  (advertised v ["kdfParallelism", "KdfParallelism"]).getD 4

section
variable (P : Primitives)

/-- The salt of Argon2id. -/
def saltOf (identity : String) : Bytes := (P.sha256 (utf8 (normalizeIdentity identity))).1

/-- A key is made with exactly what is advertised, or none is made; a kind that is
neither PBKDF2 nor Argon2id is refused as such. -/
def UsesAdvertised (v : Json) : Prop :=
  ∀ password identity,
    match kindOf v with
    | 0 => ∀ key, deriveMasterKey P password identity (kdfFromJson v) = .ok key →
        ∃ iterations : UInt32, iterations.toNat = iterationsOf v 600000 ∧
          key = P.pbkdf2Sha256 (utf8 password) (utf8 (normalizeIdentity identity)) iterations
    | 1 => ∀ key, deriveMasterKey P password identity (kdfFromJson v) = .ok key →
        ∃ memoryKib iterations parallelism : UInt32, memoryKib.toNat = 1024 * memoryOf v ∧
          iterations.toNat = iterationsOf v 3 ∧ parallelism.toNat = parallelismOf v ∧
          P.argon2id memoryKib iterations parallelism (utf8 password) (saltOf P identity) = some key
    | _ => ∃ kind, deriveMasterKey P password identity (kdfFromJson v) = .error (.unsupportedKdf kind)

/-- No number of the members that are used is cut. -/
def FitsArgon2id (v : Json) : Prop :=
  1024 * memoryOf v < UInt32.size ∧ iterationsOf v 3 < UInt32.size ∧ parallelismOf v < UInt32.size

/-- Argon2id has no key for the numbers that are left of the advertised ones. -/
def RefusesCut (v : Json) : Prop :=
  ∀ password identity, P.argon2id (UInt32.ofNat (1024 * memoryOf v)) (UInt32.ofNat (iterationsOf v 3))
    (UInt32.ofNat (parallelismOf v)) (utf8 password) (saltOf P identity) = none

end

/-! ## What is left of it -/

section
variable {v : Json}

theorem jsonU32_eq (keys : List String) :
    jsonU32 v keys = (advertised v keys).map UInt32.ofNat := by
  unfold jsonU32 advertised
  induction keys with
  | nil => rfl
  | cons k keys ih =>
    rw [List.findSome?_cons, List.findSome?_cons, ih]
    cases (v.get k).bind Json.asU64 with
    | none => rfl
    | some n => rfl

theorem getD_map_ofNat (o : Option Nat) (n : Nat) :
    (o.map UInt32.ofNat).getD (UInt32.ofNat n) = UInt32.ofNat (o.getD n) := by
  cases o <;> rfl

theorem ofNat_eq_iff {m n : Nat} (hn : n < UInt32.size) : UInt32.ofNat m = UInt32.ofNat n ↔ m % UInt32.size = n := by
  rw [← UInt32.toNat_inj, UInt32.toNat_ofNat', UInt32.toNat_ofNat', Nat.mod_eq_of_lt hn]

theorem jsonU32_getD (keys : List String) (n : Nat) :
    (jsonU32 v keys).getD (UInt32.ofNat n) = UInt32.ofNat ((advertised v keys).getD n) := by
  rw [jsonU32_eq, getD_map_ofNat]

/-- The kind is compared after the cut, and so is everything else taken. -/
theorem kdfFromJson_eq : kdfFromJson v =
    if kindOf v % UInt32.size = 1 then
      KdfParams.argon2id (UInt32.ofNat (iterationsOf v 3)) (UInt32.ofNat (1024 * memoryOf v))
        (UInt32.ofNat (parallelismOf v))
    else KdfParams.pbkdf2 (UInt32.ofNat (iterationsOf v 600000)) := by
  have hmemory : (jsonU32 v ["kdfMemory", "KdfMemory"]).getD 64 * 1024 =
      UInt32.ofNat (1024 * memoryOf v) := by
    rw [Nat.mul_comm, UInt32.ofNat_mul]
    exact congrArg (· * 1024) (jsonU32_getD _ 64)
  have hkind : jsonU32 v ["kdf", "KDF"] = some 1 ↔ kindOf v % UInt32.size = 1 := by
    rw [jsonU32_eq, kindOf]
    cases advertised v ["kdf", "KDF"] with
    | none => simp
    | some k => simpa using ofNat_eq_iff (m := k) (n := 1) (by decide)
  unfold kdfFromJson
  split
  · next h =>
    rw [if_pos (hkind.mp h), hmemory]
    exact congrArg₂ (KdfParams.argon2id · _ ·) (jsonU32_getD _ 3) (jsonU32_getD _ 4)
  · next h =>
    rw [if_neg (fun hone => h (hkind.mpr hone))]
    exact congrArg KdfParams.pbkdf2 (jsonU32_getD _ 600000)

/-! ## What a key is made with -/

variable {P : Primitives} {password identity : String}

theorem derive_pbkdf2 (h : kindOf v % UInt32.size ≠ 1) :
    deriveMasterKey P password identity (kdfFromJson v) =
      .ok (P.pbkdf2Sha256 (utf8 password) (utf8 (normalizeIdentity identity))
        (UInt32.ofNat (iterationsOf v 600000))) := by
  rw [kdfFromJson_eq, if_neg h]
  rfl

theorem derive_argon2id (h : kindOf v % UInt32.size = 1) :
    deriveMasterKey P password identity (kdfFromJson v) =
      match P.argon2id (UInt32.ofNat (1024 * memoryOf v)) (UInt32.ofNat (iterationsOf v 3))
        (UInt32.ofNat (parallelismOf v)) (utf8 password) (saltOf P identity) with
      | some key => .ok key
      | none => .error .argon2 := by
  rw [kdfFromJson_eq, if_pos h]
  rfl

theorem derive_argon2id_ok {key : Block 32} (h : kindOf v % UInt32.size = 1) :
    deriveMasterKey P password identity (kdfFromJson v) = .ok key ↔
      P.argon2id (UInt32.ofNat (1024 * memoryOf v)) (UInt32.ofNat (iterationsOf v 3))
        (UInt32.ofNat (parallelismOf v)) (utf8 password) (saltOf P identity) = some key := by
  rw [derive_argon2id h]
  generalize P.argon2id _ _ _ _ _ = made
  cases made <;> simp

/-- No derivation is refused for its kind. -/
theorem derive_ne_unsupported {kind : UInt8} :
    deriveMasterKey P password identity (kdfFromJson v) ≠ .error (.unsupportedKdf kind) := by
  by_cases h : kindOf v % UInt32.size = 1
  · rw [derive_argon2id h]
    split <;> simp
  · simp [derive_pbkdf2 h]

theorem usesAdvertised_pbkdf2 (hkind : kindOf v = 0) :
    UsesAdvertised P v ↔ iterationsOf v 600000 < UInt32.size := by
  have hne : kindOf v % UInt32.size ≠ 1 := by
    rw [hkind]
    decide
  unfold UsesAdvertised
  rw [hkind]
  refine ⟨?_, ?_⟩
  · intro h
    obtain ⟨iterations, hn, -⟩ := h "" "" _ (derive_pbkdf2 hne)
    rw [← hn]
    exact iterations.toNat_lt
  · intro hlt password identity key hkey
    rw [derive_pbkdf2 hne] at hkey
    cases hkey
    exact ⟨_, UInt32.toNat_ofNat_of_lt' hlt, rfl⟩

theorem usesAdvertised_argon2id (hkind : kindOf v = 1) :
    UsesAdvertised P v ↔ FitsArgon2id v ∨ RefusesCut P v := by
  have hone : kindOf v % UInt32.size = 1 := by
    rw [hkind]
    rfl
  unfold UsesAdvertised
  rw [hkind]
  refine ⟨?_, ?_⟩
  · intro h
    by_cases hrefuses : RefusesCut P v
    · exact Or.inr hrefuses
    · -- where a key is made, the numbers it is made with bound the advertised ones
      left
      simp only [RefusesCut, not_forall] at hrefuses
      obtain ⟨password, identity, hsome⟩ := hrefuses
      obtain ⟨key, hkey⟩ := Option.ne_none_iff_exists'.mp hsome
      obtain ⟨memoryKib, iterations, parallelism, hm, hi, hp, -⟩ :=
        h password identity key ((derive_argon2id_ok hone).mpr hkey)
      rw [FitsArgon2id, ← hm, ← hi, ← hp]
      exact ⟨memoryKib.toNat_lt_size, iterations.toNat_lt_size, parallelism.toNat_lt_size⟩
  · intro h password identity key hkey
    have hsome := (derive_argon2id_ok hone).mp hkey
    rcases h with hfits | hrefuses
    · obtain ⟨hm, hi, hp⟩ := hfits
      exact ⟨_, _, _, UInt32.toNat_ofNat_of_lt' hm, UInt32.toNat_ofNat_of_lt' hi, UInt32.toNat_ofNat_of_lt' hp, hsome⟩
    · rw [hrefuses password identity] at hsome
      cases hsome

/-- What is advertised is used, or no key is made, exactly where every number of the
kind fits in 32 bits, the memory in KiB too, or Argon2id refuses what is left of them;
and for no other kind. -/
theorem usesAdvertised_iff (P : Primitives) (v : Json) : UsesAdvertised P v ↔
    (kindOf v = 0 ∧ iterationsOf v 600000 < UInt32.size) ∨
    (kindOf v = 1 ∧ (FitsArgon2id v ∨ RefusesCut P v)) := by
  by_cases h0 : kindOf v = 0
  · rw [usesAdvertised_pbkdf2 h0]
    simp [h0]
  · by_cases h1 : kindOf v = 1
    · rw [usesAdvertised_argon2id h1]
      simp [h1]
    · refine ⟨?_, ?_⟩
      · intro h
        have hother := h "" ""
        split at hother
        · exact absurd ‹_› h0
        · exact absurd ‹_› h1
        · obtain ⟨kind, hkind⟩ := hother
          exact absurd hkind derive_ne_unsupported
      · intro h
        rcases h with ⟨h, -⟩ | ⟨h, -⟩
        · exact absurd h h0
        · exact absurd h h1

end

/-- A kind that is neither, a memory that wraps, and a count that is cut. -/
def unknownKdf : Json := .object [("kdf", .number (some 2))]

def wrappedMemory : Json := .object [("kdf", .number (some 1)), ("kdfMemory", .number (some 4194305))]

def cutIterations : Json := .object [("kdfIterations", .number (some 4294967297))]

/-- Each of them makes a key with other parameters than the server has. -/
theorem advertised_parameters_lost :
    (kdfFromJson unknownKdf = KdfParams.pbkdf2 600000 ∧ ¬ UsesAdvertised plainPrimitives unknownKdf) ∧
    (kdfFromJson wrappedMemory = KdfParams.argon2id 3 1024 4 ∧
      ¬ UsesAdvertised plainPrimitives wrappedMemory) ∧
    (kdfFromJson cutIterations = KdfParams.pbkdf2 1 ∧ ¬ UsesAdvertised plainPrimitives cutIterations) := by
  refine ⟨⟨by decide, fun h => ?_⟩, ⟨by decide, fun h => ?_⟩, ⟨by decide, fun h => ?_⟩⟩
  · obtain ⟨kind, hkind⟩ := h "" ""
    cases hkind
  · obtain ⟨memoryKib, _, _, hm, -⟩ := h "" "" (zeros 32) rfl
    have hlt := memoryKib.toNat_lt
    have hadvertised : memoryOf wrappedMemory = 4194305 := rfl
    omega
  · obtain ⟨iterations, hi, -⟩ := h "" "" (zeros 32) rfl
    have hlt := iterations.toNat_lt
    have hadvertised : iterationsOf cutIterations 600000 = 4294967297 := rfl
    omega

end Cryptile
