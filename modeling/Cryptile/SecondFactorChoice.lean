import Cryptile.LoginCommand
import Cryptile.Vaultwarden.ChallengeBody

/-
  SecondFactorChoice — which factor a login answers a challenge with

  Where no provider is asked for, the factor is the first one of the offer that has
  an answer. The order of preference is webauthn, then totp, then email; the two
  agree exactly when the offer lists its strongest factor before the weaker ones.
-/

namespace Cryptile
open Text FirstSeen Interaction

/-! ## The strongest factor -/

/-- The first of the order of preference that is offered and has an answer. -/
def strongest (hardwareCapable : Bool) (offered : List String) : Option String :=
  ["webauthn", "totp", "email"].find?
    (fun tag => offered.contains tag && answerable hardwareCapable tag)

/-- With no provider asked for, every run answers with the strongest factor. It fails
where there is none, and where the code of a code factor cannot be had. -/
def ChoosesStrongest (hardwareCapable : Bool) (offered : List String) : Prop :=
  ∀ args tr x, args.twofaProvider = none →
    Runs (resolveSecondFactor offered args hardwareCapable).run tr x →
    match strongest hardwareCapable offered with
    | some tag => (∃ code, x = .ok { providerTag := tag, code := code }) ∨
        (tag ≠ "webauthn" ∧ ∃ msg, x = .error msg ∧
          Runs (codeFor tag args.twofaCode args.twofaEnv).run tr (.error msg))
    | none => ∃ msg, x = .error msg

/-- The ids of a body, in the order it lists them. -/
def idsOf (J : Decoders) (body : String) : List Nat :=
  match J.value body with
  | .ok v => offeredIds v
  | .error _ => []

/-- No weaker id comes before the first `n`. -/
def ListedFirst (n : Nat) (weaker ids : List Nat) : Prop :=
  ∀ m ∈ ids.takeWhile (fun i => i != n), m ∉ weaker

/-! ## What a run picks -/

section
variable {hardwareCapable : Bool} {offered : List String}

theorem resolveSecondFactor_runs {args : LoginArgs} {tr : CliTrace} {x : Except String SecondFactor}
    (hpref : args.twofaProvider = none)
    (h : Runs (resolveSecondFactor offered args hardwareCapable).run tr x) :
    match offered.find? (answerable hardwareCapable) with
    | some tag => (∃ code, x = .ok { providerTag := tag, code := code }) ∨
        (tag ≠ "webauthn" ∧ ∃ msg, x = .error msg ∧
          Runs (codeFor tag args.twofaCode args.twofaEnv).run tr (.error msg))
    | none => ∃ msg, x = .error msg := by
  unfold resolveSecondFactor pickProvider at h
  rw [hpref] at h
  cases hfind : offered.find? (answerable hardwareCapable) with
  | none =>
    simp only [hfind] at h
    obtain ⟨-, rfl⟩ := h
    exact ⟨_, rfl⟩
  | some tag =>
    simp only [hfind] at h
    rcases runs_settled_bind.mp h with ⟨e, he, -⟩ | ⟨t, ht, h⟩
    · cases he
    · cases ht
      by_cases hweb : tag = "webauthn"
      · simp only [hweb, if_true] at h
        obtain ⟨-, rfl⟩ := h
        exact Or.inl ⟨"", by rw [hweb]⟩
      · simp only [hweb, if_false] at h
        rcases runs_except_bind.mp h with ⟨e, rfl, hcode⟩ | ⟨_, code, _, -, -, -, rfl⟩
        · exact Or.inr ⟨hweb, e, rfl, hcode⟩
        · exact Or.inl ⟨code, rfl⟩

/-- A factor whose code is given by the flag is resolved without asking for anything. -/
theorem resolveSecondFactor_flag (args : LoginArgs) {c tag : String}
    (hpref : args.twofaProvider = none) (hc : args.twofaCode = some c)
    (hfind : offered.find? (answerable hardwareCapable) = some tag) :
    ∃ code, Runs (resolveSecondFactor offered args hardwareCapable).run []
      (.ok { providerTag := tag, code := code }) := by
  unfold resolveSecondFactor pickProvider
  simp only [hpref, hfind, hc, codeFor]
  by_cases hweb : tag = "webauthn"
  · exact ⟨"", runs_settled_bind.mpr (Or.inr ⟨tag, rfl, by simp [hweb]⟩)⟩
  · refine ⟨c, runs_settled_bind.mpr (Or.inr ⟨tag, rfl, ?_⟩)⟩
    rw [if_neg hweb]
    exact ⟨rfl, rfl⟩

/-- What a run shows of the choice is the choice. -/
theorem choosesStrongest_iff : ChoosesStrongest hardwareCapable offered ↔
    offered.find? (answerable hardwareCapable) = strongest hardwareCapable offered := by
  refine ⟨?_, ?_⟩
  · intro h
    cases hfind : offered.find? (answerable hardwareCapable) with
    | some tag =>
      obtain ⟨code, hrun⟩ := resolveSecondFactor_flag codeArgs rfl rfl hfind
      have hs := h codeArgs _ _ rfl hrun
      cases hst : strongest hardwareCapable offered with
      | none =>
        rw [hst] at hs
        obtain ⟨_, hs⟩ := hs
        cases hs
      | some tag' =>
        rw [hst] at hs
        obtain ⟨_, hs⟩ | ⟨-, _, hs, -⟩ := hs
        · cases hs
          rfl
        · cases hs
    | none =>
      -- what the order of preference finds would be found in the offer as well
      symm
      apply List.find?_eq_none.mpr
      intro tag _ hp
      obtain ⟨hoff, hans⟩ := Bool.and_eq_true_iff.mp hp
      exact List.find?_eq_none.mp hfind tag (List.contains_iff_mem.mp hoff) hans
  · intro h args tr x hpref hrun
    rw [← h]
    exact resolveSecondFactor_runs hpref hrun

/-! ## The order of a body -/

theorem find?_eq_some_iff_takeWhile {p : Nat → Bool} {n : Nat} {l : List Nat} (hn : p n = true) :
    l.find? p = some n ↔ n ∈ l ∧ ∀ m ∈ l.takeWhile (fun i => i != n), p m = false := by
  induction l with
  | nil => simp
  | cons a l ih =>
    by_cases ha : a = n
    · simp [ha, hn]
    · cases hp : p a with
      | true => simp [hp, ha]
      | false => simp [hp, ha, ih, Ne.symm ha]

theorem answerable_idToTag {n : Nat} : answerable hardwareCapable (idToTag n) = true ↔
    n = 0 ∨ n = 1 ∨ (n = 7 ∧ hardwareCapable = true) := by
  have htotp : idToTag n = "totp" ↔ n = 0 := ⟨fun h => idToTag_injective (n := 0) h, fun h => by rw [h]; rfl⟩
  have hemail : idToTag n = "email" ↔ n = 1 := ⟨fun h => idToTag_injective (n := 1) h, fun h => by rw [h]; rfl⟩
  have hweb : idToTag n = "webauthn" ↔ n = 7 := ⟨fun h => idToTag_injective (n := 7) h, fun h => by rw [h]; rfl⟩
  simp only [answerable, Bool.or_eq_true, Bool.and_eq_true, beq_iff_eq, htotp, hemail, hweb, or_assoc]

end

section
variable {J : Decoders} {body : String} {hardwareCapable : Bool}

theorem decodeTwoFactorProviders_eq_gather (J : Decoders) (body : String) :
    decodeTwoFactorProviders J body = gather [] ((idsOf J body).map idToTag) := by
  unfold idsOf
  cases h : J.value body with
  | ok v => exact decodeTwoFactorProviders_eq h
  | error e => rw [decodeTwoFactorProviders, h]; rfl

theorem contains_idToTag (J : Decoders) (body : String) (n : Nat) :
    (decodeTwoFactorProviders J body).contains (idToTag n) = true ↔ n ∈ idsOf J body := by
  rw [List.contains_iff_mem, decodeTwoFactorProviders_eq_gather, mem_gather, mem_map_idToTag]
  simp

/-- The tag a body's offer is answered with is that of its first id with an answer. -/
theorem find?_decoded : (decodeTwoFactorProviders J body).find? (answerable hardwareCapable) =
    ((idsOf J body).find? (fun n => answerable hardwareCapable (idToTag n))).map idToTag := by
  rw [decodeTwoFactorProviders_eq_gather, find?_gather, List.nil_append, List.find?_map]
  rfl

theorem first_is_iff {n : Nat} (hn : answerable hardwareCapable (idToTag n) = true) :
    (decodeTwoFactorProviders J body).find? (answerable hardwareCapable) = some (idToTag n) ↔
    n ∈ idsOf J body ∧ ∀ m ∈ (idsOf J body).takeWhile (fun i => i != n),
      answerable hardwareCapable (idToTag m) = false := by
  rw [find?_decoded, ← find?_eq_some_iff_takeWhile hn, Option.map_eq_some_iff]
  refine ⟨?_, ?_⟩
  · intro h
    obtain ⟨m, hm, he⟩ := h
    rwa [← idToTag_injective he]
  · intro h
    exact ⟨n, h, rfl⟩

/-- Over the ids of a body, what answers besides `n` are the weaker ids. -/
theorem first_is_iff_listedFirst {n : Nat} {weaker : List Nat} (hmem : n ∈ idsOf J body)
    (hn : answerable hardwareCapable (idToTag n) = true)
    (hweak : ∀ m ∈ idsOf J body, m ≠ n →
      (answerable hardwareCapable (idToTag m) = true ↔ m ∈ weaker)) :
    (decodeTwoFactorProviders J body).find? (answerable hardwareCapable) = some (idToTag n) ↔
    ListedFirst n weaker (idsOf J body) := by
  rw [first_is_iff hn]
  have hbefore : ∀ m ∈ (idsOf J body).takeWhile (fun i => i != n),
      (answerable hardwareCapable (idToTag m) = false ↔ m ∉ weaker) := by
    intro m hm
    have hne : m ≠ n := by simpa using List.mem_takeWhile_imp hm
    rw [← hweak m ((List.takeWhile_sublist _).mem hm) hne, Bool.not_eq_true]
  refine ⟨?_, ?_⟩
  · intro h m hm
    exact (hbefore m hm).mp (h.2 m hm)
  · intro h
    exact ⟨hmem, fun m hm => (hbefore m hm).mpr (h m hm)⟩

theorem strongest_decoded : strongest hardwareCapable (decodeTwoFactorProviders J body) =
    if hardwareCapable = true ∧ 7 ∈ idsOf J body then some (idToTag 7)
    else if 0 ∈ idsOf J body then some (idToTag 0)
    else if 1 ∈ idsOf J body then some (idToTag 1)
    else none := by
  have hweb := contains_idToTag J body 7
  have htotp := contains_idToTag J body 0
  have hemail := contains_idToTag J body 1
  simp only [idToTag] at hweb htotp hemail ⊢
  simp only [strongest, List.find?_cons, answerable]
  by_cases h7 : 7 ∈ idsOf J body <;> by_cases h0 : 0 ∈ idsOf J body <;>
    by_cases h1 : 1 ∈ idsOf J body <;> cases hardwareCapable <;> simp_all

/-- The offer is answered with its strongest factor exactly when the body lists no
weaker one before it. -/
theorem chooses_strongest_iff : ChoosesStrongest hardwareCapable (decodeTwoFactorProviders J body) ↔
    if hardwareCapable = true ∧ 7 ∈ idsOf J body then ListedFirst 7 [0, 1] (idsOf J body)
    else 0 ∈ idsOf J body → ListedFirst 0 [1] (idsOf J body) := by
  rw [choosesStrongest_iff, strongest_decoded]
  by_cases hkey : hardwareCapable = true ∧ 7 ∈ idsOf J body
  · rw [if_pos hkey, if_pos hkey]
    refine first_is_iff_listedFirst hkey.2 (answerable_idToTag.mpr (by simp [hkey.1])) (fun m _ hne => ?_)
    rw [answerable_idToTag]
    simp [hne]
  · rw [if_neg hkey, if_neg hkey]
    have hseven : ∀ m ∈ idsOf J body, ¬ (m = 7 ∧ hardwareCapable = true) :=
      fun m hm h => hkey ⟨h.2, h.1 ▸ hm⟩
    by_cases h0 : 0 ∈ idsOf J body
    · rw [if_pos h0]
      have hlisted : (decodeTwoFactorProviders J body).find? (answerable hardwareCapable) =
          some (idToTag 0) ↔ ListedFirst 0 [1] (idsOf J body) :=
        first_is_iff_listedFirst h0 (answerable_idToTag.mpr (by simp))
          (fun m hm hne => by rw [answerable_idToTag]; simp [hne, hseven m hm])
      rw [hlisted]
      exact ⟨fun h _ => h, fun h => h h0⟩
    · -- only email is left, and nothing is weaker
      have hzero : ∀ m ∈ idsOf J body, m ≠ 0 := fun m hm h => h0 (h ▸ hm)
      simp only [h0, if_false, false_implies, iff_true]
      by_cases h1 : 1 ∈ idsOf J body
      · rw [if_pos h1]
        have hlisted : (decodeTwoFactorProviders J body).find? (answerable hardwareCapable) =
            some (idToTag 1) ↔ ListedFirst 1 [] (idsOf J body) :=
          first_is_iff_listedFirst h1 (answerable_idToTag.mpr (by simp))
            (fun m hm hne => by rw [answerable_idToTag]; simp [hne, hzero m hm, hseven m hm])
        exact hlisted.mpr (fun m _ => List.not_mem_nil)
      · rw [if_neg h1, find?_decoded, Option.map_eq_none_iff, List.find?_eq_none]
        intro m hm hans
        rcases answerable_idToTag.mp hans with h | h | h
        · exact hzero m hm h
        · exact h1 (h ▸ hm)
        · exact hseven m hm h

/-- A body that lists the code factor before the security key. -/
def codeFirst : Json := .object [("TwoFactorProviders", .array [.str "0", .str "7"])]

def codeFirstBody : String := "\x7b\"TwoFactorProviders\":[\"0\",\"7\"]\x7d"

/-- With a key at hand, the code factor is answered all the same. -/
theorem weaker_factor_chosen :
    strongest true (decodeTwoFactorProviders (valueDecoders codeFirst) codeFirstBody) = some "webauthn" ∧
    Runs (resolveSecondFactor (decodeTwoFactorProviders (valueDecoders codeFirst) codeFirstBody)
      codeArgs true).run [] (.ok { providerTag := "totp", code := "123456" }) ∧
    ¬ ChoosesStrongest true (decodeTwoFactorProviders (valueDecoders codeFirst) codeFirstBody) := by
  have hlist : decodeTwoFactorProviders (valueDecoders codeFirst) codeFirstBody =
      ["totp", "webauthn"] := by decide
  have hrun : Runs (resolveSecondFactor ["totp", "webauthn"] codeArgs true).run []
      (.ok { providerTag := "totp", code := "123456" }) := ⟨rfl, rfl⟩
  rw [hlist]
  refine ⟨by decide, hrun, fun h => ?_⟩
  rcases h codeArgs _ _ rfl hrun with ⟨_, hcode⟩ | ⟨-, _, herr, -⟩
  · simp at hcode
  · cases herr

end

end Cryptile
