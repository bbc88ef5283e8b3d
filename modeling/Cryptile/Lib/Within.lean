import Cryptile.Lib.Interaction

/-
  Within — runs whose surroundings are known, and programs carried out by others

  `Within R tr` says that every answer of a trace is one `R` allows: it is what a
  trace adds to `Returns R`. Where the requests of a program are carried out by
  programs over other requests, the answers each of those can return are the
  surroundings of the first (`carried`), and what is observed of the one trace is
  observed of the other, request by request (`CarriedOut.observe`).
-/

namespace Interaction

variable {Q : Type} {A : Q → Type} {α β : Type} {R : ∀ q, A q → Prop}

/-- Every answer of the trace is one that `R` allows. -/
def Within (R : ∀ q, A q → Prop) (tr : Trace A) : Prop := ∀ e ∈ tr, R e.1 e.2

@[simp] theorem within_nil : Within R [] := by simp [Within]

@[simp] theorem within_cons {q : Q} {x : A q} {tr : Trace A} :
    Within R (⟨q, x⟩ :: tr) ↔ R q x ∧ Within R tr := by simp [Within]

@[simp] theorem within_append {t₁ t₂ : Trace A} : Within R (t₁ ++ t₂) ↔ Within R t₁ ∧ Within R t₂ := by
  simp [Within, or_imp, forall_and]

/-- What can be returned within `R` is the result of a run within `R`. -/
theorem returns_iff {p : Prog A α} {a : α} : Returns R p a ↔ ∃ tr, Runs p tr a ∧ Within R tr := by
  induction p with
  | done b =>
    refine ⟨?_, ?_⟩
    · intro h; exact ⟨[], ⟨rfl, h⟩, within_nil⟩
    · intro h
      obtain ⟨_, ⟨-, h⟩, -⟩ := h
      exact h
  | ask q k ih =>
    refine ⟨?_, ?_⟩
    · intro h
      obtain ⟨x, hx, hrest⟩ := h
      obtain ⟨tr, hrun, hR⟩ := (ih x).mp hrest
      exact ⟨⟨q, x⟩ :: tr, ⟨x, tr, rfl, hrun⟩, within_cons.mpr ⟨hx, hR⟩⟩
    · intro h
      obtain ⟨_, ⟨x, tr, rfl, hrun⟩, hR⟩ := h
      obtain ⟨hx, hR⟩ := within_cons.mp hR
      exact ⟨x, hx, (ih x).mpr ⟨tr, hrun, hR⟩⟩

theorem Runs.returns {p : Prog A α} {tr : Trace A} {a : α} (h : Runs p tr a) (hR : Within R tr) :
    Returns R p a := returns_iff.mpr ⟨tr, h, hR⟩

theorem Returns.mono {R' : ∀ q, A q → Prop} (hR : ∀ q x, R q x → R' q x) :
    ∀ {p : Prog A α} {a : α}, Returns R p a → Returns R' p a
  | .done _, _, h => h
  | .ask q _, _, ⟨x, hx, h⟩ => ⟨x, hR q x hx, h.mono hR⟩

/-- Surroundings that answer every request lead every program to an end. -/
theorem exists_run_within (hR : ∀ q, ∃ x, R q x) (p : Prog A α) :
    ∃ tr a, Runs p tr a ∧ Within R tr := by
  obtain ⟨a, h⟩ := returns_total hR p
  obtain ⟨tr, hrun, hwithin⟩ := returns_iff.mp h
  exact ⟨tr, a, hrun, hwithin⟩

/-! ## What is asked of runs that are cut short -/

section
variable {S : Q → Prop} {p : Prog A α} {f : α → Prog A β}

/-- What follows is asked with a result that the program can have. -/
theorem asks_bind_runs (hp : Asks S p) (hf : ∀ tr a, Runs p tr a → Asks S (f a)) : Asks S (p >>= f) := by
  induction p with
  | done a => exact hf [] a ⟨rfl, rfl⟩
  | ask q k ih =>
    refine ⟨hp.1, fun x => ih x (hp.2 x) ?_⟩
    intro tr a hrun
    exact hf (⟨q, x⟩ :: tr) a ⟨x, tr, rfl, hrun⟩

theorem asks_except_bind_runs {ε : Type} {p : ExceptT ε (Prog A) α} {f : α → ExceptT ε (Prog A) β}
    (hp : Asks S p.run) (hf : ∀ tr a, Runs p.run tr (.ok a) → Asks S (f a).run) : Asks S (p >>= f).run := by
  rw [ExceptT.run_bind]
  refine asks_bind_runs hp (fun tr x hrun => ?_)
  cases x with
  | error e => exact asks_pure _
  | ok a => exact hf tr a hrun

/-- After a step that is settled without a request, there is what it has settled. -/
theorem asks_settled_bind {ε : Type} {x : Except ε α} {f : α → ExceptT ε (Prog A) β}
    (hf : ∀ a, x = .ok a → Asks S (f a).run) :
    Asks S (ExceptT.mk (pure x : Prog A (Except ε α)) >>= f).run := by
  cases x with
  | error e => exact asks_pure _
  | ok a => exact hf a rfl

theorem Asks.reaches : ∀ {p : Prog A α} {tr : Trace A}, Asks S p → Reaches p tr → ∀ e ∈ tr, S e.1
  | .done _, _, _, rfl, _, he => by cases he
  | .ask _ _, _, _, .inl rfl, _, he => by cases he
  | .ask q k, _, hp, .inr ⟨x, rest, rfl, h⟩, e, he => by
    obtain rfl | he := List.mem_cons.mp he
    · exact hp.1
    · exact (hp.2 x).reaches h e he

/-- A program in two parts stops in the first, or in the second after the first has ended. -/
theorem reaches_bind {tr : Trace A} (h : Reaches (p >>= f) tr) :
    Reaches p tr ∨ ∃ t₁ a t₂, tr = t₁ ++ t₂ ∧ Runs p t₁ a ∧ Reaches (f a) t₂ := by
  induction p generalizing tr with
  | done a => exact .inr ⟨[], a, tr, rfl, ⟨rfl, rfl⟩, h⟩
  | ask q k ih =>
    obtain rfl | ⟨x, rest, rfl, hrest⟩ := h
    · exact .inl (.inl rfl)
    · obtain hfirst | ⟨t₁, a, t₂, rfl, hrun, hsecond⟩ := ih x hrest
      · exact .inl (.inr ⟨x, rest, rfl, hfirst⟩)
      · exact .inr ⟨⟨q, x⟩ :: t₁, a, t₂, rfl, ⟨x, t₁, rfl, hrun⟩, hsecond⟩

end

/-! ## Requests carried out by other programs -/

section
variable {Q' : Type} {B : Q' → Type} {h : ∀ q, Prog B (A q)}

/-- The surroundings of a program whose requests are carried out within `R`. -/
def carried (h : ∀ q, Prog B (A q)) (R : ∀ q, B q → Prop) (q : Q) (x : A q) : Prop := Returns R (h q) x

theorem returns_lower {R : ∀ q, B q → Prop} {p : Prog A α} {a : α} :
    Returns R (lower h p) a ↔ Returns (carried h R) p a := by
  induction p with
  | done b => exact Iff.rfl
  | ask q k ih =>
    refine returns_bind.trans ?_
    simp only [ih]
    exact Iff.rfl

theorem CarriedOut.within {R : ∀ q, B q → Prop} : ∀ {t : Trace A} {tr : Trace B}, CarriedOut h t tr →
    Within R tr → Within (carried h R) t
  | [], _, _, _ => within_nil
  | ⟨_, _⟩ :: _, _, ⟨_, _, rfl, hfirst, hrest⟩, hR => by
    obtain ⟨hR₁, hR₂⟩ := within_append.mp hR
    exact within_cons.mpr ⟨hfirst.returns hR₁, hrest.within hR₂⟩

/-- What is observed where each request is carried out is what is observed of the whole. -/
theorem CarriedOut.observe {f : Sigma A → List β} {g : Sigma B → List β}
    (hobs : ∀ e : Sigma A, ∀ tr, Runs (h e.1) tr e.2 → tr.flatMap g = f e) :
    ∀ {t : Trace A} {tr : Trace B}, CarriedOut h t tr → tr.flatMap g = t.flatMap f
  | [], _, rfl => rfl
  | e :: rest, _, ⟨t₁, t₂, rfl, hfirst, hrest⟩ => by
    rw [List.flatMap_append, List.flatMap_cons, hobs e t₁ hfirst, hrest.observe hobs]

end

end Interaction
