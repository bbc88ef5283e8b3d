import Mathlib.Data.List.Basic

/-
  Interaction — programs as query trees, and what holds over every run of one

  A program that talks to its surroundings is a tree: it is finished, or it makes
  one request and goes on with whatever is answered. Nothing is said here about
  who answers. A property of every run is therefore a property against every
  behaviour of the surroundings: servers, clocks, disks, users, crashes.

  `Runs p tr a` says that the requests and answers `tr` lead `p` to its result
  `a`. `Reaches p tr` says that `p` can have got as far as `tr`, finished or not:
  this is the run of a program that is killed. `Returns R p a` forgets the trace
  and keeps the answers within `R`: a surrounding that is known. `Asks P p` says
  that no request is outside `P`, whatever is answered.
-/

namespace Interaction

/-- A program over requests `Q`, answered in `A`. -/
inductive Prog {Q : Type} (A : Q → Type) (α : Type) where
  | done (a : α)
  | ask (q : Q) (k : A q → Prog A α)

variable {Q : Type} {A : Q → Type} {α β ε : Type}

def Prog.bind : Prog A α → (α → Prog A β) → Prog A β
  | .done a, f => f a
  | .ask q k, f => .ask q (fun x => (k x).bind f)

instance : Monad (Prog A) where
  pure := .done
  bind := Prog.bind

/-- The program that makes one request and returns its answer. -/
def request (q : Q) : Prog A (A q) := .ask q .done

/-- The requests a run makes, in order, each with the answer it got. -/
abbrev Trace (A : Q → Type) := List (Sigma A)

/-! ## Runs -/

/-- The trace `tr` leads the program to the result `b`. -/
def Runs : Prog A α → Trace A → α → Prop
  | .done a, tr, b => tr = [] ∧ b = a
  | .ask q k, tr, b => ∃ x rest, tr = ⟨q, x⟩ :: rest ∧ Runs (k x) rest b

@[simp] theorem runs_pure {a b : α} {tr : Trace A} :
    Runs (pure a : Prog A α) tr b ↔ tr = [] ∧ b = a := Iff.rfl

@[simp] theorem runs_request {q : Q} {tr : Trace A} {x : A q} :
    Runs (request q) tr x ↔ tr = [⟨q, x⟩] := by
  refine ⟨?_, ?_⟩
  · intro h
    obtain ⟨y, rest, rfl, rfl, rfl⟩ := h
    rfl
  · rintro rfl; exact ⟨x, [], rfl, rfl, rfl⟩

theorem runs_bind {p : Prog A α} {f : α → Prog A β} {tr : Trace A} {b : β} :
    Runs (p >>= f) tr b ↔ ∃ t₁ a t₂, tr = t₁ ++ t₂ ∧ Runs p t₁ a ∧ Runs (f a) t₂ b := by
  induction p generalizing tr with
  | done a =>
    refine ⟨?_, ?_⟩
    · intro h; exact ⟨[], a, tr, rfl, ⟨rfl, rfl⟩, h⟩
    · intro h
      obtain ⟨_, _, t₂, rfl, ⟨rfl, rfl⟩, h⟩ := h
      exact h
  | ask q k ih =>
    refine ⟨?_, ?_⟩
    · intro h
      obtain ⟨x, rest, rfl, h⟩ := h
      obtain ⟨t₁, a, t₂, rfl, h₁, h₂⟩ := (ih x).mp h
      exact ⟨⟨q, x⟩ :: t₁, a, t₂, rfl, ⟨x, t₁, rfl, h₁⟩, h₂⟩
    · intro h
      obtain ⟨_, a, t₂, rfl, ⟨x, t₁, rfl, h₁⟩, h₂⟩ := h
      exact ⟨x, t₁ ++ t₂, rfl, (ih x).mpr ⟨t₁, a, t₂, rfl, h₁, h₂⟩⟩

/-- A request first: the run starts with its answer. -/
theorem runs_request_bind {q : Q} {f : A q → Prog A β} {tr : Trace A} {b : β} :
    Runs (request q >>= f) tr b ↔ ∃ x rest, tr = ⟨q, x⟩ :: rest ∧ Runs (f x) rest b := Iff.rfl

theorem runs_map {f : α → β} {p : Prog A α} {tr : Trace A} {b : β} :
    Runs (f <$> p) tr b ↔ ∃ a, Runs p tr a ∧ b = f a := by
  change Runs (p >>= fun a => pure (f a)) tr b ↔ _
  rw [runs_bind]
  refine ⟨?_, ?_⟩
  · rintro ⟨t₁, a, _, rfl, h, rfl, rfl⟩; exact ⟨a, by simpa using h, rfl⟩
  · rintro ⟨a, h, rfl⟩; exact ⟨tr, a, [], by simp, h, rfl, rfl⟩

/-! ## Programs that may fail -/

/-- Binding a program that may fail: its failure is the result, or the rest runs. -/
theorem runs_except_bind {p : ExceptT ε (Prog A) α} {f : α → ExceptT ε (Prog A) β}
    {tr : Trace A} {r : Except ε β} :
    Runs (p >>= f).run tr r ↔
      (∃ e, r = .error e ∧ Runs p.run tr (.error e)) ∨
      ∃ t₁ a t₂, tr = t₁ ++ t₂ ∧ Runs p.run t₁ (.ok a) ∧ Runs (f a).run t₂ r := by
  rw [ExceptT.run_bind, runs_bind]
  refine ⟨?_, ?_⟩
  · intro h
    obtain ⟨t₁, x, t₂, rfl, h₁, h₂⟩ := h
    cases x with
    | error e =>
      obtain ⟨rfl, rfl⟩ := h₂
      exact .inl ⟨e, rfl, by simpa using h₁⟩
    | ok a => exact .inr ⟨t₁, a, t₂, rfl, h₁, h₂⟩
  · intro h
    obtain ⟨e, rfl, h⟩ | ⟨t₁, a, t₂, rfl, h₁, h₂⟩ := h
    · exact ⟨tr, _, [], by simp, h, rfl, rfl⟩
    · exact ⟨t₁, _, t₂, rfl, h₁, h₂⟩

/-- What succeeds has succeeded in every step. -/
theorem runs_ok_bind {p : ExceptT ε (Prog A) α} {f : α → ExceptT ε (Prog A) β} {tr : Trace A} {b : β} :
    Runs (p >>= f).run tr (.ok b) ↔
      ∃ t₁ a t₂, tr = t₁ ++ t₂ ∧ Runs p.run t₁ (.ok a) ∧ Runs (f a).run t₂ (.ok b) := by
  rw [runs_except_bind]
  refine ⟨?_, ?_⟩
  · intro h
    obtain ⟨e, he, -⟩ | h := h
    · cases he
    · exact h
  · exact Or.inr

/-- A program whose success is only mapped on: the result is the mapped answer. -/
theorem runs_except_map {p : Prog A (Except ε α)} {f : α → β} {tr : Trace A} {r : Except ε β} :
    Runs (ExceptT.mk p >>= fun x => pure (f x)).run tr r ↔ ∃ x, Runs p tr x ∧ r = x.map f := by
  rw [runs_except_bind]
  refine ⟨?_, ?_⟩
  · intro h
    obtain ⟨e, rfl, h⟩ | ⟨t₁, a, _, rfl, h, rfl, rfl⟩ := h
    · exact ⟨.error e, h, rfl⟩
    · exact ⟨.ok a, by simpa using h, rfl⟩
  · intro h
    obtain ⟨x, h, rfl⟩ := h
    cases x with
    | error e => exact .inl ⟨e, rfl, h⟩
    | ok a => exact .inr ⟨tr, a, [], by simp, h, rfl, rfl⟩

/-- A step that is settled without a request. -/
theorem runs_settled_bind {x : Except ε α} {f : α → ExceptT ε (Prog A) β} {tr : Trace A}
    {r : Except ε β} : Runs (ExceptT.mk (pure x : Prog A (Except ε α)) >>= f).run tr r ↔
      (∃ e, x = .error e ∧ tr = [] ∧ r = .error e) ∨ ∃ a, x = .ok a ∧ Runs (f a).run tr r := by
  cases x with
  | error e =>
    refine ⟨?_, ?_⟩
    · rintro ⟨rfl, rfl⟩; exact .inl ⟨e, rfl, rfl, rfl⟩
    · intro h
      obtain ⟨_, h, rfl, rfl⟩ | ⟨_, h, _⟩ := h
      · cases h; exact ⟨rfl, rfl⟩
      · cases h
  | ok a =>
    refine ⟨?_, ?_⟩
    · intro h; exact .inr ⟨a, rfl, h⟩
    · intro h
      obtain ⟨_, h, _⟩ | ⟨_, ha, h⟩ := h
      · cases h
      · cases ha; exact h

/-- A step that cannot fail. -/
theorem runs_lift_bind {p : Prog A α} {f : α → ExceptT ε (Prog A) β} {tr : Trace A}
    {r : Except ε β} : Runs (ExceptT.lift p >>= f).run tr r ↔
      ∃ t₁ a t₂, tr = t₁ ++ t₂ ∧ Runs p t₁ a ∧ Runs (f a).run t₂ r := by
  rw [runs_except_bind]
  refine ⟨?_, ?_⟩
  · intro h
    obtain ⟨e, _, h⟩ | ⟨t₁, a, t₂, rfl, h₁, h₂⟩ := h
    · obtain ⟨a, _, ha⟩ := runs_map.mp h
      cases ha
    · obtain ⟨a', h₁, ha⟩ := runs_map.mp h₁
      cases ha
      exact ⟨t₁, a, t₂, rfl, h₁, h₂⟩
  · intro h
    obtain ⟨t₁, a, t₂, rfl, h₁, h₂⟩ := h
    exact .inr ⟨t₁, a, t₂, rfl, runs_map.mpr ⟨a, h₁, rfl⟩, h₂⟩

/-- Where every request can be answered, every program has a run. -/
theorem exists_run (hA : ∀ q, Nonempty (A q)) : ∀ (p : Prog A α), ∃ tr a, Runs p tr a
  | .done a => ⟨[], a, rfl, rfl⟩
  | .ask q k => by
    obtain ⟨x⟩ := hA q
    obtain ⟨tr, a, h⟩ := exists_run hA (k x)
    exact ⟨⟨q, x⟩ :: tr, a, x, tr, rfl, h⟩

/-! ## What a program asks for -/

/-- Whatever is answered, the program makes requests in `P` only. -/
def Asks (P : Q → Prop) : Prog A α → Prop
  | .done _ => True
  | .ask q k => P q ∧ ∀ x, Asks P (k x)

section
variable {P : Q → Prop}

theorem asks_pure (a : α) : Asks P (pure a : Prog A α) := trivial

theorem asks_request {q : Q} (h : P q) : Asks P (request q : Prog A (A q)) :=
  ⟨h, fun _ => trivial⟩

theorem asks_bind {p : Prog A α} {f : α → Prog A β} (hp : Asks P p) (hf : ∀ a, Asks P (f a)) :
    Asks P (p >>= f) := by
  induction p with
  | done a => exact hf a
  | ask q k ih => exact ⟨hp.1, fun x => ih x (hp.2 x)⟩

theorem asks_except_bind {p : ExceptT ε (Prog A) α} {f : α → ExceptT ε (Prog A) β}
    (hp : Asks P p.run) (hf : ∀ a, Asks P (f a).run) : Asks P (p >>= f).run := by
  rw [ExceptT.run_bind]
  refine asks_bind hp (fun x => ?_)
  cases x with
  | error e => exact trivial
  | ok a => exact hf a

theorem Asks.runs : ∀ {p : Prog A α} {tr : Trace A} {a : α}, Asks P p → Runs p tr a →
    ∀ e ∈ tr, P e.1
  | .done _, _, _, _, ⟨rfl, _⟩, _, he => by simp at he
  | .ask q k, _, _, hp, ⟨x, rest, rfl, h⟩, e, he => by
    rcases List.mem_cons.mp he with rfl | he
    · exact hp.1
    · exact (hp.2 x).runs h e he

theorem Asks.mono {P' : Q → Prop} (h : ∀ q, P q → P' q) : ∀ {p : Prog A α}, Asks P p → Asks P' p
  | .done _, _ => trivial
  | .ask q _, hp => ⟨h q hp.1, fun x => (hp.2 x).mono h⟩

/-- Where every request can be answered, what holds of all runs holds of all requests. -/
theorem asks_of_runs (hA : ∀ q, Nonempty (A q)) : ∀ {p : Prog A α},
    (∀ tr a, Runs p tr a → ∀ e ∈ tr, P e.1) → Asks P p
  | .done _, _ => trivial
  | .ask q k, h => by
    have hrest : ∀ x tr a, Runs (k x) tr a → ∀ e ∈ (⟨q, x⟩ :: tr : Trace A), P e.1 :=
      fun x tr a hrun => h _ a ⟨x, tr, rfl, hrun⟩
    refine ⟨?_, fun x => asks_of_runs hA (fun tr a hrun e he => hrest x tr a hrun e (List.mem_cons_of_mem _ he))⟩
    obtain ⟨x⟩ := hA q
    obtain ⟨tr, a, hrun⟩ := exists_run hA (k x)
    exact hrest x tr a hrun ⟨q, x⟩ (List.mem_cons_self ..)

end

/-! ## The last word of a trace -/

/-- What `f` sees in the last event it sees something in. -/
def lastSeen (f : Sigma A → Option β) (tr : Trace A) : Option β := (tr.filterMap f).getLast?

section
variable {f : Sigma A → Option β}

theorem lastSeen_append (t₁ t₂ : Trace A) :
    lastSeen f (t₁ ++ t₂) = (lastSeen f t₂).or (lastSeen f t₁) := by
  simp [lastSeen, List.filterMap_append, List.getLast?_append]

theorem lastSeen_cons (e : Sigma A) (tr : Trace A) :
    lastSeen f (e :: tr) = (lastSeen f tr).or (f e) := by
  rw [← List.singleton_append, lastSeen_append]
  cases h : f e <;> simp [lastSeen, h]

/-- What is seen at the end is what is seen. -/
theorem lastSeen_append_some {t₁ t₂ : Trace A} {b : β} (h : lastSeen f t₂ = some b) :
    lastSeen f (t₁ ++ t₂) = some b := by
  rw [lastSeen_append, h, Option.some_or]

/-- What is seen in the middle only is what is seen. -/
theorem lastSeen_middle {t₀ t₁ t₂ : Trace A} (h₀ : lastSeen f t₀ = none) (h₂ : lastSeen f t₂ = none) :
    lastSeen f (t₀ ++ (t₁ ++ t₂)) = lastSeen f t₁ := by
  calc lastSeen f (t₀ ++ (t₁ ++ t₂))
      = ((lastSeen f t₂).or (lastSeen f t₁)).or (lastSeen f t₀) := by
        rw [lastSeen_append, lastSeen_append]
    _ = lastSeen f t₁ := by rw [h₀, h₂, Option.or_none, Option.none_or]

theorem lastSeen_mem {tr : Trace A} {b : β} (h : lastSeen f tr = some b) : ∃ e ∈ tr, f e = some b :=
  List.mem_filterMap.mp (List.mem_of_getLast? h)

theorem lastSeen_none {tr : Trace A} (h : ∀ e ∈ tr, f e = none) : lastSeen f tr = none := by
  simp [lastSeen, List.filterMap_eq_nil_iff.mpr h]

end

/-! ## Replaying a trace -/

/-- Follow a trace: the result it leads to, if the program asks for exactly its requests. -/
def replay [DecidableEq Q] : Prog A α → Trace A → Option α
  | .done a, [] => some a
  | .done _, _ :: _ => none
  | .ask _ _, [] => none
  | .ask q k, ⟨q', x⟩ :: rest => if h : q' = q then replay (k (h ▸ x)) rest else none

theorem runs_of_replay [DecidableEq Q] : ∀ {p : Prog A α} {tr : Trace A} {a : α},
    replay p tr = some a → Runs p tr a
  | .done _, [], _, h => ⟨rfl, (Option.some.inj h).symm⟩
  | .ask q k, ⟨q', x⟩ :: rest, a, h => by
    simp only [replay] at h
    split at h
    · next hq =>
      subst hq
      exact ⟨x, rest, rfl, runs_of_replay h⟩
    · contradiction

/-! ## Runs that are cut short -/

/-- The program can have made exactly the requests `tr`, whether it went on or not. -/
def Reaches : Prog A α → Trace A → Prop
  | .done _, tr => tr = []
  | .ask q k, tr => tr = [] ∨ ∃ x rest, tr = ⟨q, x⟩ :: rest ∧ Reaches (k x) rest

theorem Reaches.nil : ∀ (p : Prog A α), Reaches p []
  | .done _ => rfl
  | .ask _ _ => .inl rfl

theorem Runs.reaches : ∀ {p : Prog A α} {tr : Trace A} {a : α}, Runs p tr a → Reaches p tr
  | .done _, _, _, h => h.1
  | .ask _ _, _, _, ⟨x, rest, e, h⟩ => .inr ⟨x, rest, e, h.reaches⟩

/-- The trace leads from the one program to what is left of it. -/
def Leads : Trace A → Prog A α → Prog A α → Prop
  | [], p, p' => p' = p
  | _ :: _, .done _, _ => False
  | e :: rest, .ask q k, p' => ∃ x, e = ⟨q, x⟩ ∧ Leads rest (k x) p'

theorem Runs.leads {f : α → Prog A β} {a : α} : ∀ {p : Prog A α} {tr : Trace A}, Runs p tr a →
    Leads tr (p >>= f) (f a)
  | .done _, _, ⟨rfl, rfl⟩ => rfl
  | .ask _ _, _, ⟨x, _, rfl, h⟩ => ⟨x, rfl, h.leads⟩

theorem Leads.trans : ∀ {t₁ t₂ : Trace A} {p p₁ p₂ : Prog A α}, Leads t₁ p p₁ → Leads t₂ p₁ p₂ →
    Leads (t₁ ++ t₂) p p₂
  | [], _, _, _, _, rfl, h₂ => h₂
  | _ :: _, _, .ask _ _, _, _, ⟨x, rfl, h₁⟩, h₂ => ⟨x, rfl, h₁.trans h₂⟩

theorem Leads.split : ∀ {t₁ t₂ : Trace A} {p p₂ : Prog A α}, Leads (t₁ ++ t₂) p p₂ →
    ∃ p₁, Leads t₁ p p₁ ∧ Leads t₂ p₁ p₂
  | [], _, _, _, h => ⟨_, rfl, h⟩
  | _ :: _, _, .ask _ _, _, ⟨x, hx, h⟩ => by
    obtain ⟨p₁, h₁, h₂⟩ := h.split
    exact ⟨p₁, ⟨x, hx, h₁⟩, h₂⟩

theorem leads_done {p : Prog A α} {tr : Trace A} {a : α} : Leads tr p (.done a) ↔ Runs p tr a := by
  induction p generalizing tr with
  | done b =>
    cases tr with
    | nil =>
      refine ⟨?_, ?_⟩
      · intro h; cases h; exact ⟨rfl, rfl⟩
      · intro h; rw [h.2]; rfl
    | cons e rest =>
      refine ⟨?_, ?_⟩
      · intro h; exact h.elim
      · intro h; cases h.1
  | ask q k ih =>
    cases tr with
    | nil =>
      refine ⟨?_, ?_⟩
      · intro h; cases h
      · intro h
        obtain ⟨_, _, h, _⟩ := h
        cases h
    | cons e rest =>
      refine ⟨?_, ?_⟩
      · intro h
        obtain ⟨x, rfl, h⟩ := h
        exact ⟨x, rest, rfl, (ih x).mp h⟩
      · intro h
        obtain ⟨x, _, h, hrest⟩ := h
        cases h
        exact ⟨x, rfl, (ih x).mpr hrest⟩

/-! ## Results against a known surrounding -/

/-- The program can return `b` while every answer it gets is one `R` allows. -/
def Returns (R : ∀ q, A q → Prop) : Prog A α → α → Prop
  | .done a, b => b = a
  | .ask q k, b => ∃ x, R q x ∧ Returns R (k x) b

variable {R : ∀ q, A q → Prop}

@[simp] theorem returns_pure {a b : α} : Returns R (pure a : Prog A α) b ↔ b = a := Iff.rfl

@[simp] theorem returns_request {q : Q} {x : A q} : Returns R (request q) x ↔ R q x := by
  simp [request, Returns]

theorem returns_bind {p : Prog A α} {f : α → Prog A β} {b : β} :
    Returns R (p >>= f) b ↔ ∃ a, Returns R p a ∧ Returns R (f a) b := by
  induction p with
  | done a =>
    refine ⟨?_, ?_⟩
    · intro h; exact ⟨a, rfl, h⟩
    · intro h
      obtain ⟨_, rfl, h⟩ := h
      exact h
  | ask q k ih =>
    refine ⟨?_, ?_⟩
    · intro h
      obtain ⟨x, hx, h⟩ := h
      obtain ⟨a, h₁, h₂⟩ := (ih x).mp h
      exact ⟨a, ⟨x, hx, h₁⟩, h₂⟩
    · intro h
      obtain ⟨a, ⟨x, hx, h₁⟩, h₂⟩ := h
      exact ⟨x, hx, (ih x).mpr ⟨a, h₁, h₂⟩⟩

theorem returns_except_bind {p : ExceptT ε (Prog A) α} {f : α → ExceptT ε (Prog A) β}
    {r : Except ε β} :
    Returns R (p >>= f).run r ↔
      (∃ e, r = .error e ∧ Returns R p.run (.error e)) ∨
      ∃ a, Returns R p.run (.ok a) ∧ Returns R (f a).run r := by
  rw [ExceptT.run_bind, returns_bind]
  refine ⟨?_, ?_⟩
  · intro h
    obtain ⟨x, h₁, h₂⟩ := h
    cases x with
    | error e => exact .inl ⟨e, h₂, h₁⟩
    | ok a => exact .inr ⟨a, h₁, h₂⟩
  · intro h
    obtain ⟨e, rfl, h⟩ | ⟨a, h₁, h₂⟩ := h
    · exact ⟨_, h, rfl⟩
    · exact ⟨_, h₁, h₂⟩

/-- What succeeds has succeeded in every step. -/
theorem returns_ok_bind {p : ExceptT ε (Prog A) α} {f : α → ExceptT ε (Prog A) β} {b : β} :
    Returns R (p >>= f).run (.ok b) ↔ ∃ a, Returns R p.run (.ok a) ∧ Returns R (f a).run (.ok b) := by
  rw [returns_except_bind]
  refine ⟨?_, Or.inr⟩
  intro h
  obtain ⟨_, he, -⟩ | h := h
  · cases he
  · exact h

theorem returns_map {f : α → β} {p : Prog A α} {b : β} :
    Returns R (f <$> p) b ↔ ∃ a, Returns R p a ∧ b = f a := by
  change Returns R (p >>= fun a => pure (f a)) b ↔ _
  simp only [returns_bind, returns_pure]

theorem returns_settled_bind {x : Except ε α} {f : α → ExceptT ε (Prog A) β} {r : Except ε β} :
    Returns R (ExceptT.mk (pure x : Prog A (Except ε α)) >>= f).run r ↔
      (∃ e, x = .error e ∧ r = .error e) ∨ ∃ a, x = .ok a ∧ Returns R (f a).run r := by
  cases x with
  | error e =>
    refine ⟨?_, ?_⟩
    · rintro rfl; exact .inl ⟨e, rfl, rfl⟩
    · intro h
      obtain ⟨_, h, rfl⟩ | ⟨_, h, _⟩ := h
      · cases h; rfl
      · cases h
  | ok a =>
    refine ⟨?_, ?_⟩
    · intro h; exact .inr ⟨a, rfl, h⟩
    · intro h
      obtain ⟨_, h, _⟩ | ⟨_, ha, h⟩ := h
      · cases h
      · cases ha; exact h

theorem returns_ok_step {a : α} {f : α → ExceptT ε (Prog A) β} {r : Except ε β} :
    Returns R (ExceptT.mk (pure (.ok a) : Prog A (Except ε α)) >>= f).run r ↔ Returns R (f a).run r :=
  Iff.rfl

theorem returns_lift_bind {p : Prog A α} {f : α → ExceptT ε (Prog A) β} {r : Except ε β} :
    Returns R (ExceptT.lift p >>= f).run r ↔ ∃ a, Returns R p a ∧ Returns R (f a).run r := by
  rw [returns_except_bind]
  refine ⟨?_, ?_⟩
  · intro h
    obtain ⟨e, _, h⟩ | ⟨a, h₁, h₂⟩ := h
    · obtain ⟨a, _, ha⟩ := returns_map.mp h
      cases ha
    · obtain ⟨a', h₁, ha⟩ := returns_map.mp h₁
      cases ha
      exact ⟨a, h₁, h₂⟩
  · intro h
    obtain ⟨a, h₁, h₂⟩ := h
    exact .inr ⟨a, returns_map.mpr ⟨a, h₁, rfl⟩, h₂⟩

/-- A surrounding that answers every request lets every program return. -/
theorem returns_total (hR : ∀ q, ∃ x, R q x) : ∀ (p : Prog A α), ∃ a, Returns R p a
  | .done a => ⟨a, rfl⟩
  | .ask q k => by
    obtain ⟨x, hx⟩ := hR q
    obtain ⟨a, ha⟩ := returns_total hR (k x)
    exact ⟨a, x, hx, ha⟩

/-! ## Requests carried out by other programs -/

section
variable {Q' : Type} {B : Q' → Type}

theorem bind_assoc_prog {p : Prog A α} {f : α → Prog A β} {γ : Type} {g : β → Prog A γ} :
    (p >>= f) >>= g = p >>= fun a => f a >>= g := by
  induction p with
  | done a => rfl
  | ask q k ih => exact congrArg (Prog.ask q) (funext ih)

theorem bind_pure_prog {p : Prog A α} : p >>= pure = p := by
  induction p with
  | done a => rfl
  | ask q k ih => exact congrArg (Prog.ask q) (funext ih)

/-- The program with each of its requests carried out by a program over other requests. -/
def lower (h : ∀ q, Prog B (A q)) : Prog A α → Prog B α
  | .done a => .done a
  | .ask q k => h q >>= fun x => lower h (k x)

variable {h : ∀ q, Prog B (A q)}

theorem lower_request {q : Q} : lower h (request q) = h q := bind_pure_prog

theorem lower_bind {p : Prog A α} {f : α → Prog A β} :
    lower h (p >>= f) = lower h p >>= fun a => lower h (f a) := by
  induction p with
  | done a => rfl
  | ask q k ih =>
    calc lower h (Prog.ask q k >>= f)
        = h q >>= fun x => lower h (k x >>= f) := rfl
      _ = h q >>= fun x => lower h (k x) >>= fun a => lower h (f a) := by simp only [ih]
      _ = lower h (Prog.ask q k) >>= fun a => lower h (f a) := bind_assoc_prog.symm

theorem lower_map {f : α → β} {p : Prog A α} : lower h (f <$> p) = f <$> lower h p := lower_bind

theorem lower_lower {Q'' : Type} {C : Q'' → Type} {g : ∀ q, Prog C (B q)} {p : Prog A α} :
    lower g (lower h p) = lower (fun q => lower g (h q)) p := by
  induction p with
  | done a => rfl
  | ask q k ih =>
    calc lower g (h q >>= fun x => lower h (k x))
        = lower g (h q) >>= fun x => lower g (lower h (k x)) := lower_bind
      _ = lower (fun q => lower g (h q)) (Prog.ask q k) := by simp only [ih]; rfl

/-- Requests that are carried out as they are. -/
theorem lower_as_is {p : Prog A α} : lower (fun q => request q) p = p := by
  induction p with
  | done a => rfl
  | ask q k ih => exact congrArg (Prog.ask q) (funext ih)

theorem lower_except_bind {p : ExceptT ε (Prog A) α} {f : α → ExceptT ε (Prog A) β} :
    lower h (p >>= f).run =
      (ExceptT.mk (lower h p.run) >>= fun a => ExceptT.mk (lower h (f a).run)).run := by
  rw [ExceptT.run_bind, ExceptT.run_bind, lower_bind]
  change _ = lower h p.run >>= _
  congr 1
  funext x
  cases x with
  | error e => rfl
  | ok a => rfl

theorem asks_lower {P : Q → Prop} {P' : Q' → Prop} (hcalls : ∀ q, P q → Asks P' (h q)) :
    ∀ {p : Prog A α}, Asks P p → Asks P' (lower h p)
  | .done _, _ => trivial
  | .ask q _, hp => asks_bind (hcalls q hp.1) (fun x => asks_lower hcalls (hp.2 x))

/-- The one trace carries out the other, request by request. -/
def CarriedOut (h : ∀ q, Prog B (A q)) : Trace A → Trace B → Prop
  | [], tr => tr = []
  | e :: rest, tr => ∃ t₁ t₂, tr = t₁ ++ t₂ ∧ Runs (h e.1) t₁ e.2 ∧ CarriedOut h rest t₂

theorem CarriedOut.mem : ∀ {t : Trace A} {tr : Trace B} {e : Sigma A}, CarriedOut h t tr → e ∈ t →
    ∃ t', Runs (h e.1) t' e.2 ∧ t' ⊆ tr
  | _ :: _, _, _, ⟨t₁, t₂, rfl, hfirst, hrest⟩, he => by
    obtain rfl | he := List.mem_cons.mp he
    · exact ⟨t₁, hfirst, List.subset_append_left _ _⟩
    · obtain ⟨t', hruns, hsub⟩ := hrest.mem he
      exact ⟨t', hruns, List.Subset.trans hsub (List.subset_append_right _ _)⟩

theorem CarriedOut.append {t' : Trace A} {tr' : Trace B} : ∀ {t : Trace A} {tr : Trace B},
    CarriedOut h t tr → CarriedOut h t' tr' → CarriedOut h (t ++ t') (tr ++ tr')
  | [], _, rfl, h' => h'
  | _ :: _, _, ⟨t₁, t₂, rfl, hfirst, hrest⟩, h' =>
    ⟨t₁, t₂ ++ tr', List.append_assoc .., hfirst, hrest.append h'⟩

theorem runs_lower {tr : Trace B} {a : α} : ∀ {p : Prog A α},
    Runs (lower h p) tr a ↔ ∃ t, Runs p t a ∧ CarriedOut h t tr := by
  intro p
  induction p generalizing tr with
  | done b =>
    refine ⟨?_, ?_⟩
    · intro hrun; exact ⟨[], ⟨rfl, hrun.2⟩, hrun.1⟩
    · intro hrun
      obtain ⟨t, ⟨rfl, rfl⟩, rfl⟩ := hrun
      exact ⟨rfl, rfl⟩
  | ask q k ih =>
    refine ⟨?_, ?_⟩
    · intro hrun
      obtain ⟨t₁, x, t₂, rfl, hq, hrest⟩ := runs_bind.mp hrun
      obtain ⟨t, hk, hcarried⟩ := (ih x).mp hrest
      exact ⟨⟨q, x⟩ :: t, ⟨x, t, rfl, hk⟩, t₁, t₂, rfl, hq, hcarried⟩
    · intro hrun
      obtain ⟨_, ⟨x, t, rfl, hk⟩, t₁, t₂, rfl, hq, hcarried⟩ := hrun
      exact runs_bind.mpr ⟨t₁, x, t₂, rfl, hq, (ih x).mpr ⟨t, hk, hcarried⟩⟩

end

end Interaction
