import Cryptile.Lib.CrashLogic
import Cryptile.Lib.Within

/-
  Safety — an invariant of a program that may be stopped anywhere, from its requests

  Where an invariant is kept by every step on the requests that a program makes, the
  program keeps it. What can be answered in the states of the invariant (`answersIn`)
  is then what the program is answered, and what it returns. Requests that are asked
  only in the light of earlier answers are `AsksWithin`; with it a program whose
  requests are carried out by other programs is safe as soon as each of those is.
-/

namespace Interaction

variable {Q Q' : Type} {A : Q → Type} {B : Q' → Type} {S T α β ε : Type}
  {step : S → Sigma A → S → Prop} {post : α → S → Prop} {crash I : S → Prop} {s s' : S}

/-! ## Rules -/

theorem Safe.here : ∀ {p : Prog A α}, Safe step post crash p s → crash s
  | .done _, h => h.2
  | .ask _ _, h => h.1

/-- A step that is settled without a request. -/
theorem safe_settled_bind {x : Except ε α} {f : α → ExceptT ε (Prog A) β} {post : Except ε β → S → Prop}
    (hcrash : crash s) (herror : ∀ e, x = .error e → post (.error e) s)
    (hok : ∀ a, x = .ok a → Safe step post crash (f a).run s) :
    Safe step post crash (ExceptT.mk (pure x : Prog A (Except ε α)) >>= f).run s := by
  cases x with
  | error e => exact safe_pure (herror e rfl) hcrash
  | ok a => exact hok a rfl

/-- The steps of a machine that is a function. -/
theorem steps_fold {f : S → Sigma A → S} {tr : Trace A} :
    Steps (fun s e s' => s' = f s e) s tr s' ↔ s' = tr.foldl f s := by
  induction tr generalizing s with
  | nil => exact Iff.rfl
  | cons e rest ih =>
    refine ⟨?_, ?_⟩
    · rintro ⟨_, rfl, hrest⟩
      exact ih.mp hrest
    · intro h
      exact ⟨_, rfl, ih.mpr h⟩

/-- What keeps the invariant at each request keeps it. -/
theorem safe_of_asks {P : Q → Prop} (hstep : ∀ q x s s', P q → I s → step s ⟨q, x⟩ s' → I s') :
    ∀ {p : Prog A α} {s : S}, Asks P p → I s → Safe step (fun _ s' => I s') I p s
  | .done _, _, _, hs => ⟨hs, hs⟩
  | .ask q _, s, hp, hs =>
    ⟨hs, fun x s' h => safe_of_asks hstep (hp.2 x) (hstep q x s s' hp.1 hs h)⟩

/-- A finer step that another one follows is as safe as that. -/
theorem Safe.simulate {fine : T → Sigma A → T → Prop} {sim : T → S → Prop}
    (hsim : ∀ t s e t', sim t s → fine t e t' → ∃ s', step s e s' ∧ sim t' s') :
    ∀ {p : Prog A α} {s : S} {t : T}, Safe step post crash p s → sim t s →
      Safe fine (fun a t' => ∃ s', post a s' ∧ sim t' s') (fun t' => ∃ s', crash s' ∧ sim t' s') p t
  | .done _, s, _, h, ht => ⟨⟨s, h.1, ht⟩, ⟨s, h.2, ht⟩⟩
  | .ask q _, s, t, h, ht => ⟨⟨s, h.1, ht⟩, fun x t' hstep => by
      obtain ⟨s', hs', ht'⟩ := hsim t s ⟨q, x⟩ t' ht hstep
      exact (h.2 x s' hs').simulate hsim ht'⟩

/-- A program is as safe as its requests are carried out. -/
theorem Safe.lower {h : ∀ q, Prog B (A q)} {fine : S → Sigma B → S → Prop}
    (hcalls : ∀ q s (after : A q → S → Prop), crash s →
      (∀ x s', step s ⟨q, x⟩ s' → after x s' ∧ crash s') → Safe fine after crash (h q) s) :
    ∀ {p : Prog A α} {s : S}, Safe step post crash p s → Safe fine post crash (lower h p) s
  | .done _, _, hp => hp
  | .ask q k, s, hp => by
    refine safe_bind (hcalls q s (fun x s' => Safe step post crash (k x) s') hp.1 ?_) ?_
    · exact fun x s' hstep => ⟨hp.2 x s' hstep, (hp.2 x s' hstep).here⟩
    · exact fun x s' hx => hx.lower hcalls

/-! ## What is answered -/

/-- What can be answered in the states of an invariant. -/
def answersIn (step : S → Sigma A → S → Prop) (I : S → Prop) (q : Q) (x : A q) : Prop :=
  ∃ s s', I s ∧ step s ⟨q, x⟩ s'

theorem Safe.returns : ∀ {p : Prog A α} {s : S}, Safe step post crash p s →
    Safe step (fun a s' => post a s' ∧ Returns (answersIn step crash) p a) crash p s
  | .done _, _, h => ⟨⟨h.1, rfl⟩, h.2⟩
  | .ask _ _, s, h => ⟨h.1, fun x s' hstep =>
      (h.2 x s' hstep).returns.mono (fun _ _ ha => ⟨ha.1, x, ⟨s, s', h.1, hstep⟩, ha.2⟩) (fun _ hs => hs)⟩

theorem Safe.within : ∀ {p : Prog A α} {tr : Trace A} {s : S}, Safe step post crash p s → Reaches p tr →
    Steps step s tr s' → Within (answersIn step crash) tr
  | .done _, _, _, _, rfl, _ => within_nil
  | .ask _ _, _, _, _, .inl rfl, _ => within_nil
  | .ask _ _, _, s, h, .inr ⟨_, _, rfl, hreach⟩, ⟨mid, hstep, hrest⟩ =>
    within_cons.mpr ⟨⟨s, mid, h.1, hstep⟩, (h.2 _ mid hstep).within hreach hrest⟩

/-- A program that ends, and the steps that it takes. -/
def Ends (step : S → Sigma A → S → Prop) (p : Prog A α) (s : S) (a : α) (s' : S) : Prop :=
  ∃ tr, Runs p tr a ∧ Steps step s tr s'

theorem ends_pure {a b : α} : Ends step (pure a : Prog A α) s b s' ↔ b = a ∧ s' = s := by
  refine ⟨?_, ?_⟩
  · rintro ⟨_, ⟨rfl, rfl⟩, hsteps⟩
    exact ⟨rfl, hsteps⟩
  · rintro ⟨rfl, rfl⟩
    exact ⟨[], ⟨rfl, rfl⟩, rfl⟩

theorem ends_request {q : Q} {x : A q} (h : step s ⟨q, x⟩ s') :
    Ends step (request q : Prog A (A q)) s x s' :=
  ⟨[⟨q, x⟩], runs_request.mpr rfl, s', h, rfl⟩

theorem Ends.bind {p : Prog A α} {f : α → Prog A β} {a : α} {b : β} {mid : S}
    (hp : Ends step p s a mid) (hf : Ends step (f a) mid b s') : Ends step (p >>= f) s b s' := by
  obtain ⟨t₀, hrun₀, hsteps₀⟩ := hp
  obtain ⟨t₁, hrun₁, hsteps₁⟩ := hf
  exact ⟨t₀ ++ t₁, runs_bind.mpr ⟨t₀, a, t₁, rfl, hrun₀, hrun₁⟩, steps_append.mpr ⟨mid, hsteps₀, hsteps₁⟩⟩

theorem Ends.map {p : Prog A α} {f : α → β} {a : α} (h : Ends step p s a s') :
    Ends step (f <$> p) s (f a) s' := h.bind (ends_pure.mpr ⟨rfl, rfl⟩)

/-- Where the requests are carried out by programs, so is the way. -/
theorem Ends.lower {h : ∀ q, Prog B (A q)} {fine : S → Sigma B → S → Prop} {p : Prog A α} {a : α} :
    ∀ {s : S}, Ends (fun s e s' => Ends fine (h e.1) s e.2 s') p s a s' →
      Ends fine (lower h p) s a s' := by
  induction p with
  | done b =>
    rintro s ⟨_, ⟨rfl, rfl⟩, hsteps⟩
    exact ⟨[], ⟨rfl, rfl⟩, hsteps⟩
  | ask q k ih =>
    rintro s ⟨_, ⟨x, tr, rfl, hrun⟩, mid, hstep, hsteps⟩
    exact Ends.bind hstep (ih x ⟨tr, hrun, hsteps⟩)

/-- A surrounding that has a step for every request leads every program to an end. -/
theorem exists_ends (htotal : ∀ s q, ∃ x s', step s ⟨q, x⟩ s') : ∀ (p : Prog A α) (s : S),
    ∃ a s', Ends step p s a s'
  | .done a, s => ⟨a, s, ends_pure.mpr ⟨rfl, rfl⟩⟩
  | .ask q k, s => by
    obtain ⟨x, mid, hstep⟩ := htotal s q
    obtain ⟨a, s', hrest⟩ := exists_ends htotal (k x) mid
    exact ⟨a, s', (ends_request hstep).bind hrest⟩

/-! ## Requests in the light of earlier answers -/

/-- While what is answered is within `R`, the program makes requests in `P` only. -/
def AsksWithin (R : ∀ q, A q → Prop) (P : Q → Prop) : Prog A α → Prop
  | .done _ => True
  | .ask q k => P q ∧ ∀ x, R q x → AsksWithin R P (k x)

section
variable {R : ∀ q, A q → Prop} {P : Q → Prop}

theorem Asks.asksWithin : ∀ {p : Prog A α}, Asks P p → AsksWithin R P p
  | .done _, _ => trivial
  | .ask _ _, hp => ⟨hp.1, fun x _ => (hp.2 x).asksWithin⟩

theorem asks_of_within : ∀ {p : Prog A α}, AsksWithin (fun _ _ => True) P p → Asks P p
  | .done _, _ => trivial
  | .ask _ _, hp => ⟨hp.1, fun x => asks_of_within (hp.2 x trivial)⟩

theorem asksWithin_pure (a : α) : AsksWithin R P (pure a : Prog A α) := trivial

theorem asksWithin_request {q : Q} (h : P q) : AsksWithin R P (request q : Prog A (A q)) :=
  ⟨h, fun _ _ => trivial⟩

theorem asksWithin_bind {f : α → Prog A β} : ∀ {p : Prog A α}, AsksWithin R P p →
    (∀ a, Returns R p a → AsksWithin R P (f a)) → AsksWithin R P (p >>= f)
  | .done a, _, hf => hf a rfl
  | .ask _ _, hp, hf => ⟨hp.1, fun x hx => asksWithin_bind (hp.2 x hx) (fun a ha => hf a ⟨x, hx, ha⟩)⟩

theorem asksWithin_except_bind {p : ExceptT ε (Prog A) α} {f : α → ExceptT ε (Prog A) β}
    (hp : AsksWithin R P p.run) (hf : ∀ a, Returns R p.run (.ok a) → AsksWithin R P (f a).run) :
    AsksWithin R P (p >>= f).run := by
  rw [ExceptT.run_bind]
  refine asksWithin_bind hp (fun x hx => ?_)
  cases x with
  | error e => exact trivial
  | ok a => exact hf a hx

theorem asksWithin_settled_bind {x : Except ε α} {f : α → ExceptT ε (Prog A) β}
    (hf : ∀ a, x = .ok a → AsksWithin R P (f a).run) :
    AsksWithin R P (ExceptT.mk (pure x : Prog A (Except ε α)) >>= f).run := by
  cases x with
  | error e => exact trivial
  | ok a => exact hf a rfl

theorem AsksWithin.mono {P' : Q → Prop} (hP : ∀ q, P q → P' q) :
    ∀ {p : Prog A α}, AsksWithin R P p → AsksWithin R P' p
  | .done _, _ => trivial
  | .ask q _, hp => ⟨hP q hp.1, fun x hx => (hp.2 x hx).mono hP⟩

theorem AsksWithin.and {P' : Q → Prop} : ∀ {p : Prog A α}, AsksWithin R P p → AsksWithin R P' p →
    AsksWithin R (fun q => P q ∧ P' q) p
  | .done _, _, _ => trivial
  | .ask _ _, hp, hp' => ⟨⟨hp.1, hp'.1⟩, fun x hx => (hp.2 x hx).and (hp'.2 x hx)⟩

/-- A request is made in the light of all that was answered before it. -/
theorem AsksWithin.reaches {e : Sigma A} : ∀ {p : Prog A α} {before after : Trace A}, AsksWithin R P p →
    Reaches p (before ++ e :: after) → Within R before → P e.1
  | .done _, before, _, _, h, _ => by cases before <;> cases h
  | .ask q k, [], _, hp, h, _ => by
    obtain h | ⟨_, _, h, -⟩ := h
    · cases h
    · cases h
      exact hp.1
  | .ask q k, _ :: before, _, hp, h, hR => by
    obtain h | ⟨x, _, h, hrest⟩ := h
    · cases h
    · cases h
      obtain ⟨hx, hbefore⟩ := within_cons.mp hR
      exact (hp.2 x hx).reaches hrest hbefore

/-- Where each request is carried out within its own, so is the program. -/
theorem asksWithin_lower {h : ∀ q, Prog B (A q)} {R : ∀ q, B q → Prop} {P' : Q' → Prop}
    (hcalls : ∀ q, P q → AsksWithin R P' (h q)) :
    ∀ {p : Prog A α}, AsksWithin (carried h R) P p → AsksWithin R P' (lower h p)
  | .done _, _ => trivial
  | .ask q _, hp => asksWithin_bind (hcalls q hp.1) (fun x hx => asksWithin_lower hcalls (hp.2 x hx))

/-- Where each request is carried out safely, so is the program. -/
theorem safe_lower {h : ∀ q, Prog B (A q)} {step : S → Sigma B → S → Prop}
    (hcalls : ∀ q s, P q → I s → Safe step (fun x s' => I s' ∧ R q x) I (h q) s) :
    ∀ {p : Prog A α} {s : S}, AsksWithin R P p → I s →
      Safe step (fun a s' => I s' ∧ Returns R p a) I (lower h p) s
  | .done _, _, _, hs => ⟨⟨hs, rfl⟩, hs⟩
  | .ask q k, s, hp, hs => by
    refine safe_bind (hcalls q s hp.1 hs) ?_
    rintro x s' ⟨hs', hx⟩
    refine (safe_lower hcalls (hp.2 x hx) hs').mono ?_ (fun _ hs => hs)
    rintro a s'' ⟨hs'', ha⟩
    exact ⟨hs'', x, hx, ha⟩

end

end Interaction
