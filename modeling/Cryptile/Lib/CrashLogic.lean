import Cryptile.Lib.Interaction

/-
  CrashLogic — programs over a state that may be stopped anywhere

  A surrounding with a state: `step s e s'` says that the event `e` takes it from
  `s` to `s'`. `Safe step post crash p s` says of every run of `p` from `s` that it
  ends in `post` if it ends, and that wherever it is stopped `crash` holds. The
  rules follow the shape of a program, so a proof reads as the program does;
  `Safe.reaches` and `Safe.runs` give what they are for.
-/

namespace Interaction

variable {Q : Type} {A : Q → Type} {S α β ε : Type} {step : S → Sigma A → S → Prop}

/-- The events of the trace take the state from the first to the second. -/
def Steps (step : S → Sigma A → S → Prop) : S → Trace A → S → Prop
  | s, [], s' => s' = s
  | s, e :: tr, s' => ∃ mid, step s e mid ∧ Steps step mid tr s'

theorem steps_append {t₁ t₂ : Trace A} : ∀ {s s' : S},
    Steps step s (t₁ ++ t₂) s' ↔ ∃ mid, Steps step s t₁ mid ∧ Steps step mid t₂ s' := by
  induction t₁ with
  | nil =>
    intro s s'
    refine ⟨?_, ?_⟩
    · intro h; exact ⟨s, rfl, h⟩
    · intro h
      obtain ⟨_, rfl, h⟩ := h
      exact h
  | cons e t₁ ih =>
    intro s s'
    refine ⟨?_, ?_⟩
    · intro h
      obtain ⟨mid, hstep, h⟩ := h
      obtain ⟨mid', h₁, h₂⟩ := ih.mp h
      exact ⟨mid', ⟨mid, hstep, h₁⟩, h₂⟩
    · intro h
      obtain ⟨mid', ⟨mid, hstep, h₁⟩, h₂⟩ := h
      exact ⟨mid, hstep, ih.mpr ⟨mid', h₁, h₂⟩⟩

/-- A run that ends meets `post`; a run that is stopped meets `crash`. -/
def Safe (step : S → Sigma A → S → Prop) (post : α → S → Prop) (crash : S → Prop) :
    Prog A α → S → Prop
  | .done a, s => post a s ∧ crash s
  | .ask q k, s => crash s ∧ ∀ x s', step s ⟨q, x⟩ s' → Safe step post crash (k x) s'

section
variable {post : α → S → Prop} {crash : S → Prop} {s s' : S}

theorem Safe.reaches : ∀ {p : Prog A α} {tr : Trace A} {s : S}, Safe step post crash p s →
    Reaches p tr → Steps step s tr s' → crash s'
  | .done _, _, _, h, rfl, rfl => h.2
  | .ask _ _, _, _, h, .inl rfl, rfl => h.1
  | .ask _ _, _, _, h, .inr ⟨_, _, rfl, hreach⟩, ⟨_, hstep, hrest⟩ =>
    (h.2 _ _ hstep).reaches hreach hrest

theorem Safe.runs : ∀ {p : Prog A α} {tr : Trace A} {a : α} {s : S}, Safe step post crash p s →
    Runs p tr a → Steps step s tr s' → post a s'
  | .done _, _, _, _, h, ⟨rfl, rfl⟩, rfl => h.1
  | .ask _ _, _, _, _, h, ⟨_, _, rfl, hrun⟩, ⟨_, hstep, hrest⟩ =>
    (h.2 _ _ hstep).runs hrun hrest

/-! ## Rules -/

theorem safe_pure {a : α} (hpost : post a s) (hcrash : crash s) :
    Safe step post crash (pure a : Prog A α) s := ⟨hpost, hcrash⟩

theorem Safe.mono {post' : α → S → Prop} {crash' : S → Prop} (hpost : ∀ a s, post a s → post' a s)
    (hcrash : ∀ s, crash s → crash' s) : ∀ {p : Prog A α} {s : S}, Safe step post crash p s →
    Safe step post' crash' p s
  | .done _, _, h => ⟨hpost _ _ h.1, hcrash _ h.2⟩
  | .ask _ _, _, h => ⟨hcrash _ h.1, fun x s' hstep => (h.2 x s' hstep).mono hpost hcrash⟩

/-- Where a program ends it can also be stopped. -/
theorem Safe.keep : ∀ {p : Prog A α} {s : S}, Safe step post crash p s →
    Safe step (fun a s => post a s ∧ crash s) crash p s
  | .done _, _, h => ⟨h, h.2⟩
  | .ask _ _, _, h => ⟨h.1, fun x s' hstep => (h.2 x s' hstep).keep⟩

theorem safe_bind {f : α → Prog A β} {post' : β → S → Prop} : ∀ {p : Prog A α} {s : S},
    Safe step post crash p s → (∀ a s, post a s → Safe step post' crash (f a) s) →
    Safe step post' crash (p >>= f) s
  | .done a, s, h, hf => hf a s h.1
  | .ask _ _, _, h, hf => ⟨h.1, fun x s' hstep => safe_bind (h.2 x s' hstep) hf⟩

theorem safe_ask {q : Q} {post : A q → S → Prop} (hcrash : crash s)
    (h : ∀ x s', step s ⟨q, x⟩ s' → post x s' ∧ crash s') :
    Safe step post crash (request q) s := ⟨hcrash, fun x s' hstep => h x s' hstep⟩

theorem safe_map {f : α → β} {post : β → S → Prop} {p : Prog A α}
    (h : Safe step (fun a s => post (f a) s) crash p s) : Safe step post crash (f <$> p) s := by
  refine safe_bind (h.keep) (fun a s' hp => safe_pure hp.1 hp.2)

/-- A program that may fail, then the rest: a failure is passed on. -/
theorem safe_except_bind {p : ExceptT ε (Prog A) α} {f : α → ExceptT ε (Prog A) β}
    {post : Except ε α → S → Prop} {post' : Except ε β → S → Prop}
    (h : Safe step post crash p.run s)
    (herror : ∀ e s, post (.error e) s → post' (.error e) s)
    (hok : ∀ a s, post (.ok a) s → Safe step post' crash (f a).run s) :
    Safe step post' crash (p >>= f).run s := by
  rw [ExceptT.run_bind]
  refine safe_bind h.keep (fun x s' hx => ?_)
  cases x with
  | error e => exact safe_pure (herror e s' hx.1) hx.2
  | ok a => exact hok a s' hx.1

theorem safe_lift_bind {p : Prog A α} {f : α → ExceptT ε (Prog A) β} {post' : Except ε β → S → Prop}
    (h : Safe step post crash p s) (hf : ∀ a s, post a s → Safe step post' crash (f a).run s) :
    Safe step post' crash (ExceptT.lift p >>= f).run s := by
  have hlift : Safe step (fun (x : Except ε α) s => ∃ a, x = .ok a ∧ post a s) crash
      (ExceptT.lift p : ExceptT ε (Prog A) α).run s :=
    safe_map (h.mono (fun a _ ha => ⟨a, rfl, ha⟩) (fun _ hs => hs))
  refine safe_except_bind hlift ?_ ?_
  · rintro e s ⟨a, he, -⟩
    cases he
  · rintro a s ⟨a', ha, hpost⟩
    cases ha
    exact hf a s hpost

end

end Interaction
