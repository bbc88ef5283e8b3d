import Mathlib.Logic.Relation
import Mathlib.Logic.Function.Basic
import Cryptile.Lib.Interaction

/-
  Interleaving — programs side by side over one state

  A pool is a state and a program for each of its members, of which there may be
  any number. `Interleaved step` takes the members forward one event at a time,
  in any order; a member that is never taken forward again has been stopped.

  `Promises step prom i post p s` says of one member alone: whatever the others do
  in between within their promises, every event of its program keeps its own
  promise, and where it ends `post` holds and stays. Members that all promise
  keep their promises in every interleaving (`interleaved_promises`), so what the
  promised steps preserve holds throughout (`interleaved_invariant`).
-/

namespace Interaction

variable {Q : Type} {A : Q → Type} {ι S β γ ε : Type} {α : ι → Type}

structure Pool (A : Q → Type) (S : Type) (α : ι → Type) where
  state : S
  progs : ∀ i, Prog A (α i)

/-! ## Interleavings -/

section
variable [DecidableEq ι] (step : ι → S → Sigma A → S → Prop)

/-- One member makes one request and goes on with the answer. -/
inductive Advances (w : Pool A S α) : Pool A S α → Prop
  | member {i : ι} {q : Q} {k : A q → Prog A (α i)} {x : A q} {s : S} (hprog : w.progs i = .ask q k)
      (hstep : step i w.state ⟨q, x⟩ s) : Advances w ⟨s, Function.update w.progs i (k x)⟩

abbrev Interleaved : Pool A S α → Pool A S α → Prop := Relation.ReflTransGen (Advances step)

/-- The member's events take the state from the first to the second. -/
def MemberSteps (i : ι) : S → Trace A → S → Prop
  | s, [], s' => s' = s
  | s, e :: tr, s' => ∃ mid, step i s e mid ∧ MemberSteps i mid tr s'

variable {step}

omit [DecidableEq ι] in
theorem MemberSteps.append {i : ι} {tr' : Trace A} {s₂ : S} : ∀ {tr : Trace A} {s s₁ : S},
    MemberSteps step i s tr s₁ → MemberSteps step i s₁ tr' s₂ → MemberSteps step i s (tr ++ tr') s₂
  | [], _, _, rfl, h => h
  | _ :: _, _, _, ⟨mid, hstep, hrest⟩, h => ⟨mid, hstep, hrest.append h⟩

omit [DecidableEq ι] in
theorem MemberSteps.mono {step' : ι → S → Sigma A → S → Prop} {i : ι}
    (hstep : ∀ i s e s', step i s e s' → step' i s e s') : ∀ {tr : Trace A} {s s' : S},
    MemberSteps step i s tr s' → MemberSteps step' i s tr s'
  | [], _, _, h => h
  | _ :: _, _, _, ⟨mid, hone, hrest⟩ => ⟨mid, hstep _ _ _ _ hone, hrest.mono hstep⟩

/-- A member that is given the floor does what it does alone. -/
theorem interleaved_member {i : ι} {tr : Trace A} {s' : S} {p' : Prog A (α i)} : ∀ {w : Pool A S α},
    Leads tr (w.progs i) p' → MemberSteps step i w.state tr s' →
    Interleaved step w ⟨s', Function.update w.progs i p'⟩ := by
  induction tr with
  | nil =>
    intro w hleads hsteps
    cases hleads
    cases hsteps
    rw [Function.update_eq_self]
  | cons e rest ih =>
    intro w hleads hsteps
    obtain ⟨mid, hstep, hsteps⟩ := hsteps
    cases hprog : w.progs i with
    | done a => rw [hprog] at hleads; exact hleads.elim
    | ask q k =>
      rw [hprog] at hleads
      obtain ⟨x, rfl, hrest⟩ := hleads
      have hthen : Interleaved step ⟨mid, Function.update w.progs i (k x)⟩
          ⟨s', Function.update (Function.update w.progs i (k x)) i p'⟩ := by
        refine ih ?_ hsteps
        change Leads rest (Function.update w.progs i (k x) i) p'
        rw [Function.update_self]
        exact hrest
      rw [Function.update_idem] at hthen
      exact Relation.ReflTransGen.head (.member hprog hstep) hthen

theorem interleaved_mono {step' : ι → S → Sigma A → S → Prop} {w w' : Pool A S α}
    (hstep : ∀ i s e s', step i s e s' → step' i s e s') (h : Interleaved step w w') :
    Interleaved step' w w' := by
  have hadvances : ∀ w w' : Pool A S α, Advances step w w' → Advances step' w w' := by
    intro _ _ h
    cases h with
    | member hprog hone => exact .member hprog (hstep _ _ _ _ hone)
  exact Relation.ReflTransGen.mono hadvances w w' h

end

/-! ## Promises -/

section
variable (step : ι → S → Sigma A → S → Prop) (prom : ι → S → Sigma A → Prop)

/-- What the others can have done, each within its promise. -/
abbrev Others (i : ι) : S → S → Prop :=
  Relation.ReflTransGen (fun s s' => ∃ j, j ≠ i ∧ ∃ e, step j s e s' ∧ prom j s e)

/-- The others' steps do not disturb it. -/
def Stable (i : ι) (P : S → Prop) : Prop :=
  ∀ j, j ≠ i → ∀ s e s', step j s e s' → prom j s e → P s → P s'

def Promises (i : ι) (post : β → S → Prop) : Prog A β → S → Prop
  | .done a, s => ∀ s', Others step prom i s s' → post a s'
  | .ask q k, s => ∀ s₁, Others step prom i s s₁ → ∀ x s₂, step i s₁ ⟨q, x⟩ s₂ →
      prom i s₁ ⟨q, x⟩ ∧ Promises i post (k x) s₂

end

section
variable {step : ι → S → Sigma A → S → Prop} {prom : ι → S → Sigma A → Prop} {i : ι}
  {post : β → S → Prop} {P : S → Prop} {s s' : S}

theorem Stable.others (h : Stable step prom i P) (hothers : Others step prom i s s') (hs : P s) : P s' := by
  induction hothers with
  | refl => exact hs
  | tail _ hlast ih =>
    obtain ⟨j, hj, e, hstep, hprom⟩ := hlast
    exact h j hj _ e _ hstep hprom ih

theorem Promises.others : ∀ {p : Prog A β}, Promises step prom i post p s →
    Others step prom i s s' → Promises step prom i post p s'
  | .done _, h, hothers => fun s'' hlater => h s'' (hothers.trans hlater)
  | .ask _ _, h, hothers => fun s₁ hlater => h s₁ (hothers.trans hlater)

section
variable [DecidableEq ι] {post : ∀ i, α i → S → Prop} {w w' : Pool A S α}

theorem Advances.promises (h : Advances step w w')
    (hall : ∀ i, Promises step prom i (post i) (w.progs i) w.state) :
    (∃ i e, step i w.state e w'.state ∧ prom i w.state e) ∧
    ∀ i, Promises step prom i (post i) (w'.progs i) w'.state := by
  cases h with
  | @member i q k x s hprog hstep =>
    have hi := hall i
    rw [hprog] at hi
    obtain ⟨hprom, hrest⟩ := hi w.state .refl x s hstep
    refine ⟨⟨i, ⟨q, x⟩, hstep, hprom⟩, ?_⟩
    intro j
    by_cases hj : j = i
    · subst hj
      change Promises step prom j (post j) (Function.update w.progs j (k x) j) s
      rw [Function.update_self]
      exact hrest
    · change Promises step prom j (post j) (Function.update w.progs i (k x) j) s
      rw [Function.update_of_ne hj]
      exact (hall j).others (.single ⟨i, Ne.symm hj, ⟨q, x⟩, hstep, hprom⟩)

/-- Members that promise keep their promises, and promise on. -/
theorem interleaved_promises (h : Interleaved step w w')
    (hall : ∀ i, Promises step prom i (post i) (w.progs i) w.state) :
    Relation.ReflTransGen (fun s s' => ∃ i e, step i s e s' ∧ prom i s e) w.state w'.state ∧
    ∀ i, Promises step prom i (post i) (w'.progs i) w'.state := by
  induction h with
  | refl => exact ⟨.refl, hall⟩
  | tail _ hlast ih =>
    obtain ⟨hsteps, hmid⟩ := ih
    obtain ⟨hstep, hlater⟩ := hlast.promises hmid
    exact ⟨hsteps.tail hstep, hlater⟩

/-- What the promised steps preserve holds throughout. -/
theorem interleaved_invariant {inv : S → Prop} (h : Interleaved step w w')
    (hall : ∀ i, Promises step prom i (post i) (w.progs i) w.state) (hinit : inv w.state)
    (hinv : ∀ i s e s', inv s → step i s e s' → prom i s e → inv s') : inv w'.state := by
  have hsteps := (interleaved_promises h hall).1
  generalize w'.state = s' at hsteps
  induction hsteps with
  | refl => exact hinit
  | tail _ hlast ih =>
    obtain ⟨i, e, hstep, hprom⟩ := hlast
    exact hinv i _ e _ ih hstep hprom

/-- A member that has ended has met what it promised of its end. -/
theorem interleaved_done {i : ι} {a : α i} (h : Interleaved step w w')
    (hall : ∀ i, Promises step prom i (post i) (w.progs i) w.state) (hdone : w'.progs i = .done a) :
    post i a w'.state := by
  have hi := (interleaved_promises h hall).2 i
  rw [hdone] at hi
  exact hi w'.state .refl

end

/-! ## Rules -/

theorem promises_pure {a : β} (hstable : Stable step prom i (post a)) (hpost : post a s) :
    Promises step prom i post (pure a : Prog A β) s :=
  fun _ hothers => hstable.others hothers hpost

theorem Promises.mono {post' : β → S → Prop} (hpost : ∀ a s, post a s → post' a s) :
    ∀ {p : Prog A β} {s : S}, Promises step prom i post p s → Promises step prom i post' p s
  | .done _, _, h => fun s' hothers => hpost _ _ (h s' hothers)
  | .ask _ _, _, h => fun s₁ hothers x s₂ hstep =>
    ⟨(h s₁ hothers x s₂ hstep).1, (h s₁ hothers x s₂ hstep).2.mono hpost⟩

/-- One request, from a state that the others leave as it is. -/
theorem promises_request {q : Q} {post : A q → S → Prop} (hP : Stable step prom i P)
    (hpost : ∀ x, Stable step prom i (post x))
    (h : ∀ s x s', P s → step i s ⟨q, x⟩ s' → prom i s ⟨q, x⟩ ∧ post x s') (hs : P s) :
    Promises step prom i post (request q) s := by
  intro s₁ hothers x s₂ hstep
  obtain ⟨hprom, hx⟩ := h s₁ x s₂ (hP.others hothers hs) hstep
  exact ⟨hprom, promises_pure (hpost x) hx⟩

theorem promises_bind {f : β → Prog A γ} {post' : γ → S → Prop} : ∀ {p : Prog A β} {s : S},
    Promises step prom i post p s →
    (∀ b s, (∀ s', Others step prom i s s' → post b s') → Promises step prom i post' (f b) s) →
    Promises step prom i post' (p >>= f) s
  | .done b, s, h, hf => hf b s h
  | .ask _ _, _, h, hf => fun s₁ hothers x s₂ hstep =>
    ⟨(h s₁ hothers x s₂ hstep).1, promises_bind (h s₁ hothers x s₂ hstep).2 hf⟩

theorem promises_map {f : β → γ} {post' : γ → S → Prop} {p : Prog A β}
    (h : Promises step prom i (fun b s => post' (f b) s) p s) :
    Promises step prom i post' (f <$> p) s :=
  promises_bind h (fun _ _ hb => hb)

/-- A program that may fail, then the rest: a failure is passed on. -/
theorem promises_except_bind {p : ExceptT ε (Prog A) β} {f : β → ExceptT ε (Prog A) γ}
    {post : Except ε β → S → Prop} {post' : Except ε γ → S → Prop}
    (h : Promises step prom i post p.run s)
    (herror : ∀ e s, post (.error e) s → post' (.error e) s)
    (hok : ∀ b s, post (.ok b) s → Promises step prom i post' (f b).run s) :
    Promises step prom i post' (p >>= f).run s := by
  rw [ExceptT.run_bind]
  refine promises_bind h (fun x s' hx => ?_)
  cases x with
  | error e => exact fun s'' hothers => herror e s'' (hx s'' hothers)
  | ok b => exact hok b s' (hx s' .refl)

end

/-! ## The order of events in a log -/

section
variable {E : Type} {a b c : E} {log : List E}

/-- Two events that have both happened have happened in one order or the other. -/
theorem either_order (ha : a ∈ log) (hb : b ∈ log) (hne : a ≠ b) :
    List.Sublist [a, b] log ∨ List.Sublist [b, a] log := by
  obtain ⟨before, after, rfl⟩ := List.append_of_mem ha
  obtain hb | hb := List.mem_append.mp hb
  · have hfirst : List.Sublist [b] before := List.singleton_sublist.mpr hb
    have hrest : List.Sublist [a] (a :: after) := List.singleton_sublist.mpr List.mem_cons_self
    exact .inr (hfirst.append hrest)
  · obtain rfl | hb := List.mem_cons.mp hb
    · exact absurd rfl hne
    · have hafter : List.Sublist [a, b] (a :: after) := (List.singleton_sublist.mpr hb).cons_cons a
      exact .inl (hafter.trans (List.sublist_append_right _ _))

/-- Of two events in order, the second has happened before the last one or is it. -/
theorem in_order_append (h : List.Sublist [a, b] (log ++ [c])) :
    List.Sublist [a, b] log ∨ a ∈ log ∧ b = c := by
  obtain ⟨l₁, l₂, hl, h₁, h₂⟩ := List.sublist_append_iff.mp h
  have hlen := h₂.length_le
  match l₁, hl with
  | [], hl =>
    rw [List.nil_append] at hl
    rw [← hl] at hlen
    simp at hlen
  | [x], hl =>
    cases hl
    exact .inr ⟨List.singleton_sublist.mp h₁, List.mem_singleton.mp (List.singleton_sublist.mp h₂)⟩
  | [x, y], hl =>
    cases hl
    exact .inl h₁

end

end Interaction
