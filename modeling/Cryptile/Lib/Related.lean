import Cryptile.Lib.Interaction

/-
  Related — two programs side by side

  Whatever the one program is answered, the other can be answered so that the events
  stand in a relation, up to the end. The relation is between events, so the two may ask
  for different things. What relates a program to itself under other answers says which
  of its requests can depend on them.
-/

namespace Interaction

variable {Q : Type} {A : Q → Type} {α β α' β' ε : Type} {E : Sigma A → Sigma A → Prop}

/-- Each event of the one program has its counterpart in the other, and so have the results. -/
def Related (E : Sigma A → Sigma A → Prop) (post : α → β → Prop) : Prog A α → Prog A β → Prop
  | .done a, .done b => post a b
  | .ask q k, .ask q' k' => ∀ x, ∃ x', E ⟨q, x⟩ ⟨q', x'⟩ ∧ Related E post (k x) (k' x')
  | _, _ => False

/-- The same error, or results in relation. -/
def bothOk (post : α → β → Prop) : Except ε α → Except ε β → Prop
  | .ok a, .ok b => post a b
  | .error e, .error e' => e = e'
  | _, _ => False

section
variable {mid : α → β → Prop} {post : α' → β' → Prop}

theorem related_pure {a : α'} {b : β'} (h : post a b) :
    Related E post (pure a : Prog A α') (pure b : Prog A β') := h

theorem related_request {q q' : Q} {post : A q → A q' → Prop}
    (h : ∀ x, ∃ x', E ⟨q, x⟩ ⟨q', x'⟩ ∧ post x x') :
    Related E post (request q : Prog A (A q)) (request q' : Prog A (A q')) := h

theorem Related.bind {f : α → Prog A α'} {f' : β → Prog A β'} : ∀ {p : Prog A α} {p' : Prog A β},
    Related E mid p p' → (∀ a b, mid a b → Related E post (f a) (f' b)) →
      Related E post (p >>= f) (p' >>= f')
  | .done a, .done b, hp, hf => hf a b hp
  | .ask _ _, .ask _ _, hp, hf => fun x => by
    obtain ⟨x', he, hrest⟩ := hp x
    exact ⟨x', he, hrest.bind hf⟩

theorem Related.except_bind {p : ExceptT ε (Prog A) α} {p' : ExceptT ε (Prog A) β}
    {f : α → ExceptT ε (Prog A) α'} {f' : β → ExceptT ε (Prog A) β'}
    (hp : Related E (bothOk mid) p.run p'.run)
    (hf : ∀ a b, mid a b → Related E (bothOk post) (f a).run (f' b).run) :
    Related E (bothOk post) (p >>= f).run (p' >>= f').run := by
  rw [ExceptT.run_bind, ExceptT.run_bind]
  refine hp.bind ?_
  rintro (e | a) (e' | b) h
  · exact h
  · exact h.elim
  · exact h.elim
  · exact hf a b h

theorem Related.mono {post' : α' → β' → Prop} (hpost : ∀ a b, post a b → post' a b) :
    ∀ {p : Prog A α'} {p' : Prog A β'}, Related E post p p' → Related E post' p p'
  | .done a, .done b, h => hpost a b h
  | .ask _ _, .ask _ _, h => fun x => by
    obtain ⟨x', he, hrest⟩ := h x
    exact ⟨x', he, hrest.mono hpost⟩

end

/-- A program is related to itself where its events are. -/
theorem Asks.related {P : Q → Prop} (hE : ∀ q x, P q → E ⟨q, x⟩ ⟨q, x⟩) :
    ∀ {p : Prog A α}, Asks P p → Related E Eq p p
  | .done _, _ => rfl
  | .ask q _, hp => fun x => ⟨x, hE q x hp.1, (hp.2 x).related hE⟩

/-- Programs in relation stay so where their requests are carried out by others: requests
whose answers can be matched are to be carried out with answers that match. -/
theorem Related.lower {Q' : Type} {B : Q' → Type} {h : ∀ q, Prog B (A q)} {F : Sigma B → Sigma B → Prop}
    {post : α → β → Prop}
    (hcalls : ∀ q q' (rel : A q → A q' → Prop), (∀ x, ∃ x', E ⟨q, x⟩ ⟨q', x'⟩ ∧ rel x x') →
      Related F rel (h q) (h q')) :
    ∀ {p : Prog A α} {p' : Prog A β}, Related E post p p' →
      Related F post (Interaction.lower h p) (Interaction.lower h p')
  | .done _, .done _, hp => hp
  | .ask q k, .ask q' k', hp =>
    (hcalls q q' (fun x x' => Related E post (k x) (k' x')) hp).bind (fun _ _ hx => hx.lower hcalls)

/-- Every run has its counterpart. -/
theorem Related.runs {post : α → β → Prop} {tr : Trace A} {a : α} : ∀ {p : Prog A α} {p' : Prog A β},
    Related E post p p' → Runs p tr a → ∃ tr' b, Runs p' tr' b ∧ List.Forall₂ E tr tr' ∧ post a b := by
  induction tr with
  | nil =>
    intro p p' h hrun
    cases p with
    | ask q k =>
      obtain ⟨x, t, ht, -⟩ := hrun
      cases ht
    | done a₀ =>
      obtain ⟨-, rfl⟩ := hrun
      cases p' with
      | ask q' k' => exact h.elim
      | done b => exact ⟨[], b, ⟨rfl, rfl⟩, .nil, h⟩
  | cons e rest ih =>
    intro p p' h hrun
    cases p with
    | done a₀ =>
      obtain ⟨ht, -⟩ := hrun
      cases ht
    | ask q k =>
      obtain ⟨x, t, ht, hrest⟩ := hrun
      cases ht
      cases p' with
      | done b => exact h.elim
      | ask q' k' =>
        obtain ⟨x', he, hk⟩ := h x
        obtain ⟨tr', b, hrun', hall, hpost⟩ := ih hk hrest
        exact ⟨⟨q', x'⟩ :: tr', b, ⟨x', tr', rfl, hrun'⟩, .cons he hall, hpost⟩

end Interaction
