import Mathlib.Data.List.Nodup

/-
  FirstSeen — a list gathered without repeats, in the order of first occurrence

  An element already in the result is not pushed again. The result has the
  elements of the list, each once, and the first of them that passes a test is
  the first of the list that does. A search that passes over elements until one
  decides goes by `first_cons`.
-/

namespace FirstSeen

variable {α : Type}

/-- The first element that decides is the head, or it comes after a head that is passed over. -/
theorem first_cons {P Q : α → Prop} {a : α} {l : List α} :
    (∃ before b after, a :: l = before ++ b :: after ∧ P b ∧ ∀ c ∈ before, Q c) ↔
      P a ∨ (Q a ∧ ∃ before b after, l = before ++ b :: after ∧ P b ∧ ∀ c ∈ before, Q c) := by
  refine ⟨?_, ?_⟩
  · intro h
    obtain ⟨before, b, after, hsplit, hb, hbefore⟩ := h
    cases before with
    | nil =>
      cases hsplit
      exact Or.inl hb
    | cons c before =>
      cases hsplit
      rw [List.forall_mem_cons] at hbefore
      exact Or.inr ⟨hbefore.1, before, b, after, rfl, hb, hbefore.2⟩
  · intro h
    rcases h with ha | ⟨ha, before, b, after, rfl, hb, hbefore⟩
    · exact ⟨[], a, l, rfl, ha, List.forall_mem_nil _⟩
    · exact ⟨a :: before, b, after, rfl, hb, List.forall_mem_cons.mpr ⟨ha, hbefore⟩⟩

variable [BEq α]

def pushNew (out : List α) (a : α) : List α := if out.contains a then out else out ++ [a]

def gather (out l : List α) : List α := l.foldl pushNew out

variable {out l m : List α} {a b : α}

@[simp] theorem gather_nil : gather out [] = out := rfl

@[simp] theorem gather_cons : gather out (a :: l) = gather (pushNew out a) l := rfl

theorem gather_append : gather out (l ++ m) = gather (gather out l) m := List.foldl_append

variable [LawfulBEq α]

theorem pushNew_of_mem (h : a ∈ out) : pushNew out a = out := by simp [pushNew, h]

theorem pushNew_of_not_mem (h : a ∉ out) : pushNew out a = out ++ [a] := by simp [pushNew, h]

theorem mem_pushNew : b ∈ pushNew out a ↔ b ∈ out ∨ b = a := by
  by_cases ha : a ∈ out
  · rw [pushNew_of_mem ha]
    refine ⟨?_, ?_⟩
    · exact Or.inl
    · intro hb
      rcases hb with hb | rfl
      · exact hb
      · exact ha
  · simp [pushNew_of_not_mem ha]

theorem nodup_pushNew (h : out.Nodup) : (pushNew out a).Nodup := by
  by_cases ha : a ∈ out
  · rwa [pushNew_of_mem ha]
  · rw [pushNew_of_not_mem ha]
    apply List.nodup_append.mpr
    refine ⟨h, by simp, fun b hb c hc he => ha ?_⟩
    rwa [← List.mem_singleton.mp hc, ← he]

theorem mem_gather : b ∈ gather out l ↔ b ∈ out ∨ b ∈ l := by
  induction l generalizing out with
  | nil => simp
  | cons a l ih => rw [gather_cons, ih, mem_pushNew, List.mem_cons, or_assoc]

theorem nodup_gather (h : out.Nodup) : (gather out l).Nodup := by
  induction l generalizing out with
  | nil => exact h
  | cons a l ih => exact ih (nodup_pushNew h)

/-- What is gathered later comes after what was there, and is new. -/
theorem gather_eq_append (out l : List α) : ∃ rest, gather out l = out ++ rest ∧ ∀ b, b ∈ rest ↔ b ∈ l ∧ b ∉ out := by
  induction l generalizing out with
  | nil => exact ⟨[], by simp⟩
  | cons a l ih =>
    obtain ⟨rest, hrest, hmem⟩ := ih (pushNew out a)
    by_cases ha : a ∈ out
    · rw [pushNew_of_mem ha] at hrest hmem
      refine ⟨rest, by rw [gather_cons, pushNew_of_mem ha, hrest], fun b => ?_⟩
      rw [hmem, List.mem_cons]
      refine ⟨?_, ?_⟩
      · intro h
        exact ⟨Or.inr h.1, h.2⟩
      · intro h
        obtain ⟨rfl | hb, hout⟩ := h
        · exact absurd ha hout
        · exact ⟨hb, hout⟩
    · rw [pushNew_of_not_mem ha] at hrest hmem
      refine ⟨a :: rest, by rw [gather_cons, pushNew_of_not_mem ha, hrest]; simp, fun b => ?_⟩
      rw [List.mem_cons, List.mem_cons, hmem, List.mem_append, List.mem_singleton, not_or]
      by_cases hb : b = a
      · simp [hb, ha]
      · simp [hb]

/-- The first element that passes is the first of the list that passes. -/
theorem find?_gather (p : α → Bool) : (gather out l).find? p = (out ++ l).find? p := by
  induction l generalizing out with
  | nil => simp
  | cons a l ih =>
    rw [gather_cons, ih, List.find?_append, List.find?_append]
    by_cases ha : a ∈ out
    · rw [pushNew_of_mem ha, List.find?_cons]
      cases hp : p a with
      | false => rfl
      | true =>
        -- an earlier copy of it passes as well
        obtain ⟨c, hc⟩ := Option.isSome_iff_exists.mp (List.find?_isSome.mpr ⟨a, ha, hp⟩)
        rw [hc]
        rfl
    · rw [pushNew_of_not_mem ha, List.find?_append, Option.or_assoc, List.find?_cons, List.find?_cons]
      cases p a <;> simp

end FirstSeen
