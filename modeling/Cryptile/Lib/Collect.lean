import Mathlib.Data.List.Nodup
import Mathlib.Data.List.Perm.Subperm

/-
  Collect — a list of entries gathered into a map, and what that loses

  Inserting entries one by one keeps the last value of every key. The map is as
  large as the list exactly when no key repeats, and then it holds the entries
  of the list and no others; a repeated key loses all its values but one.
-/

namespace Collect

variable {K V : Type} {cmp : K → K → Ordering}

/-- Insert the entries in order: a later entry replaces an earlier one of its key. -/
def collectInto (m : Std.ExtTreeMap K V cmp) (l : List (K × V)) [Std.TransCmp cmp] :
    Std.ExtTreeMap K V cmp :=
  l.foldl (fun m p => m.insert p.1 p.2) m

def collect (l : List (K × V)) [Std.TransCmp cmp] : Std.ExtTreeMap K V cmp := collectInto ∅ l

variable [Std.TransCmp cmp] {m : Std.ExtTreeMap K V cmp} {l : List (K × V)}

@[simp] theorem collectInto_nil : collectInto m [] = m := rfl

@[simp] theorem collectInto_cons (p : K × V) :
    collectInto m (p :: l) = collectInto (m.insert p.1 p.2) l := rfl

theorem size_collectInto_le : (collectInto m l).size ≤ m.size + l.length := by
  induction l generalizing m with
  | nil => simp
  | cons p l ih =>
    have hp := m.size_insert_le (k := p.1) (v := p.2)
    rw [collectInto_cons, List.length_cons]
    calc (collectInto (m.insert p.1 p.2) l).size
        ≤ (m.insert p.1 p.2).size + l.length := ih
      _ ≤ m.size + (l.length + 1) := by omega

variable [Std.LawfulEqCmp cmp]

/-- Nothing is lost exactly when the keys are new to the map and to each other. -/
theorem size_collectInto_iff : (collectInto m l).size = m.size + l.length ↔
    (l.map Prod.fst).Nodup ∧ ∀ k ∈ l.map Prod.fst, k ∉ m := by
  induction l generalizing m with
  | nil => simp
  | cons p l ih =>
    simp only [collectInto_cons, List.length_cons, List.map_cons, List.nodup_cons]
    by_cases hp : p.1 ∈ m
    · -- the entry replaces one, and the rest cannot make up for it
      have hs : (m.insert p.1 p.2).size = m.size := by simp [Std.ExtTreeMap.size_insert, hp]
      have hle := size_collectInto_le (m := m.insert p.1 p.2) (l := l)
      refine ⟨?_, ?_⟩
      · intro h; omega
      · intro h
        obtain ⟨-, h⟩ := h
        exact absurd hp (h p.1 (by simp))
    · have hs : (m.insert p.1 p.2).size = m.size + 1 := by simp [Std.ExtTreeMap.size_insert, hp]
      have hih := ih (m := m.insert p.1 p.2)
      rw [hs, Nat.add_assoc, Nat.add_comm 1] at hih
      rw [hih]
      simp only [Std.ExtTreeMap.mem_insert, Std.LawfulEqCmp.compare_eq_iff_eq, not_or]
      refine ⟨?_, ?_⟩
      · intro h
        obtain ⟨hnd, hnew⟩ := h
        refine ⟨⟨fun h => (hnew p.1 h).1 rfl, hnd⟩, ?_⟩
        intro k hk
        rcases List.mem_cons.mp hk with rfl | hk
        · exact hp
        · exact (hnew k hk).2
      · intro h
        obtain ⟨⟨hout, hnd⟩, hnew⟩ := h
        refine ⟨hnd, fun k hk => ⟨?_, hnew k (by simp [hk])⟩⟩
        rintro rfl
        exact hout hk

theorem size_collect_iff :
    (collect l : Std.ExtTreeMap K V cmp).size = l.length ↔ (l.map Prod.fst).Nodup := by
  have h := size_collectInto_iff (m := (∅ : Std.ExtTreeMap K V cmp)) (l := l)
  simpa [collect] using h

theorem getElem?_collectInto_of_not_mem {k : K} (h : k ∉ l.map Prod.fst) :
    (collectInto m l)[k]? = m[k]? := by
  induction l generalizing m with
  | nil => rfl
  | cons p l ih =>
    simp only [List.map_cons, List.mem_cons, not_or] at h
    rw [collectInto_cons, ih h.2, Std.ExtTreeMap.getElem?_insert]
    simp [Ne.symm h.1]

theorem getElem?_collectInto_of_mem {p : K × V} (hl : (l.map Prod.fst).Nodup) (hp : p ∈ l) :
    (collectInto m l)[p.1]? = some p.2 := by
  induction l generalizing m with
  | nil => simp at hp
  | cons q l ih =>
    simp only [List.map_cons, List.nodup_cons] at hl
    rw [collectInto_cons]
    rcases List.mem_cons.mp hp with rfl | hp
    · rw [getElem?_collectInto_of_not_mem hl.1]
      simp
    · exact ih hl.2 hp

/-- Keys that do not repeat keep all their entries. -/
theorem toList_collect_perm (hl : (l.map Prod.fst).Nodup) :
    (collect l : Std.ExtTreeMap K V cmp).toList.Perm l := by
  have hsub : l.Subperm (collect l : Std.ExtTreeMap K V cmp).toList := by
    refine List.subperm_of_subset (List.Nodup.of_map _ hl) (fun p hp => ?_)
    rw [Std.ExtTreeMap.mem_toList_iff_getElem?_eq_some]
    exact getElem?_collectInto_of_mem hl hp
  have hlen : (collect l : Std.ExtTreeMap K V cmp).toList.length = l.length := by
    rw [Std.ExtTreeMap.length_toList, size_collect_iff.mpr hl]
  exact (hsub.perm_of_length_le (Nat.le_of_eq hlen)).symm

/-! ## The last entry of a key -/

section
variable [DecidableEq K]

/-- What a key keeps: the value of its last entry, or what it had. -/
theorem getElem?_collectInto {k : K} : (collectInto m l)[k]? = (l.reverse.lookup k).or m[k]? := by
  induction l generalizing m with
  | nil => simp
  | cons p l ih =>
    obtain ⟨k', v⟩ := p
    rw [collectInto_cons, ih, List.reverse_cons, List.lookup_append, Option.or_assoc,
      Std.ExtTreeMap.getElem?_insert]
    by_cases hk : k' = k
    · simp [hk]
    · have hother : List.lookup k [(k', v)] = none := by
        rw [List.lookup_cons, beq_false_of_ne (Ne.symm hk)]
        rfl
      simp [hk, hother]

theorem lookup_reverse_eq_some {k : K} {v : V} : l.reverse.lookup k = some v ↔
    ∃ before after, l = before ++ (k, v) :: after ∧ ∀ p ∈ after, p.1 ≠ k := by
  rw [List.lookup_eq_some_iff]
  refine ⟨?_, ?_⟩
  · intro h
    obtain ⟨front, back, he, hf⟩ := h
    refine ⟨back.reverse, front.reverse, ?_, fun p hp => ?_⟩
    · rw [← List.reverse_reverse l, he]
      simp
    · have hne := hf p (List.mem_reverse.mp hp)
      exact Ne.symm (by simpa using hne)
  · intro h
    obtain ⟨before, after, rfl, ha⟩ := h
    refine ⟨after.reverse, before.reverse, by simp, fun p hp => ?_⟩
    have hne := ha p (List.mem_reverse.mp hp)
    simpa using Ne.symm hne

/-- What is made of a table that names every key once reads the same from either end. -/
theorem lookup_reverse_filterMap {W : Type} {f : V → Option W} {k : K} (h : (l.map Prod.fst).Nodup) :
    (l.filterMap (fun p => (f p.2).map (Prod.mk p.1))).reverse.lookup k = (l.lookup k).bind f := by
  induction l with
  | nil => rfl
  | cons p l ih =>
    obtain ⟨k', v⟩ := p
    simp only [List.map_cons, List.nodup_cons] at h
    have hcons : ((k', v) :: l).filterMap (fun p => (f p.2).map (Prod.mk p.1)) =
        ((f v).map (Prod.mk k')).toList ++ l.filterMap (fun p => (f p.2).map (Prod.mk p.1)) := by
      cases hf : f v <;> simp [hf]
    rw [hcons, List.reverse_append, List.lookup_append, ih h.2, List.lookup_cons]
    by_cases hk : k = k'
    · -- the key is not named again
      have hnone : l.lookup k = none := by
        rw [List.lookup_eq_none_iff]
        intro q hq
        rw [bne_iff_ne]
        intro hkq
        exact h.1 (List.mem_map.mpr ⟨q, hq, by rw [← hkq, hk]⟩)
      rw [hnone]
      cases hf : f v <;> simp [hk, hf]
    · have hkk : (k == k') = false := beq_false_of_ne hk
      rw [hkk]
      cases f v <;> simp [List.lookup_cons, hkk]

end

/-! ## Results that may fail -/

section
variable {ε : Type}

/-- Put a result under its key; there may be none to put. -/
def insertResult (m : Std.ExtTreeMap K V cmp) (e : Except ε (Option (K × V))) :
    Except ε (Std.ExtTreeMap K V cmp) :=
  e.map (fun o => o.elim m (fun p => m.insert p.1 p.2))

/-- Insert every result in order; the first failure is that of the whole. -/
def collectResults (m : Std.ExtTreeMap K V cmp) (es : List (Except ε (Option (K × V)))) :
    Except ε (Std.ExtTreeMap K V cmp) :=
  es.foldlM insertResult m

/-- The entries among the results. -/
def okEntries (es : List (Except ε (Option (K × V)))) : List (K × V) :=
  es.filterMap (fun e => e.toOption.join)

variable {es fs : List (Except ε (Option (K × V)))} {m' : Std.ExtTreeMap K V cmp}

omit [Std.LawfulEqCmp cmp] in
theorem collectResults_append :
    collectResults m (es ++ fs) = collectResults m es >>= fun m' => collectResults m' fs :=
  List.foldlM_append

@[simp] theorem okEntries_nil : okEntries ([] : List (Except ε (Option (K × V)))) = [] := rfl

@[simp] theorem okEntries_cons_none : okEntries (Except.ok none :: es) = okEntries es := rfl

@[simp] theorem okEntries_cons_some {p : K × V} :
    okEntries (Except.ok (some p) :: es) = p :: okEntries es := rfl

theorem okEntries_append : okEntries (es ++ fs) = okEntries es ++ okEntries fs :=
  List.filterMap_append

/-- The later of two lists is asked first. -/
theorem lookup_okEntries_append [DecidableEq K] {k : K} :
    (okEntries (es ++ fs)).reverse.lookup k =
      ((okEntries fs).reverse.lookup k).or ((okEntries es).reverse.lookup k) := by
  rw [okEntries_append, List.reverse_append, List.lookup_append]

omit [Std.LawfulEqCmp cmp] in
/-- Collecting succeeds where every result does, with what the results hold. -/
theorem collectResults_ok_iff : collectResults m es = .ok m' ↔
    (∀ e ∈ es, ∃ o, e = .ok o) ∧ m' = collectInto m (okEntries es) := by
  induction es generalizing m with
  | nil => simp [collectResults, okEntries, pure, Except.pure, eq_comm]
  | cons e es ih =>
    rw [collectResults, List.foldlM_cons]
    cases e with
    | error err => simp [insertResult, Except.map, bind, Except.bind]
    | ok o =>
      change collectResults (o.elim m (fun p => m.insert p.1 p.2)) es = _ ↔ _
      rw [ih]
      cases o <;> simp

end

/-- Leaving elements out of a list changes nothing that is made of it exactly when
nothing is made of them. -/
theorem filterMap_filter_iff {α β : Type} {f : α → Option β} {p : α → Bool} {l : List α} :
    l.filterMap f = (l.filter p).filterMap f ↔ ∀ a ∈ l, p a = false → f a = none := by
  induction l with
  | nil => simp
  | cons a l ih =>
    have hlen : ((l.filter p).filterMap f).length ≤ (l.filterMap f).length :=
      (l.filter_sublist.filterMap f).length_le
    rw [List.forall_mem_cons, ← ih]
    cases hp : p a with
    | true => cases hf : f a <;> simp [hp, hf]
    | false =>
      cases hf : f a with
      | none => simp [hp, hf]
      | some b =>
        -- what is made of the element is missing on the other side
        refine ⟨?_, ?_⟩
        · intro h
          have hcount := congrArg List.length h
          simp only [List.filterMap_cons, hf, List.filter_cons, hp, Bool.false_eq_true, if_false,
            List.length_cons] at hcount
          omega
        · intro h
          cases h.1 rfl

end Collect
