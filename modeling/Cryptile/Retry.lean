import Cryptile.Ops

/-
  Retry — what the refresh rules allow, over every run of an operation

  A run is read as its log: where an attempt starts, the error an attempt ends
  with, and every refresh with its outcome. `Story` lists the logs there are after
  the upkeep of the session, each with the error of the operation; the bounds on
  attempts and refreshes, and which error surfaces when, are facts about `Story`.
-/

namespace Cryptile
open Text Interaction

/-! ## The log of a run -/

inductive Mark where
  | attempt
  | failed (e : ProviderError)
  | refreshed (ok : Bool)
  deriving DecidableEq, Repr

/-- The backend call an attempt starts with. -/
def Op.opens : Op → Sigma CliAns → Bool
  | .get _, ⟨.provider (.getSecret _ _), _⟩ => true
  | .list _, ⟨.provider (.listNamespaces _), _⟩ => true
  | .exportNamespace _, ⟨.provider (.listNamespaces _), _⟩ => true
  | _, _ => false

def failureOf {α : Type} : Except ProviderError α → Option ProviderError
  | .error e => some e
  | .ok _ => none

/-- The error an answer ends the attempt with. -/
def Op.failure : Op → Sigma CliAns → Option ProviderError
  | .get _, ⟨.provider (.getSecret _ _), x⟩ => failureOf x
  | .list none, ⟨.provider (.listNamespaces _), x⟩ => failureOf x
  -- a listing that is answered but does not name the namespace fails the attempt too
  | .list (some ns), ⟨.provider (.listNamespaces _), x⟩ => failureOf (x.bind (findNamespace ns))
  | .list (some _), ⟨.provider (.listSecrets _ _), x⟩ => failureOf x
  | .exportNamespace ns, ⟨.provider (.listNamespaces _), x⟩ =>
    failureOf (x.bind (findNamespace ns))
  | .exportNamespace _, ⟨.provider (.getNamespaceSecrets _ _), x⟩ => failureOf x
  | _, _ => none

def Op.marks (o : Op) (e : Sigma CliAns) : List Mark :=
  match refreshOf e with
  | some (_, x) => [.refreshed x.isOk]
  | none => (if o.opens e then [.attempt] else []) ++ (o.failure e).toList.map .failed

def Op.log (o : Op) (tr : CliTrace) : List Mark := tr.flatMap o.marks

/-- What the token lifecycle promises about a log and the result beside it. -/
structure RetryLaw {α : Type} (log : List Mark) (r : Except ProviderError α) : Prop where
  attempts : log.countP (· matches .attempt) ≤ 2
  refreshes : log.countP (· matches .refreshed _) ≤ 2
  again : ∀ before after, log = before ++ .attempt :: after → .attempt ∈ before →
    ∃ first, before = first ++ [.failed .authExpired, .refreshed true]
  never : r ≠ .error .authExpired
  refused : ∀ before after,
    log = before ++ .failed .authExpired :: .refreshed false :: after → r = .error refreshHint
  twice : ∀ before between after,
    log = before ++ .failed .authExpired :: (between ++ .failed .authExpired :: after) →
      r = .error refreshHint
  others : ∀ before e after, log = before ++ .failed e :: after → e ≠ .authExpired →
    after = [] ∧ r = .error e

/-! ## Every log there is -/

/-- The log from the first attempt on, with the error the operation ends with. -/
inductive Story : List Mark → Option ProviderError → Prop
  | served : Story [.attempt] none
  | failed {e} : e ≠ .authExpired → Story [.attempt, .failed e] (some e)
  | refused : Story [.attempt, .failed .authExpired, .refreshed false] (some refreshHint)
  | servedAgain : Story [.attempt, .failed .authExpired, .refreshed true, .attempt] none
  | failedAgain {e} : Story [.attempt, .failed .authExpired, .refreshed true, .attempt, .failed e]
      (some (mapRetry e))

/-- The log before the first attempt. -/
def Upkeep (log : List Mark) : Prop := log = [] ∨ ∃ ok, log = [.refreshed ok]

@[simp] theorem Op.log_append (o : Op) (t₁ t₂ : CliTrace) : o.log (t₁ ++ t₂) = o.log t₁ ++ o.log t₂ :=
  List.flatMap_append

@[simp] theorem Op.log_cons (o : Op) (e : Sigma CliAns) (tr : CliTrace) :
    o.log (e :: tr) = o.marks e ++ o.log tr := List.flatMap_cons

@[simp] theorem Op.log_nil (o : Op) : o.log [] = [] := rfl

@[simp] theorem Op.marks_refresh (o : Op) (s : Session) (x : Except ProviderError Session) :
    o.marks (refreshEvent s x) = [.refreshed x.isOk] := rfl

@[simp] theorem Op.marks_expiry (o : Op) (s : Session) (x : Option UInt64) :
    o.marks ⟨.provider (.sessionExpiry s), x⟩ = [] := by
  cases o with
  | list ns => cases ns <;> rfl
  | _ => rfl

@[simp] theorem Op.marks_time (o : Op) (x : Option UInt64) : o.marks ⟨.systemTime, x⟩ = [] := by
  cases o with
  | list ns => cases ns <;> rfl
  | _ => rfl

theorem FreshRun.log (o : Op) {s s₀ : Session} {tr : CliTrace} (h : FreshRun s tr s₀) :
    Upkeep (o.log tr) := by
  cases h with
  | unknown => exact .inl (by simp)
  | fresh exp t _ => exact .inl (by simp)
  | refused exp t e _ => exact .inr ⟨false, by simp [Except.isOk, Except.toBool]⟩
  | rotated exp t s' _ => exact .inr ⟨true, by simp [Except.isOk, Except.toBool]⟩

/-- Every attempt starts once, and ends with its own error if it has one. -/
def Op.Logs (o : Op) {β : Type} (once : Attempt β) : Prop :=
  ∀ {s tr r}, Runs (once s).run tr r → o.log tr = .attempt :: (failureOf r).toList.map .failed

theorem failureOf_map {α β : Type} (f : α → β) (x : Except ProviderError α) :
    failureOf (x.map f) = failureOf x := by
  cases x <;> rfl

theorem directly_log {γ : Type} {o : Op} {call : Session → Cli (Except ProviderError γ)}
    (hcall : ∀ {s tr x}, Runs (call s) tr x → o.log tr = .attempt :: (failureOf x).toList.map .failed) :
    o.Logs (directly call) := by
  intro s tr r h
  obtain ⟨x, hx, rfl⟩ := runs_except_map.mp h
  rw [hcall hx, failureOf_map]

theorem inNamespace_log {γ : Type} {o : Op} {ns : String}
    {call : Session → Namespace → Cli (Except ProviderError γ)}
    (hlist : ∀ s x, o.marks ⟨.provider (.listNamespaces s), x⟩ =
      .attempt :: (failureOf (x.bind (findNamespace ns))).toList.map .failed)
    (hcall : ∀ {s t tr x}, Runs (call s t) tr x → o.log tr = (failureOf x).toList.map .failed) :
    o.Logs (inNamespace ns call) := by
  intro s tr r h
  obtain h | h | h := inNamespace_runs.mp h
  · obtain ⟨e, rfl, rfl⟩ := h
    rw [Op.log_cons, hlist]
    rfl
  · obtain ⟨names, e, rfl, hf, rfl⟩ := h
    rw [Op.log_cons, hlist]
    simp only [Except.bind, hf]
    rfl
  · obtain ⟨names, target, rest, x, rfl, hf, hx, rfl⟩ := h
    rw [Op.log_cons, hlist, hcall hx, failureOf_map]
    simp only [Except.bind, hf]
    rfl

/-- Every operation is the retry rule around an attempt that logs as it should. -/
theorem Op.logged (o : Op) : ∃ (β : Type) (once : Attempt β) (finish : β → Except ProviderError o.Out),
    o.Logs once ∧ (∀ b, finish b ≠ .error .authExpired) ∧ o.run = retried once finish := by
  cases o with
  | get r =>
    refine ⟨_, getOnce r, getFinish r, ?_, ?_, rfl⟩
    · apply directly_log
      intro s tr x h
      obtain rfl := runs_request.mp h
      simp [Op.marks, Op.opens, Op.failure, refreshOf]
    · intro secret
      unfold getFinish
      split
      · simp
      · simp [fieldMissing]
  | list ns =>
    cases ns with
    | none =>
      refine ⟨_, listNsOnce, listNsFinish, ?_, by simp [listNsFinish], rfl⟩
      apply directly_log
      intro s tr x h
      obtain rfl := runs_request.mp h
      simp [Op.marks, Op.opens, Op.failure, refreshOf]
    | some ns =>
      refine ⟨_, listItemsOnce ns, listItemsFinish, ?_, by simp [listItemsFinish], rfl⟩
      apply inNamespace_log
      · intro s x
        simp [Op.marks, Op.opens, Op.failure, refreshOf]
      · intro s t tr x h
        obtain rfl := runs_request.mp h
        simp [Op.marks, Op.opens, Op.failure, refreshOf]
  | exportNamespace ns =>
    refine ⟨_, exportOnce ns, .ok, ?_, by simp, rfl⟩
    apply inNamespace_log
    · intro s x
      simp [Op.marks, Op.opens, Op.failure, refreshOf]
    · intro s t tr x h
      obtain rfl := runs_request.mp h
      simp [Op.marks, Op.opens, Op.failure, refreshOf]

/-- A run of the retry rule is the upkeep of the session and then one of the stories. -/
theorem RetryRun.story {o : Op} {β : Type} {once : Attempt β} (hlog : o.Logs once) {s : Session}
    {tr : CliTrace} {r : Except ProviderError (Session × β)} (h : RetryRun once s tr r) :
    ∃ upkeep tale, Upkeep upkeep ∧ Story tale (failureOf r) ∧ o.log tr = upkeep ++ tale := by
  cases h with
  | @settled t₀ s₀ t₁ _ h₀ h₁ hr =>
    refine ⟨o.log t₀, o.log t₁, h₀.log o, ?_, o.log_append t₀ t₁⟩
    rw [hlog h₁]
    cases r with
    | ok v => exact .served
    | error e => exact .failed (by simpa using hr)
  | @refused t₀ s₀ t₁ e h₀ h₁ =>
    refine ⟨o.log t₀, o.log (t₁ ++ [refreshEvent s (.error e)]), h₀.log o, ?_, o.log_append t₀ _⟩
    rw [o.log_append, hlog h₁]
    exact .refused
  | @retried t₀ s₀ t₁ s₂ t₂ r₂ h₀ h₁ h₂ =>
    refine ⟨o.log t₀, o.log (t₁ ++ refreshEvent s (.ok s₂) :: t₂), h₀.log o, ?_, o.log_append t₀ _⟩
    rw [o.log_append, o.log_cons, hlog h₁, hlog h₂]
    cases r₂ with
    | ok v => exact .servedAgain
    | error e => exact .failedAgain

/-! ## What the stories say -/

/-- A mark the upkeep cannot leave is found in the tale. -/
theorem Upkeep.split {upkeep tale before after : List Mark} {m : Mark} (hu : Upkeep upkeep)
    (hm : ∀ ok, m ≠ .refreshed ok) (h : upkeep ++ tale = before ++ m :: after) :
    ∃ front, before = upkeep ++ front ∧ tale = front ++ m :: after := by
  obtain rfl | ⟨ok, rfl⟩ := hu
  · exact ⟨before, rfl, h⟩
  · cases before with
    | nil =>
      rw [List.singleton_append, List.nil_append, List.cons.injEq] at h
      exact absurd h.1.symm (hm ok)
    | cons first front =>
      rw [List.singleton_append, List.cons_append, List.cons.injEq] at h
      exact ⟨front, by rw [h.1]; rfl, h.2⟩

theorem Upkeep.attempts {upkeep : List Mark} (hu : Upkeep upkeep) :
    upkeep.countP (· matches .attempt) = 0 := by
  obtain rfl | ⟨ok, rfl⟩ := hu
  · rfl
  · rfl

theorem Upkeep.refreshes {upkeep : List Mark} (hu : Upkeep upkeep) :
    upkeep.countP (· matches .refreshed _) ≤ 1 := by
  obtain rfl | ⟨ok, rfl⟩ := hu
  · exact Nat.zero_le 1
  · exact Nat.le_refl 1

section
variable {tale before between after : List Mark} {err : Option ProviderError}

theorem Story.attempts (h : Story tale err) : tale.countP (· matches .attempt) ≤ 2 := by
  cases h <;> simp

theorem Story.refreshes (h : Story tale err) : tale.countP (· matches .refreshed _) ≤ 1 := by
  cases h <;> simp

theorem Story.again (h : Story tale err) (e : tale = before ++ .attempt :: after)
    (hmem : .attempt ∈ before) : before = [.attempt, .failed .authExpired, .refreshed true] := by
  -- an attempt with none before it is the first one
  have hne : before ≠ [] := List.ne_nil_of_mem hmem
  cases h with
  | servedAgain =>
    simp only [List.cons_eq_append_iff, hne, false_and, false_or] at e
    simp_all
  | failedAgain =>
    simp only [List.cons_eq_append_iff, hne, false_and, false_or] at e
    simp_all
  | _ => simp_all [List.cons_eq_append_iff]

theorem Story.never (h : Story tale err) : err ≠ some .authExpired := by
  cases h with
  | failed he => simpa using he
  | failedAgain => rename_i e; cases e <;> simp [mapRetry, refreshHint]
  | _ => simp [refreshHint]

theorem Story.refusal (h : Story tale err)
    (e : tale = before ++ .failed .authExpired :: .refreshed false :: after) :
    err = some refreshHint := by
  cases h <;> simp_all [List.cons_eq_append_iff]

theorem Story.expiredTwice (h : Story tale err)
    (e : tale = before ++ .failed .authExpired :: (between ++ .failed .authExpired :: after)) :
    err = some refreshHint := by
  cases h with
  | @failedAgain last =>
    -- the two expiries can only be those of the two attempts
    have hlast : ProviderError.authExpired = last := by
      simp_all [List.cons_eq_append_iff, List.append_eq_cons_iff]
    rw [← hlast]
    rfl
  | _ => simp_all [List.cons_eq_append_iff, List.append_eq_cons_iff]

theorem Story.others (h : Story tale err) {e : ProviderError}
    (eq : tale = before ++ .failed e :: after) (he : e ≠ .authExpired) : after = [] ∧ err = some e := by
  cases h <;> simp_all [List.cons_eq_append_iff, mapRetry]

end

/-- The law holds of every story, after whatever upkeep. -/
theorem RetryLaw.of_story {α : Type} {upkeep tale : List Mark} {err : Option ProviderError}
    {r : Except ProviderError α} (hu : Upkeep upkeep) (h : Story tale err)
    (herr : ∀ e, err = some e → r = .error e) (hnone : err = none → r ≠ .error .authExpired) :
    RetryLaw (upkeep ++ tale) r where
  attempts := by
    rw [List.countP_append, hu.attempts, Nat.zero_add]
    exact h.attempts
  refreshes := by
    rw [List.countP_append]
    exact Nat.add_le_add hu.refreshes h.refreshes
  again := by
    intro before after e hmem
    obtain ⟨front, rfl, he⟩ := hu.split (by simp) e
    refine ⟨upkeep ++ [.attempt], ?_⟩
    have hfront : .attempt ∈ front := by
      obtain hmem | hmem := List.mem_append.mp hmem
      · exact absurd hmem (List.countP_eq_zero.mp hu.attempts _ · rfl)
      · exact hmem
    rw [h.again he hfront, List.append_assoc]
    rfl
  never := by
    cases err with
    | none => exact hnone rfl
    | some e =>
      rw [herr e rfl]
      intro he
      cases he
      exact h.never rfl
  refused := by
    intro before after e
    obtain ⟨front, rfl, he⟩ := hu.split (by simp) e
    exact herr _ (h.refusal he)
  twice := by
    intro before between after e
    obtain ⟨front, rfl, he⟩ := hu.split (by simp) e
    exact herr _ (h.expiredTwice he)
  others := by
    intro before e after hsplit he
    obtain ⟨front, rfl, htale⟩ := hu.split (by simp) hsplit
    obtain ⟨hafter, hlast⟩ := h.others htale he
    exact ⟨hafter, herr e hlast⟩

/-- At most two attempts and two refreshes, the second attempt only after an
expiry and a refresh that succeeded, and every error where it belongs. -/
theorem retries_are_bounded (o : Op) (s : Session) (tr : CliTrace)
    (r : Except ProviderError (Session × o.Out)) (h : Runs (o.run s).run tr r) :
    RetryLaw (o.log tr) r := by
  obtain ⟨β, once, finish, hlog, hfinish, he⟩ := o.logged
  rw [he] at h
  obtain ⟨r', h', rfl⟩ := retried_runs.mp h
  obtain ⟨upkeep, tale, hu, htale, hsplit⟩ := h'.story hlog
  rw [hsplit]
  apply RetryLaw.of_story hu htale
  · intro e herr
    cases r' with
    | error e' => cases herr; rfl
    | ok p => cases herr
  · intro hnone
    cases r' with
    | error e' => cases hnone
    | ok p =>
      -- what the operation makes of a success is no expiry either
      have hp := hfinish p.2
      cases hb : finish p.2 with
      | error e => simpa [Except.bind, hb, Except.map] using hp
      | ok v => simp [Except.bind, hb, Except.map]

theorem retries_are_bounded_expired :
    RetryLaw [.attempt, .failed .authExpired, .refreshed true, .attempt, .failed (.server "down")]
      (.error (.server "down") : Except ProviderError (Session × List String)) :=
  retries_are_bounded (.list (some "ops")) ⟨"vw", "old"⟩
    [⟨.provider (.sessionExpiry ⟨"vw", "old"⟩), none⟩,
      ⟨.provider (.listNamespaces ⟨"vw", "old"⟩), .error .authExpired⟩,
      refreshEvent ⟨"vw", "old"⟩ (.ok ⟨"vw", "new"⟩),
      ⟨.provider (.listNamespaces ⟨"vw", "new"⟩), .ok [⟨"c1", "Ops"⟩]⟩,
      ⟨.provider (.listSecrets ⟨"vw", "new"⟩ ⟨"c1", "Ops"⟩), .error (.server "down")⟩]
    (.error (.server "down")) (runs_of_replay (by decide))

end Cryptile
