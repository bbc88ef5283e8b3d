import Cryptile.Cli

/-
  Ops — the provider operations of the command line, with their refresh rules

  Each operation refreshes a session that is about to expire, makes one attempt
  at the backend, and after `AuthExpired` refreshes once and makes one more. The
  four copies of that rule in the source differ in the attempt only: `withRetry`
  is the rule, `getOnce`, `listNsOnce`, `listItemsOnce` and `exportOnce` the
  attempts. `withRetry_runs` lists every run there is, whatever the provider and
  the clock answer; what follows about an operation is read off that list.

  Correspondence (Rust ↔ Lean):
    `ops::ensure_fresh`                    ↔ `ensureFresh`
    `ops::map_retry`, `refresh_hint`       ↔ `mapRetry`, `refreshHint`
    `export_once`, `get_once`, ...         ↔ `exportOnce`, `getOnce`, ...
    the match around each attempt          ↔ `withRetry`
    `ops::get`, `ops::list`, `ops::export` ↔ `Ops.get`, `Ops.list`, `Ops.exportNamespace`
-/

namespace Cryptile
open Text Interaction

/-! ## The operations -/

def hint : String := "session expired and refresh failed; run `cryptile login` to re-establish"

def refreshHint : ProviderError := .auth hint

def mapRetry : ProviderError → ProviderError
  | .authExpired => refreshHint
  | e => e

def refreshMarginSecs : UInt64 := 300

def saturatingAdd (a b : UInt64) : UInt64 := if a + b < a then 0xFFFFFFFFFFFFFFFF else a + b

def nowUnix : Cli UInt64 := (fun t : Option UInt64 => t.getD 0) <$> request (A := CliAns) .systemTime

/-- Whether the provider reports an expiry that lies inside the refresh margin. -/
def stale (session : Session) : Cli Bool := do
  match ← provider (.sessionExpiry session) with
  | some exp => return exp ≤ saturatingAdd (← nowUnix) refreshMarginSecs
  | none => return false

def ensureFresh (session : Session) : Cli Session := do
  if !(← stale session) then return session
  match ← provider (.refreshSession session) with
  | .ok fresh => return fresh
  -- a refused refresh is no failure: the session may still be good for the attempt
  | .error _ => return session

/-- An attempt at the backend: on success it hands its session back. -/
abbrev Attempt (β : Type) := Session → ExceptT ProviderError Cli (Session × β)

/-- One attempt with a session that is not about to expire; after `AuthExpired`
one refresh and one more attempt. -/
def withRetry {β : Type} (once : Attempt β) : Attempt β := fun session => ExceptT.mk do
  match ← (once (← ensureFresh session)).run with
  | .ok v => return .ok v
  | .error .authExpired =>
    -- the session the operation was called with, whatever `ensureFresh` made of it
    match ← provider (.refreshSession session) with
    | .error _ => return .error refreshHint
    | .ok fresh => return (← (once fresh).run).mapError mapRetry
  | .error e => return .error e

def findNamespace (ns : String) (names : List Namespace) : Except ProviderError Namespace :=
  match names.find? (fun n => eqIgnoreAsciiCase n.name ns) with
  | some n => .ok n
  | none => .error (.notFound ("namespace " ++ ns))

/-- An attempt that is one call. -/
def directly {γ : Type} (call : Session → Cli (Except ProviderError γ)) : Attempt γ := fun s => do
  let x ← ExceptT.mk (call s)
  return (s, x)

/-- List the namespaces, find the one named `ns`, and make the call on it. -/
def inNamespace {γ : Type} (ns : String)
    (call : Session → Namespace → Cli (Except ProviderError γ)) : Attempt γ := fun s => do
  let names ← ExceptT.mk (provider (.listNamespaces s))
  let target ← ExceptT.mk (pure (findNamespace ns names))
  let x ← ExceptT.mk (call s target)
  return (s, x)

def exportOnce (ns : String) : Attempt (List Secret) :=
  inNamespace ns (fun s target => provider (.getNamespaceSecrets s target))

def getOnce (r : Ref) : Attempt Secret := directly (fun s => provider (.getSecret s r))

def listNsOnce : Attempt (List Namespace) := directly (fun s => provider (.listNamespaces s))

def listItemsOnce (ns : String) : Attempt (List SecretMeta) :=
  inNamespace ns (fun s target => provider (.listSecrets s target))

/-- The field a reference selects: the one it names, or the first of the chain. -/
def selectField (r : Ref) (secret : Secret) : Option String :=
  if r.fieldExplicit then secret.field r.field else secret.primaryValue

def fieldMissing (r : Ref) : ProviderError :=
  let wanted := if r.fieldExplicit then r.field
    else "any of [" ++ ", ".intercalate primaryFieldChain ++ "]"
  .notFound ("field '" ++ wanted ++ "' not present on " ++ r.locus)

/-- What an operation makes of the attempt that succeeded. -/
def retried {β γ : Type} (once : Attempt β) (finish : β → Except ProviderError γ) : Attempt γ :=
  fun session => do
    let (session, b) ← withRetry once session
    let v ← ExceptT.mk (pure (finish b))
    return (session, v)

def Ops.exportNamespace (ns : String) : Attempt (List Secret) := retried (exportOnce ns) .ok

def getFinish (r : Ref) (secret : Secret) : Except ProviderError String :=
  match selectField r secret with
  | some value => .ok value
  | none => .error (fieldMissing r)

def Ops.get (r : Ref) : Attempt String := retried (getOnce r) (getFinish r)

def listNsFinish (names : List Namespace) : Except ProviderError (List String) :=
  .ok (names.map Namespace.name)

def listItemsFinish (metas : List SecretMeta) : Except ProviderError (List String) :=
  .ok (metas.map SecretMeta.name)

def Ops.list : Option String → Attempt (List String)
  | none => retried listNsOnce listNsFinish
  | some ns => retried (listItemsOnce ns) listItemsFinish

/-- The operations, the two forms of `list` among them. -/
inductive Op where
  | get (r : Ref)
  | list (ns : Option String)
  | exportNamespace (ns : String)

abbrev Op.Out : Op → Type
  | .get _ => String
  | .list _ => List String
  | .exportNamespace _ => List Secret

def Op.run : (o : Op) → Attempt o.Out
  | .get r => Ops.get r
  | .list ns => Ops.list ns
  | .exportNamespace ns => Ops.exportNamespace ns

/-! ## Events of a run -/

abbrev refreshEvent (s : Session) (x : Except ProviderError Session) : Sigma CliAns :=
  ⟨.provider (.refreshSession s), x⟩

/-- The refresh an event is, with the session it presented and its answer. -/
def refreshOf : Sigma CliAns → Option (Session × Except ProviderError Session)
  | ⟨.provider (.refreshSession s), x⟩ => some (s, x)
  | _ => none

/-- The session a successful refresh returned. -/
def rotation (e : Sigma CliAns) : Option Session := (refreshOf e).bind (·.2.toOption)

/-- The session the last successful refresh of a run returned. -/
def lastRotation (tr : CliTrace) : Option Session := lastSeen rotation tr

/-- A backend call that was answered `AuthExpired`. -/
def expired : Sigma CliAns → Bool
  | ⟨.provider (.listNamespaces _), .error .authExpired⟩ => true
  | ⟨.provider (.listSecrets _ _), .error .authExpired⟩ => true
  | ⟨.provider (.getNamespaceSecrets _ _), .error .authExpired⟩ => true
  | ⟨.provider (.getSecret _ _), .error .authExpired⟩ => true
  | _ => false

@[simp] theorem rotation_ok (s s' : Session) : rotation (refreshEvent s (.ok s')) = some s' := rfl

@[simp] theorem rotation_error (s : Session) (e : ProviderError) :
    rotation (refreshEvent s (.error e)) = none := rfl

theorem rotation_refresh {e : Sigma CliAns} {s' : Session} (h : rotation e = some s') :
    ∃ s, e = refreshEvent s (.ok s') := by
  unfold rotation refreshOf at h
  split at h
  · next s x =>
    cases x with
    | error e => cases h
    | ok s₁ =>
      cases h
      exact ⟨s, rfl⟩
  · cases h

/-- A call to the backend proper: neither the session's upkeep nor the login. -/
def isBackend : Sigma CliAns → Bool
  | ⟨.provider (.listNamespaces _), _⟩ => true
  | ⟨.provider (.listSecrets _ _), _⟩ => true
  | ⟨.provider (.getNamespaceSecrets _ _), _⟩ => true
  | ⟨.provider (.getSecret _ _), _⟩ => true
  | _ => false

/-- The answer an operation is after: the one its attempt ends with, usable. -/
def Op.served : Op → Sigma CliAns → Bool
  | .get r, ⟨.provider (.getSecret _ _), .ok secret⟩ => (selectField r secret).isSome
  | .list none, ⟨.provider (.listNamespaces _), .ok _⟩ => true
  | .list (some _), ⟨.provider (.listSecrets _ _), .ok _⟩ => true
  | .exportNamespace _, ⟨.provider (.getNamespaceSecrets _ _), .ok _⟩ => true
  | _, _ => false

theorem refreshOf_backend : ∀ {e : Sigma CliAns}, isBackend e = true → refreshOf e = none
  | ⟨.provider (.listNamespaces _), _⟩, _ => rfl
  | ⟨.provider (.listSecrets _ _), _⟩, _ => rfl
  | ⟨.provider (.getNamespaceSecrets _ _), _⟩, _ => rfl
  | ⟨.provider (.getSecret _ _), _⟩, _ => rfl

/-! ## Every run of an operation -/

/-- The events before the attempt, by what the provider and the clock answer. -/
inductive FreshRun (s : Session) : CliTrace → Session → Prop
  | unknown : FreshRun s [⟨.provider (.sessionExpiry s), none⟩] s
  | fresh (exp t) : ¬ exp ≤ saturatingAdd (Option.getD t 0) refreshMarginSecs →
      FreshRun s [⟨.provider (.sessionExpiry s), some exp⟩, ⟨.systemTime, t⟩] s
  | refused (exp t e) : exp ≤ saturatingAdd (Option.getD t 0) refreshMarginSecs →
      FreshRun s [⟨.provider (.sessionExpiry s), some exp⟩, ⟨.systemTime, t⟩,
        refreshEvent s (.error e)] s
  | rotated (exp t s') : exp ≤ saturatingAdd (Option.getD t 0) refreshMarginSecs →
      FreshRun s [⟨.provider (.sessionExpiry s), some exp⟩, ⟨.systemTime, t⟩,
        refreshEvent s (.ok s')] s'

theorem stale_runs {s : Session} {tr : CliTrace} {b : Bool} : Runs (stale s) tr b ↔
    (tr = [⟨.provider (.sessionExpiry s), none⟩] ∧ b = false) ∨
    ∃ exp t, tr = [⟨.provider (.sessionExpiry s), some exp⟩, ⟨.systemTime, t⟩] ∧
      b = decide (exp ≤ saturatingAdd (Option.getD t 0) refreshMarginSecs) := by
  unfold stale provider nowUnix
  rw [runs_request_bind]
  refine ⟨?_, ?_⟩
  · intro h
    obtain ⟨x, rest, rfl, h⟩ := h
    cases x with
    | none =>
      obtain ⟨rfl, rfl⟩ := h
      exact .inl ⟨rfl, rfl⟩
    | some exp =>
      obtain ⟨t₁, now, t₂, rfl, h₁, rfl, rfl⟩ := runs_bind.mp h
      obtain ⟨t, ht, rfl⟩ := runs_map.mp h₁
      obtain rfl := runs_request.mp ht
      exact .inr ⟨exp, t, rfl, rfl⟩
  · intro h
    obtain ⟨rfl, rfl⟩ | ⟨exp, t, rfl, rfl⟩ := h
    · exact ⟨none, [], rfl, rfl, rfl⟩
    · refine ⟨some exp, [⟨.systemTime, t⟩], rfl, runs_bind.mpr ⟨[⟨.systemTime, t⟩], _, [], rfl, ?_, rfl, rfl⟩⟩
      exact runs_map.mpr ⟨t, runs_request.mpr rfl, rfl⟩

theorem ensureFresh_asks {S : CliReq → Prop} {s : Session} (hexpiry : S (.provider (.sessionExpiry s)))
    (hrefresh : S (.provider (.refreshSession s))) (hclock : S .systemTime) : Asks S (ensureFresh s) := by
  refine asks_bind (asks_bind (asks_request hexpiry) (fun exp => ?_)) (fun stale => ?_)
  · cases exp with
    | none => exact asks_pure _
    | some exp =>
      exact asks_bind (asks_bind (asks_request hclock) (fun _ => asks_pure _)) (fun _ => asks_pure _)
  · cases stale with
    | false => exact asks_pure _
    | true => exact asks_bind (asks_request hrefresh) (fun x => by cases x <;> exact asks_pure _)

theorem ensureFresh_runs {s s' : Session} {tr : CliTrace} :
    Runs (ensureFresh s) tr s' ↔ FreshRun s tr s' := by
  unfold ensureFresh
  rw [runs_bind]
  refine ⟨?_, ?_⟩
  · intro h
    obtain ⟨t₁, b, t₂, rfl, h₁, h₂⟩ := h
    rcases stale_runs.mp h₁ with ⟨rfl, rfl⟩ | ⟨exp, t, rfl, rfl⟩
    · obtain ⟨rfl, rfl⟩ := h₂
      exact .unknown
    · by_cases hexp : exp ≤ saturatingAdd (Option.getD t 0) refreshMarginSecs
      · simp only [hexp, decide_true, Bool.not_true, Bool.false_eq_true, if_false] at h₂
        obtain ⟨x, rest, rfl, h⟩ := runs_request_bind.mp h₂
        cases x with
        | ok fresh => obtain ⟨rfl, rfl⟩ := h; exact .rotated exp t s' hexp
        | error e => obtain ⟨rfl, rfl⟩ := h; exact .refused exp t e hexp
      · simp only [hexp, decide_false, Bool.not_false, if_true] at h₂
        obtain ⟨rfl, rfl⟩ := h₂
        exact .fresh exp t hexp
  · intro h
    cases h with
    | unknown => exact ⟨_, false, [], by simp, stale_runs.mpr (.inl ⟨rfl, rfl⟩), rfl, rfl⟩
    | fresh exp t hexp =>
      refine ⟨_, _, [], by simp, stale_runs.mpr (.inr ⟨exp, t, rfl, rfl⟩), ?_⟩
      simp [hexp]
    | refused exp t e hexp =>
      refine ⟨_, _, [refreshEvent s (.error e)], rfl, stale_runs.mpr (.inr ⟨exp, t, rfl, rfl⟩), ?_⟩
      simp only [hexp, decide_true, Bool.not_true, Bool.false_eq_true, if_false]
      exact ⟨.error e, [], rfl, rfl, rfl⟩
    | rotated exp t s' hexp =>
      refine ⟨_, _, [refreshEvent s (.ok s')], rfl, stale_runs.mpr (.inr ⟨exp, t, rfl, rfl⟩), ?_⟩
      simp only [hexp, decide_true, Bool.not_true, Bool.false_eq_true, if_false]
      exact ⟨.ok s', [], rfl, rfl, rfl⟩

/-- Every run of an operation: its first attempt settles it, or the second refresh
is refused, or a second attempt follows it. -/
inductive RetryRun {β : Type} (once : Attempt β) (s : Session) :
    CliTrace → Except ProviderError (Session × β) → Prop
  | settled {t₀ s₀ t₁ r} : FreshRun s t₀ s₀ → Runs (once s₀).run t₁ r →
      r ≠ .error .authExpired → RetryRun once s (t₀ ++ t₁) r
  | refused {t₀ s₀ t₁} (e) : FreshRun s t₀ s₀ → Runs (once s₀).run t₁ (.error .authExpired) →
      RetryRun once s (t₀ ++ (t₁ ++ [refreshEvent s (.error e)])) (.error refreshHint)
  | retried {t₀ s₀ t₁ s₂ t₂ r} : FreshRun s t₀ s₀ →
      Runs (once s₀).run t₁ (.error .authExpired) → Runs (once s₂).run t₂ r →
      RetryRun once s (t₀ ++ (t₁ ++ refreshEvent s (.ok s₂) :: t₂)) (r.mapError mapRetry)

section
variable {β γ : Type} {once : Attempt β} {s : Session} {tr : CliTrace}

theorem withRetry_runs {r : Except ProviderError (Session × β)} :
    Runs (withRetry once s).run tr r ↔ RetryRun once s tr r := by
  unfold withRetry
  simp only [ExceptT.run_mk]
  rw [runs_bind]
  refine ⟨?_, ?_⟩
  · intro h
    obtain ⟨t₀, s₀, t, rfl, h₀, h⟩ := h
    have h₀ := ensureFresh_runs.mp h₀
    obtain ⟨t₁, r₁, t', rfl, h₁, h'⟩ := runs_bind.mp h
    split at h'
    · obtain ⟨rfl, rfl⟩ := h'
      rw [List.append_nil]
      exact .settled h₀ h₁ (by simp)
    · obtain ⟨x, rest, rfl, h''⟩ := runs_request_bind.mp h'
      cases x with
      | error e =>
        obtain ⟨rfl, rfl⟩ := h''
        exact .refused e h₀ h₁
      | ok s₂ =>
        obtain ⟨r₂, h₂, rfl⟩ := runs_map.mp h''
        exact .retried h₀ h₁ h₂
    · next e he =>
      obtain ⟨rfl, rfl⟩ := h'
      rw [List.append_nil]
      exact .settled h₀ h₁ (fun h => he (by simpa using h))
  · intro h
    cases h with
    | @settled t₀ s₀ t₁ _ h₀ h₁ hr =>
      refine ⟨t₀, s₀, t₁, rfl, ensureFresh_runs.mpr h₀, runs_bind.mpr ⟨t₁, r, [], by simp, h₁, ?_⟩⟩
      split
      · exact ⟨rfl, rfl⟩
      · exact absurd rfl hr
      · exact ⟨rfl, rfl⟩
    | refused e h₀ h₁ =>
      exact ⟨_, _, _, rfl, ensureFresh_runs.mpr h₀, runs_bind.mpr ⟨_, _, _, rfl, h₁,
        .error e, [], rfl, rfl, rfl⟩⟩
    | retried h₀ h₁ h₂ =>
      exact ⟨_, _, _, rfl, ensureFresh_runs.mpr h₀, runs_bind.mpr ⟨_, _, _, rfl, h₁,
        .ok _, _, rfl, runs_map.mpr ⟨_, h₂, rfl⟩⟩⟩

theorem retried_runs {finish : β → Except ProviderError γ}
    {r : Except ProviderError (Session × γ)} :
    Runs (retried once finish s).run tr r ↔ ∃ r', RetryRun once s tr r' ∧
      r = r'.bind (fun p => (finish p.2).map (fun v => (p.1, v))) := by
  unfold retried
  rw [runs_except_bind]
  refine ⟨?_, ?_⟩
  · intro h
    obtain ⟨e, rfl, h⟩ | ⟨t₁, ⟨s', b⟩, t₂, rfl, h₁, h₂⟩ := h
    · exact ⟨.error e, withRetry_runs.mp h, rfl⟩
    · obtain ⟨x, ⟨rfl, rfl⟩, rfl⟩ := runs_except_map.mp h₂
      exact ⟨.ok (s', b), withRetry_runs.mp (by simpa using h₁), rfl⟩
  · intro h
    obtain ⟨r', h, rfl⟩ := h
    cases r' with
    | error e => exact .inl ⟨e, rfl, withRetry_runs.mpr h⟩
    | ok p =>
      exact .inr ⟨tr, p, [], by simp, withRetry_runs.mpr h,
        runs_except_map.mpr ⟨finish p.2, ⟨rfl, rfl⟩, rfl⟩⟩

end

/-! ## The attempts -/

/-- What the rules about an operation use of its attempt: it only calls the
backend, keeps its session, fails with `AuthExpired` exactly when one of its calls
did, and is finished with success exactly when a call got the answer `served`. -/
structure Steady {β γ : Type} (once : Attempt β) (finish : β → Except ProviderError γ)
    (served : Sigma CliAns → Bool) : Prop where
  backend : ∀ {s tr r}, Runs (once s).run tr r → ∀ e ∈ tr, isBackend e = true
  returns : ∀ {s s' tr b}, Runs (once s).run tr (.ok (s', b)) → s' = s
  expires : ∀ {s tr r}, Runs (once s).run tr r → (tr.any expired = true ↔ r = .error .authExpired)
  serves : ∀ {s tr r}, Runs (once s).run tr r →
    (tr.any served = true ↔ ∃ b v, r = .ok (s, b) ∧ finish b = .ok v)
  answers : ∀ {e}, served e = true → isBackend e = true

/-- One backend call, by its only event. -/
def OneCall {β γ : Type} (call : Cli (Except ProviderError β)) (finish : β → Except ProviderError γ)
    (served : Sigma CliAns → Bool) : Prop :=
  ∀ {tr x}, Runs call tr x → ∃ e, tr = [e] ∧ isBackend e = true ∧
    (expired e = true ↔ x = .error .authExpired) ∧
    (served e = true ↔ ∃ b v, x = .ok b ∧ finish b = .ok v)

section
variable {β γ : Type} {finish : β → Except ProviderError γ} {served : Sigma CliAns → Bool}

theorem directly_steady {call : Session → Cli (Except ProviderError β)}
    (hcall : ∀ s, OneCall (call s) finish served)
    (hans : ∀ {e}, served e = true → isBackend e = true) :
    Steady (directly call) finish served where
  answers := hans
  backend := by
    intro s tr r h
    obtain ⟨x, hx, rfl⟩ := runs_except_map.mp h
    obtain ⟨e, rfl, he, -⟩ := hcall s hx
    simpa using he
  returns := by
    intro s s' tr b h
    obtain ⟨x, hx, e⟩ := runs_except_map.mp h
    cases x with
    | error => cases e
    | ok x => cases e; rfl
  expires := by
    intro s tr r h
    obtain ⟨x, hx, rfl⟩ := runs_except_map.mp h
    obtain ⟨e, rfl, -, he, -⟩ := hcall s hx
    cases x <;> simpa [Except.map] using he
  serves := by
    intro s tr r h
    obtain ⟨x, hx, rfl⟩ := runs_except_map.mp h
    obtain ⟨e, rfl, -, -, he⟩ := hcall s hx
    cases x <;> simpa [Except.map] using he

/-- The runs of an attempt that looks its namespace up first. -/
theorem inNamespace_runs {ns : String} {call : Session → Namespace → Cli (Except ProviderError β)}
    {s : Session} {tr : CliTrace} {r : Except ProviderError (Session × β)} :
    Runs (inNamespace ns call s).run tr r ↔
      (∃ e, tr = [⟨.provider (.listNamespaces s), .error e⟩] ∧ r = .error e) ∨
      (∃ names e, tr = [⟨.provider (.listNamespaces s), .ok names⟩] ∧
        findNamespace ns names = .error e ∧ r = .error e) ∨
      ∃ names target rest x, tr = ⟨.provider (.listNamespaces s), .ok names⟩ :: rest ∧
        findNamespace ns names = .ok target ∧ Runs (call s target) rest x ∧
        r = x.map (fun b => (s, b)) := by
  unfold inNamespace provider
  rw [runs_except_bind]
  refine ⟨?_, ?_⟩
  · intro h
    obtain ⟨e, rfl, h⟩ | ⟨t₁, names, t, rfl, h₁, h⟩ := h
    · exact .inl ⟨e, runs_request.mp h, rfl⟩
    · obtain rfl := runs_request.mp h₁
      rcases runs_except_bind.mp h with ⟨e, rfl, rfl, hf⟩ | ⟨_, target, t₂, rfl, ⟨rfl, hf⟩, h₂⟩
      · exact .inr (.inl ⟨names, e, rfl, hf.symm, rfl⟩)
      · obtain ⟨x, hx, rfl⟩ := runs_except_map.mp h₂
        exact .inr (.inr ⟨names, target, t₂, x, rfl, hf.symm, hx, rfl⟩)
  · intro h
    obtain ⟨e, rfl, rfl⟩ | ⟨names, e, rfl, hf, rfl⟩ | ⟨names, target, rest, x, rfl, hf, hx, rfl⟩ := h
    · exact .inl ⟨e, rfl, runs_request.mpr rfl⟩
    · refine .inr ⟨_, names, [], rfl, runs_request.mpr rfl, ?_⟩
      exact runs_except_bind.mpr (.inl ⟨e, rfl, rfl, hf.symm⟩)
    · refine .inr ⟨_, names, rest, rfl, runs_request.mpr rfl, ?_⟩
      exact runs_except_bind.mpr (.inr ⟨[], target, rest, rfl, ⟨rfl, hf.symm⟩,
        runs_except_map.mpr ⟨x, hx, rfl⟩⟩)

theorem findNamespace_error {ns : String} {names : List Namespace} {e : ProviderError}
    (h : findNamespace ns names = .error e) : e = .notFound ("namespace " ++ ns) := by
  unfold findNamespace at h
  split at h
  · contradiction
  · cases h; rfl

theorem expired_listNamespaces {s : Session} {e : ProviderError} :
    expired ⟨.provider (.listNamespaces s), .error e⟩ = true ↔ e = .authExpired := by
  cases e <;> simp [expired]

theorem inNamespace_steady {ns : String} {call : Session → Namespace → Cli (Except ProviderError β)}
    (hcall : ∀ s t, OneCall (call s t) finish served)
    (hlist : ∀ s x, served ⟨.provider (.listNamespaces s), x⟩ = false)
    (hans : ∀ {e}, served e = true → isBackend e = true) :
    Steady (inNamespace ns call) finish served where
  answers := hans
  backend := by
    intro s tr r h
    rcases inNamespace_runs.mp h with ⟨e, rfl, rfl⟩ | ⟨_, e, rfl, -, rfl⟩ | ⟨_, t, _, x, rfl, -, hx, rfl⟩
    · simp [isBackend]
    · simp [isBackend]
    · obtain ⟨e, rfl, he, -⟩ := hcall s t hx
      simpa [isBackend] using he
  returns := by
    intro s s' tr b h
    rcases inNamespace_runs.mp h with ⟨_, _, e⟩ | ⟨_, _, _, _, e⟩ | ⟨_, _, _, x, _, _, _, e⟩
    · cases e
    · cases e
    · cases x with
      | error => cases e
      | ok x => cases e; rfl
  expires := by
    intro s tr r h
    -- either call of the attempt can be the one that is answered `AuthExpired`
    rcases inNamespace_runs.mp h with ⟨e, rfl, rfl⟩ | ⟨_, e, rfl, hf, rfl⟩ | ⟨_, t, _, x, rfl, -, hx, rfl⟩
    · simp [expired_listNamespaces]
    · rw [findNamespace_error hf]
      simp [expired]
    · obtain ⟨e, rfl, -, he, -⟩ := hcall s t hx
      cases x <;> simpa [expired, Except.map] using he
  serves := by
    intro s tr r h
    rcases inNamespace_runs.mp h with ⟨e, rfl, rfl⟩ | ⟨_, e, rfl, hf, rfl⟩ | ⟨_, t, _, x, rfl, -, hx, rfl⟩
    · simp [hlist]
    · simp [hlist]
    · obtain ⟨e, rfl, -, -, he⟩ := hcall s t hx
      cases x <;> simpa [hlist, Except.map] using he

end

theorem served_backend {o : Op} {e : Sigma CliAns} (h : o.served e = true) :
    isBackend e = true := by
  unfold Op.served at h
  split at h <;> first | rfl | cases h

theorem getFinish_ok {r : Ref} {secret : Secret} :
    (∃ v, getFinish r secret = .ok v) ↔ (selectField r secret).isSome = true := by
  cases h : selectField r secret <;> simp [getFinish, h]

/-- Every operation is the retry rule around a steady attempt. -/
theorem Op.steady (o : Op) : ∃ (β : Type) (once : Attempt β) (finish : β → Except ProviderError o.Out),
    Steady once finish o.served ∧ o.run = retried once finish := by
  cases o with
  | get r =>
    refine ⟨_, getOnce r, getFinish r, directly_steady (fun s tr x h => ?_) served_backend, rfl⟩
    obtain rfl := runs_request.mp h
    refine ⟨_, rfl, rfl, ?_, ?_⟩
    · cases x with
      | error e => cases e <;> simp [expired]
      | ok secret => simp [expired]
    · cases x with
      | error e => simp [Op.served]
      | ok secret => simp [Op.served, ← getFinish_ok]
  | list ns =>
    cases ns with
    | none =>
      refine ⟨_, listNsOnce, listNsFinish, directly_steady (fun s tr x h => ?_) served_backend, rfl⟩
      obtain rfl := runs_request.mp h
      refine ⟨_, rfl, rfl, ?_, ?_⟩
      · cases x with
        | error e => exact expired_listNamespaces.trans (by simp)
        | ok names => simp [expired]
      · cases x <;> simp [Op.served, listNsFinish]
    | some ns =>
      refine ⟨_, listItemsOnce ns, listItemsFinish,
        inNamespace_steady (fun s t tr x h => ?_) (fun _ _ => rfl) served_backend, rfl⟩
      obtain rfl := runs_request.mp h
      refine ⟨_, rfl, rfl, ?_, ?_⟩
      · cases x with
        | error e => cases e <;> simp [expired]
        | ok metas => simp [expired]
      · cases x <;> simp [Op.served, listItemsFinish]
  | exportNamespace ns =>
    refine ⟨_, exportOnce ns, .ok,
      inNamespace_steady (fun s t tr x h => ?_) (fun _ _ => rfl) served_backend, rfl⟩
    obtain rfl := runs_request.mp h
    refine ⟨_, rfl, rfl, ?_, ?_⟩
    · cases x with
      | error e => cases e <;> simp [expired]
      | ok secrets => simp [expired]
    · cases x <;> simp [Op.served]

/-! ## What a run of an operation says about its refreshes -/

/-- What the operations ask for: the provider and the clock. -/
def isOpReq : CliReq → Bool
  | .provider _ | .systemTime => true
  | _ => false

theorem isOpReq_backend : ∀ {e : Sigma CliAns}, isBackend e = true → isOpReq e.1 = true
  | ⟨.provider _, _⟩, _ => rfl

theorem FreshRun.requests {s s₀ : Session} {tr : CliTrace} (h : FreshRun s tr s₀) :
    ∀ e ∈ tr, isOpReq e.1 = true := by
  cases h <;> simp [isOpReq]

theorem lastRotation_backend {tr : CliTrace} (h : ∀ e ∈ tr, isBackend e = true) :
    lastRotation tr = none :=
  lastSeen_none (fun e he => by rw [rotation, refreshOf_backend (h e he), Option.bind_none])

theorem FreshRun.rotations {s s₀ : Session} {tr : CliTrace} (h : FreshRun s tr s₀) :
    (lastRotation tr).getD s = s₀ := by
  cases h <;> rfl

section
variable {β γ : Type} {once : Attempt β} {finish : β → Except ProviderError γ}
  {served : Sigma CliAns → Bool} {s : Session} {tr : CliTrace}

theorem Steady.unserved (hs : Steady once finish served) {e : Sigma CliAns}
    (h : isBackend e = false) : served e = false := by
  cases hse : served e
  · rfl
  · rw [hs.answers hse] at h; contradiction

theorem Steady.unserved_error (hs : Steady once finish served) {e : ProviderError}
    (h : Runs (once s).run tr (.error e)) : tr.any served = false := by
  cases hany : tr.any served
  · rfl
  · obtain ⟨_, _, e, _⟩ := (hs.serves h).mp hany; cases e

theorem FreshRun.upkeep {s₀ : Session} (h : FreshRun s tr s₀) : ∀ e ∈ tr, isBackend e = false := by
  cases h <;> simp [isBackend]

theorem FreshRun.unserved (hs : Steady once finish served) {s₀ : Session} (h : FreshRun s tr s₀) :
    tr.any served = false := by
  rw [List.any_eq_false]
  intro e he
  simp [hs.unserved (h.upkeep e he)]

theorem RetryRun.requests (hs : Steady once finish served)
    {r : Except ProviderError (Session × β)} (h : RetryRun once s tr r) :
    ∀ e ∈ tr, isOpReq e.1 = true := by
  have hback : ∀ {s t r}, Runs (once s).run t r → ∀ e ∈ t, isOpReq e.1 = true :=
    fun h e he => isOpReq_backend (hs.backend h e he)
  cases h with
  | settled h₀ h₁ _ =>
    exact List.forall_mem_append.mpr ⟨h₀.requests, hback h₁⟩
  | refused _ h₀ h₁ =>
    refine List.forall_mem_append.mpr ⟨h₀.requests, List.forall_mem_append.mpr ⟨hback h₁, ?_⟩⟩
    exact List.forall_mem_singleton.mpr rfl
  | retried h₀ h₁ h₂ =>
    refine List.forall_mem_append.mpr ⟨h₀.requests, List.forall_mem_append.mpr ⟨hback h₁, ?_⟩⟩
    exact List.forall_mem_cons.mpr ⟨rfl, hback h₂⟩

/-- How a run ends: with success exactly if the provider gave the answer the
operation is after, and then with the newest session there is. -/
theorem RetryRun.outcome (hs : Steady once finish served)
    {r : Except ProviderError (Session × β)} (h : RetryRun once s tr r) :
    (tr.any served = true ↔ ∃ s' b v, r = .ok (s', b) ∧ finish b = .ok v) ∧
    ∀ s' b, r = .ok (s', b) → s' = (lastRotation tr).getD s := by
  cases h with
  | @settled t₀ s₀ t₁ _ h₀ h₁ _ =>
    -- only the upkeep before the attempt can have rotated the session
    have hlast : (lastRotation (t₀ ++ t₁)).getD s = s₀ := by
      calc (lastRotation (t₀ ++ t₁)).getD s
          = ((lastRotation t₁).or (lastRotation t₀)).getD s := by
            simp only [lastRotation, lastSeen_append]
        _ = (lastRotation t₀).getD s := by rw [lastRotation_backend (hs.backend h₁), Option.none_or]
        _ = s₀ := h₀.rotations
    rw [List.any_append, h₀.unserved hs, Bool.false_or, hs.serves h₁, hlast]
    refine ⟨?_, ?_⟩
    · refine ⟨?_, ?_⟩
      · rintro ⟨b, v, rfl, hb⟩; exact ⟨s₀, b, v, rfl, hb⟩
      · intro h
        obtain ⟨s', b, v, rfl, hb⟩ := h
        obtain rfl := hs.returns h₁
        exact ⟨b, v, rfl, hb⟩
    · rintro s' b rfl
      exact hs.returns h₁
  | @refused t₀ s₀ t₁ e h₀ h₁ =>
    -- nothing was served, so there is no result to hold a session
    have hr : served (refreshEvent s (.error e)) = false := hs.unserved rfl
    simp [h₀.unserved hs, hs.unserved_error h₁, hr]
  | @retried t₀ s₀ t₁ s₂ t₂ r₂ h₀ h₁ h₂ =>
    have hr : served (refreshEvent s (.ok s₂)) = false := hs.unserved rfl
    -- the second attempt keeps the session of the second refresh, the last there is
    have hlast : lastRotation (t₀ ++ (t₁ ++ refreshEvent s (.ok s₂) :: t₂)) = some s₂ := by
      have h₂ : lastSeen rotation t₂ = none := lastRotation_backend (hs.backend h₂)
      simp [lastRotation, lastSeen_append, lastSeen_cons, h₂]
    rw [List.any_append, List.any_append, List.any_cons, h₀.unserved hs, hs.unserved_error h₁, hr,
      hlast]
    simp only [Bool.false_or, hs.serves h₂, Option.getD_some]
    cases r₂ with
    | error e => simp [Except.mapError]
    | ok p =>
      obtain ⟨s', b⟩ := p
      obtain rfl := hs.returns h₂
      simp [Except.mapError]

end

theorem Op.outcome {o : Op} {s : Session} {tr : CliTrace} {r : Except ProviderError (Session × o.Out)}
    (h : Runs (o.run s).run tr r) :
    (tr.any o.served = true ↔ ∃ p, r = .ok p) ∧
    ∀ s' v, r = .ok (s', v) → s' = (lastRotation tr).getD s := by
  obtain ⟨β, once, finish, hs, he⟩ := o.steady
  rw [he] at h
  obtain ⟨r', h', rfl⟩ := retried_runs.mp h
  obtain ⟨hserved, hsession⟩ := h'.outcome hs
  cases r' with
  | error e => simp [hserved, Except.bind]
  | ok p =>
    obtain ⟨s₁, b⟩ := p
    cases hb : finish b with
    | error e => simp [hserved, Except.bind, hb, Except.map]
    | ok v =>
      refine ⟨by simp [hserved, Except.bind, hb, Except.map], ?_⟩
      intro s' v' e
      simp only [Except.bind, hb, Except.map, Except.ok.injEq, Prod.mk.injEq] at e
      rw [← e.1]
      exact hsession s₁ b rfl

theorem Op.requests {o : Op} {s : Session} {tr : CliTrace} {r : Except ProviderError (Session × o.Out)}
    (h : Runs (o.run s).run tr r) : ∀ e ∈ tr, isOpReq e.1 = true := by
  obtain ⟨β, once, finish, hs, he⟩ := o.steady
  rw [he] at h
  obtain ⟨r', h', -⟩ := retried_runs.mp h
  exact h'.requests hs

theorem FreshRun.presents {s s₀ s₁ : Session} {tr : CliTrace} {x : Except ProviderError Session}
    (h : FreshRun s tr s₀) (he : refreshEvent s₁ x ∈ tr) : s₁ = s := by
  cases h with
  | unknown => simp at he
  | fresh exp t _ => simp at he
  | refused exp t e _ =>
    have hsame : s₁ = s ∧ x = .error e := by simpa using he
    exact hsame.1
  | rotated exp t s' _ =>
    have hsame : s₁ = s ∧ x = .ok s₀ := by simpa using he
    exact hsame.1

/-- An operation only ever presents the session it was called with. -/
theorem Op.presents {o : Op} {s s₁ : Session} {tr : CliTrace}
    {r : Except ProviderError (Session × o.Out)} {x : Except ProviderError Session}
    (h : Runs (o.run s).run tr r) (he : refreshEvent s₁ x ∈ tr) : s₁ = s := by
  obtain ⟨β, once, finish, hs, ho⟩ := o.steady
  rw [ho] at h
  obtain ⟨r', h', -⟩ := retried_runs.mp h
  have hback : ∀ {s t r}, Runs (once s).run t r → refreshEvent s₁ x ∉ t := by
    intro s t r hrun he
    cases hs.backend hrun _ he
  have hevent : ∀ {y}, refreshEvent s₁ x = refreshEvent s y → s₁ = s := by
    intro y hy
    cases hy
    rfl
  cases h' with
  | settled h₀ h₁ _ =>
    obtain he | he := List.mem_append.mp he
    · exact h₀.presents he
    · exact absurd he (hback h₁)
  | refused e h₀ h₁ =>
    obtain he | he := List.mem_append.mp he
    · exact h₀.presents he
    obtain he | he := List.mem_append.mp he
    · exact absurd he (hback h₁)
    · exact hevent (List.mem_singleton.mp he)
  | retried h₀ h₁ h₂ =>
    obtain he | he := List.mem_append.mp he
    · exact h₀.presents he
    obtain he | he := List.mem_append.mp he
    · exact absurd he (hback h₁)
    obtain he | he := List.mem_cons.mp he
    · exact hevent he
    · exact absurd he (hback h₂)

/-- A session with another handle is the answer of a refresh. -/
theorem Op.refreshed {o : Op} {s s' : Session} {tr : CliTrace} {v : o.Out}
    (h : Runs (o.run s).run tr (.ok (s', v))) (hne : s'.handle ≠ s.handle) :
    refreshEvent s (.ok s') ∈ tr := by
  have hlast := (Op.outcome h).2 s' v rfl
  cases hrot : lastRotation tr with
  | none =>
    rw [hrot] at hlast
    exact absurd (congrArg Session.handle hlast) hne
  | some s₁ =>
    rw [hrot] at hlast
    obtain rfl : s' = s₁ := hlast
    obtain ⟨e, he, hseen⟩ := lastSeen_mem hrot
    obtain ⟨s₀, rfl⟩ := rotation_refresh hseen
    obtain rfl := Op.presents h he
    exact he

end Cryptile
