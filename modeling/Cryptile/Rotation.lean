import Cryptile.Ops
import Cryptile.Vaultwarden.Provider
import Std.Data.String.ToNat

/-
  Rotation — which session a refresh presents, and which token it spends

  An operation refreshes at most twice: before its first attempt, where the
  session is about to expire, and after it, where the attempt was answered
  `AuthExpired`. The second refresh presents the session the operation started
  from, also when the first one has replaced it. Against a server that rotates
  its refresh tokens that presents a token that is already spent.
-/

namespace Cryptile
open Text Interaction

/-! ## The refreshes of a run -/

/-- A refresh: the session it presents, and its answer. -/
abbrev Refresh := Session × Except ProviderError Session

def refreshes (tr : CliTrace) : List Refresh := tr.filterMap refreshOf

/-- The newest session there is after some refreshes. -/
def newest (before : List Refresh) : Option Session :=
  (before.filterMap (fun p => p.2.toOption)).getLast?

/-- Every refresh presents the newest session that is there. -/
def PresentsNewest (ps : List Refresh) : Prop :=
  ∀ before s x after, ps = before ++ (s, x) :: after → ∀ s', newest before = some s' → s = s'

/-- The session of a refresh that succeeds before the backend is called. -/
def proactive (tr : CliTrace) : Option Session := lastRotation (tr.takeWhile (fun e => !isBackend e))

/-! ## The grants behind them -/

/-- A refresh grant: the token it presents, and its answer. -/
abbrev Grant := String × Except ApiError TokenResponse

section
variable (J : Decoders)

def grantOf : Sigma OsAns → Option Grant
  | ⟨.http (.postForm .token form), resp⟩ =>
    (form.lookup "refresh_token").map (fun rt => (rt, parseResponse J.token "refresh" resp))
  | _ => none

/-- The requests of the backend are those of these refreshes, one after the other. -/
def Backs : List Refresh → OsTrace → Prop
  | [], tr => tr = []
  | (s, x) :: rest, tr =>
    ∃ t₁ t₂, tr = t₁ ++ t₂ ∧ Runs (refreshSession J s).run t₁ x ∧ Backs rest t₂

/-- Every session encodes, to a handle that decodes to it. -/
def Decoders.KeepsSessions : Prop :=
  ∀ sess, ∃ handle, J.encodeSession sess = .ok handle ∧ J.session handle = .ok sess

end

/-- The server rotates: a grant that succeeds returns a token other than the one presented. -/
def Rotates (gs : List Grant) : Prop :=
  ∀ rt token, (rt, Except.ok token) ∈ gs → ∃ rt', token.refreshToken = some rt' ∧ rt' ≠ rt

/-- No grant presents a token that an earlier grant has spent. -/
def NoReuse (gs : List Grant) : Prop :=
  ∀ before rt x after, gs = before ++ (rt, x) :: after → ∀ token, (rt, Except.ok token) ∉ before

def tokenOf (J : Decoders) (s : Session) : Option String :=
  (parseSession J s).toOption.bind VwSession.refreshToken

section
variable {J : Decoders} {s s' : Session} {tr : OsTrace}

/-- A refresh makes no grant, or one, with the session's own token; where that
succeeds there is a new session, with the token that came back. -/
theorem refreshSession_grants {x : Except ProviderError Session}
    (h : Runs (refreshSession J s).run tr x) :
    tr.filterMap (grantOf J) = [] ∨
    ∃ rt resp, tr.filterMap (grantOf J) = [(rt, resp)] ∧ tokenOf J s = some rt ∧
      (J.KeepsSessions → ∀ token, resp = .ok token →
        ∃ s', x = .ok s' ∧ tokenOf J s' = token.refreshToken.or (some rt)) := by
  unfold refreshSession at h
  rcases runs_settled_bind.mp h with ⟨e, hparse, rfl, rfl⟩ | ⟨sess, hparse, h'⟩
  · exact .inl rfl
  cases hrt : sess.refreshToken with
  | none =>
    rw [hrt] at h'
    obtain ⟨rfl, rfl⟩ := h'
    exact .inl rfl
  | some rt =>
    rw [hrt] at h'
    have htok : tokenOf J s = some rt := by simp [tokenOf, hparse, Except.toOption, hrt]
    rcases runs_except_bind.mp h' with ⟨e, rfl, hgrant⟩ | ⟨t₁, token, t₂, rfl, hgrant, h''⟩
    · obtain ⟨_, hcall, he⟩ := runs_map.mp hgrant
      obtain ⟨resp, rfl, rfl⟩ := call_runs.mp hcall
      refine .inr ⟨rt, parseResponse J.token "refresh" resp, rfl, htok, fun _ token ht => ?_⟩
      rw [ht] at he
      cases he
    · obtain ⟨_, hcall, he⟩ := runs_map.mp hgrant
      obtain ⟨resp, rfl, rfl⟩ := call_runs.mp hcall
      obtain ⟨_, now, _, rfl, hclock, rfl, rfl⟩ := runs_lift_bind.mp h''
      obtain rfl := runs_request.mp hclock
      refine .inr ⟨rt, parseResponse J.token "refresh" resp, rfl, htok, fun hkeep token' ht => ?_⟩
      rw [ht] at he
      cases he
      obtain ⟨handle, hencode, hdecode⟩ := hkeep
        { accessToken := token.accessToken, refreshToken := token.refreshToken.or (some rt),
          userKeyB64 := sess.userKeyB64, account := sess.account,
          expiresAt := now.map (· + token.expiresIn) }
      refine ⟨{ provider := "vw", handle := handle }, ?_, ?_⟩
      · simp only [encodeVwSession, hencode]
      · simp [tokenOf, parseSession, hdecode, Except.mapError, Except.toOption]

end

section
variable {J : Decoders} {s : Session} {sess : VwSession} {rt : String} {resp : Except String HttpResp}

/-- A grant the server answers, and the session made of its answer. -/
theorem refreshSession_runs_ok {token : TokenResponse} {now : Option UInt64}
    {r : Except ProviderError Session} (hparse : parseSession J s = .ok sess)
    (hrt : sess.refreshToken = some rt) (hresp : parseResponse J.token "refresh" resp = .ok token)
    (hencode : encodeVwSession J
      { accessToken := token.accessToken, refreshToken := token.refreshToken.or sess.refreshToken,
        userKeyB64 := sess.userKeyB64, account := sess.account,
        expiresAt := now.map (· + token.expiresIn) } = r) :
    Runs (refreshSession J s).run
      [⟨.http (.postForm .token (tokenRefreshForm rt)), resp⟩, ⟨.systemTime, now⟩] r := by
  have hgrant : Runs (liftApi J (tokenRefresh J rt)).run
      [⟨.http (.postForm .token (tokenRefreshForm rt)), resp⟩] (.ok token) :=
    runs_map.mpr ⟨_, call_runs.mpr ⟨resp, rfl, rfl⟩, by rw [hresp]; rfl⟩
  unfold refreshSession
  refine runs_settled_bind.mpr (.inr ⟨sess, hparse, ?_⟩)
  rw [hrt] at hencode ⊢
  refine runs_except_bind.mpr (.inr ⟨_, token, [⟨.systemTime, now⟩], rfl, hgrant, ?_⟩)
  exact runs_lift_bind.mpr ⟨_, now, [], rfl, runs_request.mpr rfl, rfl, hencode.symm⟩

theorem refreshSession_runs_error {e : ApiError} (hparse : parseSession J s = .ok sess)
    (hrt : sess.refreshToken = some rt) (hresp : parseResponse J.token "refresh" resp = .error e) :
    Runs (refreshSession J s).run [⟨.http (.postForm .token (tokenRefreshForm rt)), resp⟩]
      (.error (mapApi J e)) := by
  have hgrant : Runs (liftApi J (tokenRefresh J rt)).run
      [⟨.http (.postForm .token (tokenRefreshForm rt)), resp⟩] (.error (mapApi J e)) :=
    runs_map.mpr ⟨_, call_runs.mpr ⟨resp, rfl, rfl⟩, by rw [hresp]; rfl⟩
  unfold refreshSession
  refine runs_settled_bind.mpr (.inr ⟨sess, hparse, ?_⟩)
  rw [hrt]
  exact runs_except_bind.mpr (.inl ⟨_, rfl, hgrant⟩)

end

/-! ## The refreshes of an operation -/

theorem refreshes_append (t₁ t₂ : CliTrace) : refreshes (t₁ ++ t₂) = refreshes t₁ ++ refreshes t₂ :=
  List.filterMap_append

theorem refreshes_backend {tr : CliTrace} (h : ∀ e ∈ tr, isBackend e = true) : refreshes tr = [] :=
  List.filterMap_eq_nil_iff.mpr (fun e he => refreshOf_backend (h e he))

theorem FreshRun.refreshes {s s₀ : Session} {tr : CliTrace} (h : FreshRun s tr s₀) :
    ∃ first : Option (Except ProviderError Session),
      Cryptile.refreshes tr = first.toList.map (fun x => (s, x)) ∧
      lastRotation tr = first.bind Except.toOption := by
  cases h with
  | unknown => exact ⟨none, rfl, rfl⟩
  | fresh exp t hexp => exact ⟨none, rfl, rfl⟩
  | refused exp t e hexp => exact ⟨some (.error e), rfl, rfl⟩
  | rotated exp t _ hexp => exact ⟨some (.ok s₀), rfl, rfl⟩

/-- The events before the attempt are those before the backend is called. -/
theorem FreshRun.proactive {s s₀ : Session} {t₀ t₁ : CliTrace} (h : FreshRun s t₀ s₀)
    (hback : ∀ e ∈ t₁.head?, isBackend e = true) : Cryptile.proactive (t₀ ++ t₁) = lastRotation t₀ := by
  have hpre : ∀ e ∈ t₀, (!isBackend e) = true := fun e he => by rw [h.upkeep e he]; rfl
  rw [Cryptile.proactive, List.takeWhile_append_of_pos hpre]
  cases t₁ with
  | nil => rw [List.takeWhile_nil, List.append_nil]
  | cons e rest => rw [List.takeWhile_cons_of_neg (by simp [hback e rfl]), List.append_nil]

theorem expired_upkeep {e : Sigma CliAns} (h : isBackend e = false) : expired e = false := by
  unfold expired
  split <;> simp_all [isBackend]

theorem FreshRun.unexpired {s s₀ : Session} {tr : CliTrace} (h : FreshRun s tr s₀) :
    tr.any expired = false := by
  rw [List.any_eq_false]
  intro e he
  simp [expired_upkeep (h.upkeep e he)]

/-- An attempt that is answered `AuthExpired` has called the backend. -/
theorem Steady.head_backend {β γ : Type} {once : Attempt β} {finish : β → Except ProviderError γ}
    {served : Sigma CliAns → Bool} (hs : Steady once finish served) {s₀ : Session} {t₁ t : CliTrace}
    (h : Runs (once s₀).run t₁ (.error .authExpired)) : ∀ e ∈ (t₁ ++ t).head?, isBackend e = true := by
  intro e he
  cases t₁ with
  | nil =>
    have hexp := (hs.expires h).mpr rfl
    simp at hexp
  | cons e' rest =>
    cases he
    exact hs.backend h e (by simp)

/-- The refreshes of a run all present its own session: one before the first attempt,
if the session is stale, and one after it, if it was answered `AuthExpired`. -/
theorem RetryRun.refreshes {β γ : Type} {once : Attempt β} {finish : β → Except ProviderError γ}
    {served : Sigma CliAns → Bool} (hs : Steady once finish served) {s : Session} {tr : CliTrace}
    {r : Except ProviderError (Session × β)} (h : RetryRun once s tr r) :
    ∃ first second : Option (Except ProviderError Session),
      Cryptile.refreshes tr = (first.toList ++ second.toList).map (fun x => (s, x)) ∧
      (second.isSome = true ↔ tr.any expired = true) ∧
      Cryptile.proactive tr = first.bind Except.toOption := by
  cases h with
  | @settled t₀ s₀ t₁ _ h₀ h₁ hr =>
    obtain ⟨first, hfirst, hlast⟩ := h₀.refreshes
    have hquiet : t₁.any expired = false := by
      rw [← Bool.not_eq_true, hs.expires h₁]
      exact hr
    refine ⟨first, none, ?_, ?_, ?_⟩
    · rw [refreshes_append, hfirst, refreshes_backend (hs.backend h₁)]
      simp
    · simp [h₀.unexpired, hquiet]
    · rw [h₀.proactive (fun e he => hs.backend h₁ e (List.mem_of_mem_head? he)), hlast]
  | @refused t₀ s₀ t₁ e h₀ h₁ =>
    obtain ⟨first, hfirst, hlast⟩ := h₀.refreshes
    refine ⟨first, some (.error e), ?_, ?_, ?_⟩
    · rw [refreshes_append, refreshes_append, hfirst, refreshes_backend (hs.backend h₁)]
      simp [Cryptile.refreshes, refreshOf]
    · simp [(hs.expires h₁).mpr rfl]
    · rw [h₀.proactive (hs.head_backend h₁), hlast]
  | @retried t₀ s₀ t₁ s₂ t₂ r₂ h₀ h₁ h₂ =>
    obtain ⟨first, hfirst, hlast⟩ := h₀.refreshes
    have hrest : Cryptile.refreshes (refreshEvent s (.ok s₂) :: t₂) = [(s, .ok s₂)] := by
      rw [← List.singleton_append, refreshes_append, refreshes_backend (hs.backend h₂)]
      rfl
    refine ⟨first, some (.ok s₂), ?_, ?_, ?_⟩
    · calc Cryptile.refreshes (t₀ ++ (t₁ ++ refreshEvent s (.ok s₂) :: t₂))
          = Cryptile.refreshes t₀ ++
              (Cryptile.refreshes t₁ ++ Cryptile.refreshes (refreshEvent s (.ok s₂) :: t₂)) := by
            rw [refreshes_append, refreshes_append]
        _ = first.toList.map (fun x => (s, x)) ++ [(s, .ok s₂)] := by
            rw [hfirst, refreshes_backend (hs.backend h₁), hrest, List.nil_append]
        _ = (first.toList ++ [(.ok s₂ : Except ProviderError Session)]).map (fun x => (s, x)) := by
            rw [List.map_append]
            rfl
    · simp [(hs.expires h₁).mpr rfl]
    · rw [h₀.proactive (hs.head_backend h₁), hlast]

section
variable {first second : Option (Except ProviderError Session)} {s : Session}

/-- Two refreshes of one session: the second presents the newest one if the first
failed or changed nothing. -/
theorem presentsNewest_iff :
    PresentsNewest ((first.toList ++ second.toList).map (fun x => (s, x))) ↔
      (second.isSome = true → ∀ s', first.bind Except.toOption = some s' → s' = s) := by
  refine ⟨?_, ?_⟩
  · -- a second refresh has the first one before it
    intro h hsecond s' hs'
    obtain ⟨x₂, rfl⟩ := Option.isSome_iff_exists.mp hsecond
    obtain ⟨x₁, rfl, hx₁⟩ := Option.bind_eq_some_iff.mp hs'
    exact (h [(s, x₁)] s x₂ [] rfl s' (by simp [newest, hx₁])).symm
  · intro h before s₁ x after hsplit s' hnew
    cases before with
    | nil => cases hnew
    | cons p before =>
      cases first with
      | none => cases second <;> simp at hsplit
      | some x₁ =>
        cases second with
        | none => simp at hsplit
        | some x₂ =>
          cases before with
          | nil =>
            simp only [Option.toList_some, List.cons_append, List.nil_append, List.map_cons,
              List.map_nil, List.cons.injEq, Prod.mk.injEq] at hsplit
            obtain ⟨rfl, ⟨rfl, rfl⟩, rfl⟩ := hsplit
            refine (h rfl s' ?_).symm
            cases x₁ <;> simp_all [newest, Except.toOption]
          | cons p' before => simp at hsplit

theorem noReuse_of_length_le {gs : List Grant} (h : gs.length ≤ 1) : NoReuse gs := by
  intro before rt x after hsplit token hmem
  have hpos := List.length_pos_of_mem hmem
  rw [hsplit, List.length_append, List.length_cons] at h
  omega

theorem refreshSession_grants_le {J : Decoders} {x : Except ProviderError Session} {tr : OsTrace}
    (h : Runs (refreshSession J s).run tr x) : (tr.filterMap (grantOf J)).length ≤ 1 := by
  rcases refreshSession_grants h with hnil | ⟨_, _, hgs, -⟩
  · simp [hnil]
  · simp [hgs]

/-- Two refreshes of one session, one after the other: the first can have spent the token
only by replacing the session. -/
theorem noReuse_pair {J : Decoders} {x₁ x₂ : Except ProviderError Session} {t₁ t₂ : OsTrace}
    (hkeep : J.KeepsSessions) (h₁ : Runs (refreshSession J s).run t₁ x₁)
    (h₂ : Runs (refreshSession J s).run t₂ x₂)
    (hrot : Rotates (t₁.filterMap (grantOf J) ++ t₂.filterMap (grantOf J)))
    (hsame : ∀ s', x₁ = .ok s' → s' = s) :
    NoReuse (t₁.filterMap (grantOf J) ++ t₂.filterMap (grantOf J)) := by
  have hlen := refreshSession_grants_le h₂
  rcases refreshSession_grants h₁ with hnil | ⟨rt, resp, hgs, htok, hnext⟩
  · rw [hnil, List.nil_append]
    exact noReuse_of_length_le hlen
  rw [hgs] at hrot ⊢
  intro before rt' x after hsplit token hmem
  cases before with
  | nil => cases hmem
  | cons g before =>
    have hbefore : before = [] := by
      have hlen₂ := congrArg List.length hsplit
      simp only [List.length_append, List.length_cons, List.length_nil] at hlen₂
      exact List.eq_nil_of_length_eq_zero (by omega)
    subst hbefore
    rw [List.singleton_append, List.cons_append, List.cons.injEq] at hsplit
    obtain ⟨rfl, -⟩ := hsplit
    cases List.mem_singleton.mp hmem
    -- the grant succeeded, so there is a new session, and it has another token
    obtain ⟨s', hs', htok'⟩ := hnext hkeep token rfl
    obtain ⟨rt'', hrt'', hne⟩ := hrot rt token (by simp)
    rw [hsame s' hs', htok, hrt''] at htok'
    exact hne (Option.some.inj htok').symm

/-- Two refreshes of one session against a server that rotates its tokens: nothing
is presented twice, if the first refresh failed or changed nothing. -/
theorem noReuse_of_kept {J : Decoders} {tr : OsTrace} (hkeep : J.KeepsSessions)
    (hbacks : Backs J ((first.toList ++ second.toList).map (fun x => (s, x))) tr)
    (hrot : Rotates (tr.filterMap (grantOf J)))
    (h : second.isSome = true → ∀ s', first.bind Except.toOption = some s' → s' = s) :
    NoReuse (tr.filterMap (grantOf J)) := by
  cases first with
  | none =>
    cases second with
    | none =>
      obtain rfl : tr = [] := hbacks
      exact noReuse_of_length_le (by simp)
    | some x₂ =>
      obtain ⟨t₁, _, rfl, ht, rfl⟩ := hbacks
      rw [List.append_nil]
      exact noReuse_of_length_le (refreshSession_grants_le ht)
  | some x₁ =>
    cases second with
    | none =>
      obtain ⟨t₁, _, rfl, ht, rfl⟩ := hbacks
      rw [List.append_nil]
      exact noReuse_of_length_le (refreshSession_grants_le ht)
    | some x₂ =>
      obtain ⟨t₁, _, rfl, ht₁, t₂, _, rfl, ht₂, rfl⟩ := hbacks
      rw [List.append_nil, List.filterMap_append] at hrot ⊢
      refine noReuse_pair hkeep ht₁ ht₂ hrot (fun s' hs' => h rfl s' ?_)
      rw [hs']
      rfl

end

/-- An operation refreshes the newest session there is, and against a server that
rotates its tokens spends none of them twice, exactly unless the refresh before its
first attempt replaced the session and a backend call was answered `AuthExpired`. -/
theorem refresh_presents_newest_iff {o : Op} {s : Session} {tr : CliTrace}
    {r : Except ProviderError (Session × o.Out)} (h : Runs (o.run s).run tr r) :
    (PresentsNewest (refreshes tr) ∧
      ∀ (J : Decoders) (lower : OsTrace), J.KeepsSessions → Backs J (refreshes tr) lower →
        Rotates (lower.filterMap (grantOf J)) → NoReuse (lower.filterMap (grantOf J))) ↔
    (tr.any expired = true → ∀ s', proactive tr = some s' → s' = s) := by
  obtain ⟨β, once, finish, hs, he⟩ := o.steady
  rw [he] at h
  obtain ⟨r', h', -⟩ := retried_runs.mp h
  obtain ⟨first, second, hrefreshes, hexpired, hproactive⟩ := h'.refreshes hs
  rw [hrefreshes, hproactive, ← hexpired, presentsNewest_iff]
  refine ⟨?_, ?_⟩
  · exact And.left
  · intro hkept
    exact ⟨hkept, fun J lower hkeep hbacks hrot => noReuse_of_kept hkeep hbacks hrot hkept⟩

/-! ## A server that rotates, and a codec for sessions -/

/-- A text after its length in ones. -/
def frame (s : String) : List Char := List.replicate s.length '1' ++ '0' :: s.toList

/-- The text a list of characters starts with, and what follows it. -/
def unframe (cs : List Char) : String × List Char :=
  let n := (cs.takeWhile (· == '1')).length
  (String.ofList ((cs.drop (n + 1)).take n), (cs.drop (n + 1)).drop n)

theorem unframe_frame (s : String) (cs : List Char) : unframe (frame s ++ cs) = (s, cs) := by
  have hones : ∀ c ∈ List.replicate s.length '1', (c == '1') = true := by simp
  have hlen : ((frame s ++ cs).takeWhile (· == '1')).length = s.length := by
    rw [frame, List.append_assoc, List.takeWhile_append_of_pos hones, List.cons_append,
      List.takeWhile_cons_of_neg (by decide)]
    simp
  have hdrop : (frame s ++ cs).drop (s.length + 1) = s.toList ++ cs := by
    simp [frame, List.drop_append]
  have hs : s.length = s.toList.length := String.length_toList.symm
  rw [unframe, hlen, hdrop, hs, List.take_left, List.drop_left, String.ofList_toList]

def frameOption (s : Option String) : String := s.elim "" (fun s => "+" ++ s)

def unframeOption (s : String) : Option String :=
  match s.toList with
  | [] => none
  | _ :: cs => some (String.ofList cs)

theorem unframeOption_frameOption (s : Option String) : unframeOption (frameOption s) = s := by
  cases s <;> simp [unframeOption, frameOption]

/-- A session as the frames of its members. -/
def frameSession (sess : VwSession) : String :=
  String.ofList (frame sess.accessToken ++ (frame (frameOption sess.refreshToken) ++
    (frame sess.userKeyB64 ++ (frame (frameOption sess.account) ++
      frame (frameOption (sess.expiresAt.map (fun n => n.toNat.repr)))))))

def unframeSession (handle : String) : VwSession :=
  let access := unframe handle.toList
  let refresh := unframe access.2
  let userKey := unframe refresh.2
  let account := unframe userKey.2
  { accessToken := access.1, refreshToken := unframeOption refresh.1, userKeyB64 := userKey.1,
    account := unframeOption account.1,
    expiresAt := (unframeOption (unframe account.2).1).bind (fun n => n.toNat?.map UInt64.ofNat) }

theorem unframeSession_frameSession (sess : VwSession) : unframeSession (frameSession sess) = sess := by
  have hlast : ∀ s : String, unframe (frame s) = (s, []) := fun s => by
    have := unframe_frame s []
    rwa [List.append_nil] at this
  simp only [unframeSession, frameSession, String.toList_ofList, unframe_frame, hlast,
    unframeOption_frameOption]
  cases sess with
  | mk a r u acc e => cases e <;> simp [Nat.toNat?_repr]

-- From here on the codec is its round trip; it is never run.
attribute [irreducible] frameSession unframeSession

/-- Decoders that keep sessions, for a server whose answer is the next refresh token. -/
def rotatingDecoders : Decoders where
  value _ := .error "no JSON"
  token body := .ok { accessToken := "access", refreshToken := some body, expiresIn := 0, key := "" }
  sync _ := .error "no sync"
  collections _ := .error "no collections"
  cipher _ := .error "no cipher"
  session handle := .ok (unframeSession handle)
  encodeSession sess := .ok (frameSession sess)
  cacheData _ := none
  encodeCacheData _ := .error "no cache"

theorem rotatingDecoders_keepsSessions : rotatingDecoders.KeepsSessions := by
  intro sess
  exact ⟨frameSession sess, rfl, congrArg Except.ok (unframeSession_frameSession sess)⟩

def heldSession (refreshToken : String) : VwSession where
  accessToken := "access"
  refreshToken := some refreshToken
  userKeyB64 := ""
  account := none
  expiresAt := some 0

def sealedSession (refreshToken : String) : Session := ⟨"vw", frameSession (heldSession refreshToken)⟩

theorem parse_sealedSession (refreshToken : String) :
    parseSession rotatingDecoders (sealedSession refreshToken) = .ok (heldSession refreshToken) := by
  simp [parseSession, rotatingDecoders, sealedSession, unframeSession_frameSession, Except.mapError]

theorem tokenOf_sealedSession (refreshToken : String) :
    tokenOf rotatingDecoders (sealedSession refreshToken) = some refreshToken := by
  simp [tokenOf, parse_sealedSession, Except.toOption, heldSession]

theorem granted_response (rt : String) : parseResponse rotatingDecoders.token "refresh" (.ok ⟨200, rt⟩) =
    .ok ⟨"access", some rt, 0, ""⟩ := by
  have h200 : isSuccess 200 = true := by decide
  simp [parseResponse, h200, rotatingDecoders]

theorem denied_response : parseResponse rotatingDecoders.token "refresh" (.ok ⟨401, ""⟩) =
    .error (.status "refresh" 401 "") := by
  have h401 : isSuccess 401 = false := by decide
  have hchallenge : isChallenge ⟨401, ""⟩ = false := by decide
  have hempty : sanitize "" = "" := by decide
  simp [parseResponse, h401, hchallenge, hempty]

/-- A refresh that the server grants, with the token it hands out. -/
theorem refresh_granted (rt rt' : String) : Runs (refreshSession rotatingDecoders (sealedSession rt)).run
    [⟨.http (.postForm .token (tokenRefreshForm rt)), .ok ⟨200, rt'⟩⟩, ⟨.systemTime, some 0⟩]
    (.ok (sealedSession rt')) := by
  refine refreshSession_runs_ok (parse_sealedSession rt) ?_ (granted_response rt') ?_
  · simp only [heldSession]
  · simp [encodeVwSession, rotatingDecoders, sealedSession, heldSession]

theorem refresh_denied (rt : String) : Runs (refreshSession rotatingDecoders (sealedSession rt)).run
    [⟨.http (.postForm .token (tokenRefreshForm rt)), .ok ⟨401, ""⟩⟩] (.error .authExpired) := by
  have hmap : mapApi rotatingDecoders (.status "refresh" 401 "") = .authExpired := by simp [mapApi]
  rw [← hmap]
  refine refreshSession_runs_error (parse_sealedSession rt) ?_ denied_response
  simp only [heldSession]

/-- A stale session is refreshed and the backend answers: nothing is refreshed again. -/
theorem refresh_presents_newest_iff_served : ∃ tr : CliTrace,
    Runs ((Op.list none).run (sealedSession "r0")).run tr (.ok (sealedSession "r1", [])) ∧
    ((PresentsNewest (refreshes tr) ∧
      ∀ (J : Decoders) (lower : OsTrace), J.KeepsSessions → Backs J (refreshes tr) lower →
        Rotates (lower.filterMap (grantOf J)) → NoReuse (lower.filterMap (grantOf J))) ↔
    (tr.any expired = true → ∀ s', proactive tr = some s' → s' = sealedSession "r0")) := by
  let old := sealedSession "r0"
  let new := sealedSession "r1"
  let tr : CliTrace := [⟨.provider (.sessionExpiry old), some 0⟩, ⟨.systemTime, some 0⟩,
    refreshEvent old (.ok new), ⟨.provider (.listNamespaces new), .ok []⟩]
  have hruns : Runs ((Op.list none).run old).run tr (.ok (new, [])) := by
    refine retried_runs.mpr ⟨.ok (new, []), ?_, rfl⟩
    change RetryRun listNsOnce old (tr.take 3 ++ [tr[3]]) _
    exact .settled (.rotated 0 (some 0) new (by decide))
      (runs_except_map.mpr ⟨.ok [], runs_request.mpr rfl, rfl⟩) (by simp)
  exact ⟨tr, hruns, refresh_presents_newest_iff hruns⟩

/-- A stale session is refreshed, the backend expires the new one, and the refresh
after that presents the old one, whose token is spent. -/
theorem superseded_session_refreshed : ∃ (tr : CliTrace) (lower : OsTrace),
    Runs ((Op.list none).run (sealedSession "r0")).run tr (.error refreshHint) ∧
    ¬ PresentsNewest (refreshes tr) ∧
    rotatingDecoders.KeepsSessions ∧ Backs rotatingDecoders (refreshes tr) lower ∧
    Rotates (lower.filterMap (grantOf rotatingDecoders)) ∧
    ¬ NoReuse (lower.filterMap (grantOf rotatingDecoders)) := by
  let old := sealedSession "r0"
  let new := sealedSession "r1"
  let tr : CliTrace := [⟨.provider (.sessionExpiry old), some 0⟩, ⟨.systemTime, some 0⟩,
    refreshEvent old (.ok new), ⟨.provider (.listNamespaces new), .error .authExpired⟩,
    refreshEvent old (.error .authExpired)]
  let lower : OsTrace :=
    [⟨.http (.postForm .token (tokenRefreshForm "r0")), .ok ⟨200, "r1"⟩⟩, ⟨.systemTime, some 0⟩,
      ⟨.http (.postForm .token (tokenRefreshForm "r0")), .ok ⟨401, ""⟩⟩]
  have hne : new ≠ old := by
    intro h
    have htok := congrArg (tokenOf rotatingDecoders) h
    simp only [new, old, tokenOf_sealedSession] at htok
    exact absurd htok (by decide)
  have hgrants : lower.filterMap (grantOf rotatingDecoders) =
      [("r0", .ok ⟨"access", some "r1", 0, ""⟩), ("r0", .error (.status "refresh" 401 ""))] := by
    rw [← granted_response, ← denied_response]
    rfl
  refine ⟨tr, lower, ?_, ?_, rotatingDecoders_keepsSessions, ?_, ?_, ?_⟩
  · refine retried_runs.mpr ⟨.error refreshHint, ?_, rfl⟩
    change RetryRun listNsOnce old (tr.take 3 ++ ([tr[3]] ++ [refreshEvent old (.error .authExpired)])) _
    exact .refused .authExpired (.rotated 0 (some 0) new (by decide))
      (runs_except_map.mpr ⟨.error .authExpired, runs_request.mpr rfl, rfl⟩)
  · intro h
    exact hne (h [(old, .ok new)] old (.error .authExpired) [] rfl new rfl).symm
  · exact ⟨_, _, rfl, refresh_granted "r0" "r1", _, _, rfl, refresh_denied "r0", rfl⟩
  · rw [hgrants]
    intro rt token hmem
    simp only [List.mem_cons, Prod.mk.injEq, Except.ok.injEq, reduceCtorEq, and_false, List.not_mem_nil,
      or_false] at hmem
    obtain ⟨rfl, rfl⟩ := hmem
    exact ⟨"r1", rfl, by decide⟩
  · rw [hgrants]
    intro h
    exact h [_] "r0" _ [] rfl _ (List.mem_singleton.mpr rfl)

end Cryptile
