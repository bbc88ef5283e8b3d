import Cryptile.Rotation
import Cryptile.Vaultwarden.Login

/-
  TokenLifetime — the expiry of an issued session, and whether it is refreshed

  Login and refresh add the lifetime of a token response to the clock; the
  command line adds its margin to the clock and compares. The first sum wraps
  around, the second stops at the largest number. So a lifetime is recorded as
  the server gave it exactly where it fits above the clock. Without a clock no
  expiry is recorded, and nothing is refreshed ahead of a call.
-/

namespace Cryptile
open Text Interaction

/-! ## Issued sessions -/

def clockReading : Sigma OsAns → Option (Option UInt64)
  | ⟨.systemTime, now⟩ => some now
  | _ => none

section
variable (P : Primitives) (J : Decoders)

/-- The token response of the last token request. -/
def lastGrant (tr : OsTrace) : Option TokenResponse :=
  (lastSeen (tokenPostOf J) tr).bind (fun post => post.answer.toOption)

/-- The calls that issue a session. -/
inductive Issues : OsTrace → Session → Prop
  | login {tr session} (p params) : Runs (login P J p params).run tr (.ok session) → Issues tr session
  | refresh {tr session} (s) : Runs (refreshSession J s).run tr (.ok session) → Issues tr session

/-- A session issued on a token response, at a clock reading. -/
def IssuedAt (now : Option UInt64) (token : TokenResponse) (session : Session) : Prop :=
  ∃ tr, Issues P J tr session ∧ lastSeen clockReading tr = some now ∧ lastGrant J tr = some token

end

section
variable {P : Primitives} {J : Decoders} {tr : OsTrace} {session : Session}

theorem parseResponse_ok {α : Type} {decode : String → Except String α} {op : String} (op' : String)
    {resp : Except String HttpResp} {a : α} (h : parseResponse decode op resp = .ok a) :
    parseResponse decode op' resp = .ok a := by
  cases resp with
  | error e => cases h
  | ok resp =>
    simp only [parseResponse] at h ⊢
    split at h
    · split at h <;> cases h
    · next hstatus => rwa [if_neg hstatus]

theorem liftApi_ok {α : Type} {x : Os (Except ApiError α)} {a : α}
    (h : Runs (liftApi J x).run tr (.ok a)) : Runs x tr (.ok a) := by
  obtain ⟨y, hrun, hy⟩ := runs_map.mp h
  cases y with
  | error e => cases hy
  | ok b =>
    obtain rfl : a = b := Except.ok.inj hy
    exact hrun

theorem lastGrant_append {t₁ t₂ : OsTrace} {token : TokenResponse}
    (h : lastGrant J t₂ = some token) : lastGrant J (t₁ ++ t₂) = some token := by
  obtain ⟨post, hpost, hanswer⟩ := Option.bind_eq_some_iff.mp h
  rw [lastGrant, lastSeen_append_some hpost]
  exact hanswer

/-- The clock is read after the last token request. -/
theorem lastGrant_clock {now : Option UInt64} :
    lastGrant J (tr ++ [⟨.systemTime, now⟩]) = lastGrant J tr := by
  rw [lastGrant, lastSeen_append]
  rfl

theorem GrantRun.granted_token {deviceId account hash : String} {backend : Option CeremonyBackend}
    {first selected : Option (UInt8 × String)} {pin : Option PinSource} {token : TokenResponse}
    (h : GrantRun J deviceId account hash backend first selected pin tr (.ok token)) :
    lastGrant J tr = some token := by
  have hlast : ∀ {posts : List TokenPost} {factor resp}, tokenPosts J tr = posts →
      posts.getLast? = some (postOf J deviceId account hash factor resp) →
      parseResponse J.token "login" resp = .ok token → lastGrant J tr = some token := by
    intro posts factor resp hposts hlast hresp
    rw [lastGrant, lastSeen]
    change (tokenPosts J tr).getLast?.bind _ = _
    rw [hposts, hlast]
    simp [postOf, hresp, Except.toOption]
  rcases h.posts with ⟨resp, hposts, -, hresp, -⟩ | ⟨_, _, e, -, -, he, -⟩ |
    ⟨_, _, _, answer, resp, -, -, hposts, hr⟩
  · exact hlast hposts rfl (hresp token rfl)
  · cases he
  · refine hlast hposts rfl ?_
    cases hv : parseResponse J.token "login" resp with
    | ok token' =>
      rw [hv] at hr
      rw [Except.ok.inj hr]
    | error e =>
      rw [hv] at hr
      cases e <;> cases hr

/-- What login encodes, at the clock it has read. -/
theorem openSession_ok {account : String} {masterKey : Block 32} {token : TokenResponse}
    (h : Runs (openSession P J account masterKey token).run tr (.ok session)) :
    ∃ now sess, tr = [⟨.systemTime, now⟩] ∧ encodeVwSession J sess = .ok session ∧
      sess.expiresAt = now.map (· + token.expiresIn) := by
  unfold openSession at h
  obtain ⟨_, userKey, t, rfl, hkey, h'⟩ := runs_ok_bind.mp h
  obtain ⟨rfl, -⟩ := hkey
  obtain ⟨_, now, _, rfl, hclock, rfl, hencode⟩ := runs_lift_bind.mp h'
  obtain rfl := runs_request.mp hclock
  exact ⟨now, _, rfl, hencode.symm, rfl⟩

/-- A call that issues a session encodes the clock plus the lifetime it was granted. -/
theorem Issues.encodes (h : Issues P J tr session) : ∃ t now token sess,
    tr = t ++ [⟨.systemTime, now⟩] ∧ lastGrant J t = some token ∧
    encodeVwSession J sess = .ok session ∧ sess.expiresAt = now.map (· + token.expiresIn) := by
  cases h with
  | login p params h =>
    unfold Cryptile.login at h
    obtain ⟨t₁, second, _, rfl, -, h⟩ := runs_ok_bind.mp h
    obtain ⟨t₂, pre, _, rfl, -, h⟩ := runs_ok_bind.mp h
    obtain ⟨t₃, masterKey, _, rfl, -, h⟩ := runs_ok_bind.mp h
    obtain ⟨t₄, token, t₅, rfl, hgrant, hopen⟩ := runs_ok_bind.mp h
    obtain ⟨now, sess, rfl, hencode, hexp⟩ := openSession_ok hopen
    refine ⟨t₁ ++ (t₂ ++ (t₃ ++ t₄)), now, token, sess, by simp, ?_, hencode, hexp⟩
    have htoken := (obtainToken_runs hgrant).granted_token
    exact lastGrant_append (lastGrant_append (lastGrant_append htoken))
  | refresh s h =>
    unfold refreshSession at h
    obtain ⟨_, sess, t, rfl, ⟨rfl, -⟩, hrest⟩ := runs_ok_bind.mp h
    cases hrt : sess.refreshToken with
    | none =>
      rw [hrt] at hrest
      cases hrest.2
    | some rt =>
      rw [hrt] at hrest
      obtain ⟨t₁, token, t₂, rfl, hgrant, hissue⟩ := runs_ok_bind.mp hrest
      obtain ⟨resp, rfl, hresp⟩ := call_runs.mp (liftApi_ok hgrant)
      obtain ⟨_, now, _, rfl, hclock, rfl, hencode⟩ := runs_lift_bind.mp hissue
      obtain rfl := runs_request.mp hclock
      refine ⟨_, now, token, _, rfl, ?_, hencode.symm, rfl⟩
      have hlogin := parseResponse_ok "login" hresp.symm
      simp [lastGrant, lastSeen, tokenPostOf, hlogin, Except.toOption]

end

/-! ## The expiry a session reports -/

theorem encode_expiry {J : Decoders} {sess : VwSession} {session : Session} (hkeep : J.KeepsSessions)
    (h : encodeVwSession J sess = .ok session) : sessionExpiry J session = sess.expiresAt := by
  obtain ⟨handle, hencode, hdecode⟩ := hkeep sess
  rw [encodeVwSession, hencode] at h
  obtain rfl := Except.ok.inj h
  simp [sessionExpiry, parseSession, hdecode, Except.mapError, Except.toOption]

theorem IssuedAt.expiry {P : Primitives} {J : Decoders} {now : Option UInt64} {token : TokenResponse}
    {session : Session} (hkeep : J.KeepsSessions) (h : IssuedAt P J now token session) :
    sessionExpiry J session = now.map (· + token.expiresIn) := by
  obtain ⟨tr, hissue, hclock, htoken⟩ := h
  obtain ⟨t, now', token', sess, rfl, htoken', hencode, hexp⟩ := hissue.encodes
  rw [lastGrant_clock, htoken'] at htoken
  obtain rfl := Option.some.inj htoken
  have hlast : lastSeen clockReading (t ++ [⟨.systemTime, now'⟩]) = some now' :=
    lastSeen_append_some rfl
  rw [hlast] at hclock
  obtain rfl := Option.some.inj hclock
  rw [encode_expiry hkeep hencode, hexp]

/-! ## The two sums -/

theorem toNat_saturatingAdd (a b : UInt64) :
    (saturatingAdd a b).toNat = min (a.toNat + b.toNat) 18446744073709551615 := by
  have ha := a.toNat_lt
  have hb := b.toNat_lt
  rw [saturatingAdd]
  split
  · next hwrap =>
    rw [UInt64.lt_iff_toNat_lt, UInt64.toNat_add] at hwrap
    have hmax : (0xFFFFFFFFFFFFFFFF : UInt64).toNat = 18446744073709551615 := rfl
    omega
  · next hfits =>
    rw [UInt64.lt_iff_toNat_lt, UInt64.toNat_add] at hfits
    rw [UInt64.toNat_add]
    omega

/-- A lifetime that fits above the clock lies inside a margin exactly if it is no longer. -/
theorem within_margin {t lifetime margin : UInt64} (h : t.toNat + lifetime.toNat < 18446744073709551616) :
    t + lifetime ≤ saturatingAdd t margin ↔ lifetime ≤ margin := by
  rw [UInt64.le_iff_toNat_le, UInt64.le_iff_toNat_le, toNat_saturatingAdd, UInt64.toNat_add]
  omega

/-! ## What is recorded, and what is refreshed -/

section
variable (P : Primitives) (J : Decoders)

/-- The provider reports the recorded expiry, and the clock stands still. -/
def AnswersAt (now : Option UInt64) : Sigma CliAns → Prop
  | ⟨.provider (.sessionExpiry s), x⟩ => x = sessionExpiry J s
  | ⟨.systemTime, x⟩ => x = now
  | _ => True

/-- The lifetime of a token response is recorded as the server gave it. -/
structure LifetimeKept (now : Option UInt64) (token : TokenResponse) (session : Session) : Prop where
  recorded : ∀ t ∈ now, ∃ exp ∈ sessionExpiry J session,
    exp.toNat = t.toNat + token.expiresIn.toNat ∧ t ≤ exp
  monotone : ∀ token' session', IssuedAt P J now token' session' →
    token'.expiresIn ≤ token.expiresIn →
    ∀ exp ∈ sessionExpiry J session, ∀ exp' ∈ sessionExpiry J session', exp' ≤ exp
  refreshed : ∀ t ∈ now, ∀ tr s', Runs (ensureFresh session) tr s' → (∀ e ∈ tr, AnswersAt J now e) →
    ((∃ x, refreshEvent session x ∈ tr) ↔ token.expiresIn ≤ refreshMarginSecs)

end

section
variable {P : Primitives} {J : Decoders} {now : Option UInt64} {token : TokenResponse}
  {session : Session}

/-- A session is refreshed ahead of a call exactly if its expiry lies inside the margin. -/
theorem FreshRun.refreshes_iff {t exp : UInt64} {tr : CliTrace} {s' : Session}
    (h : FreshRun session tr s') (hanswers : ∀ e ∈ tr, AnswersAt J (some t) e)
    (hexp : sessionExpiry J session = some exp) :
    (∃ x, refreshEvent session x ∈ tr) ↔ exp ≤ saturatingAdd t refreshMarginSecs := by
  have hreport : ∀ x, (⟨.provider (.sessionExpiry session), x⟩ : Sigma CliAns) ∈ tr → x = some exp :=
    fun x hx => (hanswers _ hx).trans hexp
  have hclock : ∀ x, (⟨.systemTime, x⟩ : Sigma CliAns) ∈ tr → x = some t := fun x hx => hanswers _ hx
  cases h with
  | unknown => cases hreport none (by simp)
  | fresh exp' now hlate =>
    obtain rfl := Option.some.inj (hreport (some exp') (by simp))
    obtain rfl := hclock now (by simp)
    simp only [Option.getD_some] at hlate
    simp [hlate]
  | refused exp' now e hsoon =>
    obtain rfl := Option.some.inj (hreport (some exp') (by simp))
    obtain rfl := hclock now (by simp)
    simp only [Option.getD_some] at hsoon
    simp [hsoon]
  | rotated exp' now _ hsoon =>
    obtain rfl := Option.some.inj (hreport (some exp') (by simp))
    obtain rfl := hclock now (by simp)
    simp only [Option.getD_some] at hsoon
    simp [hsoon]

theorem lifetime_kept_of_fits (hkeep : J.KeepsSessions) (h : IssuedAt P J now token session)
    (hfits : ∀ t ∈ now, t.toNat + token.expiresIn.toNat < 18446744073709551616) :
    LifetimeKept P J now token session := by
  have hexp := h.expiry hkeep
  have hsum : ∀ t ∈ now, (t + token.expiresIn).toNat = t.toNat + token.expiresIn.toNat := by
    intro t ht
    rw [UInt64.toNat_add]
    exact Nat.mod_eq_of_lt (hfits t ht)
  refine ⟨?_, ?_, ?_⟩
  · intro t ht
    refine ⟨t + token.expiresIn, by rw [hexp, ht]; rfl, hsum t ht, ?_⟩
    rw [UInt64.le_iff_toNat_le, hsum t ht]
    exact Nat.le_add_right _ _
  · intro token' session' h' hle exp hx exp' hx'
    rw [hexp] at hx
    rw [h'.expiry hkeep] at hx'
    obtain ⟨t, ht, rfl⟩ := Option.map_eq_some_iff.mp hx
    obtain ⟨t', ht', rfl⟩ := Option.map_eq_some_iff.mp hx'
    obtain rfl : t = t' := Option.some.inj (ht.symm.trans ht')
    rw [UInt64.le_iff_toNat_le] at hle ⊢
    rw [hsum t ht, UInt64.toNat_add]
    have hfit := hfits t ht
    omega
  · intro t ht tr s' hrun hanswers
    obtain rfl : now = some t := ht
    rw [FreshRun.refreshes_iff (ensureFresh_runs.mp hrun) hanswers hexp]
    exact within_margin (hfits t rfl)

/-- The lifetime a server grants is recorded and minded exactly if it fits above the clock. -/
theorem lifetime_kept_iff (hkeep : J.KeepsSessions) (h : IssuedAt P J now token session) :
    LifetimeKept P J now token session ↔
      ∀ t ∈ now, t.toNat + token.expiresIn.toNat < UInt64.size := by
  refine ⟨?_, ?_⟩
  · intro hkept t ht
    obtain ⟨exp, -, hexp, -⟩ := hkept.recorded t ht
    rw [← hexp]
    exact exp.toNat_lt_size
  · exact lifetime_kept_of_fits hkeep h

end

/-! ## A lifetime that wraps around -/

/-- The codec for sessions, for a server that grants one lifetime. -/
def lifetimeDecoders (lifetime : UInt64) : Decoders :=
  { rotatingDecoders with
    token := fun body => .ok
      { accessToken := "access", refreshToken := some body, expiresIn := lifetime, key := "" } }

theorem lifetimeDecoders_keepsSessions (lifetime : UInt64) : (lifetimeDecoders lifetime).KeepsSessions :=
  rotatingDecoders_keepsSessions

/-- A refresh that is granted one lifetime. -/
theorem refresh_issuedAt (P : Primitives) (now lifetime : UInt64) : ∃ session,
    IssuedAt P (lifetimeDecoders lifetime) (some now) ⟨"access", some "r1", lifetime, ""⟩ session := by
  have hresp : ∀ op, parseResponse (lifetimeDecoders lifetime).token op (.ok ⟨200, "r1"⟩) =
      .ok ⟨"access", some "r1", lifetime, ""⟩ := by
    intro op
    have h200 : isSuccess 200 = true := by decide
    simp [parseResponse, h200, lifetimeDecoders]
  have hrt : (heldSession "r0").refreshToken = some "r0" := by simp only [heldSession]
  refine ⟨_, _, .refresh (sealedSession "r0") (refreshSession_runs_ok (parse_sealedSession "r0") hrt
    (hresp "refresh") rfl), rfl, ?_⟩
  simp only [lastGrant, lastSeen, List.filterMap_cons, tokenPostOf, hresp, Except.toOption]
  rfl

/-- An hour is recorded, and minded, as it was granted. -/
theorem lifetime_kept_iff_hour : ∃ session,
    LifetimeKept plainPrimitives (lifetimeDecoders 3600) (some 1000) ⟨"access", some "r1", 3600, ""⟩
      session ↔
    ∀ t ∈ some (1000 : UInt64), t.toNat + (3600 : UInt64).toNat < UInt64.size := by
  obtain ⟨session, h⟩ := refresh_issuedAt plainPrimitives 1000 3600
  exact ⟨session, lifetime_kept_iff (lifetimeDecoders_keepsSessions 3600) h⟩

/-- The longest lifetime there is ends a second before it begins. -/
theorem longest_lifetime_wraps : (lifetimeDecoders 0xFFFFFFFFFFFFFFFF).KeepsSessions ∧ ∃ session,
    IssuedAt plainPrimitives (lifetimeDecoders 0xFFFFFFFFFFFFFFFF) (some 1000)
      ⟨"access", some "r1", 0xFFFFFFFFFFFFFFFF, ""⟩ session ∧
    sessionExpiry (lifetimeDecoders 0xFFFFFFFFFFFFFFFF) session = some 999 ∧
    ¬ LifetimeKept plainPrimitives (lifetimeDecoders 0xFFFFFFFFFFFFFFFF) (some 1000)
      ⟨"access", some "r1", 0xFFFFFFFFFFFFFFFF, ""⟩ session := by
  have hkeep := lifetimeDecoders_keepsSessions 0xFFFFFFFFFFFFFFFF
  obtain ⟨session, h⟩ := refresh_issuedAt plainPrimitives 1000 0xFFFFFFFFFFFFFFFF
  have hexp : sessionExpiry (lifetimeDecoders 0xFFFFFFFFFFFFFFFF) session = some 999 := h.expiry hkeep
  refine ⟨hkeep, session, h, hexp, ?_⟩
  intro hkept
  obtain ⟨exp, hrecorded, -, hle⟩ := hkept.recorded 1000 rfl
  obtain rfl := Option.some.inj (hexp.symm.trans hrecorded)
  exact absurd hle (by decide)

end Cryptile
