import Vici2.FederalDelta
import Vici2.Rbac
import Vici2.Runs

/-! Access tokens. The API signs one at a login, at a refresh, for a web socket and for a
monitor; a route opens to a token by what is written in it, not by the row of its user. -/

namespace Vici2

namespace Rbac

open Dnc (jsSpace jsTrim)

inductive Audience
  | api | ws | monitorGrant
  deriving DecidableEq, Repr

structure AccessTokenClaims where
  iss : String
  aud : Audience
  uid : Int
  tenantId : Option Int
  role : Role
  perms : Option (List Verb)
  iat : Int
  exp : Int
  jti : Nat
  totpVerified : Option Bool
  deriving DecidableEq, Repr

/-- `jwtVerify` is the library's check of a signature. -/
structure AuthEnv where
  jwtVerify : List Char → Except String AccessTokenClaims
  jwtIssuer : String
  accessTokenTtlSec : Nat

def clockTolerance : Int := 60

def monitorTokenTtlSec : Int := 60

/-- The claims that `verifyAccessToken` has found in their places. -/
structure Verified where
  uid : Int
  tenantId : Int
  role : Role
  perms : Option (List Verb)
  jti : Nat
  totpVerified : Bool
  deriving DecidableEq, Repr

structure SignInput where
  uid : Int
  tenantId : Int
  role : Role
  totpVerified : Bool
  aud : Audience

def permissionsFor (role : Role) : List Verb := (rawMatrix role).map Prod.fst

def signAccessToken (env : AuthEnv) (now : Int) (jti : Nat) (input : SignInput) :
    AccessTokenClaims where
  iss := env.jwtIssuer
  aud := input.aud
  uid := input.uid
  tenantId := some input.tenantId
  role := input.role
  perms := some (permissionsFor input.role)
  iat := now
  exp := now + env.accessTokenTtlSec
  jti := jti
  totpVerified := some input.totpVerified

def verifyAccessToken (env : AuthEnv) (now : Int) (expectedAud : Audience) (token : List Char) :
    Except String Verified :=
  match env.jwtVerify token with
  | .error message => .error message
  | .ok c =>
    if c.iss ≠ env.jwtIssuer then .error "claim invalid: unexpected \"iss\" claim value"
    else if c.aud ≠ expectedAud then .error "claim invalid: unexpected \"aud\" claim value"
    else if c.exp ≤ now - clockTolerance then .error "token expired"
    else
      match c.tenantId, c.totpVerified with
      | none, _ => .error "tenant_id missing or not number"
      | some _, none => .error "totp_verified missing"
      | some tenantId, some totpVerified =>
        .ok ⟨c.uid, tenantId, c.role, c.perms, c.jti, totpVerified⟩

def extractBearer (header : Option (List Char)) : Option (List Char) :=
  match header with
  | none => none
  | some h =>
    if (h.take 7).map Char.toLower = "bearer ".toList then some (jsTrim (h.drop 7)) else none

structure AuthError where
  statusCode : Nat
  code : String
  deriving DecidableEq, Repr

/-- No token carries the campaigns of its user, so that a caller has them all. -/
def authenticate (env : AuthEnv) (now : Int) (aud : Audience) (header : Option (List Char)) :
    Except AuthError Verified :=
  match extractBearer header with
  | none => .error ⟨401, "missing_authorization"⟩
  | some token =>
    if token = [] then .error ⟨401, "missing_authorization"⟩
    else
      match verifyAccessToken env now aud token with
      | .error message => .error ⟨401, "invalid_token: " ++ message⟩
      | .ok v => .ok v

def Verified.permSet (v : Verified) : List Verb := v.perms.getD (permissionsFor v.role)

def toRbacAuth (v : Verified) : AuthContext where
  uid := v.uid
  tenantId := v.tenantId
  role := v.role
  allowedCampaigns := .all
  perms := some v.permSet
  active := some true

/-- The two checks of a route: `requirePermission`, to which no route gives a scope, and the
`checkPerm` of the routes that call none. -/
inductive Guard
  | requirePermission (verb : Verb)
  | checkPerm (perm : Verb)
  deriving DecidableEq, Repr

def Guard.refuses (v : Verified) : Guard → Option AuthError
  | .requirePermission verb =>
    match can (toRbacAuth v) verb ⟨some v.tenantId, none, none, none, none⟩ with
    | .allow _ => none
    | .deny _ => some ⟨403, "forbidden"⟩
  | .checkPerm perm =>
    if ¬ v.permSet.contains perm ∧ ¬ hasPermission v.role perm then some ⟨403, "permission_denied"⟩
    else none

/-- `none` is a request that reaches its handler. -/
def guarded (env : AuthEnv) (now : Int) (header : Option (List Char)) (guard : Guard) :
    Option AuthError :=
  match authenticate env now .api header with
  | .error e => some e
  | .ok v => guard.refuses v

structure UserRow where
  tenantId : Int
  role : Role
  active : Bool
  totpRequired : Bool
  deriving DecidableEq, Repr

/-- The clock of the API in seconds, the table of users and every token that was signed. -/
structure AuthWorld where
  now : Int
  users : Int → Option UserRow
  issued : List AccessTokenClaims

/-- A login has the right password and a refresh a refresh token of its user; each reads the row
and signs at one instant. -/
inductive AuthEvent
  | tick (seconds : Nat)
  | setUser (uid : Int) (row : Option UserRow)
  | login (uid : Int)
  | refresh (uid : Int)
  | wsToken (header : Option (List Char))
  | monitorStart (header : Option (List Char))

namespace AuthWorld

def issue (w : AuthWorld) (c : AccessTokenClaims) : AuthWorld :=
  { w with issued := w.issued ++ [c] }

def signFor (env : AuthEnv) (w : AuthWorld) (uid : Int) : AuthWorld :=
  match w.users uid with
  | none => w
  | some user =>
    if user.active then
      w.issue (signAccessToken env w.now w.issued.length
        ⟨uid, user.tenantId, user.role, !user.totpRequired, .api⟩)
    else w

def step (env : AuthEnv) (w : AuthWorld) : AuthEvent → AuthWorld
  | .tick seconds => { w with now := w.now + seconds }
  | .setUser uid row => { w with users := Function.update w.users uid row }
  | .login uid => w.signFor env uid
  | .refresh uid => w.signFor env uid
  | .wsToken header =>
    match authenticate env w.now .api header with
    | .error _ => w
    | .ok v =>
      w.issue (signAccessToken env w.now w.issued.length
        ⟨v.uid, v.tenantId, v.role, v.totpVerified, .ws⟩)
  | .monitorStart header =>
    match authenticate env w.now .api header with
    | .error _ => w
    | .ok v =>
      w.issue
        { iss := env.jwtIssuer
          aud := .monitorGrant
          uid := v.uid
          tenantId := none
          role := v.role
          perms := none
          iat := w.now
          exp := w.now + monitorTokenTtlSec
          jti := w.issued.length
          totpVerified := none }

def start (now : Int) (users : Int → Option UserRow) : AuthWorld := ⟨now, users, []⟩

/-- A token that opens was signed. -/
def Unforged (env : AuthEnv) (w : AuthWorld) (header : Option (List Char)) : Prop :=
  ∀ token ∈ extractBearer header, ∀ c, env.jwtVerify token = .ok c → c ∈ w.issued

end AuthWorld

def Guard.opensTo (role : Role) : Guard → Bool
  | .requirePermission verb => (roleVerbs role verb).any fun grant => grant.scope = .tenant
  | .checkPerm perm => hasPermission role perm

example : (Guard.requirePermission .leadRead).opensTo .supervisor = false ∧
    (Guard.checkPerm .leadRead).opensTo .supervisor = true := by
  decide

section Checks

variable {env : AuthEnv} {now : Int} {aud : Audience}

theorem verifyAccessToken_eq_ok {token : List Char} {v : Verified} :
    verifyAccessToken env now aud token = .ok v ↔
      ∃ c, env.jwtVerify token = .ok c ∧ c.iss = env.jwtIssuer ∧ c.aud = aud ∧
        now < c.exp + clockTolerance ∧ c.tenantId = some v.tenantId ∧
          c.totpVerified = some v.totpVerified ∧ c.uid = v.uid ∧ c.role = v.role ∧
            c.perms = v.perms ∧ c.jti = v.jti := by
  obtain ⟨uid, tenantId, role, perms, jti, totpVerified⟩ := v
  unfold verifyAccessToken
  constructor
  · intro h
    split at h
    · cases h
    · next c hc =>
      split_ifs at h with hiss haud hexp
      split at h
      · cases h
      · cases h
      · next tid totp htid htotp =>
        obtain ⟨rfl, rfl, rfl, rfl, rfl, rfl⟩ := Verified.mk.inj (Except.ok.inj h)
        exact ⟨c, hc, not_not.1 hiss, not_not.1 haud, by omega, htid, htotp, rfl, rfl, rfl, rfl⟩
  · rintro ⟨c, hc, hiss, haud, hexp, htid, htotp, rfl, rfl, rfl, rfl⟩
    have hlive : ¬ c.exp ≤ now - clockTolerance := by omega
    simp [hc, hiss, haud, hlive, htid, htotp]

theorem mem_permissionsFor {role : Role} {verb : Verb} :
    verb ∈ permissionsFor role ↔ hasPermission role verb = true := by
  unfold permissionsFor hasPermission roleVerbs
  generalize rawMatrix role = l
  induction l with
  | nil => simp
  | cons p l ih =>
    obtain ⟨k, g⟩ := p
    by_cases hk : verb = k
    · subst hk
      simp
    · rw [List.lookup_cons, beq_eq_false_iff_ne.2 hk, ← ih]
      simp [hk]

theorem opensTo_integrator (verb : Verb) :
    (Guard.requirePermission verb).opensTo .integrator = hasPermission .integrator verb := by
  unfold Guard.opensTo hasPermission roleVerbs rawMatrix
  by_cases h : verb = .authMe
  · subst h
    decide
  · simp [List.lookup_cons, beq_eq_false_iff_ne.2 h]

theorem refuses_eq_none {v : Verified} (hperms : v.perms = some (permissionsFor v.role))
    (guard : Guard) : guard.refuses v = none ↔ guard.opensTo v.role = true := by
  have hset : v.permSet = permissionsFor v.role := by rw [Verified.permSet, hperms]; rfl
  have hmem : ∀ perm, v.permSet.contains perm = hasPermission v.role perm := by
    intro perm
    rw [Bool.eq_iff_iff, hset, List.contains_iff_mem, mem_permissionsFor]
  cases guard with
  | checkPerm perm =>
    simp only [Guard.refuses, Guard.opensTo, hmem]
    cases hasPermission v.role perm <;> simp
  | requirePermission verb =>
    have hadmitted : Admitted (toRbacAuth v) ⟨some v.tenantId, none, none, none, none⟩ := by
      simp [Admitted, toRbacAuth]
    simp only [Guard.refuses]
    by_cases hrole : v.role = .integrator
    · have hany : (toRbacAuth v).perms.any (·.contains verb) = hasPermission v.role verb :=
        hmem verb
      rw [can_integrator hadmitted hrole, hany, hrole, opensTo_integrator]
      cases hasPermission .integrator verb <;> simp
    · simp only [Guard.opensTo]
      cases hgrant : roleVerbs v.role verb with
      | none => simp [can_no_grant hadmitted hrole hgrant]
      | some grant =>
        rw [can_grant hadmitted hrole hgrant]
        have hscope :
            passScope (toRbacAuth v) ⟨some v.tenantId, none, none, none, none⟩ grant.scope =
              decide (grant.scope = .tenant) := by
          cases grant.scope <;> rfl
        rw [hscope]
        by_cases htenant : grant.scope = .tenant <;> simp [htenant]

theorem guarded_eq_none {header : Option (List Char)} {guard : Guard} :
    guarded env now header guard = none ↔
      ∃ token v, extractBearer header = some token ∧ token ≠ [] ∧
        verifyAccessToken env now .api token = .ok v ∧ guard.refuses v = none := by
  unfold guarded authenticate
  cases htoken : extractBearer header with
  | none => simp
  | some token =>
    by_cases hne : token = []
    · simp [hne]
    · cases hv : verifyAccessToken env now .api token with
      | error message => simp [hne, hv]
      | ok v => simp [hne, hv]

end Checks

namespace AuthWorld

variable {env : AuthEnv}

theorem issued_step (w : AuthWorld) (e : AuthEvent) :
    (w.step env e).issued = w.issued ∨
      ∃ c, (w.step env e).issued = w.issued ++ [c] ∧ (c.aud ≠ .api ∨
        ∃ uid user, w.users uid = some user ∧ user.active = true ∧
          c = signAccessToken env w.now w.issued.length
            ⟨uid, user.tenantId, user.role, !user.totpRequired, .api⟩) := by
  have hsign : ∀ uid, (w.signFor env uid).issued = w.issued ∨
      ∃ c, (w.signFor env uid).issued = w.issued ++ [c] ∧ (c.aud ≠ .api ∨
        ∃ uid user, w.users uid = some user ∧ user.active = true ∧
          c = signAccessToken env w.now w.issued.length
            ⟨uid, user.tenantId, user.role, !user.totpRequired, .api⟩) := by
    intro uid
    unfold signFor
    split
    · exact Or.inl rfl
    · next user huser =>
      split
      · next hactive => exact Or.inr ⟨_, rfl, Or.inr ⟨uid, user, huser, hactive, rfl⟩⟩
      · exact Or.inl rfl
  cases e with
  | tick seconds => exact Or.inl rfl
  | setUser uid row => exact Or.inl rfl
  | login uid => exact hsign uid
  | refresh uid => exact hsign uid
  | wsToken header =>
    simp only [step]
    split
    · exact Or.inl rfl
    · exact Or.inr ⟨_, rfl, Or.inl Audience.noConfusion⟩
  | monitorStart header =>
    simp only [step]
    split
    · exact Or.inl rfl
    · exact Or.inr ⟨_, rfl, Or.inl Audience.noConfusion⟩

theorem now_step (w : AuthWorld) (e : AuthEvent) : w.now ≤ (w.step env e).now := by
  have hsign : ∀ uid, (w.signFor env uid).now = w.now := by
    intro uid
    unfold signFor
    split
    · rfl
    · split <;> rfl
  cases e with
  | tick seconds =>
    simp only [step]
    omega
  | setUser uid row => exact le_refl _
  | login uid => exact (hsign uid).ge
  | refresh uid => exact (hsign uid).ge
  | wsToken header =>
    simp only [step]
    split <;> exact le_refl _
  | monitorStart header =>
    simp only [step]
    split <;> exact le_refl _

theorem now_run (w : AuthWorld) (events : List AuthEvent) :
    w.now ≤ (events.foldl (step env) w).now := by
  induction events generalizing w with
  | nil => exact le_refl _
  | cons e events ih => exact (now_step w e).trans (ih (w.step env e))

/-- A token of the API was signed at its time for a user who was active then, in that role. -/
structure Origin (env : AuthEnv) (w₀ : AuthWorld) (events : List AuthEvent)
    (c : AccessTokenClaims) : Prop where
  iss : c.iss = env.jwtIssuer
  exp : c.exp = c.iat + env.accessTokenTtlSec
  perms : c.perms = some (permissionsFor c.role)
  tenantId : c.tenantId.isSome = true
  totpVerified : c.totpVerified.isSome = true
  signed : ∃ pre post, events = pre ++ post ∧ (pre.foldl (step env) w₀).now = c.iat ∧
    ∃ user, (pre.foldl (step env) w₀).users c.uid = some user ∧ user.active = true ∧
      user.role = c.role

theorem Origin.append {w₀ : AuthWorld} {events : List AuthEvent} {c : AccessTokenClaims}
    (h : Origin env w₀ events c) (e : AuthEvent) : Origin env w₀ (events ++ [e]) c := by
  obtain ⟨pre, post, hevents, hsigned⟩ := h.signed
  have hlonger : events ++ [e] = pre ++ (post ++ [e]) := by rw [hevents, List.append_assoc]
  exact { h with signed := ⟨pre, post ++ [e], hlonger, hsigned⟩ }

theorem origin_of_issued (now : Int) (users : Int → Option UserRow) (events : List AuthEvent) :
    ∀ c ∈ (events.foldl (step env) (start now users)).issued, c.aud = .api →
      Origin env (start now users) events c := by
  induction events using List.reverseRecOn with
  | nil =>
    intro c hc
    cases hc
  | append_singleton events e ih =>
    intro c hc haud
    rw [List.foldl_concat] at hc
    rcases @issued_step env (events.foldl (step env) (start now users)) e with
      hsame | ⟨d, hnew, hd⟩
    · rw [hsame] at hc
      exact (ih c hc haud).append e
    · rw [hnew] at hc
      rcases List.mem_append.1 hc with hc | hc
      · exact (ih c hc haud).append e
      · obtain rfl := List.mem_singleton.1 hc
        rcases hd with hother | ⟨uid, user, huser, hactive, rfl⟩
        · exact absurd haud hother
        · exact ⟨rfl, rfl, rfl, rfl, rfl, events, [e], rfl, rfl, user, huser, hactive, rfl⟩

/-- A request reaches its handler exactly if it carries a token that was signed less than the
lifetime and the tolerance ago for a user who was active then, in a role that the guard opens
to. What has become of the user since does not count. -/
theorem guarded_iff (env : AuthEnv) (now : Int) (users : Int → Option UserRow)
    (events : List AuthEvent) (header : Option (List Char)) (guard : Guard)
    (hunforged : (events.foldl (step env) (start now users)).Unforged env header) :
    let w := events.foldl (step env) (start now users)
    guarded env w.now header guard = none ↔
      ∃ token c, extractBearer header = some token ∧ token ≠ [] ∧
        env.jwtVerify token = .ok c ∧ c.aud = .api ∧
        w.now < c.iat + env.accessTokenTtlSec + clockTolerance ∧ guard.opensTo c.role = true ∧
        ∃ pre post, events = pre ++ post ∧ (pre.foldl (step env) (start now users)).now = c.iat ∧
          ∃ user, (pre.foldl (step env) (start now users)).users c.uid = some user ∧
            user.active = true ∧ user.role = c.role := by
  intro w
  rw [guarded_eq_none]
  constructor
  · rintro ⟨token, v, htoken, hne, hverify, hguard⟩
    obtain ⟨c, hc, hiss, haud, hlive, htid, htotp, huid, hrole, hperms, hjti⟩ :=
      verifyAccessToken_eq_ok.1 hverify
    have horigin := origin_of_issued now users events c (hunforged token htoken c hc) haud
    have hset : v.perms = some (permissionsFor v.role) := by rw [← hperms, horigin.perms, hrole]
    rw [horigin.exp] at hlive
    refine ⟨token, c, htoken, hne, hc, haud, hlive, ?_, horigin.signed⟩
    rw [hrole]
    exact (refuses_eq_none hset guard).1 hguard
  · rintro ⟨token, c, htoken, hne, hc, haud, hlive, hopens, -⟩
    have horigin := origin_of_issued now users events c (hunforged token htoken c hc) haud
    obtain ⟨tenantId, htid⟩ := Option.isSome_iff_exists.1 horigin.tenantId
    obtain ⟨totpVerified, htotp⟩ := Option.isSome_iff_exists.1 horigin.totpVerified
    refine ⟨token, ⟨c.uid, tenantId, c.role, c.perms, c.jti, totpVerified⟩, htoken, hne, ?_, ?_⟩
    · refine verifyAccessToken_eq_ok.2
        ⟨c, hc, horigin.iss, haud, ?_, htid, htotp, rfl, rfl, rfl, rfl⟩
      rw [horigin.exp]
      exact hlive
    · exact (refuses_eq_none horigin.perms guard).2 hopens

def sampleUsers : Int → Option UserRow := fun uid =>
  if uid = 7 then some ⟨1, .supervisor, true, false⟩ else none

def sampleClaims : AccessTokenClaims :=
  ⟨"vici2-api", .api, 7, some 1, .supervisor, some (permissionsFor .supervisor), 0, 900, 0,
    some true⟩

def sampleEnv : AuthEnv where
  jwtVerify := fun token => if token = ['t'] then .ok sampleClaims else .error "no signature"
  jwtIssuer := "vici2-api"
  accessTokenTtlSec := 900

def sampleHeader : Option (List Char) := some "Bearer t".toList

theorem sample_unforged {w : AuthWorld} (h : sampleClaims ∈ w.issued) :
    w.Unforged sampleEnv sampleHeader := by
  intro token _ c hc
  unfold sampleEnv at hc
  dsimp only at hc
  split at hc
  · obtain rfl := Except.ok.inj hc
    exact h
  · cases hc

/-- A user who is deactivated after the login still reads the statuses for sixteen minutes. -/
theorem deactivated_passes :
    guarded sampleEnv 959 sampleHeader (.requirePermission .statusRead) = none := by
  have hsplit : [AuthEvent.login 7, .setUser 7 (some ⟨1, .supervisor, false, false⟩), .tick 959] =
      [] ++ [AuthEvent.login 7, .setUser 7 (some ⟨1, .supervisor, false, false⟩), .tick 959] := rfl
  refine (guarded_iff sampleEnv 0 sampleUsers
    [.login 7, .setUser 7 (some ⟨1, .supervisor, false, false⟩), .tick 959] sampleHeader
    (.requirePermission .statusRead) (sample_unforged (by decide))).2
      ⟨['t'], sampleClaims, by decide, by decide, rfl, rfl, by decide, by decide, ?_⟩
  exact ⟨[], _, hsplit, rfl, _, rfl, rfl, rfl⟩

/-- The row of a user opens a guard. -/
def Grants (w : AuthWorld) (uid : Int) (guard : Guard) : Prop :=
  ∃ user, w.users uid = some user ∧ user.active = true ∧ guard.opensTo user.role = true

/-- A user who is locked out for the lifetime of a token and the tolerance is refused. -/
theorem refused_after (env : AuthEnv) (now : Int) (users : Int → Option UserRow)
    (before since : List AuthEvent) (uid : Int) (guard : Guard)
    (hlocked : Always (step env) (fun w => ¬ w.Grants uid guard)
      (before.foldl (step env) (start now users)) since)
    (hlong : (before.foldl (step env) (start now users)).now + env.accessTokenTtlSec +
      clockTolerance ≤ ((before ++ since).foldl (step env) (start now users)).now)
    (header : Option (List Char))
    (hunforged : ((before ++ since).foldl (step env) (start now users)).Unforged env header)
    (huid : ∀ token ∈ extractBearer header, ∀ c, env.jwtVerify token = .ok c → c.uid = uid) :
    guarded env ((before ++ since).foldl (step env) (start now users)).now header guard ≠ none := by
  intro hpass
  obtain ⟨token, v, htoken, hne, hverify, hguard⟩ := guarded_eq_none.1 hpass
  obtain ⟨c, hc, hiss, haud, hlive, -, -, -, hrole, hperms, -⟩ := verifyAccessToken_eq_ok.1 hverify
  have horigin := origin_of_issued now users _ c (hunforged token htoken c hc) haud
  obtain ⟨pre, post, hsplit, hiat, user, huser, hactive, huserRole⟩ := horigin.signed
  have hopens : guard.opensTo user.role = true := by
    have hset : v.perms = some (permissionsFor v.role) := by rw [← hperms, horigin.perms, hrole]
    rw [huserRole, hrole]
    exact (refuses_eq_none hset guard).1 hguard
  have hlate : (before.foldl (step env) (start now users)).now <
      (pre.foldl (step env) (start now users)).now := by
    rw [horigin.exp] at hlive
    omega
  rcases List.append_eq_append_iff.1 hsplit with ⟨mid, hpre, hsince⟩ | ⟨mid, hbefore, -⟩
  · have hgrants : ¬ (mid.foldl (step env) (before.foldl (step env) (start now users))).Grants
        uid guard := hlocked.of_append hsince
    rw [← List.foldl_append, ← hpre, ← huid token htoken c hc] at hgrants
    exact hgrants ⟨user, huser, hactive, hopens⟩
  · have hearly := @now_run env (pre.foldl (step env) (start now users)) mid
    rw [← List.foldl_append, ← hbefore] at hearly
    omega

theorem deactivated_refused :
    guarded sampleEnv 960 sampleHeader (.requirePermission .statusRead) ≠ none := by
  refine refused_after sampleEnv 0 sampleUsers
    [.login 7, .setUser 7 (some ⟨1, .supervisor, false, false⟩)] [.tick 960] 7
    (.requirePermission .statusRead) ⟨?_, ?_⟩ (by decide) sampleHeader
    (sample_unforged (by decide)) ?_
  · rintro ⟨user, huser, hactive, -⟩
    obtain rfl := Option.some.inj huser
    cases hactive
  · rintro ⟨user, huser, hactive, -⟩
    obtain rfl := Option.some.inj huser
    cases hactive
  · intro token _ c hc
    unfold sampleEnv at hc
    dsimp only at hc
    split at hc
    · obtain rfl := Except.ok.inj hc
      rfl
    · cases hc

end AuthWorld

end Rbac

end Vici2
