import Vici2.Rbac

/-! The dialer's mirror of the permission check, with the matrix generated for it. An identifier
that is not set is zero there. The mirror refuses every verb that was added after the matrix was
generated, and never allows what the check refuses. -/

namespace Vici2

namespace Rbac

namespace Go

def roleVerbsTable : Role → List (Verb × Grant)
  | .superAdmin => [
    (.authLogin, ⟨.tenant, false⟩), (.authLogout, ⟨.tenant, false⟩), (.authMe, ⟨.tenant, false⟩),
    (.authWsToken, ⟨.tenant, false⟩), (.callDial, ⟨.tenant, false⟩),
    (.callTransfer, ⟨.tenant, false⟩), (.callHangup, ⟨.tenant, false⟩),
    (.callHold, ⟨.tenant, false⟩), (.callListen, ⟨.tenant, true⟩), (.callWhisper, ⟨.tenant, true⟩),
    (.callBarge, ⟨.tenant, true⟩), (.leadRead, ⟨.tenant, false⟩), (.leadEdit, ⟨.tenant, false⟩),
    (.leadCreate, ⟨.tenant, false⟩), (.leadDelete, ⟨.tenant, false⟩),
    (.leadImport, ⟨.tenant, true⟩), (.leadExport, ⟨.tenant, true⟩),
    (.leadBulkUpdate, ⟨.tenant, true⟩), (.recordingList, ⟨.tenant, false⟩),
    (.recordingDownload, ⟨.tenant, true⟩), (.recordingDelete, ⟨.tenant, true⟩),
    (.campaignRead, ⟨.tenant, false⟩), (.campaignCreate, ⟨.tenant, false⟩),
    (.campaignEdit, ⟨.tenant, false⟩), (.campaignDelete, ⟨.tenant, true⟩),
    (.campaignStart, ⟨.tenant, false⟩), (.campaignPause, ⟨.tenant, false⟩),
    (.carrierRead, ⟨.tenant, false⟩), (.carrierEdit, ⟨.tenant, false⟩),
    (.didRead, ⟨.tenant, false⟩), (.didEdit, ⟨.tenant, false⟩), (.ingroupRead, ⟨.tenant, false⟩),
    (.ingroupEdit, ⟨.tenant, false⟩), (.dncRead, ⟨.tenant, false⟩), (.dncEdit, ⟨.tenant, true⟩),
    (.dncBypass, ⟨.tenant, true⟩), (.auditView, ⟨.tenant, false⟩), (.auditExport, ⟨.tenant, true⟩),
    (.userRead, ⟨.tenant, false⟩), (.userCreate, ⟨.tenant, false⟩), (.userEdit, ⟨.tenant, false⟩),
    (.userDelete, ⟨.tenant, true⟩), (.userRoleChange, ⟨.tenant, true⟩),
    (.userRotateSip, ⟨.tenant, true⟩), (.usergroupRead, ⟨.tenant, false⟩),
    (.usergroupEdit, ⟨.tenant, false⟩), (.statusRead, ⟨.tenant, false⟩),
    (.statusEdit, ⟨.tenant, false⟩), (.pauseCodeRead, ⟨.tenant, false⟩),
    (.pauseCodeEdit, ⟨.tenant, false⟩), (.scriptRead, ⟨.tenant, false⟩),
    (.scriptEdit, ⟨.tenant, false⟩), (.reportView, ⟨.tenant, false⟩),
    (.reportExport, ⟨.tenant, true⟩), (.tenantRead, ⟨.tenant, false⟩),
    (.tenantEdit, ⟨.tenant, true⟩), (.sipCredentialsView, ⟨.tenant, true⟩),
    (.kekRotate, ⟨.tenant, true⟩), (.wallboardView, ⟨.tenant, false⟩),
    (.eavesdropAny, ⟨.tenant, true⟩), (.callbackRead, ⟨.tenant, false⟩),
    (.callbackEdit, ⟨.tenant, false⟩)]
  | .admin => [
    (.authLogin, ⟨.tenant, false⟩), (.authLogout, ⟨.tenant, false⟩), (.authMe, ⟨.tenant, false⟩),
    (.authWsToken, ⟨.tenant, false⟩), (.callDial, ⟨.tenant, false⟩),
    (.callTransfer, ⟨.tenant, false⟩), (.callHangup, ⟨.tenant, false⟩),
    (.callHold, ⟨.tenant, false⟩), (.callListen, ⟨.tenant, true⟩), (.callWhisper, ⟨.tenant, true⟩),
    (.callBarge, ⟨.tenant, true⟩), (.leadRead, ⟨.tenant, false⟩), (.leadEdit, ⟨.tenant, false⟩),
    (.leadCreate, ⟨.tenant, false⟩), (.leadDelete, ⟨.tenant, false⟩),
    (.leadImport, ⟨.tenant, true⟩), (.leadExport, ⟨.tenant, true⟩),
    (.leadBulkUpdate, ⟨.tenant, true⟩), (.recordingList, ⟨.tenant, false⟩),
    (.recordingDownload, ⟨.tenant, true⟩), (.recordingDelete, ⟨.tenant, true⟩),
    (.campaignRead, ⟨.tenant, false⟩), (.campaignCreate, ⟨.tenant, false⟩),
    (.campaignEdit, ⟨.tenant, false⟩), (.campaignDelete, ⟨.tenant, true⟩),
    (.campaignStart, ⟨.tenant, false⟩), (.campaignPause, ⟨.tenant, false⟩),
    (.carrierRead, ⟨.tenant, false⟩), (.carrierEdit, ⟨.tenant, false⟩),
    (.didRead, ⟨.tenant, false⟩), (.didEdit, ⟨.tenant, false⟩), (.ingroupRead, ⟨.tenant, false⟩),
    (.ingroupEdit, ⟨.tenant, false⟩), (.dncRead, ⟨.tenant, false⟩), (.dncEdit, ⟨.tenant, true⟩),
    (.auditView, ⟨.tenant, false⟩), (.userRead, ⟨.tenant, false⟩), (.userCreate, ⟨.tenant, false⟩),
    (.userEdit, ⟨.tenant, false⟩), (.userDelete, ⟨.tenant, true⟩),
    (.userRoleChange, ⟨.tenant, true⟩), (.userRotateSip, ⟨.tenant, true⟩),
    (.usergroupRead, ⟨.tenant, false⟩), (.usergroupEdit, ⟨.tenant, false⟩),
    (.statusRead, ⟨.tenant, false⟩), (.statusEdit, ⟨.tenant, false⟩),
    (.pauseCodeRead, ⟨.tenant, false⟩), (.pauseCodeEdit, ⟨.tenant, false⟩),
    (.scriptRead, ⟨.tenant, false⟩), (.scriptEdit, ⟨.tenant, false⟩),
    (.reportView, ⟨.tenant, false⟩), (.reportExport, ⟨.tenant, true⟩),
    (.tenantRead, ⟨.tenant, false⟩), (.wallboardView, ⟨.tenant, false⟩),
    (.eavesdropAny, ⟨.tenant, true⟩), (.callbackRead, ⟨.tenant, false⟩),
    (.callbackEdit, ⟨.tenant, false⟩)]
  | .supervisor => [
    (.authLogin, ⟨.tenant, false⟩), (.authLogout, ⟨.tenant, false⟩), (.authMe, ⟨.tenant, false⟩),
    (.authWsToken, ⟨.tenant, false⟩), (.callDial, ⟨.tenant, false⟩),
    (.callTransfer, ⟨.tenant, false⟩), (.callHangup, ⟨.tenant, false⟩),
    (.callHold, ⟨.tenant, false⟩), (.callListen, ⟨.group, true⟩), (.callWhisper, ⟨.group, true⟩),
    (.callBarge, ⟨.group, true⟩), (.leadRead, ⟨.group, false⟩), (.leadEdit, ⟨.group, false⟩),
    (.leadExport, ⟨.group, true⟩), (.recordingList, ⟨.group, false⟩),
    (.recordingDownload, ⟨.group, true⟩), (.campaignRead, ⟨.group, false⟩),
    (.campaignStart, ⟨.group, false⟩), (.campaignPause, ⟨.group, false⟩),
    (.ingroupRead, ⟨.group, false⟩), (.dncRead, ⟨.tenant, false⟩), (.userRead, ⟨.group, false⟩),
    (.userEdit, ⟨.group, false⟩), (.userRotateSip, ⟨.self, true⟩),
    (.usergroupRead, ⟨.group, false⟩), (.statusRead, ⟨.tenant, false⟩),
    (.pauseCodeRead, ⟨.tenant, false⟩), (.scriptRead, ⟨.tenant, false⟩),
    (.reportView, ⟨.group, false⟩), (.reportExport, ⟨.group, true⟩),
    (.wallboardView, ⟨.group, false⟩), (.eavesdropAny, ⟨.group, true⟩),
    (.callbackRead, ⟨.group, false⟩), (.callbackEdit, ⟨.group, false⟩)]
  | .agent => [
    (.authLogin, ⟨.tenant, false⟩), (.authLogout, ⟨.tenant, false⟩), (.authMe, ⟨.tenant, false⟩),
    (.authWsToken, ⟨.tenant, false⟩), (.callDial, ⟨.own, false⟩), (.callTransfer, ⟨.own, false⟩),
    (.callHangup, ⟨.own, false⟩), (.callHold, ⟨.own, false⟩), (.leadRead, ⟨.own, false⟩),
    (.leadEdit, ⟨.own, false⟩), (.recordingList, ⟨.own, false⟩), (.campaignRead, ⟨.group, false⟩),
    (.dncRead, ⟨.tenant, false⟩), (.userRead, ⟨.self, false⟩), (.userEdit, ⟨.self, false⟩),
    (.userRotateSip, ⟨.self, true⟩), (.statusRead, ⟨.tenant, false⟩),
    (.pauseCodeRead, ⟨.tenant, false⟩), (.scriptRead, ⟨.group, false⟩),
    (.callbackRead, ⟨.own, false⟩), (.callbackEdit, ⟨.own, false⟩)]
  | .viewer => [
    (.authLogin, ⟨.tenant, false⟩), (.authLogout, ⟨.tenant, false⟩), (.authMe, ⟨.tenant, false⟩),
    (.leadRead, ⟨.tenant, false⟩), (.leadExport, ⟨.tenant, true⟩),
    (.recordingList, ⟨.tenant, false⟩), (.recordingDownload, ⟨.tenant, true⟩),
    (.campaignRead, ⟨.tenant, false⟩), (.carrierRead, ⟨.tenant, false⟩),
    (.didRead, ⟨.tenant, false⟩), (.ingroupRead, ⟨.tenant, false⟩), (.dncRead, ⟨.tenant, false⟩),
    (.auditView, ⟨.tenant, false⟩), (.auditExport, ⟨.tenant, true⟩), (.userRead, ⟨.tenant, false⟩),
    (.usergroupRead, ⟨.tenant, false⟩), (.statusRead, ⟨.tenant, false⟩),
    (.pauseCodeRead, ⟨.tenant, false⟩), (.scriptRead, ⟨.tenant, false⟩),
    (.reportView, ⟨.tenant, false⟩), (.reportExport, ⟨.tenant, true⟩),
    (.tenantRead, ⟨.self, false⟩), (.wallboardView, ⟨.tenant, false⟩),
    (.callbackRead, ⟨.tenant, false⟩)]
  | .integrator => [
    (.authMe, ⟨.tenant, false⟩)]

def roleVerbs (role : Role) (verb : Verb) : Option Grant := (roleVerbsTable role).lookup verb

def sensitiveVerbs : List Verb := [
  .callListen, .callWhisper, .callBarge, .leadImport, .leadExport, .leadBulkUpdate,
  .recordingDownload, .recordingDelete, .dncEdit, .dncBypass, .auditExport, .userDelete,
  .userRoleChange, .userRotateSip, .campaignDelete, .reportExport, .tenantEdit,
  .sipCredentialsView, .kekRotate, .eavesdropAny]

structure AuthContext where
  uid : Int
  tenantID : Int
  role : Role
  allowedCampaigns : List Int
  allCampaigns : Bool
  perms : List Verb
  active : Bool
  deriving DecidableEq, Repr

structure ScopeContext where
  tenantID : Int
  campaignID : Int
  ownerUserID : Int
  assignedTo : List Int
  targetUserID : Int
  deriving DecidableEq, Repr

def passGroupScope (auth : AuthContext) (scope : ScopeContext) : Bool :=
  if scope.campaignID = 0 then false
  else if auth.allCampaigns then true
  else auth.allowedCampaigns.any (· = scope.campaignID)

def passOwnScope (auth : AuthContext) (scope : ScopeContext) : Bool :=
  if scope.ownerUserID ≠ 0 ∧ scope.ownerUserID = auth.uid then true
  else scope.assignedTo.any (· = auth.uid)

def passSelfScope (auth : AuthContext) (scope : ScopeContext) : Bool :=
  scope.targetUserID ≠ 0 ∧ scope.targetUserID = auth.uid

def can (auth : AuthContext) (verb : Verb) (scope : ScopeContext) : Decision :=
  if scope.tenantID ≠ 0 ∧ auth.tenantID ≠ scope.tenantID then .deny .tenantMismatch
  else if !auth.active then .deny .inactiveUser
  else if auth.role = .integrator then
    if auth.perms.contains verb then .allow (sensitiveVerbs.contains verb)
    else .deny .integratorKeyLacksPerm
  else
    match roleVerbs auth.role verb with
    | none => .deny .noGrant
    | some grant =>
      match grant.scope with
      | .tenant => .allow grant.sensitive
      | .group =>
        if passGroupScope auth scope then .allow grant.sensitive else .deny .scopeGroup
      | .own => if passOwnScope auth scope then .allow grant.sensitive else .deny .scopeOwn
      | .self => if passSelfScope auth scope then .allow grant.sensitive else .deny .scopeSelf

end Go

def AuthContext.toGo (auth : AuthContext) : Go.AuthContext where
  uid := auth.uid
  tenantID := auth.tenantId
  role := auth.role
  allowedCampaigns :=
    match auth.allowedCampaigns with
    | .all => []
    | .list ids => ids
  allCampaigns := auth.allowedCampaigns = .all
  perms := auth.perms.getD []
  active := auth.active ≠ some false

def ScopeContext.toGo (scope : ScopeContext) : Go.ScopeContext where
  tenantID := scope.tenantId.getD 0
  campaignID := scope.campaignId.getD 0
  ownerUserID := scope.ownerUserId.getD 0
  assignedTo := scope.assignedTo.getD []
  targetUserID := scope.targetUserId.getD 0

def mirroredVerbs : List Verb := (Go.roleVerbsTable .superAdmin).map Prod.fst

theorem roleVerbsTable_eq (role : Role) :
    Go.roleVerbsTable role = (rawMatrix role).filter fun c => mirroredVerbs.contains c.1 := by
  cases role <;> decide +kernel

theorem lookup_filter_fst {α β : Type*} [BEq α] [LawfulBEq α] (l : List (α × β)) (p : α → Bool)
    (k : α) : (l.filter fun c => p c.1).lookup k = if p k then l.lookup k else none := by
  induction l with
  | nil => simp
  | cons c l ih =>
    obtain ⟨v, g⟩ := c
    by_cases hk : k = v
    · subst hk
      by_cases hp : p k = true
      · simp [hp]
      · simp [hp, ih]
    · have hkv : (k == v) = false := beq_eq_false_iff_ne.2 hk
      by_cases hp : p v = true
      · simp [List.lookup_cons, hp, hkv, ih]
      · simp [List.lookup_cons, hp, hkv, ih]

theorem goRoleVerbs_eq (role : Role) (verb : Verb) :
    Go.roleVerbs role verb =
      if mirroredVerbs.contains verb then roleVerbs role verb else none := by
  unfold Go.roleVerbs
  rw [roleVerbsTable_eq]
  exact lookup_filter_fst (rawMatrix role) (fun v => mirroredVerbs.contains v) verb

theorem goSensitive_eq (verb : Verb) :
    Go.sensitiveVerbs.contains verb =
      (sensitiveVerbs.contains verb && mirroredVerbs.contains verb) := by
  have hlist : Go.sensitiveVerbs = sensitiveVerbs.filter (mirroredVerbs.contains ·) := by
    decide +kernel
  rw [hlist, Bool.eq_iff_iff]
  simp [List.mem_filter]

structure Identified (scope : ScopeContext) : Prop where
  tenantId : scope.tenantId ≠ some 0
  campaignId : scope.campaignId ≠ some 0
  ownerUserId : scope.ownerUserId ≠ some 0
  targetUserId : scope.targetUserId ≠ some 0

section Predicates

variable {auth : AuthContext} {scope : ScopeContext}

theorem passGroupScope_toGo_imp (h : Go.passGroupScope auth.toGo scope.toGo = true) :
    passGroupScope auth scope = true := by
  unfold Go.passGroupScope at h
  unfold passGroupScope
  cases hc : scope.campaignId with
  | none => simp [ScopeContext.toGo, hc] at h
  | some id =>
    cases ha : auth.allowedCampaigns with
    | all => rfl
    | list ids =>
      have hany : id ≠ 0 ∧ id ∈ ids := by simpa [ScopeContext.toGo, AuthContext.toGo, hc, ha] using h
      simp [hany.2]

theorem passGroupScope_toGo (h : scope.campaignId ≠ some 0) :
    Go.passGroupScope auth.toGo scope.toGo = passGroupScope auth scope := by
  rw [Bool.eq_iff_iff]
  refine ⟨passGroupScope_toGo_imp, fun hpass => ?_⟩
  unfold passGroupScope at hpass
  unfold Go.passGroupScope
  cases hc : scope.campaignId with
  | none => simp [hc] at hpass
  | some id =>
    have hid : id ≠ 0 := fun h0 => h (by rw [hc, h0])
    cases ha : auth.allowedCampaigns with
    | all => simp [ScopeContext.toGo, AuthContext.toGo, hc, ha, hid]
    | list ids =>
      have hmem : id ∈ ids := by simpa [hc, ha] using hpass
      simp [ScopeContext.toGo, AuthContext.toGo, hc, ha, hid, hmem]

theorem passOwnScope_toGo_imp (h : Go.passOwnScope auth.toGo scope.toGo = true) :
    passOwnScope auth scope = true := by
  unfold Go.passOwnScope at h
  unfold passOwnScope
  split_ifs at h with howner
  · cases hc : scope.ownerUserId with
    | none => simp [ScopeContext.toGo, hc] at howner
    | some id =>
      have hid : id = auth.uid := by simpa [ScopeContext.toGo, AuthContext.toGo, hc] using howner.2
      simp [hid]
  · cases ha : scope.assignedTo with
    | none => simp [ScopeContext.toGo, ha] at h
    | some ids =>
      have hmem : auth.uid ∈ ids := by simpa [ScopeContext.toGo, AuthContext.toGo, ha] using h
      simp [hmem]

theorem passOwnScope_toGo (h : scope.ownerUserId ≠ some 0) :
    Go.passOwnScope auth.toGo scope.toGo = passOwnScope auth scope := by
  rw [Bool.eq_iff_iff]
  refine ⟨passOwnScope_toGo_imp, fun hpass => ?_⟩
  unfold passOwnScope at hpass
  unfold Go.passOwnScope
  rw [Bool.or_eq_true] at hpass
  rcases hpass with howner | hassigned
  · have hc : scope.ownerUserId = some auth.uid := of_decide_eq_true howner
    have hid : auth.uid ≠ 0 := fun h0 => h (by rw [hc, h0])
    simp [ScopeContext.toGo, AuthContext.toGo, hc, hid]
  · obtain ⟨ids, ha, hmem⟩ := Option.any_eq_true _ _ |>.1 hassigned
    have hmem' : auth.uid ∈ ids := by simpa using hmem
    simp [ScopeContext.toGo, AuthContext.toGo, ha, hmem']

theorem passSelfScope_toGo_imp (h : Go.passSelfScope auth.toGo scope.toGo = true) :
    passSelfScope auth scope = true := by
  unfold Go.passSelfScope at h
  unfold passSelfScope
  cases hc : scope.targetUserId with
  | none => simp [ScopeContext.toGo, hc] at h
  | some id =>
    have hid : id ≠ 0 ∧ id = auth.uid := by
      simpa [ScopeContext.toGo, AuthContext.toGo, hc] using h
    simp [hid.2]

theorem passSelfScope_toGo (h : scope.targetUserId ≠ some 0) :
    Go.passSelfScope auth.toGo scope.toGo = passSelfScope auth scope := by
  rw [Bool.eq_iff_iff]
  refine ⟨passSelfScope_toGo_imp, fun hpass => ?_⟩
  have hc : scope.targetUserId = some auth.uid := of_decide_eq_true hpass
  have hid : auth.uid ≠ 0 := fun h0 => h (by rw [hc, h0])
  simp [Go.passSelfScope, ScopeContext.toGo, AuthContext.toGo, hc, hid]

end Predicates

section Agreement

/-- What both checks decide from: the two refusals, the key of an integrator, the cell of the
matrix and the predicate of its scope. -/
def decision (mismatch inactive integrator perm sensitive : Bool) (grant : Option Grant)
    (pass : Scope → Bool) : Decision :=
  if mismatch then .deny .tenantMismatch
  else if inactive then .deny .inactiveUser
  else if integrator then
    if perm then .allow sensitive else .deny .integratorKeyLacksPerm
  else
    match grant with
    | none => .deny .noGrant
    | some g => if pass g.scope then .allow g.sensitive else .deny g.scope.reason

def Go.passScope (auth : Go.AuthContext) (scope : Go.ScopeContext) : Scope → Bool
  | .tenant => true
  | .group => Go.passGroupScope auth scope
  | .own => Go.passOwnScope auth scope
  | .self => Go.passSelfScope auth scope

variable (auth : AuthContext) (verb : Verb) (scope : ScopeContext) {b : Bool}

theorem can_eq_decision :
    can auth verb scope =
      decision (scope.tenantId.any (auth.tenantId ≠ ·)) (auth.active = some false)
        (auth.role = .integrator) (auth.perms.any (·.contains verb))
        (sensitiveVerbs.contains verb) (roleVerbs auth.role verb) (passScope auth scope) := by
  unfold can decision
  simp only [decide_eq_true_eq]
  cases roleVerbs auth.role verb with
  | none => rfl
  | some g =>
    obtain ⟨s, sensitive⟩ := g
    cases s <;> rfl

variable {scope}

theorem goCan_eq_decision (h : scope.tenantId ≠ some 0) :
    Go.can auth.toGo verb scope.toGo =
      decision (scope.tenantId.any (auth.tenantId ≠ ·)) (auth.active = some false)
        (auth.role = .integrator) (auth.perms.any (·.contains verb))
        (sensitiveVerbs.contains verb && mirroredVerbs.contains verb)
        (if mirroredVerbs.contains verb then roleVerbs auth.role verb else none)
        (Go.passScope auth.toGo scope.toGo) := by
  have htenant : (scope.toGo.tenantID ≠ 0 ∧ auth.toGo.tenantID ≠ scope.toGo.tenantID) ↔
      scope.tenantId.any (auth.tenantId ≠ ·) = true := by
    cases ht : scope.tenantId with
    | none => simp [ScopeContext.toGo, ht]
    | some id =>
      have hid : id ≠ 0 := fun h0 => h (by rw [ht, h0])
      simp [ScopeContext.toGo, AuthContext.toGo, ht, hid]
  have hactive : (!auth.toGo.active) = true ↔ auth.active = some false := by
    simp [AuthContext.toGo]
  have hperms : auth.toGo.perms.contains verb = auth.perms.any (·.contains verb) := by
    cases hp : auth.perms <;> simp [AuthContext.toGo, hp]
  have hrole : auth.toGo.role = auth.role := rfl
  unfold Go.can decision
  rw [hperms, hrole, ← goSensitive_eq, ← goRoleVerbs_eq]
  simp only [htenant, hactive, decide_eq_true_eq]
  cases Go.roleVerbs auth.role verb with
  | none => rfl
  | some g =>
    obtain ⟨s, sensitive⟩ := g
    cases s <;> rfl

/-- A request that the matrix or the key of an integrator decides, about a verb that the
generated matrix does not know. -/
def Unmirrored (auth : AuthContext) (verb : Verb) (scope : ScopeContext) : Prop :=
  Admitted auth scope ∧ mirroredVerbs.contains verb = false ∧
    if auth.role = .integrator then
      auth.perms.any (·.contains verb) = true ∧ sensitiveVerbs.contains verb = true
    else (roleVerbs auth.role verb).isSome = true

instance (auth : AuthContext) (verb : Verb) (scope : ScopeContext) :
    Decidable (Unmirrored auth verb scope) :=
  inferInstanceAs (Decidable ((_ ∧ _) ∧ _ ∧ ite _ _ _))

theorem passScope_toGo (h : Identified scope) :
    Go.passScope auth.toGo scope.toGo = passScope auth scope := by
  funext s
  cases s with
  | tenant => rfl
  | group => exact passGroupScope_toGo h.campaignId
  | own => exact passOwnScope_toGo h.ownerUserId
  | self => exact passSelfScope_toGo h.targetUserId

omit auth verb scope in
theorem decision_bare_iff (mismatch inactive integrator perm sensitive : Bool)
    (grant : Option Grant) {pass : Scope → Bool} (htenant : pass .tenant = true) :
    decision mismatch inactive integrator perm false none pass =
        decision mismatch inactive integrator perm sensitive grant pass ↔
      ¬ (mismatch = false ∧ inactive = false ∧
        if integrator then perm = true ∧ sensitive = true else grant.isSome = true) := by
  cases mismatch with
  | true => simp [decision]
  | false =>
    cases inactive with
    | true => simp [decision]
    | false =>
      cases integrator with
      | true => cases perm <;> cases sensitive <;> simp [decision]
      | false =>
        cases grant with
        | none => simp [decision]
        | some g =>
          have hdiffers : decision false false false perm sensitive (some g) pass ≠
              .deny .noGrant := by
            obtain ⟨s, m⟩ := g
            unfold decision
            cases s <;> simp [htenant, Scope.reason] <;> split_ifs <;> simp
          simpa [decision] using hdiffers.symm

theorem goCan_eq_can_iff (h : Identified scope) :
    Go.can auth.toGo verb scope.toGo = can auth verb scope ↔ ¬ Unmirrored auth verb scope := by
  rw [goCan_eq_decision auth verb h.tenantId, can_eq_decision, passScope_toGo auth h]
  unfold Unmirrored Admitted
  cases hmir : mirroredVerbs.contains verb with
  | true => simp
  | false =>
    rw [Bool.and_false, if_neg Bool.false_ne_true, decision_bare_iff _ _ _ _ _ _ rfl]
    simp only [decide_eq_false_iff_not, decide_eq_true_eq, true_and, and_assoc, ne_eq]

/-- A supervisor of campaign 101 may read its lists, and the dialer refuses. -/
theorem goCan_refuses_listRead :
    Go.can (AuthContext.toGo ⟨42, 1, .supervisor, .list [101], none, none⟩) .listRead
        (ScopeContext.toGo ⟨some 1, some 101, none, none, none⟩) ≠
      can ⟨42, 1, .supervisor, .list [101], none, none⟩ .listRead
        ⟨some 1, some 101, none, none, none⟩ := by
  have hid : Identified ⟨some 1, some 101, none, none, none⟩ :=
    ⟨by decide, by decide, by decide, by decide⟩
  have hun : Unmirrored ⟨42, 1, .supervisor, .list [101], none, none⟩ .listRead
      ⟨some 1, some 101, none, none, none⟩ := by decide +kernel
  exact fun heq => (goCan_eq_can_iff _ _ hid).1 heq hun

variable {auth verb}

/-- Under a tenant id other than 0 the dialer allows nothing that the check refuses, and marks as
sensitive nothing that the check does not. -/
theorem can_allow_of_goCan (h : scope.tenantId ≠ some 0)
    (hallow : Go.can auth.toGo verb scope.toGo = .allow b) :
    ∃ b', can auth verb scope = .allow b' ∧ (b = true → b' = true) := by
  rw [goCan_eq_decision auth verb h] at hallow
  rw [can_eq_decision]
  have hpass : ∀ s, Go.passScope auth.toGo scope.toGo s = true → passScope auth scope s = true := by
    intro s hs
    cases s with
    | tenant => rfl
    | group => exact passGroupScope_toGo_imp hs
    | own => exact passOwnScope_toGo_imp hs
    | self => exact passSelfScope_toGo_imp hs
  unfold decision at hallow ⊢
  split_ifs at hallow ⊢ with hmis hinact hint hperm hmir
  · have hb := Decision.allow.inj hallow
    refine ⟨_, rfl, fun htrue => ?_⟩
    rw [← hb, Bool.and_eq_true] at htrue
    exact htrue.1
  · cases hgrant : roleVerbs auth.role verb with
    | none =>
      rw [hgrant] at hallow
      cases hallow
    | some g =>
      rw [hgrant] at hallow
      dsimp only at hallow ⊢
      split_ifs at hallow with hgo
      refine ⟨g.sensitive, if_pos (hpass _ hgo), fun htrue => ?_⟩
      rw [Decision.allow.inj hallow]
      exact htrue

theorem can_allow_of_goCan_listen :
    ∃ b', can ⟨42, 1, .supervisor, .list [101], none, none⟩ .callListen
        ⟨some 1, some 101, none, none, none⟩ = .allow b' ∧ (true = true → b' = true) :=
  can_allow_of_goCan (by decide) (by decide +kernel)

end Agreement

end Rbac

end Vici2
