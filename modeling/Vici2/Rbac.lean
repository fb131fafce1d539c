import Mathlib.Data.List.Basic

/-! The permission check: the matrix of roles and verbs, the predicates on the resource and the
decision. A role above another in the hierarchy has every verb of the other. -/

namespace Vici2

namespace Rbac

inductive Role
  | superAdmin | admin | supervisor | agent | viewer | integrator
  deriving DecidableEq, Repr

def roleHierarchy : Role → Nat
  | .superAdmin => 100
  | .admin => 80
  | .supervisor => 60
  | .agent => 40
  | .viewer => 0
  | .integrator => 0

def hierarchicalRoles : List Role := [.superAdmin, .admin, .supervisor, .agent]

inductive Verb
  | authLogin | authLogout | authMe | authWsToken | callDial | callTransfer | callHangup | callHold
  | callListen | callWhisper | callBarge | leadRead | leadEdit | leadCreate | leadDelete
  | leadImport | leadExport | leadBulkUpdate | recordingList | recordingDownload | recordingDelete
  | campaignRead | campaignCreate | campaignEdit | campaignDelete | campaignStart | campaignPause
  | carrierRead | carrierEdit | didRead | didEdit | ingroupRead | ingroupEdit | dncRead | dncEdit
  | dncBypass | auditView | auditExport | userRead | userCreate | userEdit | userDelete
  | userRoleChange | userRotateSip | usergroupRead | usergroupEdit | statusRead | statusEdit
  | pauseCodeRead | pauseCodeEdit | scriptRead | scriptEdit | reportView | reportExport
  | tenantRead | tenantEdit | sipCredentialsView | kekRotate | wallboardView | eavesdropAny
  | callbackRead | callbackEdit | alertRead | alertConfigure | listRead | listWrite | listDelete
  | listReset | listPurge | jobsView | jobsRetry | jobsDrain | emailTemplatesRead
  | emailTemplatesEdit | voicemailRead | voicemailManage | vmdropRead | vmdropEdit
  | callbackViewInboundQueue | scorecardRead | scorecardCreate | scorecardFinalize
  | scorecardTemplateEdit | feedbackRead | feedbackCreate | rndScrub | rndConfigure | rndOverride
  | numberPoolRead | numberPoolEdit | integrationSfConfigure | integrationSfClickToDial
  | brandedCallingConfigure | brandedCallingRegisterDid | integrationHsConfigure
  | integrationHsClickToDial | infraFsNodeRead | infraFsNodeEdit
  deriving DecidableEq, Repr

inductive Scope
  | tenant | group | own | self
  deriving DecidableEq, Repr

structure Grant where
  scope : Scope
  sensitive : Bool
  deriving DecidableEq, Repr

def sensitiveVerbs : List Verb := [
  .callListen, .callWhisper, .callBarge, .leadImport, .leadExport, .leadBulkUpdate,
  .recordingDownload, .recordingDelete, .dncEdit, .dncBypass, .auditExport, .userDelete,
  .userRoleChange, .userRotateSip, .campaignDelete, .reportExport, .tenantEdit,
  .sipCredentialsView, .kekRotate, .eavesdropAny, .listReset, .listPurge, .listDelete, .jobsDrain,
  .scorecardFinalize, .scorecardTemplateEdit, .rndConfigure, .rndOverride,
  .brandedCallingConfigure, .brandedCallingRegisterDid]

/-- A verb that a role has no cell for is denied. -/
def rawMatrix : Role → List (Verb × Grant)
  | .superAdmin => [
    (.authLogin, ⟨.tenant, false⟩), (.authLogout, ⟨.tenant, false⟩), (.authMe, ⟨.tenant, false⟩),
    (.authWsToken, ⟨.tenant, false⟩), (.callDial, ⟨.tenant, false⟩),
    (.callTransfer, ⟨.tenant, false⟩), (.callHangup, ⟨.tenant, false⟩),
    (.callHold, ⟨.tenant, false⟩), (.callListen, ⟨.tenant, true⟩), (.callWhisper, ⟨.tenant, true⟩),
    (.callBarge, ⟨.tenant, true⟩), (.leadRead, ⟨.tenant, false⟩), (.leadEdit, ⟨.tenant, false⟩),
    (.leadCreate, ⟨.tenant, false⟩), (.leadDelete, ⟨.tenant, false⟩),
    (.leadImport, ⟨.tenant, true⟩), (.leadExport, ⟨.tenant, true⟩),
    (.leadBulkUpdate, ⟨.tenant, true⟩), (.recordingList, ⟨.tenant, false⟩),
    (.recordingDownload, ⟨.tenant, true⟩), (.recordingDelete, ⟨.tenant, true⟩),
    (.campaignRead, ⟨.tenant, false⟩), (.campaignCreate, ⟨.tenant, false⟩),
    (.campaignEdit, ⟨.tenant, false⟩), (.campaignDelete, ⟨.tenant, true⟩),
    (.campaignStart, ⟨.tenant, false⟩), (.campaignPause, ⟨.tenant, false⟩),
    (.carrierRead, ⟨.tenant, false⟩), (.carrierEdit, ⟨.tenant, false⟩),
    (.didRead, ⟨.tenant, false⟩), (.didEdit, ⟨.tenant, false⟩), (.ingroupRead, ⟨.tenant, false⟩),
    (.ingroupEdit, ⟨.tenant, false⟩), (.dncRead, ⟨.tenant, false⟩), (.dncEdit, ⟨.tenant, true⟩),
    (.dncBypass, ⟨.tenant, true⟩), (.auditView, ⟨.tenant, false⟩), (.auditExport, ⟨.tenant, true⟩),
    (.userRead, ⟨.tenant, false⟩), (.userCreate, ⟨.tenant, false⟩), (.userEdit, ⟨.tenant, false⟩),
    (.userDelete, ⟨.tenant, true⟩), (.userRoleChange, ⟨.tenant, true⟩),
    (.userRotateSip, ⟨.tenant, true⟩), (.usergroupRead, ⟨.tenant, false⟩),
    (.usergroupEdit, ⟨.tenant, false⟩), (.statusRead, ⟨.tenant, false⟩),
    (.statusEdit, ⟨.tenant, false⟩), (.pauseCodeRead, ⟨.tenant, false⟩),
    (.pauseCodeEdit, ⟨.tenant, false⟩), (.scriptRead, ⟨.tenant, false⟩),
    (.scriptEdit, ⟨.tenant, false⟩), (.reportView, ⟨.tenant, false⟩),
    (.reportExport, ⟨.tenant, true⟩), (.tenantRead, ⟨.tenant, false⟩),
    (.tenantEdit, ⟨.tenant, true⟩), (.sipCredentialsView, ⟨.tenant, true⟩),
    (.kekRotate, ⟨.tenant, true⟩), (.wallboardView, ⟨.tenant, false⟩),
    (.eavesdropAny, ⟨.tenant, true⟩), (.callbackRead, ⟨.tenant, false⟩),
    (.callbackEdit, ⟨.tenant, false⟩), (.alertRead, ⟨.tenant, false⟩),
    (.alertConfigure, ⟨.tenant, false⟩), (.listRead, ⟨.tenant, false⟩),
    (.listWrite, ⟨.tenant, false⟩), (.listDelete, ⟨.tenant, true⟩), (.listReset, ⟨.tenant, true⟩),
    (.listPurge, ⟨.tenant, true⟩), (.jobsView, ⟨.tenant, false⟩), (.jobsRetry, ⟨.tenant, false⟩),
    (.jobsDrain, ⟨.tenant, true⟩), (.emailTemplatesRead, ⟨.tenant, false⟩),
    (.emailTemplatesEdit, ⟨.tenant, false⟩), (.voicemailRead, ⟨.tenant, false⟩),
    (.voicemailManage, ⟨.tenant, false⟩), (.vmdropRead, ⟨.tenant, false⟩),
    (.vmdropEdit, ⟨.tenant, false⟩), (.callbackViewInboundQueue, ⟨.tenant, false⟩),
    (.scorecardRead, ⟨.tenant, false⟩), (.scorecardCreate, ⟨.tenant, false⟩),
    (.scorecardFinalize, ⟨.tenant, true⟩), (.scorecardTemplateEdit, ⟨.tenant, true⟩),
    (.feedbackRead, ⟨.tenant, false⟩), (.feedbackCreate, ⟨.tenant, false⟩),
    (.rndScrub, ⟨.tenant, false⟩), (.rndConfigure, ⟨.tenant, true⟩),
    (.rndOverride, ⟨.tenant, true⟩), (.numberPoolRead, ⟨.tenant, false⟩),
    (.numberPoolEdit, ⟨.tenant, false⟩), (.integrationSfConfigure, ⟨.tenant, false⟩),
    (.integrationSfClickToDial, ⟨.tenant, false⟩), (.brandedCallingConfigure, ⟨.tenant, true⟩),
    (.brandedCallingRegisterDid, ⟨.tenant, true⟩), (.integrationHsConfigure, ⟨.tenant, false⟩),
    (.integrationHsClickToDial, ⟨.tenant, false⟩), (.infraFsNodeRead, ⟨.tenant, false⟩),
    (.infraFsNodeEdit, ⟨.tenant, false⟩)]
  | .admin => [
    (.authLogin, ⟨.tenant, false⟩), (.authLogout, ⟨.tenant, false⟩), (.authMe, ⟨.tenant, false⟩),
    (.authWsToken, ⟨.tenant, false⟩), (.callDial, ⟨.tenant, false⟩),
    (.callTransfer, ⟨.tenant, false⟩), (.callHangup, ⟨.tenant, false⟩),
    (.callHold, ⟨.tenant, false⟩), (.callListen, ⟨.tenant, true⟩), (.callWhisper, ⟨.tenant, true⟩),
    (.callBarge, ⟨.tenant, true⟩), (.leadRead, ⟨.tenant, false⟩), (.leadEdit, ⟨.tenant, false⟩),
    (.leadCreate, ⟨.tenant, false⟩), (.leadDelete, ⟨.tenant, false⟩),
    (.leadImport, ⟨.tenant, true⟩), (.leadExport, ⟨.tenant, true⟩),
    (.leadBulkUpdate, ⟨.tenant, true⟩), (.recordingList, ⟨.tenant, false⟩),
    (.recordingDownload, ⟨.tenant, true⟩), (.recordingDelete, ⟨.tenant, true⟩),
    (.campaignRead, ⟨.tenant, false⟩), (.campaignCreate, ⟨.tenant, false⟩),
    (.campaignEdit, ⟨.tenant, false⟩), (.campaignDelete, ⟨.tenant, true⟩),
    (.campaignStart, ⟨.tenant, false⟩), (.campaignPause, ⟨.tenant, false⟩),
    (.carrierRead, ⟨.tenant, false⟩), (.carrierEdit, ⟨.tenant, false⟩),
    (.didRead, ⟨.tenant, false⟩), (.didEdit, ⟨.tenant, false⟩), (.ingroupRead, ⟨.tenant, false⟩),
    (.ingroupEdit, ⟨.tenant, false⟩), (.dncRead, ⟨.tenant, false⟩), (.dncEdit, ⟨.tenant, true⟩),
    (.auditView, ⟨.tenant, false⟩), (.userRead, ⟨.tenant, false⟩), (.userCreate, ⟨.tenant, false⟩),
    (.userEdit, ⟨.tenant, false⟩), (.userDelete, ⟨.tenant, true⟩),
    (.userRoleChange, ⟨.tenant, true⟩), (.userRotateSip, ⟨.tenant, true⟩),
    (.usergroupRead, ⟨.tenant, false⟩), (.usergroupEdit, ⟨.tenant, false⟩),
    (.statusRead, ⟨.tenant, false⟩), (.statusEdit, ⟨.tenant, false⟩),
    (.pauseCodeRead, ⟨.tenant, false⟩), (.pauseCodeEdit, ⟨.tenant, false⟩),
    (.scriptRead, ⟨.tenant, false⟩), (.scriptEdit, ⟨.tenant, false⟩),
    (.reportView, ⟨.tenant, false⟩), (.reportExport, ⟨.tenant, true⟩),
    (.tenantRead, ⟨.tenant, false⟩), (.wallboardView, ⟨.tenant, false⟩),
    (.eavesdropAny, ⟨.tenant, true⟩), (.callbackRead, ⟨.tenant, false⟩),
    (.callbackEdit, ⟨.tenant, false⟩), (.alertRead, ⟨.tenant, false⟩),
    (.alertConfigure, ⟨.tenant, false⟩), (.listRead, ⟨.tenant, false⟩),
    (.listWrite, ⟨.tenant, false⟩), (.listDelete, ⟨.tenant, true⟩), (.listReset, ⟨.tenant, true⟩),
    (.listPurge, ⟨.tenant, true⟩), (.jobsView, ⟨.tenant, false⟩), (.jobsRetry, ⟨.tenant, false⟩),
    (.emailTemplatesRead, ⟨.tenant, false⟩), (.emailTemplatesEdit, ⟨.tenant, false⟩),
    (.voicemailRead, ⟨.tenant, false⟩), (.voicemailManage, ⟨.tenant, false⟩),
    (.vmdropRead, ⟨.tenant, false⟩), (.vmdropEdit, ⟨.tenant, false⟩),
    (.callbackViewInboundQueue, ⟨.tenant, false⟩), (.scorecardRead, ⟨.tenant, false⟩),
    (.scorecardCreate, ⟨.tenant, false⟩), (.scorecardFinalize, ⟨.tenant, true⟩),
    (.scorecardTemplateEdit, ⟨.tenant, true⟩), (.feedbackRead, ⟨.tenant, false⟩),
    (.feedbackCreate, ⟨.tenant, false⟩), (.rndScrub, ⟨.tenant, false⟩),
    (.rndConfigure, ⟨.tenant, true⟩), (.numberPoolRead, ⟨.tenant, false⟩),
    (.numberPoolEdit, ⟨.tenant, false⟩), (.integrationSfConfigure, ⟨.tenant, false⟩),
    (.integrationSfClickToDial, ⟨.tenant, false⟩), (.brandedCallingConfigure, ⟨.tenant, true⟩),
    (.brandedCallingRegisterDid, ⟨.tenant, true⟩), (.integrationHsConfigure, ⟨.tenant, false⟩),
    (.integrationHsClickToDial, ⟨.tenant, false⟩), (.infraFsNodeRead, ⟨.tenant, false⟩)]
  | .supervisor => [
    (.authLogin, ⟨.tenant, false⟩), (.authLogout, ⟨.tenant, false⟩), (.authMe, ⟨.tenant, false⟩),
    (.authWsToken, ⟨.tenant, false⟩), (.callDial, ⟨.tenant, false⟩),
    (.callTransfer, ⟨.tenant, false⟩), (.callHangup, ⟨.tenant, false⟩),
    (.callHold, ⟨.tenant, false⟩), (.callListen, ⟨.group, true⟩), (.callWhisper, ⟨.group, true⟩),
    (.callBarge, ⟨.group, true⟩), (.leadRead, ⟨.group, false⟩), (.leadEdit, ⟨.group, false⟩),
    (.leadExport, ⟨.group, true⟩), (.recordingList, ⟨.group, false⟩),
    (.recordingDownload, ⟨.group, true⟩), (.campaignRead, ⟨.group, false⟩),
    (.campaignStart, ⟨.group, false⟩), (.campaignPause, ⟨.group, false⟩),
    (.ingroupRead, ⟨.group, false⟩), (.dncRead, ⟨.tenant, false⟩), (.userRead, ⟨.group, false⟩),
    (.userEdit, ⟨.group, false⟩), (.userRotateSip, ⟨.self, true⟩),
    (.usergroupRead, ⟨.group, false⟩), (.statusRead, ⟨.tenant, false⟩),
    (.pauseCodeRead, ⟨.tenant, false⟩), (.scriptRead, ⟨.tenant, false⟩),
    (.reportView, ⟨.group, false⟩), (.reportExport, ⟨.group, true⟩),
    (.wallboardView, ⟨.group, false⟩), (.eavesdropAny, ⟨.group, true⟩),
    (.callbackRead, ⟨.group, false⟩), (.callbackEdit, ⟨.group, false⟩),
    (.alertRead, ⟨.group, false⟩), (.listRead, ⟨.group, false⟩), (.jobsView, ⟨.tenant, false⟩),
    (.emailTemplatesRead, ⟨.tenant, false⟩), (.voicemailRead, ⟨.group, false⟩),
    (.vmdropRead, ⟨.tenant, false⟩), (.callbackViewInboundQueue, ⟨.group, false⟩),
    (.scorecardRead, ⟨.group, false⟩), (.scorecardCreate, ⟨.group, false⟩),
    (.scorecardFinalize, ⟨.group, true⟩), (.feedbackRead, ⟨.group, false⟩),
    (.feedbackCreate, ⟨.group, false⟩), (.numberPoolRead, ⟨.tenant, false⟩),
    (.integrationSfClickToDial, ⟨.group, false⟩), (.integrationHsClickToDial, ⟨.tenant, false⟩)]
  | .agent => [
    (.authLogin, ⟨.tenant, false⟩), (.authLogout, ⟨.tenant, false⟩), (.authMe, ⟨.tenant, false⟩),
    (.authWsToken, ⟨.tenant, false⟩), (.callDial, ⟨.own, false⟩), (.callTransfer, ⟨.own, false⟩),
    (.callHangup, ⟨.own, false⟩), (.callHold, ⟨.own, false⟩), (.leadRead, ⟨.own, false⟩),
    (.leadEdit, ⟨.own, false⟩), (.recordingList, ⟨.own, false⟩), (.campaignRead, ⟨.group, false⟩),
    (.dncRead, ⟨.tenant, false⟩), (.userRead, ⟨.self, false⟩), (.userEdit, ⟨.self, false⟩),
    (.userRotateSip, ⟨.self, true⟩), (.statusRead, ⟨.tenant, false⟩),
    (.pauseCodeRead, ⟨.tenant, false⟩), (.scriptRead, ⟨.group, false⟩),
    (.callbackRead, ⟨.own, false⟩), (.callbackEdit, ⟨.own, false⟩),
    (.voicemailRead, ⟨.own, false⟩), (.scorecardRead, ⟨.own, false⟩),
    (.feedbackRead, ⟨.own, false⟩), (.integrationSfClickToDial, ⟨.own, false⟩),
    (.integrationHsClickToDial, ⟨.tenant, false⟩)]
  | .viewer => [
    (.authLogin, ⟨.tenant, false⟩), (.authLogout, ⟨.tenant, false⟩), (.authMe, ⟨.tenant, false⟩),
    (.leadRead, ⟨.tenant, false⟩), (.leadExport, ⟨.tenant, true⟩),
    (.recordingList, ⟨.tenant, false⟩), (.recordingDownload, ⟨.tenant, true⟩),
    (.campaignRead, ⟨.tenant, false⟩), (.carrierRead, ⟨.tenant, false⟩),
    (.didRead, ⟨.tenant, false⟩), (.ingroupRead, ⟨.tenant, false⟩), (.dncRead, ⟨.tenant, false⟩),
    (.auditView, ⟨.tenant, false⟩), (.auditExport, ⟨.tenant, true⟩), (.userRead, ⟨.tenant, false⟩),
    (.usergroupRead, ⟨.tenant, false⟩), (.statusRead, ⟨.tenant, false⟩),
    (.pauseCodeRead, ⟨.tenant, false⟩), (.scriptRead, ⟨.tenant, false⟩),
    (.reportView, ⟨.tenant, false⟩), (.reportExport, ⟨.tenant, true⟩),
    (.tenantRead, ⟨.self, false⟩), (.wallboardView, ⟨.tenant, false⟩),
    (.callbackRead, ⟨.tenant, false⟩), (.alertRead, ⟨.tenant, false⟩),
    (.listRead, ⟨.tenant, false⟩), (.voicemailRead, ⟨.tenant, false⟩),
    (.scorecardRead, ⟨.tenant, false⟩), (.feedbackRead, ⟨.tenant, false⟩),
    (.numberPoolRead, ⟨.tenant, false⟩)]
  | .integrator => [
    (.authMe, ⟨.tenant, false⟩)]

def roleVerbs (role : Role) (verb : Verb) : Option Grant := (rawMatrix role).lookup verb

def roleAtLeast (have' required : Role) : Bool :=
  if have' ∉ hierarchicalRoles ∨ required ∉ hierarchicalRoles then have' = required
  else roleHierarchy required ≤ roleHierarchy have'

def hasPermission (role : Role) (perm : Verb) : Bool := (roleVerbs role perm).isSome

inductive Campaigns
  | all
  | list (ids : List Int)
  deriving DecidableEq, Repr

structure AuthContext where
  uid : Int
  tenantId : Int
  role : Role
  allowedCampaigns : Campaigns
  perms : Option (List Verb)
  active : Option Bool
  deriving DecidableEq, Repr

structure ScopeContext where
  tenantId : Option Int
  campaignId : Option Int
  ownerUserId : Option Int
  assignedTo : Option (List Int)
  targetUserId : Option Int
  deriving DecidableEq, Repr

inductive DenyReason
  | noGrant | inactiveUser | tenantMismatch | scopeGroup | scopeOwn | scopeSelf
  | integratorKeyLacksPerm
  deriving DecidableEq, Repr

inductive Decision
  | allow (sensitive : Bool)
  | deny (reason : DenyReason)
  deriving DecidableEq, Repr

def passGroupScope (auth : AuthContext) (scope : ScopeContext) : Bool :=
  match scope.campaignId with
  | none => false
  | some campaignId =>
    match auth.allowedCampaigns with
    | .all => true
    | .list ids => ids.contains campaignId

def passOwnScope (auth : AuthContext) (scope : ScopeContext) : Bool :=
  scope.ownerUserId = some auth.uid || scope.assignedTo.any fun ids => ids.contains auth.uid

def passSelfScope (auth : AuthContext) (scope : ScopeContext) : Bool :=
  scope.targetUserId = some auth.uid

def can (auth : AuthContext) (verb : Verb) (scope : ScopeContext) : Decision :=
  if scope.tenantId.any (auth.tenantId ≠ ·) then .deny .tenantMismatch
  else if auth.active = some false then .deny .inactiveUser
  else if auth.role = .integrator then
    if auth.perms.any (·.contains verb) then .allow (sensitiveVerbs.contains verb)
    else .deny .integratorKeyLacksPerm
  else
    match roleVerbs auth.role verb with
    | none => .deny .noGrant
    | some grant =>
      match grant.scope with
      | .tenant => .allow grant.sensitive
      | .group =>
        if passGroupScope auth scope then .allow grant.sensitive else .deny .scopeGroup
      | .own => if passOwnScope auth scope then .allow grant.sensitive else .deny .scopeOwn
      | .self => if passSelfScope auth scope then .allow grant.sensitive else .deny .scopeSelf

def passScope (auth : AuthContext) (scope : ScopeContext) : Scope → Bool
  | .tenant => true
  | .group => passGroupScope auth scope
  | .own => passOwnScope auth scope
  | .self => passSelfScope auth scope

def Scope.reason : Scope → DenyReason
  | .tenant => .noGrant
  | .group => .scopeGroup
  | .own => .scopeOwn
  | .self => .scopeSelf

/-- What is asked before the matrix: the tenant of the resource and an active user. -/
def Admitted (auth : AuthContext) (scope : ScopeContext) : Prop :=
  scope.tenantId.any (auth.tenantId ≠ ·) = false ∧ auth.active ≠ some false

variable {auth : AuthContext} {verb : Verb} {scope : ScopeContext} {grant : Grant} {b : Bool}

theorem can_not_admitted (h : ¬ Admitted auth scope) :
    can auth verb scope = .deny .tenantMismatch ∨ can auth verb scope = .deny .inactiveUser := by
  unfold can
  by_cases htenant : scope.tenantId.any (auth.tenantId ≠ ·) = true
  · left
    rw [if_pos htenant]
  · right
    have hactive : auth.active = some false := by
      by_contra hactive
      exact h ⟨Bool.eq_false_iff.2 htenant, hactive⟩
    rw [if_neg htenant, if_pos hactive]

theorem can_integrator (h : Admitted auth scope) (hrole : auth.role = .integrator) :
    can auth verb scope =
      if auth.perms.any (·.contains verb) then .allow (sensitiveVerbs.contains verb)
      else .deny .integratorKeyLacksPerm := by
  unfold can
  rw [if_neg (Bool.eq_false_iff.1 h.1), if_neg h.2, if_pos hrole]

theorem can_no_grant (h : Admitted auth scope) (hrole : auth.role ≠ .integrator)
    (hgrant : roleVerbs auth.role verb = none) : can auth verb scope = .deny .noGrant := by
  unfold can
  rw [if_neg (Bool.eq_false_iff.1 h.1), if_neg h.2, if_neg hrole, hgrant]

theorem can_grant (h : Admitted auth scope) (hrole : auth.role ≠ .integrator)
    (hgrant : roleVerbs auth.role verb = some grant) :
    can auth verb scope =
      if passScope auth scope grant.scope then .allow grant.sensitive
      else .deny grant.scope.reason := by
  unfold can
  rw [if_neg (Bool.eq_false_iff.1 h.1), if_neg h.2, if_neg hrole, hgrant]
  dsimp only
  cases grant.scope <;> rfl

theorem admitted_of_allow (h : can auth verb scope = .allow b) : Admitted auth scope := by
  by_contra hnot
  rcases @can_not_admitted auth verb scope hnot with hdeny | hdeny <;>
    rw [hdeny] at h <;> cases h

theorem cases_of_allow (h : can auth verb scope = .allow b) :
    (auth.role = .integrator ∧ b = sensitiveVerbs.contains verb) ∨
    (auth.role ≠ .integrator ∧ ∃ grant, roleVerbs auth.role verb = some grant ∧
      passScope auth scope grant.scope = true ∧ b = grant.sensitive) := by
  have hadm := admitted_of_allow h
  by_cases hrole : auth.role = .integrator
  · left
    rw [can_integrator hadm hrole] at h
    split_ifs at h
    exact ⟨hrole, (Decision.allow.inj h).symm⟩
  · right
    cases hgrant : roleVerbs auth.role verb with
    | none =>
      rw [can_no_grant hadm hrole hgrant] at h
      cases h
    | some grant =>
      rw [can_grant hadm hrole hgrant] at h
      split_ifs at h with hpass
      exact ⟨hrole, grant, rfl, hpass, (Decision.allow.inj h).symm⟩

theorem mem_rawMatrix {role : Role} (h : roleVerbs role verb = some grant) :
    (verb, grant) ∈ rawMatrix role := by
  obtain ⟨l₁, l₂, hl, -⟩ := List.lookup_eq_some_iff.1 h
  rw [hl]
  exact List.mem_append_right _ List.mem_cons_self

theorem grant_sensitive {role : Role} (h : roleVerbs role verb = some grant) :
    grant.sensitive = sensitiveVerbs.contains verb := by
  have hcells : ∀ c ∈ rawMatrix role, c.2.sensitive = sensitiveVerbs.contains c.1 := by
    cases role <;> decide +kernel
  exact hcells _ (mem_rawMatrix h)

theorem sensitive_of_allow (h : can auth verb scope = .allow b) :
    b = sensitiveVerbs.contains verb := by
  rcases cases_of_allow h with ⟨-, hb⟩ | ⟨-, grant, hgrant, -, hb⟩
  · exact hb
  · rw [hb, grant_sensitive hgrant]

/-- The second scope lets pass what the first does, or it asks for a campaign where the first
asks for the user. -/
def Widens (required have' : Role) (s s' : Scope) : Prop :=
  s' = .tenant ∨ s' = s ∨ (required = .agent ∧ have' = .supervisor ∧ s' = .group)

instance (required have' : Role) (s s' : Scope) : Decidable (Widens required have' s s') :=
  inferInstanceAs (Decidable (_ ∨ _ ∨ _))

theorem widens_of_roleAtLeast {required have' : Role} (h : roleAtLeast have' required = true)
    (hgrant : roleVerbs required verb = some grant) :
    ∃ grant', roleVerbs have' verb = some grant' ∧
      Widens required have' grant.scope grant'.scope := by
  have hcells : ∀ c ∈ rawMatrix required,
      (roleVerbs have' c.1).any (fun g => Widens required have' c.2.scope g.scope) = true := by
    cases required <;> cases have' <;> first | decide +kernel | cases h
  have hcell := hcells _ (mem_rawMatrix hgrant)
  obtain ⟨grant', hgrant', hwidens⟩ := Option.any_eq_true _ _ |>.1 hcell
  exact ⟨grant', hgrant', of_decide_eq_true hwidens⟩

/-- A role above another may do what the other may, and audits it alike, but for an agent's own
resources: a supervisor who is not assigned to their campaign is refused. -/
theorem can_of_roleAtLeast {required have' : Role} (h : roleAtLeast have' required = true)
    (hallow : can { auth with role := required } verb scope = .allow b) :
    can { auth with role := have' } verb scope = .allow b ∨
      (required = .agent ∧ have' = .supervisor ∧ passGroupScope auth scope = false ∧
        can { auth with role := have' } verb scope = .deny .scopeGroup) := by
  have hadm : Admitted { auth with role := have' } scope :=
    @admitted_of_allow { auth with role := required } _ _ _ hallow
  have hb : b = sensitiveVerbs.contains verb := sensitive_of_allow hallow
  rcases cases_of_allow hallow with ⟨hrole, -⟩ | ⟨hrole, grant, hgrant, hpass, -⟩
  · have hsame : have' = required := by
      dsimp only at hrole
      rw [hrole] at h ⊢
      cases have' <;> first | rfl | cases h
    left
    rw [hsame]
    exact hallow
  · obtain ⟨grant', hgrant', hwidens⟩ := widens_of_roleAtLeast h hgrant
    have hrole' : have' ≠ .integrator := by
      rintro rfl
      cases required <;> first | exact hrole rfl | cases h
    have hcan := @can_grant { auth with role := have' } verb scope grant' hadm hrole' hgrant'
    have hsens : grant'.sensitive = b := by
      rw [hb]
      exact grant_sensitive hgrant'
    rcases hwidens with htenant | hsame | ⟨hagent, hsup, hgroup⟩
    · left
      rw [hcan, htenant, hsens]
      rfl
    · left
      have hpass' : passScope { auth with role := have' } scope grant'.scope = true := by
        rw [hsame]
        exact hpass
      rw [hcan, if_pos hpass', hsens]
    · rw [hcan, hgroup, hsens]
      by_cases hgroup' : passGroupScope auth scope = true
      · left
        exact if_pos hgroup'
      · right
        exact ⟨hagent, hsup, Bool.eq_false_iff.2 hgroup', if_neg hgroup'⟩

/-- An agent who becomes a supervisor of other campaigns loses their own leads. -/
theorem agent_promoted_from_campaign :
    can ⟨42, 1, .supervisor, .list [101], none, none⟩ .leadRead
      ⟨some 1, some 999, some 42, none, none⟩ = .deny .scopeGroup := by
  rcases @can_of_roleAtLeast ⟨42, 1, .agent, .list [101], none, none⟩ .leadRead
    ⟨some 1, some 999, some 42, none, none⟩ false .agent .supervisor (by decide)
    (by decide +kernel) with h | ⟨-, -, -, h⟩
  · exact absurd h (by decide +kernel)
  · exact h

end Rbac

end Vici2
