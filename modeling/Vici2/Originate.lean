import Vici2.GatewaySlots
import Vici2.GoTime

/-! The originate service: idempotency check, caller-id waterfall, the ordered
gates, the audit row and the T01 call. The database, the number pool and T01
are answers given to the run; of the gates only the gateway cap touches the
gateway store, every other one is an arbitrary check. -/

namespace Vici2

namespace Originate

open Gateway (GatewayStore)

inductive OriginateMode
  | progressive
  | predictive
  | manual
  | preview
  deriving DecidableEq, Repr

def OriginateMode.text : OriginateMode → String
  | .progressive => "PROGRESSIVE"
  | .predictive => "PREDICTIVE"
  | .manual => "MANUAL"
  | .preview => "PREVIEW"

inductive DialTarget
  | conference
  | park
  deriving DecidableEq, Repr

def DialTarget.text : DialTarget → String
  | .conference => "CONFERENCE"
  | .park => "PARK"

def dialTargetFor (mode : OriginateMode) : DialTarget :=
  if mode = .predictive then .park else .conference

inductive OriginateOutcome
  | success
  | tcpaBlocked
  | dncBlocked
  | consentBlocked
  | gatewayLimit
  | rateLimited
  | gatewayFail
  | timeout
  | jobOrphaned
  | other
  deriving DecidableEq, Repr

def OriginateOutcome.text : OriginateOutcome → String
  | .success => "SUCCESS"
  | .tcpaBlocked => "TCPA_BLOCKED"
  | .dncBlocked => "DNC_BLOCKED"
  | .consentBlocked => "CONSENT_BLOCKED"
  | .gatewayLimit => "GATEWAY_LIMIT"
  | .rateLimited => "RATE_LIMITED"
  | .gatewayFail => "GATEWAY_FAIL"
  | .timeout => "TIMEOUT"
  | .jobOrphaned => "JOB_ORPHANED"
  | .other => "OTHER"

inductive CidSource
  | perCall
  | perList
  | localPresence
  | campaignDflt
  deriving DecidableEq, Repr

def CidSource.text : CidSource → String
  | .perCall => "per_call"
  | .perList => "per_list"
  | .localPresence => "local_presence"
  | .campaignDflt => "campaign_default"

inductive RecordingMode
  | never
  | onDemand
  | all
  | allForce
  | other (text : String)
  deriving DecidableEq, Repr

structure OriginateRequest where
  attemptUUID : String
  tenantID : Int
  leadID : Int
  campaignID : String
  listID : Int
  agentID : Int
  destNumber : String
  mode : OriginateMode
  callerIDOverride : String
  callerIDName : String
  gatewayID : Int
  gatewayName : String
  carrierID : Int
  fsHost : String
  bypassToken : String
  requestID : String
  ipAddress : String
  actorUserID : Int
  dialTimeout : Int
  recordingMode : RecordingMode
  callerIDCampaign : String
  listCallerID : Option String
  leadState : String
  callerState : String
  isAutoDialer : Bool
  maxConcurrent : Int
  dropCapPct : ℚ
  amdAction : String
  vmDropRequiresConsent : Bool
  numberPoolID : Int
  localPresenceAreaCode : String

structure OriginateResult where
  attemptUUID : String
  callUUID : String
  auditRowID : Int
  outcome : OriginateOutcome
  gateApplied : String
  deriving DecidableEq, Repr

structure BaseErr where
  gate : String
  subReason : String
  retryAfter : Duration
  attemptUUID : String
  d04Status : String
  outcome : OriginateOutcome
  msg : String
  deriving DecidableEq, Repr

/-- A typed error of the pipeline, or a wrapped one that carries only text. -/
inductive OriginateError
  | typed (e : BaseErr)
  | plain (msg : String)
  deriving DecidableEq, Repr

def errMissingAttemptUUID : BaseErr where
  gate := ""
  subReason := ""
  retryAfter := 0
  attemptUUID := ""
  d04Status := ""
  outcome := .other
  msg := "originate: AttemptUUID is required (caller must generate UUIDv4)"

def errInProgress : BaseErr where
  gate := ""
  subReason := ""
  retryAfter := seconds 1
  attemptUUID := ""
  d04Status := ""
  outcome := .other
  msg := "originate: attempt already in progress (outcome=OTHER)"

def newGatewayLimitErr (attemptUUID gwDesc : String) : BaseErr :=
  ⟨"gateway_cap", gwDesc, 0, attemptUUID, "GATEWAY_LIMIT_TRY_LATER", .gatewayLimit,
    "originate: gateway concurrent-call cap reached: " ++ gwDesc⟩

def newDropCapErr (attemptUUID subReason : String) (retryAfter : Duration) : BaseErr :=
  ⟨"drop_cap", subReason, retryAfter, attemptUUID, "", .rateLimited,
    "originate: drop-cap exceeded: " ++ subReason⟩

def newTCPAErr (attemptUUID subReason : String) (retryAfter : Duration) : BaseErr :=
  ⟨"tcpa", subReason, retryAfter, attemptUUID, "TCPA", .tcpaBlocked,
    "originate: TCPA block: " ++ subReason⟩

def newDNCErr (attemptUUID subReason : String) : BaseErr :=
  ⟨"dnc", subReason, 0, attemptUUID, "DNC", .dncBlocked, "originate: DNC hit: " ++ subReason⟩

def newConsentBlockErr (attemptUUID subReason : String) : BaseErr :=
  ⟨"consent", subReason, 0, attemptUUID, "CONSENT_NOT_OBTAINED", .consentBlocked,
    "originate: consent blocked: " ++ subReason⟩

def newCarrierFailErr (attemptUUID subReason : String) (retryAfter : Duration)
    (outcome : OriginateOutcome) : BaseErr :=
  ⟨"carrier", subReason, retryAfter, attemptUUID, "CARRIER_FAIL", outcome,
    "originate: carrier/transport fail: " ++ subReason⟩

structure AuditRowPatch where
  carrierID : Int := 0
  gatewayID : Int := 0
  gatewayName : String := ""
  tcpaDecision : String := ""
  tcpaReason : String := ""
  tcpaTzIANA : String := ""
  dncDecision : String := ""
  dncSources : List String := []
  consentDecision : String := ""
  consentState : String := ""
  bypassToken : String := ""
  errorMessage : String := ""
  deriving DecidableEq, Repr

structure GateScratch where
  callerID : String := ""
  callerIDName : String := ""
  callerIDSource : Option CidSource := none
  resolvedCarrierID : Int := 0
  resolvedGatewayID : Int := 0
  resolvedGatewayName : String := ""
  tcpaTzIANA : String := ""
  consentDecision : String := ""
  poolNPID : Int := 0
  deriving DecidableEq, Repr

structure GateResult where
  block : Option BaseErr
  auditPatch : AuditRowPatch
  deriving DecidableEq, Repr

/-- A gate of the pipeline. The gateway cap may find its Valkey call failing
before the script runs. -/
inductive Gate
  | gatewayCap (acquireErr : Option String)
  | other (name : String) (check : OriginateRequest → GateScratch → GateResult × GateScratch)

def Gate.name : Gate → String
  | .gatewayCap _ => "gateway_cap"
  | .other name _ => name

def inFlightTTLSec : Int := 86400

def GateScratch.withGateway (scratch : GateScratch) (req : OriginateRequest) : GateScratch :=
  { scratch with
    resolvedCarrierID := req.carrierID
    resolvedGatewayID := req.gatewayID
    resolvedGatewayName := req.gatewayName }

def gatewayCapPatch (req : OriginateRequest) : AuditRowPatch :=
  { carrierID := req.carrierID, gatewayID := req.gatewayID, gatewayName := req.gatewayName }

def gatewayFull (req : OriginateRequest) : GateResult :=
  let gwDesc := "gw:" ++ toString req.gatewayID ++ ":full"
  ⟨some (newGatewayLimitErr req.attemptUUID gwDesc),
    { gatewayCapPatch req with errorMessage := gwDesc }⟩

/-- `GatewayCapGate.Check`, with the gateway store behind its `Acquire`. -/
def checkGatewayCap (s : GatewayStore) (acquireErr : Option String) (req : OriginateRequest) :
    GateResult × GatewayStore :=
  if req.maxConcurrent ≤ 0 then
    (⟨none, gatewayCapPatch req⟩, s)
  else
    match acquireErr with
    | some _ => (gatewayFull req, s)
    | none =>
      match Gateway.acquire s req.gatewayID 0 req.leadID req.attemptUUID req.maxConcurrent 0
          inFlightTTLSec with
      | ((⟨true, _⟩, none), s') => (⟨none, gatewayCapPatch req⟩, s')
      | (_, s') => (gatewayFull req, s')

def Gate.check (s : GatewayStore) (req : OriginateRequest) (scratch : GateScratch) :
    Gate → GateResult × GateScratch × GatewayStore
  | .gatewayCap acquireErr =>
    let r := checkGatewayCap s acquireErr req
    (r.1, scratch.withGateway req, r.2)
  | .other _ check =>
    let r := check req scratch
    (r.1, r.2, s)

structure AuditRow where
  id : Int := 0
  tenantID : Int
  attemptUUID : String
  callUUID : Option String := none
  leadID : Int
  campaignID : String
  listID : Int
  agentID : Int
  mode : String
  dialTarget : String
  carrierID : Option Int := none
  gatewayID : Option Int := none
  gatewayName : Option String := none
  callerID : Option String := none
  cidSource : Option String := none
  phoneE164 : String
  originatedAt : Instant
  tcpaDecision : Option String := none
  tcpaReason : Option String := none
  tcpaTzResolved : Option String := none
  dncDecision : Option String := none
  dncSources : Option (List String) := none
  consentDecision : Option String := none
  consentState : Option String := none
  bypassToken : Option String := none
  outcome : Option OriginateOutcome := none
  outcomeAt : Option Instant := none
  durationMs : Option Int := none
  errorMessage : Option String := none
  fsHost : Option String := none
  requestID : Option String := none
  ipAddress : Option String := none
  deriving DecidableEq, Repr

def setText (old : Option String) (new : String) : Option String :=
  if new = "" then old else some new

def setID (old : Option Int) (new : Int) : Option Int :=
  if new = 0 then old else some new

def AuditRow.applyPatch (a : AuditRow) (p : AuditRowPatch) : AuditRow :=
  { a with
    carrierID := setID a.carrierID p.carrierID
    gatewayID := setID a.gatewayID p.gatewayID
    gatewayName := setText a.gatewayName p.gatewayName
    tcpaDecision := setText a.tcpaDecision p.tcpaDecision
    tcpaReason := setText a.tcpaReason p.tcpaReason
    tcpaTzResolved := setText a.tcpaTzResolved p.tcpaTzIANA
    dncDecision := setText a.dncDecision p.dncDecision
    dncSources := if p.dncSources = [] then a.dncSources else some p.dncSources
    consentDecision := setText a.consentDecision p.consentDecision
    consentState := setText a.consentState p.consentState
    bypassToken := setText a.bypassToken p.bypassToken
    errorMessage := setText a.errorMessage p.errorMessage }

def strPtr (s : String) : Option String := if s = "" then none else some s

structure PriorAttempt where
  rowID : Int
  outcome : OriginateOutcome
  callUUID : String
  deriving DecidableEq, Repr

inductive T01ErrorKind
  | circuitOpen
  | fsDead
  | allFSDown
  | jobOrphaned
  | rateLimited
  | unknown
  deriving DecidableEq, Repr

structure T01Error where
  kind : T01ErrorKind
  msg : String
  deriving DecidableEq, Repr

def mapT01Error (err : T01Error) : OriginateOutcome × Duration × String :=
  match err.kind with
  | .circuitOpen => (.gatewayFail, seconds 60, "circuit_open")
  | .fsDead => (.gatewayFail, seconds 60, "fs_dead")
  | .allFSDown => (.gatewayFail, seconds 60, "all_fs_down")
  | .jobOrphaned => (.jobOrphaned, seconds 300, "job_orphaned")
  | .rateLimited => (.rateLimited, seconds 5, "rate_limited")
  | .unknown => (.gatewayFail, seconds 60, "gateway_failure")

inductive OnAnswer
  | park
  | conference (name : String)
  deriving DecidableEq, Repr

structure T01Request where
  fsHost : String
  gatewayName : String
  destNumber : String
  callerIDNumber : String
  callerIDName : String
  originateTimeout : Int
  onAnswer : OnAnswer
  channelVars : List (String × String)
  leadID : Int
  tenantID : Int
  preSuppliedUUID : String
  preSuppliedJobID : String
  deriving DecidableEq, Repr

def conferenceName (tenantID userID : Int) : String :=
  "agent_t" ++ toString tenantID ++ "_u" ++ toString userID

def conferenceFQN (tenantID userID : Int) (profile : String) : String :=
  conferenceName tenantID userID ++ "@" ++ profile

def mapRecordingModeVar (mode : RecordingMode) (consentDecision : String) : String :=
  if consentDecision = "SKIP_RECORDING" then "OFF"
  else match mode with
    | .never => "OFF"
    | .onDemand | .all | .allForce | .other _ => "ON"

def varIf (p : Prop) [Decidable p] (name value : String) : List (String × String) :=
  if p then [(name, value)] else []

def defaultDialTimeout : Int := 22

def buildChannelVars (req : OriginateRequest) (scratch : GateScratch) : List (String × String) :=
  let timeout := toString (if req.dialTimeout ≤ 0 then defaultDialTimeout else req.dialTimeout)
  varIf (scratch.callerID ≠ "") "origination_caller_id_number" scratch.callerID ++
  varIf (scratch.callerID ≠ "") "effective_caller_id_number" scratch.callerID ++
  varIf (scratch.callerID ≠ "") "sip_from_user" scratch.callerID ++
  varIf (scratch.callerIDName ≠ "") "origination_caller_id_name" scratch.callerIDName ++
  [("ignore_early_media", "true"), ("originate_timeout", timeout), ("call_timeout", timeout),
    ("hangup_after_bridge",
      if dialTargetFor req.mode = .conference then "true" else "false"),
    ("origination_uuid", req.attemptUUID), ("vici2_attempt_uuid", req.attemptUUID),
    ("vici2_tenant_id", toString req.tenantID), ("vici2_lead_id", toString req.leadID),
    ("vici2_campaign_id", req.campaignID)] ++
  varIf (req.agentID ≠ 0) "vici2_agent_id" (toString req.agentID) ++
  varIf (scratch.resolvedCarrierID ≠ 0) "vici2_carrier_id" (toString scratch.resolvedCarrierID) ++
  varIf (scratch.resolvedGatewayID ≠ 0) "vici2_gateway_id" (toString scratch.resolvedGatewayID) ++
  [("vici2_consent_required", if scratch.consentDecision = "PROMPT" then "true" else "false")] ++
  varIf (req.leadState ≠ "") "vici2_consent_state" req.leadState ++
  [("vici2_recording_mode", mapRecordingModeVar req.recordingMode scratch.consentDecision),
    ("RECORD_STEREO", "true"), ("sip_h_X-Vici2-Lead", toString req.leadID),
    ("sip_h_X-Vici2-Campaign", req.campaignID), ("sip_h_X-Vici2-Attempt", req.attemptUUID)] ++
  varIf (scratch.poolNPID ≠ 0) "vici2_pool_npid" (toString scratch.poolNPID)

structure PickResult where
  e164 : String
  didID : Int
  npID : Int
  source : String
  deriving DecidableEq, Repr

/-- The answers of `originate_audit` in one run: the row found for an attempt,
and the id the INSERT returns. -/
structure AuditDB where
  checkIdempotency : String → Except String (Option PriorAttempt)
  insertAuditRow : Except String Int

/-- What one run of the service meets: the wired database, pool and T01 with
their answers, and the clock at the two places it is read. -/
structure OriginateEnv where
  db : Option AuditDB
  poolSvc : Option (Int → Int → String → Except String PickResult)
  t01 : Option (Except T01Error String)
  startedAt : Instant
  finishedAt : Instant

def pickCallerID (env : OriginateEnv) (req : OriginateRequest) :
    Except String (String × String × CidSource) :=
  let pooled : Option String := do
    let poolSvc ← if req.numberPoolID = 0 then none else env.poolSvc
    (poolSvc req.numberPoolID req.tenantID req.localPresenceAreaCode).toOption.map PickResult.e164
  if req.callerIDOverride ≠ "" then
    .ok (req.callerIDOverride, req.callerIDName, .perCall)
  else if req.listCallerID.getD "" ≠ "" then
    .ok (req.listCallerID.getD "", "", .perList)
  else
    match pooled with
    | some e164 => .ok (e164, "", .localPresence)
    | none =>
      if req.callerIDCampaign ≠ "" then
        .ok (req.callerIDCampaign, "", .campaignDflt)
      else
        .error ("originate: no caller-id available for campaign " ++ req.campaignID ++
          " (configure campaigns.caller_id_override)")

inductive AuditWrite
  | insert (row : AuditRow)
  | finalize (row : AuditRow)
  deriving DecidableEq, Repr

structure OriginateRun where
  result : Except OriginateError OriginateResult
  store : GatewayStore
  writes : List AuditWrite := []
  dialled : Option T01Request := none

def runGates (req : OriginateRequest) : List Gate → GateScratch → AuditRow → GatewayStore →
    (Except BaseErr GateScratch) × AuditRow × GatewayStore
  | [], scratch, row, s => (.ok scratch, row, s)
  | gate :: gates, scratch, row, s =>
    match gate.check s req scratch with
    | (⟨some block, patch⟩, _, s') => (.error block, row.applyPatch patch, s')
    | (⟨none, patch⟩, scratch', s') => runGates req gates scratch' (row.applyPatch patch) s'

def newAuditRow (env : OriginateEnv) (req : OriginateRequest) (cidNum : String)
    (cidSrc : CidSource) : AuditRow :=
  { tenantID := req.tenantID, attemptUUID := req.attemptUUID, leadID := req.leadID,
    campaignID := req.campaignID, listID := req.listID, agentID := req.agentID,
    mode := req.mode.text, dialTarget := (dialTargetFor req.mode).text,
    phoneE164 := req.destNumber, originatedAt := env.startedAt,
    requestID := strPtr req.requestID, ipAddress := strPtr req.ipAddress,
    callerID := strPtr cidNum, cidSource := strPtr cidSrc.text }

def AuditRow.finalized (row : AuditRow) (env : OriginateEnv) : AuditRow :=
  { row with
    outcomeAt := some env.finishedAt
    durationMs := if row.originatedAt.isZero then none
      else some ((env.finishedAt.sub row.originatedAt).tdiv 1000000) }

def t01RequestFor (req : OriginateRequest) (scratch : GateScratch) : T01Request where
  fsHost := req.fsHost
  gatewayName := req.gatewayName
  destNumber := req.destNumber
  callerIDNumber := scratch.callerID
  callerIDName := scratch.callerIDName
  originateTimeout := req.dialTimeout
  onAnswer := if dialTargetFor req.mode = .conference then
      .conference (conferenceFQN req.tenantID req.agentID "default") else .park
  channelVars := buildChannelVars req scratch
  leadID := req.leadID
  tenantID := req.tenantID
  preSuppliedUUID := req.attemptUUID
  preSuppliedJobID := req.attemptUUID

/-- Steps 4 to 6: the T01 call and the finalized audit row. -/
def dial (env : OriginateEnv) (req : OriginateRequest) (scratch : GateScratch) (row : AuditRow)
    (writes : List AuditWrite) (s : GatewayStore) : OriginateRun :=
  let t01Req := t01RequestFor req scratch
  let finalize (row : AuditRow) : List AuditWrite :=
    if env.db.isSome then writes ++ [.finalize (row.finalized env)] else writes
  match env.t01.getD (.ok req.attemptUUID) with
  | .error t01Err =>
    let m := mapT01Error t01Err
    { result := .error (.typed (newCarrierFailErr req.attemptUUID m.2.2 m.2.1 m.1))
      store := s
      writes := finalize { row with outcome := some m.1, errorMessage := some t01Err.msg }
      dialled := some t01Req }
  | .ok callUUID =>
    { result := .ok ⟨req.attemptUUID, callUUID, row.id, .success, ""⟩
      store := s
      writes := finalize { row with
        outcome := some .success, callUUID := some callUUID, fsHost := strPtr req.fsHost }
      dialled := some t01Req }

/-- Step 2 onwards: the gates, the audit INSERT, the call. -/
def gateAndDial (env : OriginateEnv) (gates : List Gate) (req : OriginateRequest)
    (scratch : GateScratch) (row : AuditRow) (s : GatewayStore) : OriginateRun :=
  match runGates req gates scratch row s with
  | (.error block, row, s') =>
    let row := { row with outcome := some block.outcome }
    { result := .error (.typed block)
      store := s'
      writes := if env.db.isSome then [.insert row] else [] }
  | (.ok scratch, row, s') =>
    let row := { row with outcome := some .other }
    match env.db with
    | none => dial env req scratch row [] s'
    | some db =>
      match db.insertAuditRow with
      | .error e =>
        { result := .error (.plain ("originate: audit INSERT failed: " ++ e))
          store := s'
          writes := [.insert row] }
      | .ok id => dial env req scratch { row with id := id } [.insert row] s'

/-- What the idempotency check settles; a failing check is passed over. -/
def replay (env : OriginateEnv) (req : OriginateRequest) :
    Option (Except OriginateError OriginateResult) := do
  let db ← env.db
  let prior ← (db.checkIdempotency req.attemptUUID).toOption.join
  if prior.outcome = .other then
    some (.error (.typed errInProgress))
  else
    some (.ok ⟨req.attemptUUID, prior.callUUID, prior.rowID, prior.outcome, ""⟩)

def originate (env : OriginateEnv) (gates : List Gate) (req : OriginateRequest)
    (s : GatewayStore) : OriginateRun :=
  if req.attemptUUID = "" then
    { result := .error (.typed errMissingAttemptUUID), store := s }
  else
    match replay env req with
    | some result => { result := result, store := s }
    | none =>
      match pickCallerID env req with
      | .error e => { result := .error (.plain ("originate: caller-id: " ++ e)), store := s }
      | .ok (cidNum, cidName, cidSrc) =>
        gateAndDial env gates req
          { callerID := cidNum, callerIDName := cidName, callerIDSource := some cidSrc }
          (newAuditRow env req cidNum cidSrc) s

end Originate

end Vici2
