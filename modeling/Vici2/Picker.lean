import Vici2.AgentIndex
import Vici2.GoTime
import Vici2.Hopper
import Vici2.Originate
import Vici2.TokenBudget

/-! The picker of one campaign: the two tick functions of the dispatch loop, the
retry policy and the orphan sweep, over the hopper, the agent store and the
dispatch tokens. A tick runs with the answers it meets (lead status, T04, the
deadline); Valkey commands are taken to succeed. Metrics and the frequency cap,
which needs a phone number the claim never carries, are left out. -/

namespace Vici2

namespace Picker

open Agents (AgentStore)
open Hopper (HopperStore)
open Originate (OriginateError OriginateMode OriginateOutcome OriginateResult BaseErr)
open Tokens (TokenKey)

inductive DialOutcome
  | bridged
  | noAnswer
  | busy
  | amd
  | invalidNumber
  | carrierFail
  | gatewayLimit
  | tcpaBlocked
  | dncBlocked
  | consentBlocked
  | circuitOpen
  | rateLimited
  | mediaTimeout
  | timeout
  | dropAbandon
  | agentDisconnect
  | campaignPaused
  | leadIneligible
  deriving DecidableEq, Repr

structure RetryHint where
  requeue : Bool
  immediate : Bool := false
  d04Status : String := ""
  freeze : Bool := false
  deriving DecidableEq, Repr

def policyFor : DialOutcome → RetryHint
  | .bridged => { requeue := false }
  | .noAnswer => { requeue := true, d04Status := "NA" }
  | .busy => { requeue := true, d04Status := "B-CAR" }
  | .amd => { requeue := false, d04Status := "A" }
  | .invalidNumber => { requeue := false, d04Status := "INVALID" }
  | .carrierFail => { requeue := true, immediate := true, d04Status := "CARRIER_FAIL" }
  | .gatewayLimit => { requeue := true, immediate := true, d04Status := "GATEWAY_LIMIT_TRY_LATER" }
  | .tcpaBlocked => { requeue := true, d04Status := "TCPA" }
  | .dncBlocked => { requeue := false, d04Status := "DNC" }
  | .consentBlocked => { requeue := false, d04Status := "CONSENT_NOT_OBTAINED" }
  | .circuitOpen => { requeue := true, freeze := true }
  | .rateLimited => { requeue := true }
  | .mediaTimeout => { requeue := true, d04Status := "MEDIA_TO" }
  | .timeout => { requeue := true, d04Status := "TIMEOT" }
  | .dropAbandon => { requeue := true, d04Status := "DROP" }
  | .agentDisconnect => { requeue := true, immediate := true, d04Status := "ADC" }
  | .campaignPaused => { requeue := true, immediate := true }
  | .leadIneligible => { requeue := false }

def outcomeFromOriginateError (oerr : BaseErr) : DialOutcome :=
  if oerr.gate = "gateway_cap" then .gatewayLimit
  else if oerr.gate = "drop_cap" then .rateLimited
  else if oerr.gate = "tcpa" then .tcpaBlocked
  else if oerr.gate = "dnc" then .dncBlocked
  else if oerr.gate = "consent" then .consentBlocked
  else if oerr.gate = "carrier" then
    if oerr.outcome = .timeout then .timeout
    else if oerr.subReason = "circuit_open" then .circuitOpen
    else .carrierFail
  else .carrierFail

def dialOutcome : Except OriginateError OriginateResult → DialOutcome
  | .error (.typed oerr) => outcomeFromOriginateError oerr
  | .error (.plain _) => .carrierFail
  | .ok res =>
    match res.outcome with
    | .success => .bridged
    | .timeout => .timeout
    | .tcpaBlocked => .tcpaBlocked
    | .dncBlocked => .dncBlocked
    | .consentBlocked => .consentBlocked
    | .gatewayLimit => .gatewayLimit
    | .rateLimited => .rateLimited
    | .gatewayFail => .carrierFail
    | .jobOrphaned => .carrierFail
    | .other => .carrierFail

structure CampaignConfig where
  campaignID : Int
  mode : OriginateMode
  leadLockTTLSec : Int
  active : Bool
  deriving DecidableEq, Repr

structure PickerStore where
  hopper : HopperStore
  agents : AgentStore
  tokens : Option TokenKey

/-- What one tick meets: its pod and snapshot, the clock, the uuid it draws,
whether the pod's cache has the campaign active, the lead's status field, T04's
answer, and whether that answer comes after the dispatch deadline. -/
structure TickInput where
  podID : String
  cfg : CampaignConfig
  nowMs : Int
  callUUID : String
  cacheActive : Bool
  leadStatus : Int → Option String
  t04 : Except OriginateError OriginateResult
  late : Bool

/-- The store after a tick, with the lead and the agent its scripts handed out
and whether T04 was called. -/
structure TickResult where
  store : PickerStore
  lead : Option Int := none
  agent : Option Int := none
  called : Bool := false

def dialEligibleStatuses : List String := ["NEW", "NA", "B-CAR", "CALLBK", ""]

/-- `CheckLeadEligible`; a missing status counts as eligible. -/
def leadEligible (status : Option String) : Bool :=
  match status with
  | none => true
  | some s => s ∈ dialEligibleStatuses

def releaseWithPolicy (s : PickerStore) (leadID : Int) (lockVal : String) (outcome : DialOutcome)
    (nowMs : Int) : PickerStore :=
  let policy := policyFor outcome
  let score : ℚ := if policy.requeue ∧ ¬ policy.immediate then nowMs else 0
  { s with hopper := (Hopper.release s.hopper leadID lockVal policy.requeue score).2 }

def releaseReservation (s : PickerStore) (campaignID agentID nowMs : Int) : PickerStore :=
  { s with
    agents := (Agents.transition s.agents campaignID agentID (some .reserved) .ready nowMs []).2 }

def releaseAll (s : PickerStore) (inp : TickInput) (leadID : Int) (lockVal : String)
    (agentID : Int) (outcome : DialOutcome) : PickerStore :=
  let s := if agentID ≠ 0 then releaseReservation s inp.cfg.campaignID agentID inp.nowMs else s
  releaseWithPolicy s leadID lockVal outcome inp.nowMs

def processOutcome (s : PickerStore) (inp : TickInput) (leadID : Int) (lockVal : String)
    (agentID : Int) : PickerStore :=
  let outcome := dialOutcome inp.t04
  let s := if agentID ≠ 0 ∧ outcome ≠ .bridged then
      releaseReservation s inp.cfg.campaignID agentID inp.nowMs else s
  releaseWithPolicy s leadID lockVal outcome inp.nowMs

/-- `TokenBucket.Release`, deferred by a tick that never called T04. -/
def refund (s : PickerStore) : PickerStore := { s with tokens := some (Tokens.incr s.tokens) }

def claimLead (s : PickerStore) (inp : TickInput) : Except String (Int × String) × PickerStore :=
  let r := Hopper.claim s.hopper inp.podID inp.cfg.leadLockTTLSec inp.nowMs
  (r.1, { s with hopper := r.2 })

/-- The lead a claim took out of the hopper; an empty lock value is no claim. -/
def takenLead (r : Int × String) : Option Int := if r.2 = "" then none else some r.1

def dispatchPredictive (s : PickerStore) (inp : TickInput) : TickResult :=
  match claimLead s inp with
  | (.error _, s) => { store := refund s }
  | (.ok (leadID, lockVal), s) =>
    let lead := takenLead (leadID, lockVal)
    if leadID = 0 then { store := refund s, lead := lead }
    else if ¬ inp.cacheActive then
      { store := refund (releaseWithPolicy s leadID lockVal .campaignPaused inp.nowMs), lead := lead }
    else if ¬ leadEligible (inp.leadStatus leadID) then
      { store := refund (releaseWithPolicy s leadID lockVal .leadIneligible inp.nowMs), lead := lead }
    else
      match inp.t04 with
      | .error _ => { store := processOutcome s inp leadID lockVal 0, lead := lead, called := true }
      | .ok _ => { store := s, lead := lead, called := true }

/-- `tickProgressive` from the claim on, with an agent reserved. -/
def dispatchProgressive (s : PickerStore) (inp : TickInput) (agentID : Int) : TickResult :=
  let unreserve (s : PickerStore) := releaseReservation s inp.cfg.campaignID agentID inp.nowMs
  match claimLead s inp with
  | (.error _, s) => { store := refund (unreserve s), agent := some agentID }
  | (.ok (leadID, lockVal), s) =>
    let lead := takenLead (leadID, lockVal)
    if leadID = 0 then { store := refund (unreserve s), lead := lead, agent := some agentID }
    else if ¬ inp.cacheActive then
      { store := refund (releaseAll s inp leadID lockVal agentID .campaignPaused)
        lead := lead, agent := some agentID }
    else if ¬ leadEligible (inp.leadStatus leadID) then
      { store := refund (releaseAll s inp leadID lockVal agentID .leadIneligible)
        lead := lead, agent := some agentID }
    else if inp.late then { store := s, lead := lead, agent := some agentID, called := true }
    else
      { store := processOutcome s inp leadID lockVal agentID
        lead := lead, agent := some agentID, called := true }

def tickPredictive (s : PickerStore) (inp : TickInput) : TickResult :=
  let key := Tokens.decr s.tokens
  if key.val < 0 then { store := { s with tokens := some (Tokens.incr (some key)) } }
  else dispatchPredictive { s with tokens := some key } inp

def tickProgressive (s : PickerStore) (inp : TickInput) : TickResult :=
  let key := Tokens.decr s.tokens
  if key.val < 0 then { store := { s with tokens := some (Tokens.incr (some key)) } }
  else
    let r := Agents.pickAgentForCall s.agents inp.cfg.campaignID inp.callUUID inp.nowMs
    let s := { s with tokens := some key, agents := r.2 }
    if r.1.getD 0 = 0 then { store := refund s, agent := r.1 }
    else dispatchProgressive s inp (r.1.getD 0)

def tick (s : PickerStore) (inp : TickInput) : TickResult :=
  if ¬ inp.cfg.active then { store := s }
  else if inp.cfg.mode = .predictive then tickPredictive s inp
  else tickProgressive s inp

/-- `strconv.ParseInt` in base ten, 64 bits. -/
def parseInt64 (s : List Char) : Option Int :=
  let digits (l : List Char) : Option Int :=
    if l ≠ [] ∧ l.all Char.isDigit then
      some (l.foldl (fun n c => 10 * n + (c.toNat - '0'.toNat)) 0)
    else none
  let value : Option Int :=
    match s with
    | '-' :: l => (digits l).map fun n => -n
    | '+' :: l => digits l
    | l => digits l
  value.filter fun n => -(2 ^ 63) ≤ n ∧ n < 2 ^ 63

def parseInFlightEntry (val : String) : Instant :=
  match val.toList.dropWhile (· ≠ ':') with
  | [] => 0
  | _ :: ts =>
    match parseInt64 ts with
    | none => 0
    | some tsMs => unixMilli tsMs

def orphanAgeThreshold : Duration := 5 * 60 * nsPerSecond

def overdue (now : Instant) (val : String) : Bool :=
  decide (orphanAgeThreshold < now.sub (parseInFlightEntry val))

def sweepEntry (now : Instant) (s : HopperStore) (leadID : Int) : HopperStore :=
  match s.inFlight leadID with
  | none => s
  | some val => if overdue now val then (Hopper.release s leadID val true 0).2 else s

/-- `SweepOrphans` for the campaign, over its in-flight leads in the order the
map yields them. -/
def sweepOrphans (s : HopperStore) (now : Instant) (leads : List Int) : HopperStore :=
  leads.foldl (sweepEntry now) s

end Picker

end Vici2
