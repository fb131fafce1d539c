import Mathlib.Data.List.Sort
import Vici2.InboundDispatch
import Vici2.Picker

/-! One cycle of the dispatcher of an in-group: the next call of the queue, an
agent picked for it by skills and routing strategy, the dispatch script and the
transfer of the customer into the agent's conference. -/

namespace Vici2

namespace Queue

open Agents

inductive RoutingStrategy
  | skillPriority
  | longestIdle
  | roundRobin
  | topDown
  | fewestCalls
  | other (name : String)
  deriving DecidableEq, Repr

structure SkillRequirement where
  skillKey : String
  skillValue : String
  minProficiency : Int
  required : Bool
  weight : Int

structure InGroup where
  tenantID : Int
  id : String
  name : String
  routingStrategy : RoutingStrategy
  stickyEnabled : Bool
  skillRequirements : List SkillRequirement

/-- Proficiency by `key:value`, zero where the skill is not held. -/
abbrev AgentSkillSet := String → Int

def AgentSkillSet.proficiency (s : AgentSkillSet) (key value : String) : Int :=
  s (key ++ ":" ++ value)

def AgentSkillSet.addScores (s : AgentSkillSet) (score : Int) : List SkillRequirement → Int
  | [] => score
  | r :: reqs =>
    let agentProf := s.proficiency r.skillKey r.skillValue
    if r.required ∧ agentProf < r.minProficiency then -1
    else if agentProf ≥ r.minProficiency then
      s.addScores (score + (agentProf - r.minProficiency + 1) * r.weight) reqs
    else s.addScores score reqs

def AgentSkillSet.matchScore (s : AgentSkillSet) (reqs : List SkillRequirement) : Int :=
  s.addScores 0 reqs

structure Agent where
  userID : Int
  status : String
  lastReadyChangeTs : Int
  lastDispatchedAt : Int
  callsHandledToday : Int
  rank : Int
  skills : AgentSkillSet

structure QueuedCall where
  callUUID : String
  ingroupID : String
  tenantID : Int
  callerIDe164 : String
  didE164 : Option String
  enterTs : Int

/-- `sort.SliceStable` by a strict order. -/
def sliceStable (less : Agent → Agent → Bool) (candidates : List Agent) : List Agent :=
  candidates.insertionSort fun a b => ¬ less b a

def pickSkillPriority (ig : InGroup) (candidates : List Agent) : Option Agent :=
  (sliceStable (fun a b =>
    let sa := a.skills.matchScore ig.skillRequirements
    let sb := b.skills.matchScore ig.skillRequirements
    if sa ≠ sb then decide (sa > sb) else decide (a.lastReadyChangeTs < b.lastReadyChangeTs))
    candidates).head?

/-- The first candidate of least key. -/
def pickLeast (key : Agent → Int) : List Agent → Option Agent
  | [] => none
  | a :: rest => some (rest.foldl (fun best a => if key a < key best then a else best) a)

def pickLongestIdle : List Agent → Option Agent := pickLeast Agent.lastReadyChangeTs

def pickRoundRobin : List Agent → Option Agent := pickLeast Agent.lastDispatchedAt

def pickByKeyThenIdle (key : Agent → Int) (candidates : List Agent) : Option Agent :=
  (sliceStable (fun a b =>
    if key a ≠ key b then decide (key a < key b)
    else decide (a.lastReadyChangeTs < b.lastReadyChangeTs)) candidates).head?

def pickTopDown : List Agent → Option Agent := pickByKeyThenIdle Agent.rank

def pickFewestCalls : List Agent → Option Agent := pickByKeyThenIdle Agent.callsHandledToday

def pickAgentByStrategy (ig : InGroup) (candidates : List Agent) : Option Agent :=
  match ig.routingStrategy with
  | .skillPriority => pickSkillPriority ig candidates
  | .longestIdle => pickLongestIdle candidates
  | .roundRobin => pickRoundRobin candidates
  | .topDown => pickTopDown candidates
  | .fewestCalls => pickFewestCalls candidates
  | .other _ => pickSkillPriority ig candidates

/-- The value that `strconv.ParseInt` returns beside its error: the nearest
bound when out of range, zero on any other text. -/
def parseIntValue (s : String) : Int :=
  match Picker.parseInt64 s.toList with
  | some n => n
  | none =>
    let isNumber (l : List Char) : Bool := l ≠ [] ∧ l.all Char.isDigit
    match s.toList with
    | '-' :: l => if isNumber l then -(2 ^ 63) else 0
    | '+' :: l => if isNumber l then 2 ^ 63 - 1 else 0
    | l => if isNumber l then 2 ^ 63 - 1 else 0

def field (h : Hash) (f : String) : String := (h f).getD ""

/-- The fields that the enroll route, the scripts and the exit paths write into
the HASH of a queued call. -/
def queueCallFields : List String :=
  ["ingroup_id", "caller_id", "enter_ts", "base_score", "overflow_hops", "lead_id", "dispatch_at",
    "dispatch_user_id", "exit_at", "exit_reason", "last_announce_ts", "sticky_target_user",
    "did_e164", "matched_skills", "queue_position_at_offer"]

structure CallOffer where
  channel : String
  callUUID : String
  ingroupID : String
  ingroupName : String
  callerIDe164 : String
  didE164 : Option String
  waitSeconds : Int
  deriving DecidableEq, Repr

inductive EslCommand
  | uuidSetVar (uuid key value : String)
  | uuidTransfer (uuid dest : String)
  deriving DecidableEq, Repr

/-- The keys of one tenant that a cycle reads or writes, what it has published
and sent to FreeSWITCH, and the callers that have hung up. -/
structure QueueStore where
  calls : CallStore
  dispatchLock : String → Option String
  stickyAgent : String → Option String
  offers : List CallOffer
  sent : List EslCommand
  hungUp : String → Bool

def QueueStore.empty : QueueStore :=
  ⟨CallStore.empty, fun _ => none, fun _ => none, [], [], fun _ => false⟩

inductive ValkeyCall
  | setnxLock
  | rangeQueue
  | hgetallCall
  | rangeReadyAgents
  | getSticky
  | hgetallAgent (userID : Int)
  | evalDispatch
  | publishOffer
  | setSticky
  | delLock
  deriving DecidableEq, Repr

/-- What a cycle does not decide itself: which commands fail, the clock, the
skills the cache returns (`none` on an error), the order in which the channel
variables are set, the answers of FreeSWITCH (`some` is an error) and whether the
caller hangs up while it is being transferred. -/
structure CycleInputs where
  podID : String
  valkeyFails : ValkeyCall → Option String
  nowMs : Int
  offerMs : Int
  skillCache : Int → Option AgentSkillSet
  varOrder : List (String × String) → List (String × String)
  uuidSetVar : String → Option String
  uuidTransfer : Option String
  callerHangsUp : Bool

def loadAgent (s : QueueStore) (inp : CycleInputs) (userID readyScore : Int) :
    Except String Agent :=
  match inp.valkeyFails (.hgetallAgent userID) with
  | some err => .error err
  | none =>
    let fields := s.calls.agents.agent userID
    .ok
      { userID := userID
        status := field fields "status"
        lastReadyChangeTs := readyScore
        lastDispatchedAt := parseIntValue (field fields "last_dispatched_at")
        callsHandledToday := parseIntValue (field fields "calls_handled_today")
        rank := parseIntValue (field fields "rank")
        skills := (inp.skillCache userID).getD fun _ => 0 }

def loadQueuedCall (s : QueueStore) (inp : CycleInputs) (ig : InGroup) (callUUID : String) :
    Except String QueuedCall :=
  match inp.valkeyFails .hgetallCall with
  | some err => .error ("loadQueuedCall: HGetAll " ++ callUUID ++ ": " ++ err)
  | none =>
    let fields := s.calls.queueCall callUUID
    if queueCallFields.all fun f => (fields f).isNone then
      .error ("loadQueuedCall: no hash for " ++ callUUID)
    else .ok
      { callUUID := callUUID
        ingroupID := field fields "ingroup_id"
        tenantID := ig.tenantID
        callerIDe164 := field fields "caller_id"
        didE164 := if field fields "did_e164" ≠ "" then some (field fields "did_e164") else none
        enterTs := parseIntValue (field fields "enter_ts") }

def stickyCandidate (s : QueueStore) (inp : CycleInputs) (ig : InGroup) (call : QueuedCall) :
    Option Agent :=
  if ig.stickyEnabled ∧ call.callerIDe164 ≠ "" then
    match inp.valkeyFails .getSticky, s.stickyAgent call.callerIDe164 with
    | none, some stickyIDStr =>
      let stickyID := parseIntValue stickyIDStr
      if stickyID > 0 then
        match loadAgent s inp stickyID 0 with
        | .ok agent =>
          if agent.status = "READY" ∧ agent.skills.matchScore ig.skillRequirements ≥ 0 then
            some agent
          else none
        | .error _ => none
      else none
    | _, _ => none
  else none

def eligible (s : QueueStore) (inp : CycleInputs) (ig : InGroup) (m : Int × Int) : Option Agent :=
  if m.1 = 0 then none
  else
    match loadAgent s inp m.1 m.2 with
    | .error _ => none
    | .ok agent =>
      if agent.status ≠ "READY" then none
      else if agent.skills.matchScore ig.skillRequirements < 0 then none
      else some agent

/-- `pickAgent`: the caller's sticky agent, else the strategy's choice among the
ready agents of the in-group. -/
def pickAgent (s : QueueStore) (inp : CycleInputs) (ig : InGroup) (call : QueuedCall) :
    Except String (Option Agent) :=
  match inp.valkeyFails .rangeReadyAgents with
  | some err => .error ("pickAgent: ZRANGE ready_agents: " ++ err)
  | none =>
    let members := (s.calls.readyAgents ig.id).entries
    if members = [] then .ok none
    else
      match stickyCandidate s inp ig call with
      | some agent => .ok (some agent)
      | none => .ok (pickAgentByStrategy ig (members.filterMap (eligible s inp ig)))

def conferenceFQN (tenantID userID : Int) (profile : String) : String :=
  "agent_t" ++ toString tenantID ++ "_u" ++ toString userID ++ "@" ++ profile

def transferVars (tenantID userID : Int) (customerCallUUID : String) : List (String × String) :=
  [("vici2_role", "customer_leg"), ("vici2_user_id", toString userID),
    ("vici2_tenant_id", toString tenantID), ("vici2_call_uuid", customerCallUUID),
    ("conference_member_flags", "")]

def setVarsMulti (uuidSetVar : String → Option String) (callUUID : String) :
    List (String × String) → List EslCommand × Option String
  | [] => ([], none)
  | (k, v) :: vars =>
    match uuidSetVar k with
    | some err => ([.uuidSetVar callUUID k v], some ("UUIDSetVar " ++ k ++ ": " ++ err))
    | none =>
      let r := setVarsMulti uuidSetVar callUUID vars
      (.uuidSetVar callUUID k v :: r.1, r.2)

/-- `TransferCustomer`: the commands sent and the error returned. -/
def transferCustomer (inp : CycleInputs) (tenantID userID : Int) (customerCallUUID : String) :
    List EslCommand × Option String :=
  match setVarsMulti inp.uuidSetVar customerCallUUID
      (inp.varOrder (transferVars tenantID userID customerCallUUID)) with
  | (sent, some err) => (sent, some ("conference TransferCustomer: set vars: " ++ err))
  | (sent, none) =>
    let dest := "conference:" ++ conferenceFQN tenantID userID "default" ++ "+flags\x7bjoin-only\x7d"
    (sent ++ [.uuidTransfer customerCallUUID dest],
      inp.uuidTransfer.map fun err => "conference TransferCustomer: uuid_transfer: " ++ err)

def callOffer (ig : InGroup) (call : QueuedCall) (agent : Agent) (offerMs : Int) : CallOffer where
  channel := "t:" ++ toString ig.tenantID ++ ":broadcast:agent:" ++ toString agent.userID
  callUUID := call.callUUID
  ingroupID := ig.id
  ingroupName := ig.name
  callerIDe164 := call.callerIDe164
  didE164 := call.didE164
  waitSeconds := (offerMs - call.enterTs).tdiv 1000

/-- How a cycle ended. `queueEmpty` names the agent for whom a pending callback
is then looked up. -/
inductive CycleEnd
  | lockMissed
  | queueEmpty (agent : Option Int)
  | notLoaded
  | pickFailed
  | noAgent
  | race
  | error (text : String)
  | transferFailed (callUUID : String) (userID : Int) (text : String)
  | dispatched (callUUID : String) (userID : Int)
  deriving DecidableEq, Repr

def publishCallOffer (s : QueueStore) (inp : CycleInputs) (ig : InGroup) (call : QueuedCall)
    (agent : Agent) : QueueStore :=
  if (inp.valkeyFails .publishOffer).isSome then s
  else { s with offers := s.offers ++ [callOffer ig call agent inp.offerMs] }

def writeSticky (s : QueueStore) (inp : CycleInputs) (ig : InGroup) (call : QueuedCall)
    (agent : Agent) : QueueStore :=
  if ig.stickyEnabled ∧ call.callerIDe164 ≠ "" ∧ (inp.valkeyFails .setSticky).isNone then
    { s with stickyAgent :=
        Function.update s.stickyAgent call.callerIDe164 (some (toString agent.userID)) }
  else s

def callerLeaves (s : QueueStore) (inp : CycleInputs) (call : QueuedCall) : QueueStore :=
  if inp.callerHangsUp then { s with hungUp := Function.update s.hungUp call.callUUID true }
  else s

/-- The cycle after the dispatch script has succeeded. -/
def deliver (s : QueueStore) (inp : CycleInputs) (ig : InGroup) (call : QueuedCall)
    (agent : Agent) : CycleEnd × QueueStore :=
  let s := callerLeaves (writeSticky (publishCallOffer s inp ig call agent) inp ig call agent)
    inp call
  match transferCustomer inp call.tenantID agent.userID call.callUUID with
  | (sent, some err) =>
    (.transferFailed call.callUUID agent.userID ("dispatch: TransferCustomer: " ++ err),
      { s with sent := s.sent ++ sent })
  | (sent, none) =>
    (.dispatched call.callUUID agent.userID, { s with sent := s.sent ++ sent })

/-- The cycle while it holds the dispatch lock. -/
def dispatchLocked (s : QueueStore) (inp : CycleInputs) (ig : InGroup) : CycleEnd × QueueStore :=
  match inp.valkeyFails .rangeQueue with
  | some err => (.error ("dispatch: ZRANGEBYSCORE queue: " ++ err), s)
  | none =>
    match (s.calls.queue ig.id).zfirst with
    | none =>
      match pickAgent s inp ig ⟨"", ig.id, ig.tenantID, "", none, 0⟩ with
      | .error _ => (.pickFailed, s)
      | .ok agent => (.queueEmpty (agent.map Agent.userID), s)
    | some callUUID =>
      match loadQueuedCall s inp ig callUUID with
      | .error _ => (.notLoaded, s)
      | .ok call =>
        match pickAgent s inp ig { call with ingroupID := ig.id } with
        | .error _ => (.pickFailed, s)
        | .ok none => (.noAgent, s)
        | .ok (some agent) =>
          match inp.valkeyFails .evalDispatch with
          | some err => (.error ("dispatch: EvalDispatch: queue: evalsha dispatch: " ++ err), s)
          | none =>
            match dispatchInbound s.calls ig.id callUUID agent.userID inp.nowMs with
            | .error _ => (.race, s)
            | .ok calls =>
              deliver { s with calls := calls } inp ig { call with ingroupID := ig.id } agent

def runDispatchCycle (s : QueueStore) (inp : CycleInputs) (ig : InGroup) : CycleEnd × QueueStore :=
  match inp.valkeyFails .setnxLock with
  | some err => (.error ("dispatch: SETNX lock: " ++ err), s)
  | none =>
    if (s.dispatchLock ig.id).isSome then (.lockMissed, s)
    else
      let held :=
        { s with dispatchLock := Function.update s.dispatchLock ig.id (some inp.podID) }
      let r := dispatchLocked held inp ig
      if (inp.valkeyFails .delLock).isSome then r
      else
        (r.1, { r.2 with dispatchLock := Function.update r.2.dispatchLock ig.id none })

def computePriorityBoost (didBoostSec crmRank : Int) (crmEnabled : Bool) : Int :=
  let did := if didBoostSec > 0 then min 600 didBoostSec else 0
  let crm := if crmEnabled ∧ crmRank > 0 then min 300 (crmRank * 30) else 0
  min 900 (did + crm)

/-- `POST /internal/queue/enroll`, for a lead of the given id and rank. -/
def enroll (s : QueueStore) (igid callUUID callerID : String) (now : Int)
    (lead : Option (Int × Int)) : QueueStore :=
  let baseScore := now - computePriorityBoost 0 ((lead.map Prod.snd).getD 0) true * 1000
  { s with calls :=
    { s.calls with
      queue := Function.update s.calls.queue igid ((s.calls.queue igid).zadd callUUID baseScore)
      queueCall := Function.update s.calls.queueCall callUUID (hset (s.calls.queueCall callUUID)
        [("ingroup_id", igid), ("caller_id", callerID), ("enter_ts", toString now),
          ("base_score", toString baseScore), ("overflow_hops", "0"),
          ("lead_id", (lead.map fun l => toString l.1).getD "")]) } }

/-- `POST /internal/queue/hangup` -/
def hangup (s : QueueStore) (callUUID : String) (now : Int) : QueueStore :=
  { s with
    hungUp := Function.update s.hungUp callUUID true
    calls :=
      { s.calls with
        queue :=
          match s.calls.queueCall callUUID "ingroup_id" with
          | some igid => Function.update s.calls.queue igid ((s.calls.queue igid).zrem callUUID)
          | none => s.calls.queue
        queueCall := Function.update s.calls.queueCall callUUID (hset (s.calls.queueCall callUUID)
          [("exit_at", toString now), ("exit_reason", "caller_hangup")]) } }

inductive QueueAction
  | enroll (igid callUUID callerID : String) (now : Int) (lead : Option (Int × Int))
  | hangup (callUUID : String) (now : Int)
  | script (a : CallAction)
  | cycle (inp : CycleInputs) (ig : InGroup)

def queueStep (s : QueueStore) : QueueAction → QueueStore
  | .enroll igid callUUID callerID now lead => enroll s igid callUUID callerID now lead
  | .hangup callUUID now => hangup s callUUID now
  | .script a => { s with calls := runScript s.calls a }
  | .cycle inp ig => (runDispatchCycle s inp ig).2

def ReadyAgain (before after : CallStore) (userID : Int) : Prop :=
  (userID ∈ before.agents.byStatus .ready → userID ∈ after.agents.byStatus .ready) ∧
    (∀ cid, userID ∈ before.agents.byCampaignStatus cid .ready →
      userID ∈ after.agents.byCampaignStatus cid .ready) ∧
    ∀ igid, userID ∈ before.readyAgents igid → userID ∈ after.readyAgents igid

def NobodyStranded (before after : QueueStore) (igid callUUID : String) (userID : Int) : Prop :=
  (callUUID ∈ after.calls.queue igid ∨ after.hungUp callUUID = true) ∧
    ReadyAgain before.calls after.calls userID

theorem loadQueuedCall_callUUID {s : QueueStore} {inp : CycleInputs} {ig : InGroup}
    {callUUID : String} {call : QueuedCall} (h : loadQueuedCall s inp ig callUUID = .ok call) :
    call.callUUID = callUUID := by
  unfold loadQueuedCall at h
  split at h
  · cases h
  · simp only at h
    split at h
    · cases h
    · obtain rfl := Except.ok.inj h
      rfl

theorem deliver_calls (s : QueueStore) (inp : CycleInputs) (ig : InGroup) (call : QueuedCall)
    (agent : Agent) : (deliver s inp ig call agent).2.calls = s.calls := by
  have hoffer : (publishCallOffer s inp ig call agent).calls = s.calls := by
    unfold publishCallOffer
    split <;> rfl
  have hsticky : ∀ s : QueueStore, (writeSticky s inp ig call agent).calls = s.calls := by
    intro s
    unfold writeSticky
    split <;> rfl
  have hleaves : ∀ s : QueueStore, (callerLeaves s inp call).calls = s.calls := by
    intro s
    unfold callerLeaves
    split <;> rfl
  unfold deliver
  split <;> simp only [hleaves, hsticky, hoffer]

theorem deliver_transferFailed {s s' : QueueStore} {inp : CycleInputs} {ig : InGroup}
    {call : QueuedCall} {agent : Agent} {callUUID text : String} {userID : Int}
    (h : deliver s inp ig call agent = (.transferFailed callUUID userID text, s')) :
    call.callUUID = callUUID ∧ agent.userID = userID ∧ s'.calls = s.calls := by
  have hcalls := deliver_calls s inp ig call agent
  rw [h] at hcalls
  unfold deliver at h
  split at h
  · simp only [Prod.mk.injEq, CycleEnd.transferFailed.injEq] at h
    exact ⟨h.1.1, h.1.2.1, hcalls⟩
  · simp at h

theorem dispatchLocked_transferFailed {s s' : QueueStore} {inp : CycleInputs} {ig : InGroup}
    {callUUID text : String} {userID : Int}
    (h : dispatchLocked s inp ig = (.transferFailed callUUID userID text, s')) :
    dispatchInbound s.calls ig.id callUUID userID inp.nowMs = .ok s'.calls := by
  unfold dispatchLocked at h
  split at h
  · simp at h
  split at h
  · split at h <;> simp at h
  split at h
  · simp at h
  next call hcall =>
    split at h
    · simp at h
    · simp at h
    split at h
    · simp at h
    split at h
    · simp at h
    next calls hd =>
      obtain ⟨hc, hu, hs⟩ := deliver_transferFailed h
      rw [← hc, ← hu, hs, loadQueuedCall_callUUID hcall]
      exact hd

/-- What a cycle that failed in the transfer leaves behind is what the dispatch
script wrote. -/
theorem runDispatchCycle_transferFailed {s s' : QueueStore} {inp : CycleInputs} {ig : InGroup}
    {callUUID text : String} {userID : Int}
    (h : runDispatchCycle s inp ig = (.transferFailed callUUID userID text, s')) :
    dispatchInbound s.calls ig.id callUUID userID inp.nowMs = .ok s'.calls := by
  unfold runDispatchCycle at h
  split at h
  · simp at h
  split at h
  · simp at h
  simp only at h
  let held := { s with dispatchLock := Function.update s.dispatchLock ig.id (some inp.podID) }
  split at h
  · have hd : dispatchLocked held inp ig = (.transferFailed callUUID userID text, s') := h
    have hscript := dispatchLocked_transferFailed hd
    exact hscript
  · obtain ⟨he, rfl⟩ := Prod.mk.inj h
    have hd : dispatchLocked held inp ig =
        (.transferFailed callUUID userID text, (dispatchLocked held inp ig).2) := Prod.ext he rfl
    have hscript := dispatchLocked_transferFailed hd
    exact hscript

theorem failed_transfer_strands_agent {s s' : QueueStore} {inp : CycleInputs} {ig : InGroup}
    {callUUID text : String} {userID : Int}
    (h : runDispatchCycle s inp ig = (.transferFailed callUUID userID text, s')) :
    ¬ NobodyStranded s s' ig.id callUUID userID := by
  rintro ⟨-, hready, -, -⟩
  obtain ⟨hbefore, hmove⟩ := dispatchInbound_ok (runDispatchCycle_transferFailed h)
  have hafter := hready hbefore
  rw [hmove, mem_moveStatus] at hafter
  rcases hafter with ⟨-, he⟩ | ⟨-, hne⟩
  · cases he
  · exact hne rfl rfl

def supportGroup : InGroup := ⟨1, "support", "Support", .longestIdle, false, []⟩

/-- A cycle in which FreeSWITCH no longer knows the channel. -/
def noSuchChannel : CycleInputs :=
  ⟨"pod-1", fun _ => none, 5000, 5000, fun _ => none, id, fun _ => none, some "-ERR No such channel",
    false⟩

/-- Agent 7 is READY for campaign 42 and for the in-group, where a call waits. -/
def callerWaiting : QueueStore :=
  [.script (.transition 42 7 .paused none .ready 1000 []),
    .script (.ingroup "support" ∅ (ZSet.zadd ∅ 7 1000)),
    .enroll "support" "in-1" "+15550100" 4000 none].foldl queueStep QueueStore.empty

theorem noSuchChannel_strands_agent :
    runDispatchCycle callerWaiting noSuchChannel supportGroup =
        (.transferFailed "in-1" 7 ("dispatch: TransferCustomer: conference TransferCustomer: " ++
          "uuid_transfer: -ERR No such channel"),
          (runDispatchCycle callerWaiting noSuchChannel supportGroup).2) ∧
      ¬ NobodyStranded callerWaiting (runDispatchCycle callerWaiting noSuchChannel supportGroup).2
        "support" "in-1" 7 :=
  have h : runDispatchCycle callerWaiting noSuchChannel supportGroup =
      (.transferFailed "in-1" 7 ("dispatch: TransferCustomer: conference TransferCustomer: " ++
        "uuid_transfer: -ERR No such channel"),
        (runDispatchCycle callerWaiting noSuchChannel supportGroup).2) :=
    Prod.ext (by decide +kernel) rfl
  ⟨h, failed_transfer_strands_agent h⟩

theorem caller_and_agent_stranded :
    (runDispatchCycle callerWaiting noSuchChannel supportGroup).1 =
        .transferFailed "in-1" 7 ("dispatch: TransferCustomer: conference TransferCustomer: " ++
          "uuid_transfer: -ERR No such channel") ∧
      ¬ NobodyStranded callerWaiting (runDispatchCycle callerWaiting noSuchChannel supportGroup).2
        "support" "in-1" 7 := by
  refine ⟨by decide +kernel, ?_⟩
  rintro ⟨hcall | hcall, -⟩
  · exact absurd hcall (by decide +kernel)
  · exact absurd hcall (by decide +kernel)

end Queue

end Vici2
