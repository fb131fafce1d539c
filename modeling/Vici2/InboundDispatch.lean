import Vici2.AgentIndex
import Vici2.Runs

/-! Calls handed to agents, inbound by `dispatch_inbound` and outbound by
`pick_agent_for_call`. The inbound script takes an agent out of the global READY
set and leaves it in the READY set of its campaign, which is the one that the
outbound script reads. -/

namespace Vici2

namespace Agents

inductive DispatchError
  | callNotInQueue
  | agentNotReady
  deriving DecidableEq, Repr

/-- The agent store with the queues and ready agents of the in-groups, and the
HASHes of the queued calls. -/
structure CallStore where
  agents : AgentStore
  queue : String → ZSet String Int
  readyAgents : String → ZSet Int Int
  queueCall : String → Hash

def CallStore.empty : CallStore := ⟨AgentStore.empty, fun _ => ∅, fun _ => ∅, fun _ _ => none⟩

/-- `dispatch_inbound.v1.lua` -/
def dispatchInbound (s : CallStore) (igid callUUID : String) (userID nowMs : Int) :
    Except DispatchError CallStore :=
  if callUUID ∉ s.queue igid then .error .callNotInQueue
  else if userID ∉ s.agents.byStatus .ready then .error .agentNotReady
  else .ok
    { agents :=
        { agent := Function.update s.agents.agent userID (hset (s.agents.agent userID)
            [("status", AgentStatus.inCall.text), ("call_uuid", callUUID), ("ingroup_id", igid),
              ("incall_since", toString nowMs)])
          byStatus := moveStatus s.agents.byStatus .ready .inCall userID nowMs
          byCampaignStatus := s.agents.byCampaignStatus }
      queue := Function.update s.queue igid ((s.queue igid).zrem callUUID)
      readyAgents := Function.update s.readyAgents igid ((s.readyAgents igid).zrem userID)
      queueCall := Function.update s.queueCall callUUID (hset (s.queueCall callUUID)
        [("dispatch_at", toString nowMs), ("dispatch_user_id", toString userID)]) }

/-- A script run of some pod, or a change of an in-group's queue and ready
agents by another part of the system. -/
inductive CallAction
  | dispatch (igid callUUID : String) (userID nowMs : Int)
  | pick (cid : Int) (callUUID : String) (tsMs : Int)
  | transition (cid userID : Int) (old : AgentStatus) (expectedStatus : Option AgentStatus)
      (newStatus : AgentStatus) (tsMs : Int) (extra : List String)
  | ingroup (igid : String) (queue : ZSet String Int) (readyAgents : ZSet Int Int)

def given (s : CallStore) : CallAction → Option (Int × String)
  | .dispatch igid callUUID userID nowMs =>
    match dispatchInbound s igid callUUID userID nowMs with
    | .ok _ => some (userID, callUUID)
    | .error _ => none
  | .pick cid callUUID tsMs =>
    (pickAgentForCall s.agents cid callUUID tsMs).1.map fun userID => (userID, callUUID)
  | .transition .. => none
  | .ingroup .. => none

def runScript (s : CallStore) : CallAction → CallStore
  | .dispatch igid callUUID userID nowMs =>
    match dispatchInbound s igid callUUID userID nowMs with
    | .ok s' => s'
    | .error _ => s
  | .pick cid callUUID tsMs =>
    { s with agents := (pickAgentForCall s.agents cid callUUID tsMs).2 }
  | .transition cid userID old expectedStatus newStatus tsMs extra =>
    { s with agents :=
        (agentStateTransition s.agents cid userID old expectedStatus newStatus tsMs extra).2 }
  | .ingroup igid queue readyAgents =>
    { s with
      queue := Function.update s.queue igid queue
      readyAgents := Function.update s.readyAgents igid readyAgents }

def madeReady (s : CallStore) : CallAction → Option Int
  | .transition cid userID old expectedStatus .ready tsMs extra =>
    if (agentStateTransition s.agents cid userID old expectedStatus .ready tsMs extra).1 then
      some userID
    else none
  | _ => none

/-- The store, and the call each agent was given since it was last made READY. -/
structure CallWorld where
  store : CallStore
  holding : Int → Option String

def callStep (w : CallWorld) (a : CallAction) : CallWorld where
  store := runScript w.store a
  holding :=
    match given w.store a, madeReady w.store a with
    | some (userID, callUUID), _ => Function.update w.holding userID (some callUUID)
    | none, some userID => Function.update w.holding userID none
    | none, none => w.holding

def GivenToFree (w : CallWorld) (a : CallAction) : Prop :=
  ∀ g ∈ given w.store a, w.holding g.1 = none

instance (w : CallWorld) (a : CallAction) : Decidable (GivenToFree w a) :=
  inferInstanceAs (Decidable (∀ g ∈ given w.store a, w.holding g.1 = none))

/-- The agent that an outbound pick finds first is in the global READY set too. -/
def PicksGloballyReady (w : CallWorld) : CallAction → Prop
  | .pick cid _ _ => ∀ u ∈ (w.store.agents.byCampaignStatus cid .ready).zfirst,
      u ∈ w.store.agents.byStatus .ready
  | _ => True

instance (w : CallWorld) : (a : CallAction) → Decidable (PicksGloballyReady w a)
  | .pick cid _ _ => inferInstanceAs (Decidable
      (∀ u ∈ (w.store.agents.byCampaignStatus cid .ready).zfirst,
        u ∈ w.store.agents.byStatus .ready))
  | .dispatch .. => inferInstanceAs (Decidable True)
  | .transition .. => inferInstanceAs (Decidable True)
  | .ingroup .. => inferInstanceAs (Decidable True)

def HoldersNotReady (w : CallWorld) : Prop :=
  ∀ u, w.holding u ≠ none → u ∉ w.store.agents.byStatus .ready

theorem dispatchInbound_ok {s s' : CallStore} {igid callUUID : String} {userID nowMs : Int}
    (h : dispatchInbound s igid callUUID userID nowMs = .ok s') :
    userID ∈ s.agents.byStatus .ready ∧
      s'.agents.byStatus = moveStatus s.agents.byStatus .ready .inCall userID nowMs := by
  unfold dispatchInbound at h
  split at h
  · cases h
  · split at h
    · cases h
    · next hready =>
      obtain rfl := Except.ok.inj h
      exact ⟨not_not.1 hready, rfl⟩

theorem agentStateTransition_accepted {s : AgentStore} {userID : Int}
    {expected : Option AgentStatus} (cid : Int) (old new : AgentStatus) (tsMs : Int)
    (extra : List String)
    (h : ¬ (expected.isSome ∧ s.agent userID "status" ≠ expected.map AgentStatus.text)) :
    (agentStateTransition s cid userID old expected new tsMs extra).1 = true ∧
      (agentStateTransition s cid userID old expected new tsMs extra).2.byStatus =
        moveStatus s.byStatus old new userID tsMs := by
  unfold agentStateTransition
  rw [if_neg h]
  exact ⟨rfl, rfl⟩

theorem given_some {w : CallWorld} {a : CallAction} {userID : Int} {callUUID : String}
    (hpick : PicksGloballyReady w a) (h : given w.store a = some (userID, callUUID)) :
    userID ∈ w.store.agents.byStatus .ready ∧
      ∀ u, u ∈ (runScript w.store a).agents.byStatus .ready ↔
        u ∈ w.store.agents.byStatus .ready ∧ u ≠ userID := by
  have hmoved : ∀ (new : AgentStatus) (tsMs u : Int), new ≠ .ready →
      (u ∈ moveStatus w.store.agents.byStatus .ready new userID tsMs .ready ↔
        u ∈ w.store.agents.byStatus .ready ∧ u ≠ userID) := by
    intro new tsMs u hnew
    rw [mem_moveStatus]
    constructor
    · rintro (⟨-, he⟩ | ⟨hu, hne⟩)
      · exact absurd he.symm hnew
      · exact ⟨hu, fun he => hne he rfl⟩
    · rintro ⟨hu, hne⟩
      exact Or.inr ⟨hu, fun he => absurd he hne⟩
  cases a with
  | dispatch igid call user nowMs =>
    cases hd : dispatchInbound w.store igid call user nowMs with
    | error e => simp [given, hd] at h
    | ok s' =>
      obtain ⟨hready, hmove⟩ := dispatchInbound_ok hd
      simp only [given, hd, Option.some.injEq, Prod.mk.injEq] at h
      obtain ⟨rfl, rfl⟩ := h
      refine ⟨hready, ?_⟩
      intro u
      simp only [runScript, hd, hmove]
      exact hmoved .inCall nowMs u (by decide)
  | pick cid call tsMs =>
    cases hz : (w.store.agents.byCampaignStatus cid .ready).zfirst with
    | none => simp [given, pickAgentForCall, hz] at h
    | some user =>
      simp only [given, pickAgentForCall, hz, Option.map_some, Option.some.injEq,
        Prod.mk.injEq] at h
      obtain ⟨rfl, rfl⟩ := h
      refine ⟨hpick user hz, ?_⟩
      intro u
      simp only [runScript, pickAgentForCall, hz]
      exact hmoved .reserved tsMs u (by decide)
  | transition cid user old expected new tsMs extra => cases h
  | ingroup igid queue ready => cases h

theorem mem_ready_of_given_none {w : CallWorld} {a : CallAction} (h : given w.store a = none)
    {u : Int} (hu : u ∈ (runScript w.store a).agents.byStatus .ready) :
    madeReady w.store a = some u ∨ u ∈ w.store.agents.byStatus .ready := by
  cases a with
  | dispatch igid call user nowMs =>
    cases hd : dispatchInbound w.store igid call user nowMs with
    | error e =>
      simp only [runScript, hd] at hu
      exact Or.inr hu
    | ok s' => simp [given, hd] at h
  | pick cid call tsMs =>
    cases hz : (w.store.agents.byCampaignStatus cid .ready).zfirst with
    | none =>
      simp only [runScript, pickAgentForCall, hz] at hu
      exact Or.inr hu
    | some user => simp [given, pickAgentForCall, hz] at h
  | transition cid user old expected new tsMs extra =>
    by_cases hrefused : expected.isSome ∧
        w.store.agents.agent user "status" ≠ expected.map AgentStatus.text
    · simp only [runScript, agentStateTransition_refused hrefused] at hu
      exact Or.inr hu
    · obtain ⟨htrue, hmove⟩ := agentStateTransition_accepted cid old new tsMs extra hrefused
      simp only [runScript, hmove] at hu
      rcases mem_moveStatus.1 hu with ⟨rfl, rfl⟩ | ⟨hold, -⟩
      · left
        show (if _ then some u else none) = some u
        rw [if_pos htrue]
      · exact Or.inr hold
  | ingroup igid queue ready => exact Or.inr hu

theorem HoldersNotReady.callStep {w : CallWorld} {a : CallAction} (hw : HoldersNotReady w)
    (hpick : PicksGloballyReady w a) : HoldersNotReady (callStep w a) := by
  intro u hholding hready
  cases hg : given w.store a with
  | some g =>
    obtain ⟨userID, callUUID⟩ := g
    have hmem := ((given_some hpick hg).2 u).1 hready
    simp only [Agents.callStep, hg, Function.update_of_ne hmem.2] at hholding
    exact hw u hholding hmem.1
  | none =>
    cases hm : madeReady w.store a with
    | none =>
      simp only [Agents.callStep, hg, hm] at hholding
      rcases mem_ready_of_given_none hg hready with h | h
      · rw [hm] at h
        cases h
      · exact hw u hholding h
    | some user =>
      simp only [Agents.callStep, hg, hm] at hholding
      by_cases hu : u = user
      · rw [hu, Function.update_self] at hholding
        exact hholding rfl
      · rw [Function.update_of_ne hu] at hholding
        rcases mem_ready_of_given_none hg hready with h | h
        · rw [hm] at h
          exact hu (Option.some.inj h).symm
        · exact hw u hholding h

theorem HoldersNotReady.givenToFree {w : CallWorld} {a : CallAction} (hw : HoldersNotReady w)
    (hpick : PicksGloballyReady w a) : GivenToFree w a := by
  rintro ⟨userID, callUUID⟩ hg
  by_contra hholding
  exact hw userID hholding (given_some hpick hg).1

theorem one_call_per_agent (s : CallStore) {l : List CallAction}
    (hl : EachStep callStep PicksGloballyReady ⟨s, fun _ => none⟩ l) :
    EachStep callStep GivenToFree ⟨s, fun _ => none⟩ l := by
  apply eachStep_of_invariant (fun w a hw ha => HoldersNotReady.callStep hw ha)
    (fun w a hw ha => HoldersNotReady.givenToFree hw ha) _ hl
  intro u hholding
  exact absurd rfl hholding

/-- Agent 7 becomes READY for campaign 42, and a call waits in an in-group it serves. -/
def waitingCaller : List CallAction :=
  [.transition 42 7 .paused none .ready 1000 [],
    .ingroup "support" (ZSet.zadd ∅ "in-1" 1500) (ZSet.zadd ∅ 7 1000)]

theorem ready_again_before_pick :
    EachStep callStep GivenToFree ⟨CallStore.empty, fun _ => none⟩ (waitingCaller ++
      [.dispatch "support" "in-1" 7 2000, .transition 42 7 .inCall (some .inCall) .ready 9000 [],
        .pick 42 "out-1" 9500]) :=
  one_call_per_agent CallStore.empty (by decide)

theorem inbound_agent_picked_again :
    ¬ EachStep callStep GivenToFree ⟨CallStore.empty, fun _ => none⟩ (waitingCaller ++
      [.dispatch "support" "in-1" 7 2000, .pick 42 "out-1" 2500]) := by
  decide

end Agents

end Vici2
