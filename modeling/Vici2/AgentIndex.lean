import Mathlib.Logic.Function.Basic
import Vici2.SortedSets

/-! The agent store: one HASH per agent and the `by_status` sorted sets, global
and per campaign, with the two Lua scripts that move agents between them and
the Go wrappers that call the scripts. -/

namespace Vici2

namespace Agents

inductive AgentStatus
  | ready
  | paused
  | inCall
  | reserved
  | wrapup
  | logout
  deriving DecidableEq, Repr

def AgentStatus.text : AgentStatus → String
  | .ready => "READY"
  | .paused => "PAUSED"
  | .inCall => "INCALL"
  | .reserved => "RESERVED"
  | .wrapup => "WRAPUP"
  | .logout => "LOGOUT"

abbrev Hash := String → Option String

def hset (h : Hash) (pairs : List (String × String)) : Hash :=
  pairs.foldl (fun h p => Function.update h p.1 (some p.2)) h

/-- The flat argument list of an `HSET`, taken two at a time. -/
def pairsOf : List String → List (String × String)
  | f :: v :: rest => (f, v) :: pairsOf rest
  | _ => []

/-- The keys of one tenant. An agent without fields has no HASH. -/
structure AgentStore where
  agent : Int → Hash
  byStatus : AgentStatus → ZSet Int Int
  byCampaignStatus : Int → AgentStatus → ZSet Int Int

def AgentStore.empty : AgentStore := ⟨fun _ _ => none, fun _ => ∅, fun _ _ => ∅⟩

def moveStatus (z : AgentStatus → ZSet Int Int) (old new : AgentStatus) (userID tsMs : Int) :
    AgentStatus → ZSet Int Int :=
  let z := Function.update z old ((z old).zrem userID)
  Function.update z new ((z new).zadd userID tsMs)

theorem mem_moveStatus {z : AgentStatus → ZSet Int Int} {old new st : AgentStatus}
    {userID tsMs u : Int} :
    u ∈ moveStatus z old new userID tsMs st ↔
      (u = userID ∧ st = new) ∨ (u ∈ z st ∧ (u = userID → st ≠ old)) := by
  simp only [moveStatus]
  by_cases hn : st = new
  · subst st
    by_cases ho : new = old
    · subst old
      by_cases hu : u = userID <;> simp [hu]
    · by_cases hu : u = userID <;> simp [hu, ho]
  · by_cases ho : st = old
    · subst st
      by_cases hu : u = userID <;> simp [hu, hn]
    · simp [hn, ho]

/-- `agent_state_transition.v1.lua`; the script names the old sets by `old`. -/
def agentStateTransition (s : AgentStore) (cid userID : Int) (old : AgentStatus)
    (expectedStatus : Option AgentStatus) (newStatus : AgentStatus) (tsMs : Int)
    (extra : List String) : Bool × AgentStore :=
  if expectedStatus.isSome ∧ s.agent userID "status" ≠ expectedStatus.map AgentStatus.text then
    (false, s)
  else
    (true,
      { agent := Function.update s.agent userID (hset (s.agent userID)
          (("status", newStatus.text) :: ("last_change_at", toString tsMs) :: pairsOf extra))
        byStatus := moveStatus s.byStatus old newStatus userID tsMs
        byCampaignStatus := Function.update s.byCampaignStatus cid
          (moveStatus (s.byCampaignStatus cid) old newStatus userID tsMs) })

def pickAgentForCall (s : AgentStore) (cid : Int) (callUUID : String) (tsMs : Int) :
    Option Int × AgentStore :=
  match (s.byCampaignStatus cid .ready).zfirst with
  | none => (none, s)
  | some userID =>
    (some userID,
      { agent := Function.update s.agent userID (hset (s.agent userID)
          [("status", AgentStatus.reserved.text), ("call_uuid", callUUID),
            ("last_change_at", toString tsMs)])
        byStatus := moveStatus s.byStatus .ready .reserved userID tsMs
        byCampaignStatus := Function.update s.byCampaignStatus cid
          (moveStatus (s.byCampaignStatus cid) .ready .reserved userID tsMs) })

/-- The status whose sets the wrapper hands over as the old ones. -/
def oldStatus (expectedStatus : Option AgentStatus) (newStatus : AgentStatus) : AgentStatus :=
  expectedStatus.getD newStatus

def transition (s : AgentStore) (cid userID : Int) (expectedStatus : Option AgentStatus)
    (newStatus : AgentStatus) (nowMs : Int) (extra : List String) :
    Except String Bool × AgentStore :=
  if extra.length % 2 ≠ 0 then
    (.error ("valkey: Transition extra must be even-length, got " ++ toString extra.length), s)
  else
    let r := agentStateTransition s cid userID (oldStatus expectedStatus newStatus)
      expectedStatus newStatus nowMs extra
    (.ok r.1, r.2)

def setState (s : AgentStore) (cid userID : Int) (status : AgentStatus) (nowMs : Int)
    (extra : List String) : Except String Unit × AgentStore :=
  match transition s cid userID none status nowMs extra with
  | (.error e, s') => (.error e, s')
  | (.ok true, s') => (.ok (), s')
  | (.ok false, s') => (.error ("valkey: SetState refused for user " ++ toString userID), s')

/-- `PickForCall`; `0` stands for no agent. -/
def pickForCall (s : AgentStore) (cid : Int) (callUUID : String) (nowMs : Int) :
    Int × AgentStore :=
  let r := pickAgentForCall s cid callUUID nowMs
  (r.1.getD 0, r.2)

theorem hset_cons (h : Hash) (p : String × String) (l : List (String × String)) :
    hset h (p :: l) = hset (Function.update h p.1 (some p.2)) l := rfl

theorem hset_apply (h : Hash) (l : List (String × String)) (f : String) :
    hset h l f = (hset (fun _ => none) l f).or (h f) := by
  induction l generalizing h with
  | nil => simp [hset]
  | cons p l ih =>
    rw [hset_cons, hset_cons, ih, ih (Function.update (fun _ => none) p.1 (some p.2)), Option.or_assoc]
    by_cases hf : f = p.1
    · subst f; simp
    · simp [hf]

theorem agentStateTransition_refused {s : AgentStore} {cid userID : Int} {old new : AgentStatus}
    {expected : Option AgentStatus} {tsMs : Int} {extra : List String}
    (h : expected.isSome ∧ s.agent userID "status" ≠ expected.map AgentStatus.text) :
    agentStateTransition s cid userID old expected new tsMs extra = (false, s) := by
  unfold agentStateTransition
  rw [if_pos h]

end Agents

end Vici2
