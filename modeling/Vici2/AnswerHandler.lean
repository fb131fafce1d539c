import Mathlib.Data.Finset.Basic
import Vici2.AgentIndex
import Vici2.Originate

/-! The answer handlers: one per campaign and pod, each reading the stream of
answered calls through the consumer group of its pod. A group delivers every
entry to one of its consumers and keeps what they acknowledged; a handler works
through its batch message by message. -/

namespace Vici2

namespace Answer

open Agents (AgentStore)

structure AnsweredEvent where
  callUUID : String
  campaignID : Int
  tenantID : Int
  leadID : Int
  mode : String
  tsMs : Int
  fsHost : String
  deriving DecidableEq, Repr

structure AnswerHandler where
  campaignID : Int
  tenantID : Int
  podID : String
  deriving DecidableEq, Repr

def AnswerHandler.groupName (h : AnswerHandler) : String := "picker-" ++ h.podID

/-- The handlers `startWorkers` runs: a pod has at most one per campaign. -/
structure Deployment where
  handlers : Finset AnswerHandler
  one_per_campaign : ∀ h ∈ handlers, ∀ h' ∈ handlers, h.podID = h'.podID →
    h.campaignID = h'.campaignID → h = h'

inductive AnswerOutcome
  | paired (agentID : Int) (dest : String)
  | dropped (reason : String)
  deriving DecidableEq, Repr

def releaseReservation (s : AgentStore) (campaignID agentID nowMs : Int) : AgentStore :=
  (Agents.transition s campaignID agentID (some .reserved) .ready nowMs []).2

/-- `handleAnswer`: an agent is picked and the call transferred, or the call is
dropped. -/
def handleAnswer (s : AgentStore) (h : AnswerHandler) (ev : AnsweredEvent) (nowMs : Int)
    (transferOk : Bool) : AnswerOutcome × AgentStore :=
  let r := Agents.pickForCall s h.campaignID ev.callUUID nowMs
  if r.1 = 0 then (.dropped "no_agent", r.2)
  else if transferOk then
    (.paired r.1 ("conference:" ++ Originate.conferenceFQN h.tenantID r.1 "default" ++
      "+flags\x7bjoin-only\x7d"), r.2)
  else (.dropped "agent_transfer_failed", releaseReservation r.2 h.campaignID r.1 nowMs)

structure ConsumerGroup where
  cursor : Nat
  acked : List Nat

structure AnswerWorld where
  stream : List AnsweredEvent
  groups : String → ConsumerGroup
  batch : AnswerHandler → List Nat
  headHandled : AnswerHandler → Bool
  handled : List (AnswerHandler × Nat)
  outcomes : List AnswerOutcome
  agents : AgentStore

def AnswerWorld.init (agents : AgentStore) : AnswerWorld where
  stream := []
  groups := fun _ => ⟨0, []⟩
  batch := fun _ => []
  headHandled := fun _ => false
  handled := []
  outcomes := []
  agents := agents

def AnswerHandler.Owns (h : AnswerHandler) (ev : AnsweredEvent) : Prop :=
  ev.campaignID = h.campaignID ∧ ev.mode = Originate.OriginateMode.predictive.text

instance (h : AnswerHandler) (ev : AnsweredEvent) : Decidable (h.Owns ev) :=
  inferInstanceAs (Decidable (_ ∧ _))

def batchCount : Nat := 10

inductive AnswerAction
  | emit (ev : AnsweredEvent)
  | read (h : AnswerHandler)
  | handle (h : AnswerHandler) (nowMs : Int) (transferOk : Bool)
  | ack (h : AnswerHandler)

/-- `XREADGROUP … COUNT 10 STREAMS … >` of an idle handler. -/
def AnswerWorld.readBatch (w : AnswerWorld) (h : AnswerHandler) : AnswerWorld :=
  let g := w.groups h.groupName
  let n := min batchCount (w.stream.length - g.cursor)
  { w with
    groups := Function.update w.groups h.groupName { g with cursor := g.cursor + n }
    batch := Function.update w.batch h (List.range' g.cursor n) }

def AnswerWorld.handleHead (w : AnswerWorld) (h : AnswerHandler) (i : Nat) (ev : AnsweredEvent)
    (nowMs : Int) (transferOk : Bool) : AnswerWorld :=
  let r := handleAnswer w.agents h ev nowMs transferOk
  { w with
    headHandled := Function.update w.headHandled h true
    handled := (h, i) :: w.handled
    outcomes := r.1 :: w.outcomes
    agents := r.2 }

def AnswerWorld.ackHead (w : AnswerWorld) (h : AnswerHandler) (i : Nat) (rest : List Nat) :
    AnswerWorld :=
  let g := w.groups h.groupName
  { w with
    groups := Function.update w.groups h.groupName { g with acked := i :: g.acked }
    batch := Function.update w.batch h rest
    headHandled := Function.update w.headHandled h false }

def step (d : Deployment) (w : AnswerWorld) : AnswerAction → AnswerWorld
  | .emit ev => { w with stream := w.stream ++ [ev] }
  | .read h => if h ∈ d.handlers ∧ w.batch h = [] then w.readBatch h else w
  | .handle h nowMs transferOk =>
    match w.batch h with
    | [] => w
    | i :: _ =>
      match w.stream[i]? with
      | none => w
      | some ev =>
        if h.Owns ev ∧ w.headHandled h = false then w.handleHead h i ev nowMs transferOk else w
  | .ack h =>
    match w.batch h with
    | [] => w
    | i :: rest =>
      match w.stream[i]? with
      | none => w
      | some ev => if h.Owns ev ∧ w.headHandled h = false then w else w.ackHead h i rest

end Answer

end Vici2
