import Mathlib.Data.Finmap
import Mathlib.Logic.Function.Basic

/-! Gateway slots: an active-call counter per gateway and an in-flight HASH per
call uuid, moved by `originate_acquire` and `originate_release`. The time to
live of a HASH is recorded, its expiry is left to whoever runs the store. -/

namespace Vici2

namespace Gateway

structure InFlightCall where
  callUUID : String
  leadID : Int
  campaignID : Int
  gatewayID : Int
  startedAt : Int
  ttlSec : Int
  deriving DecidableEq, Repr

structure GatewayStore where
  active : Int → Option Int
  inFlight : Finmap fun _ : String => InFlightCall

def GatewayStore.empty : GatewayStore := ⟨fun _ => none, ∅⟩

def GatewayStore.activeCount (s : GatewayStore) (gatewayID : Int) : Int :=
  (s.active gatewayID).getD 0

inductive ScriptReply
  | ok (active : Int)
  | gatewayLimit (active : Int)
  | noop (active : Int)
  deriving DecidableEq, Repr

def originateAcquire (s : GatewayStore) (maxConcurrent : Int) (callUUID : String)
    (leadID campaignID gatewayID tsMs ttlSec : Int) : ScriptReply × GatewayStore :=
  if maxConcurrent ≤ s.activeCount gatewayID then
    (.gatewayLimit (s.activeCount gatewayID), s)
  else
    let newActive := s.activeCount gatewayID + 1
    (.ok newActive,
      { active := Function.update s.active gatewayID (some newActive)
        inFlight := s.inFlight.insert callUUID
          ⟨callUUID, leadID, campaignID, gatewayID, tsMs, ttlSec⟩ })

/-- `originate_release.v1.lua`; the counter key is the releaser's, not the
gateway recorded in the HASH. -/
def originateRelease (s : GatewayStore) (gatewayID : Int) (callUUID : String) :
    ScriptReply × GatewayStore :=
  match s.inFlight.lookup callUUID with
  | none => (.noop (s.activeCount gatewayID), s)
  | some call =>
    if call.callUUID ≠ callUUID then
      (.noop (s.activeCount gatewayID), s)
    else
      let newActive := if s.activeCount gatewayID ≤ 0 then 0 else s.activeCount gatewayID - 1
      (.ok newActive,
        { active := Function.update s.active gatewayID (some newActive)
          inFlight := s.inFlight.erase callUUID })

structure AcquireResult where
  allowed : Bool
  newActiveCount : Int
  deriving DecidableEq, Repr

def errGatewayLimit : String := "valkey: gateway concurrent-call cap reached"

def defaultInFlightTTLSec : Int := 60

def acquire (s : GatewayStore) (gatewayID campaignID leadID : Int) (callUUID : String)
    (maxConcurrent tsMs inFlightTTLSec : Int) : (AcquireResult × Option String) × GatewayStore :=
  match originateAcquire s maxConcurrent callUUID leadID campaignID gatewayID tsMs
      (if inFlightTTLSec ≤ 0 then defaultInFlightTTLSec else inFlightTTLSec) with
  | (.ok n, s') => ((⟨true, n⟩, none), s')
  | (.gatewayLimit n, s') => ((⟨false, n⟩, some errGatewayLimit), s')
  | (.noop n, s') => ((⟨false, n⟩, some errGatewayLimit), s')

def release (s : GatewayStore) (gatewayID : Int) (callUUID : String) :
    (Bool × Int) × GatewayStore :=
  match originateRelease s gatewayID callUUID with
  | (.ok n, s') => ((true, n), s')
  | (.gatewayLimit n, s') => ((false, n), s')
  | (.noop n, s') => ((false, n), s')

theorem acquire_limit {s : GatewayStore} {gatewayID maxConcurrent : Int}
    (h : maxConcurrent ≤ s.activeCount gatewayID) (campaignID leadID : Int) (callUUID : String)
    (tsMs ttl : Int) :
    acquire s gatewayID campaignID leadID callUUID maxConcurrent tsMs ttl =
      ((⟨false, s.activeCount gatewayID⟩, some errGatewayLimit), s) := by
  unfold acquire originateAcquire
  rw [if_pos h]

theorem acquire_allowed {s : GatewayStore} {gatewayID maxConcurrent : Int}
    (h : s.activeCount gatewayID < maxConcurrent) (campaignID leadID : Int) (callUUID : String)
    (tsMs ttl : Int) :
    acquire s gatewayID campaignID leadID callUUID maxConcurrent tsMs ttl =
      ((⟨true, s.activeCount gatewayID + 1⟩, none),
        { active := Function.update s.active gatewayID (some (s.activeCount gatewayID + 1))
          inFlight := s.inFlight.insert callUUID ⟨callUUID, leadID, campaignID, gatewayID, tsMs,
            if ttl ≤ 0 then defaultInFlightTTLSec else ttl⟩ }) := by
  unfold acquire originateAcquire
  rw [if_neg (not_le.mpr h)]

theorem activeCount_update (active : Int → Option Int) (inFlight : Finmap fun _ : String => InFlightCall)
    (g n g' : Int) :
    (GatewayStore.mk (Function.update active g (some n)) inFlight).activeCount g' =
      if g' = g then n else (active g').getD 0 := by
  by_cases hg : g' = g
  · subst hg
    simp [GatewayStore.activeCount]
  · simp [GatewayStore.activeCount, hg]

end Gateway

end Vici2
