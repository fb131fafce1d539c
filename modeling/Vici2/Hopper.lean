import Mathlib.Data.Rat.Defs
import Mathlib.Algebra.Order.Ring.Rat
import Mathlib.Logic.Function.Basic
import Vici2.SortedSets

/-! The hopper of one campaign: the sorted set of leads to dial, a lock with a
time to live per claimed lead, and the `in_flight` HASH. The two scripts run
atomically; the Go wrappers check their arguments and pass them on. -/

namespace Vici2

namespace Hopper

structure LeadLock where
  val : String
  ttlSec : Int
  deriving DecidableEq, Repr

structure HopperStore where
  hopper : ZSet Int ℚ
  lock : Int → Option LeadLock
  inFlight : Int → Option String

def HopperStore.empty : HopperStore := ⟨∅, fun _ => none, fun _ => none⟩

def claimLeadFromHopper (s : HopperStore) (ttlSec : Int) (instanceID : String) (nowMs : Int) :
    Option Int × HopperStore :=
  match s.hopper.zpopmin with
  | none => (none, s)
  | some ((leadID, score), rest) =>
    let lockVal := instanceID ++ ":" ++ toString nowMs
    match s.lock leadID with
    | some _ => (none, { s with hopper := rest.zadd leadID score })
    | none =>
      (some leadID,
        { hopper := rest
          lock := Function.update s.lock leadID (some ⟨lockVal, ttlSec⟩)
          inFlight := Function.update s.inFlight leadID (some lockVal) })

/-- `release_hopper_lock.v1.lua`: refused only by a lock with another value. -/
def releaseHopperLock (s : HopperStore) (leadID : Int) (reinsert : Bool) (score : ℚ)
    (expected : String) : Bool × HopperStore :=
  if ∃ lk ∈ s.lock leadID, lk.val ≠ expected then
    (false, s)
  else
    (true,
      { hopper := if reinsert then s.hopper.zadd leadID score else s.hopper
        lock := Function.update s.lock leadID none
        inFlight := Function.update s.inFlight leadID none })

def push (s : HopperStore) (leadID : Int) (score : ℚ) : HopperStore :=
  { s with hopper := s.hopper.zadd leadID score }

def defaultLockTTLSec : Int := 30

/-- `Claim`; lead `0` with an empty lock value stands for an empty hopper. -/
def claim (s : HopperStore) (instanceID : String) (lockTTLSec nowMs : Int) :
    Except String (Int × String) × HopperStore :=
  if instanceID = "" then
    (.error "valkey: Claim requires instanceID", s)
  else
    match claimLeadFromHopper s (if lockTTLSec ≤ 0 then defaultLockTTLSec else lockTTLSec)
        instanceID nowMs with
    | (none, s') => (.ok (0, ""), s')
    | (some leadID, s') => (.ok (leadID, instanceID ++ ":" ++ toString nowMs), s')

def release (s : HopperStore) (leadID : Int) (lockVal : String) (reinsert : Bool) (score : ℚ) :
    Bool × HopperStore :=
  releaseHopperLock s leadID reinsert score lockVal

def expireLock (s : HopperStore) (leadID : Int) : HopperStore :=
  { s with lock := Function.update s.lock leadID none }

def Fences (s : HopperStore) (leadID : Int) (lockVal : String) : Prop :=
  ∃ lk ∈ s.lock leadID, lk.val ≠ lockVal

instance (s : HopperStore) (leadID : Int) (lockVal : String) :
    Decidable (Fences s leadID lockVal) :=
  inferInstanceAs (Decidable (∃ lk ∈ s.lock leadID, lk.val ≠ lockVal))

theorem release_fenced {s : HopperStore} {leadID : Int} {lockVal : String} {reinsert : Bool}
    {score : ℚ} (h : Fences s leadID lockVal) :
    release s leadID lockVal reinsert score = (false, s) := by
  unfold release releaseHopperLock
  exact if_pos h

theorem release_unfenced {s : HopperStore} {leadID : Int} {lockVal : String} {reinsert : Bool}
    {score : ℚ} (h : ¬ Fences s leadID lockVal) :
    release s leadID lockVal reinsert score =
      (true,
        { hopper := if reinsert then s.hopper.zadd leadID score else s.hopper
          lock := Function.update s.lock leadID none
          inFlight := Function.update s.inFlight leadID none }) := by
  unfold release releaseHopperLock
  exact if_neg h

theorem claimLeadFromHopper_cases (s : HopperStore) (ttlSec : Int) (instanceID : String)
    (nowMs : Int) :
    ((claimLeadFromHopper s ttlSec instanceID nowMs).1 = none ∧
        (claimLeadFromHopper s ttlSec instanceID nowMs).2.lock = s.lock ∧
        (claimLeadFromHopper s ttlSec instanceID nowMs).2.inFlight = s.inFlight ∧
        ∀ x, x ∈ (claimLeadFromHopper s ttlSec instanceID nowMs).2.hopper ↔ x ∈ s.hopper) ∨
      ∃ leadID rest, leadID ∈ s.hopper ∧ s.lock leadID = none ∧
        (∀ x, x ∈ rest ↔ x ∈ s.hopper ∧ x ≠ leadID) ∧
        claimLeadFromHopper s ttlSec instanceID nowMs = (some leadID,
          { hopper := rest
            lock := Function.update s.lock leadID
              (some ⟨instanceID ++ ":" ++ toString nowMs, ttlSec⟩)
            inFlight := Function.update s.inFlight leadID
              (some (instanceID ++ ":" ++ toString nowMs)) }) := by
  cases hp : s.hopper.zpopmin with
  | none =>
    left
    simp [claimLeadFromHopper, hp]
  | some r =>
    obtain ⟨⟨leadID, score⟩, rest⟩ := r
    have hmem := ZSet.mem_of_zpopmin hp
    have hrest : ∀ x, x ∈ rest ↔ x ∈ s.hopper ∧ x ≠ leadID := fun x => ZSet.mem_zpopmin hp
    cases hl : s.lock leadID with
    | some lk =>
      left
      simp only [claimLeadFromHopper, hp, hl, true_and]
      intro x
      rw [ZSet.mem_zadd, hrest]
      by_cases hx : x = leadID
      · subst hx
        simpa using hmem
      · simp [hx]
    | none =>
      right
      refine ⟨leadID, rest, hmem, hl, hrest, ?_⟩
      simp [claimLeadFromHopper, hp, hl]

end Hopper

end Vici2
