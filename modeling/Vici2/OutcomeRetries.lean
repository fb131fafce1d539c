import Vici2.Picker

/-! Which answers of T04 put a lead back into the hopper: the blocks of the compliance gates,
by their error or by the replayed result, against the failures that pass. -/

namespace Vici2

namespace Picker

open Originate (BaseErr OriginateError OriginateOutcome OriginateResult newTCPAErr errInProgress)

/-- The failures that say nothing against the lead. -/
def DialOutcome.Transient : DialOutcome → Prop
  | .noAnswer | .busy | .carrierFail | .gatewayLimit | .circuitOpen | .rateLimited
  | .mediaTimeout | .timeout | .dropAbandon | .agentDisconnect | .campaignPaused => True
  | .bridged | .amd | .invalidNumber | .tcpaBlocked | .dncBlocked | .consentBlocked
  | .leadIneligible => False

inductive Compliance
  | tcpa
  | dnc
  | consent
  deriving DecidableEq, Repr

def Compliance.gate : Compliance → String
  | .tcpa => "tcpa"
  | .dnc => "dnc"
  | .consent => "consent"

/-- The outcome in the result of an attempt that the gate blocked, as a replay returns it. -/
def Compliance.replayed : Compliance → OriginateOutcome
  | .tcpa => .tcpaBlocked
  | .dnc => .dncBlocked
  | .consent => .consentBlocked

def Compliance.outcome : Compliance → DialOutcome
  | .tcpa => .tcpaBlocked
  | .dnc => .dncBlocked
  | .consent => .consentBlocked

def Compliance.Blocks (c : Compliance) : Except OriginateError OriginateResult → Prop
  | .error (.typed e) => e.gate = c.gate
  | .error (.plain _) => False
  | .ok res => res.outcome = c.replayed

def InProgress (answer : Except OriginateError OriginateResult) : Prop :=
  answer = .error (.typed errInProgress)

theorem Compliance.outcome_injective : Function.Injective Compliance.outcome := by
  intro c c' h
  cases c <;> cases c' <;> first | rfl | exact DialOutcome.noConfusion h

theorem Compliance.outcome_not_transient (c : Compliance) : ¬ c.outcome.Transient := by
  cases c with
  | tcpa => exact id
  | dnc => exact id
  | consent => exact id

theorem outcome_of_gate {e : BaseErr} {c : Compliance} (h : e.gate = c.gate) :
    outcomeFromOriginateError e = c.outcome := by
  unfold outcomeFromOriginateError
  rw [h]
  cases c with
  | tcpa => rfl
  | dnc => rfl
  | consent => rfl

/-- An error of any other gate, or of none, says nothing against the lead. -/
theorem transient_of_other {e : BaseErr} (h : ∀ c : Compliance, e.gate ≠ c.gate) :
    (outcomeFromOriginateError e).Transient := by
  have htcpa : e.gate ≠ "tcpa" := h .tcpa
  have hdnc : e.gate ≠ "dnc" := h .dnc
  have hconsent : e.gate ≠ "consent" := h .consent
  unfold outcomeFromOriginateError
  rw [if_neg htcpa, if_neg hdnc, if_neg hconsent]
  split_ifs
  all_goals trivial

/-- Every gate name and every replayed outcome lands in its own class. -/
theorem dialOutcome_eq_iff (c : Compliance) (answer : Except OriginateError OriginateResult) :
    dialOutcome answer = c.outcome ↔ c.Blocks answer := by
  cases answer with
  | error err =>
    cases err with
    | typed e =>
      show outcomeFromOriginateError e = c.outcome ↔ e.gate = c.gate
      refine ⟨fun h => ?_, outcome_of_gate⟩
      by_contra hne
      have hother : ∀ c' : Compliance, e.gate ≠ c'.gate := by
        intro c' hc'
        have hsame : c' = c := Compliance.outcome_injective ((outcome_of_gate hc').symm.trans h)
        rw [hsame] at hc'
        exact hne hc'
      have htransient := transient_of_other hother
      rw [h] at htransient
      exact c.outcome_not_transient htransient
    | plain msg =>
      refine iff_of_false (fun h => ?_) id
      have htransient : (dialOutcome (.error (.plain msg))).Transient := trivial
      rw [h] at htransient
      exact c.outcome_not_transient htransient
  | ok res =>
    obtain ⟨attemptUUID, callUUID, auditRowID, outcome, gateApplied⟩ := res
    show dialOutcome (.ok _) = c.outcome ↔ outcome = c.replayed
    unfold dialOutcome Compliance.outcome Compliance.replayed
    cases c with
    | tcpa => cases outcome <;> simp
    | dnc => cases outcome <;> simp
    | consent => cases outcome <;> simp

theorem transient_of_requeue {outcome : DialOutcome} (h : (policyFor outcome).requeue = true) :
    outcome.Transient ∨ outcome = .tcpaBlocked := by
  cases outcome with
  | tcpaBlocked => exact Or.inr rfl
  | bridged => exact absurd h Bool.false_ne_true
  | amd => exact absurd h Bool.false_ne_true
  | invalidNumber => exact absurd h Bool.false_ne_true
  | dncBlocked => exact absurd h Bool.false_ne_true
  | consentBlocked => exact absurd h Bool.false_ne_true
  | leadIneligible => exact absurd h Bool.false_ne_true
  | _ => exact Or.inl trivial

/-- A release puts the lead back at most where the policy of its outcome says. -/
theorem releaseWithPolicy_hopper (s : PickerStore) (leadID : Int) (lockVal : String)
    (outcome : DialOutcome) (nowMs : Int) :
    (releaseWithPolicy s leadID lockVal outcome nowMs).hopper.hopper = s.hopper.hopper ∨
      ((policyFor outcome).requeue = true ∧
        (releaseWithPolicy s leadID lockVal outcome nowMs).hopper.hopper =
          s.hopper.hopper.zadd leadID (if (policyFor outcome).immediate then 0 else nowMs)) := by
  by_cases hf : Hopper.Fences s.hopper leadID lockVal
  · left
    simp only [releaseWithPolicy, Hopper.release_fenced hf]
  · simp only [releaseWithPolicy, Hopper.release_unfenced hf]
    cases hr : (policyFor outcome).requeue with
    | false => exact Or.inl rfl
    | true =>
      refine Or.inr ⟨rfl, ?_⟩
      cases (policyFor outcome).immediate with
      | false => simp
      | true => simp

theorem processOutcome_hopper (s : PickerStore) (inp : TickInput) (leadID : Int) (lockVal : String)
    (agentID : Int) :
    (processOutcome s inp leadID lockVal agentID).hopper.hopper = s.hopper.hopper ∨
      ((policyFor (dialOutcome inp.t04)).requeue = true ∧
        (processOutcome s inp leadID lockVal agentID).hopper.hopper =
          s.hopper.hopper.zadd leadID
            (if (policyFor (dialOutcome inp.t04)).immediate then 0 else inp.nowMs)) := by
  unfold processOutcome
  dsimp only
  split
  · exact releaseWithPolicy_hopper (releaseReservation s inp.cfg.campaignID agentID inp.nowMs)
      leadID lockVal _ _
  · exact releaseWithPolicy_hopper s leadID lockVal _ _

/-- For every answer of T04: only a transient outcome or a TCPA block puts the lead back, a TCPA
block with the time of the release as its score, and a DNC or consent block never. -/
theorem outcome_retries (s : PickerStore) (inp : TickInput) (leadID : Int) (lockVal : String)
    (agentID : Int) :
    let s' := processOutcome s inp leadID lockVal agentID
    (s'.hopper.hopper ≠ s.hopper.hopper →
      (dialOutcome inp.t04).Transient ∨ Compliance.tcpa.Blocks inp.t04) ∧
    (∀ c : Compliance, c.Blocks inp.t04 → ¬ (dialOutcome inp.t04).Transient) ∧
    (Compliance.dnc.Blocks inp.t04 ∨ Compliance.consent.Blocks inp.t04 →
      s'.hopper.hopper = s.hopper.hopper) ∧
    (Compliance.tcpa.Blocks inp.t04 → s'.hopper.hopper = s.hopper.hopper ∨
      s'.hopper.hopper = s.hopper.hopper.zadd leadID inp.nowMs) := by
  have hhopper := processOutcome_hopper s inp leadID lockVal agentID
  refine ⟨fun hne => ?_, fun c hc => ?_, fun hc => ?_, fun hc => ?_⟩
  · obtain ⟨hrequeue, -⟩ := hhopper.resolve_left hne
    rw [← dialOutcome_eq_iff]
    exact transient_of_requeue hrequeue
  · rw [← dialOutcome_eq_iff] at hc
    rw [hc]
    exact c.outcome_not_transient
  · have hdrop : (policyFor (dialOutcome inp.t04)).requeue = false := by
      rw [← dialOutcome_eq_iff, ← dialOutcome_eq_iff] at hc
      rcases hc with hc | hc
      · rw [hc]
        rfl
      · rw [hc]
        rfl
    rcases hhopper with hsame | ⟨hrequeue, -⟩
    · exact hsame
    · rw [hdrop] at hrequeue
      exact absurd hrequeue Bool.false_ne_true
  · rw [← dialOutcome_eq_iff] at hc
    rw [hc] at hhopper
    rcases hhopper with hsame | ⟨-, hadd⟩
    · exact Or.inl hsame
    · exact Or.inr hadd

/-- No lead waits, and lead 7 is in flight for a claim of `pod-1`. -/
def claimedStore : PickerStore where
  hopper := { hopper := ∅, lock := fun _ => none, inFlight := fun _ => some "pod-1:1000" }
  agents := Agents.AgentStore.empty
  tokens := none

def answeredTick (answer : Except OriginateError OriginateResult) : TickInput where
  podID := "pod-1"
  cfg := ⟨1, .progressive, 30, true⟩
  nowMs := 2000
  callUUID := "u"
  cacheActive := true
  leadStatus := fun _ => none
  t04 := answer
  late := false

/-- A TCPA block is put back, and so is an attempt that another worker is still making. -/
theorem blocked_and_running_retried :
    (¬ ∀ (s : PickerStore) (inp : TickInput) (leadID : Int) (lockVal : String) (agentID : Int)
      (c : Compliance), c.Blocks inp.t04 → leadID ∉ s.hopper.hopper →
        leadID ∉ (processOutcome s inp leadID lockVal agentID).hopper.hopper) ∧
    ¬ ∀ (s : PickerStore) (inp : TickInput) (leadID : Int) (lockVal : String) (agentID : Int),
      InProgress inp.t04 → leadID ∉ s.hopper.hopper →
        leadID ∉ (processOutcome s inp leadID lockVal agentID).hopper.hopper := by
  constructor
  · intro h
    exact absurd (h claimedStore (answeredTick (.error (.typed (newTCPAErr "u" "too_early" 0)))) 7
      "pod-1:1000" 0 .tcpa rfl (by decide)) (by decide)
  · intro h
    exact absurd (h claimedStore (answeredTick (.error (.typed errInProgress))) 7 "pod-1:1000" 0 rfl
      (by decide)) (by decide)

end Picker

end Vici2
