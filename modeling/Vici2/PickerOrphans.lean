import Vici2.Picker
import Vici2.Runs

/-! Leads dialled by the picker and what its loops leave behind. Ticks and sweeps
of any pods run over one store, with the refill, the outcome script, expiring
locks and arbitrary changes of agents and tokens between them. A lead counts as
dialled from a successful predictive tick until it is pushed again. -/

namespace Vici2

namespace Picker

open Agents (AgentStore AgentStatus)
open Hopper (HopperStore Fences)
open Originate (OriginateError OriginateResult)
open Tokens (TokenKey)

structure PickerWorld where
  store : PickerStore
  dialled : Int → Bool

def PickerWorld.start (s : PickerStore) : PickerWorld := ⟨s, fun _ => false⟩

inductive PickerAction
  | tick (inp : TickInput)
  | sweep (cacheActive : Bool) (now : Instant) (leads : List Int)
  | push (leadID : Int) (score : ℚ)
  | recordCallOutcome (leadID : Int)
  | expireLock (leadID : Int)
  | setAgents (agents : AgentStore)
  | setTokens (tokens : Option TokenKey)

def succeeds : Except OriginateError OriginateResult → Bool
  | .ok res => res.outcome = .success
  | .error _ => false

def CallPlaced (inp : TickInput) (r : TickResult) : Prop :=
  r.called = true ∧ succeeds inp.t04 = true

instance (inp : TickInput) (r : TickResult) : Decidable (CallPlaced inp r) :=
  inferInstanceAs (Decidable (_ ∧ _))

/-- The `HDEL` of `record_call_outcome.v1.lua`. -/
def recordCallOutcome (s : HopperStore) (leadID : Int) : HopperStore :=
  { s with inFlight := Function.update s.inFlight leadID none }

def markDialled (dialled : Int → Bool) (inp : TickInput) (r : TickResult) : Int → Bool :=
  match r.lead with
  | none => dialled
  | some L =>
    Function.update dialled L (decide (inp.cfg.mode = .predictive ∧ CallPlaced inp r))

def step (w : PickerWorld) : PickerAction → PickerWorld
  | .tick inp => ⟨(tick w.store inp).store, markDialled w.dialled inp (tick w.store inp)⟩
  | .sweep cacheActive now leads =>
    if cacheActive then
      { w with store := { w.store with hopper := sweepOrphans w.store.hopper now leads } }
    else w
  | .push leadID score =>
    { store := { w.store with hopper := Hopper.push w.store.hopper leadID score }
      dialled := Function.update w.dialled leadID false }
  | .recordCallOutcome leadID =>
    { w with store := { w.store with hopper := recordCallOutcome w.store.hopper leadID } }
  | .expireLock leadID =>
    { w with store := { w.store with hopper := Hopper.expireLock w.store.hopper leadID } }
  | .setAgents agents => { w with store := { w.store with agents := agents } }
  | .setTokens tokens => { w with store := { w.store with tokens := tokens } }

def NoRedial (w : PickerWorld) : Prop :=
  ∀ L, w.dialled L = true → L ∉ w.store.hopper.hopper

/-- No lead taken by the tick stays in flight and no agent taken by it stays
reserved, unless the call was placed. -/
structure Clean (inp : TickInput) (r : TickResult) : Prop where
  lead : ∀ L, r.lead = some L → r.store.hopper.inFlight L = none ∨ CallPlaced inp r
  agent : ∀ a, r.agent = some a →
    r.store.agents.agent a "status" ≠ some AgentStatus.reserved.text ∨ CallPlaced inp r

def LeavesNothing (w : PickerWorld) : PickerAction → Prop
  | .tick inp => Clean inp (tick w.store inp)
  | _ => True

def nextLead (s : HopperStore) (podID : String) : Option Int :=
  if podID = "" then none else s.hopper.zfirst.filter fun L => (s.lock L).isNone

def nextAgent (s : AgentStore) (cid : Int) : Option Int := (s.byCampaignStatus cid .ready).zfirst

def PassesChecks (inp : TickInput) (L : Int) : Prop :=
  inp.cacheActive = true ∧ leadEligible (inp.leadStatus L) = true

def PredictiveSafe (s : PickerStore) (inp : TickInput) : Prop :=
  ∀ L, nextLead s.hopper inp.podID = some L →
    L ≠ 0 ∧ (PassesChecks inp L → ∀ res, inp.t04 = .ok res → res.outcome = .success)

def ProgressiveSafe (s : PickerStore) (inp : TickInput) : Prop :=
  ∀ a, nextAgent s.agents inp.cfg.campaignID = some a →
    a ≠ 0 ∧ ∀ L, nextLead s.hopper inp.podID = some L →
      L ≠ 0 ∧ (PassesChecks inp L → inp.late = true → succeeds inp.t04 = true)

def TickSafe (s : PickerStore) (inp : TickInput) : Prop :=
  inp.cfg.active = true → 0 ≤ (Tokens.decr s.tokens).val →
    if inp.cfg.mode = .predictive then PredictiveSafe s inp else ProgressiveSafe s inp

/-- The sweep would put the lead back: its entry is overdue and no lock of
another claim is in the way. -/
def Requeues (now : Instant) (s : HopperStore) (L : Int) : Prop :=
  ∃ val, s.inFlight L = some val ∧ overdue now val = true ∧ ¬ Fences s L val

def Safe (w : PickerWorld) : PickerAction → Prop
  | .tick inp => TickSafe w.store inp
  | .sweep cacheActive now leads =>
    cacheActive = true → ∀ L ∈ leads, w.dialled L = true → ¬ Requeues now w.store.hopper L
  | _ => True

theorem sweepEntry_requeues {now : Instant} {s : HopperStore} {L : Int}
    (h : Requeues now s L) :
    sweepEntry now s L =
      { hopper := s.hopper.zadd L 0
        lock := Function.update s.lock L none
        inFlight := Function.update s.inFlight L none } := by
  obtain ⟨val, hval, hover, hfence⟩ := h
  simp only [sweepEntry, hval, hover, if_true, Hopper.release_unfenced hfence]

theorem sweepEntry_stays {now : Instant} {s : HopperStore} {L : Int}
    (h : ¬ Requeues now s L) : sweepEntry now s L = s := by
  cases hval : s.inFlight L with
  | none => simp only [sweepEntry, hval]
  | some val =>
    by_cases hover : overdue now val = true
    · have hfence : Fences s L val := by
        by_contra hf
        exact h ⟨val, hval, hover, hf⟩
      simp only [sweepEntry, hval, hover, if_true, Hopper.release_fenced hfence]
    · simp only [sweepEntry, hval, hover, Bool.false_eq_true, if_false]

theorem mem_sweepOrphans {now : Instant} {leads : List Int} {s : HopperStore} {L : Int} :
    L ∈ (sweepOrphans s now leads).hopper ↔ L ∈ s.hopper ∨ (L ∈ leads ∧ Requeues now s L) := by
  induction leads generalizing s with
  | nil => simp [sweepOrphans]
  | cons x leads ih =>
    have hstep : sweepOrphans s now (x :: leads) = sweepOrphans (sweepEntry now s x) now leads := rfl
    rw [hstep, ih]
    by_cases hx : Requeues now s x
    · rw [sweepEntry_requeues hx]
      by_cases hL : L = x
      · subst x
        simp [hx]
      · have hsame : Requeues now
            { hopper := s.hopper.zadd x 0
              lock := Function.update s.lock x none
              inFlight := Function.update s.inFlight x none } L ↔ Requeues now s L := by
          simp only [Requeues, Fences, Function.update_of_ne hL]
        simp only [hsame, ZSet.mem_zadd, List.mem_cons, hL, false_or]
    · rw [sweepEntry_stays hx]
      by_cases hL : L = x
      · subst x
        simp [hx]
      · simp [hL]

structure Claimed (s s' : PickerStore) (L : Int) (lockVal : String) : Prop where
  was_waiting : L ∈ s.hopper.hopper
  waiting : ∀ x, x ∈ s'.hopper.hopper ↔ x ∈ s.hopper.hopper ∧ x ≠ L
  owned : ¬ Fences s'.hopper L lockVal
  inFlight : s'.hopper.inFlight L = some lockVal
  agents : s'.agents = s.agents

theorem claimLead_none {s : PickerStore} {inp : TickInput}
    (h : nextLead s.hopper inp.podID = none) :
    ∃ s', s'.agents = s.agents ∧ (∀ x, x ∈ s'.hopper.hopper ↔ x ∈ s.hopper.hopper) ∧
      (claimLead s inp = (.ok (0, ""), s') ∨ ∃ e, claimLead s inp = (.error e, s')) := by
  by_cases hp : inp.podID = ""
  · refine ⟨s, rfl, fun x => Iff.rfl, Or.inr ⟨"valkey: Claim requires instanceID", ?_⟩⟩
    simp only [claimLead, Hopper.claim, hp, if_true]
  · simp only [nextLead, hp, if_false, ZSet.zfirst_eq_zpopmin] at h
    cases hz : s.hopper.hopper.zpopmin with
    | none =>
      refine ⟨s, rfl, fun x => Iff.rfl, Or.inl ?_⟩
      simp [claimLead, Hopper.claim, hp, Hopper.claimLeadFromHopper, hz]
    | some r =>
      obtain ⟨⟨L, score⟩, rest⟩ := r
      cases hl : s.hopper.lock L with
      | none => simp [hz, hl] at h
      | some lk =>
        refine ⟨{ s with hopper := { s.hopper with hopper := rest.zadd L score } }, rfl, ?_,
          Or.inl ?_⟩
        · intro x
          have hmem := ZSet.mem_of_zpopmin hz
          have hrest : x ∈ rest ↔ x ∈ s.hopper.hopper ∧ x ≠ L := ZSet.mem_zpopmin hz
          rw [ZSet.mem_zadd, hrest]
          by_cases hx : x = L
          · subst x
            simpa using hmem
          · simp [hx]
        · simp [claimLead, Hopper.claim, hp, Hopper.claimLeadFromHopper, hz, hl]

theorem claimLead_some {s : PickerStore} {inp : TickInput} {L : Int}
    (h : nextLead s.hopper inp.podID = some L) :
    ∃ s' lockVal, lockVal ≠ "" ∧ claimLead s inp = (.ok (L, lockVal), s') ∧
      Claimed s s' L lockVal := by
  by_cases hp : inp.podID = ""
  · simp [nextLead, hp] at h
  · simp only [nextLead, hp, if_false, ZSet.zfirst_eq_zpopmin] at h
    cases hz : s.hopper.hopper.zpopmin with
    | none => simp [hz] at h
    | some r =>
      obtain ⟨⟨M, score⟩, rest⟩ := r
      obtain ⟨rfl, hl⟩ : M = L ∧ s.hopper.lock L = none := by simpa [hz] using h
      let lockVal := inp.podID ++ ":" ++ toString inp.nowMs
      let ttl := if inp.cfg.leadLockTTLSec ≤ 0 then Hopper.defaultLockTTLSec
        else inp.cfg.leadLockTTLSec
      let s' : PickerStore :=
        { s with
          hopper :=
            { hopper := rest
              lock := Function.update s.hopper.lock M (some ⟨lockVal, ttl⟩)
              inFlight := Function.update s.hopper.inFlight M (some lockVal) } }
      refine ⟨s', lockVal, by simp [lockVal], ?_, ?_⟩
      · simp only [claimLead, Hopper.claim, hp, if_false, Hopper.claimLeadFromHopper, hz, hl, s',
          lockVal, ttl]
      · exact
          { was_waiting := ZSet.mem_of_zpopmin hz
            waiting := fun x => ZSet.mem_zpopmin hz
            owned := by simp [Fences, s']
            inFlight := by simp [s']
            agents := rfl }

theorem releaseWithPolicy_inFlight {s : PickerStore} {L : Int} {lockVal : String}
    (h : ¬ Fences s.hopper L lockVal) (outcome : DialOutcome) (nowMs : Int) :
    (releaseWithPolicy s L lockVal outcome nowMs).hopper.inFlight L = none := by
  simp only [releaseWithPolicy, Hopper.release_unfenced h, Function.update_self]

theorem mem_releaseWithPolicy {s : PickerStore} {L x : Int} {lockVal : String}
    {outcome : DialOutcome} {nowMs : Int}
    (hx : x ∈ (releaseWithPolicy s L lockVal outcome nowMs).hopper.hopper) :
    x = L ∨ x ∈ s.hopper.hopper := by
  by_cases hf : Fences s.hopper L lockVal
  · right
    simpa only [releaseWithPolicy, Hopper.release_fenced hf] using hx
  · simp only [releaseWithPolicy, Hopper.release_unfenced hf] at hx
    split at hx
    · exact ZSet.mem_zadd.mp hx
    · exact Or.inr hx

theorem releaseReservation_status (s : PickerStore) (cid a nowMs : Int) :
    (releaseReservation s cid a nowMs).agents.agent a "status" ≠
      some AgentStatus.reserved.text := by
  by_cases hr : s.agents.agent a "status" = some AgentStatus.reserved.text
  · simp [releaseReservation, Agents.transition, Agents.agentStateTransition, hr, Agents.hset,
      Agents.pairsOf, AgentStatus.text]
  · simp [releaseReservation, Agents.transition, Agents.agentStateTransition, hr]

theorem pickAgentForCall_none {s : AgentStore} {cid : Int} (h : nextAgent s cid = none)
    (callUUID : String) (nowMs : Int) :
    Agents.pickAgentForCall s cid callUUID nowMs = (none, s) := by
  unfold nextAgent at h
  simp only [Agents.pickAgentForCall, h]

theorem pickAgentForCall_some {s : AgentStore} {cid a : Int} (h : nextAgent s cid = some a)
    (callUUID : String) (nowMs : Int) :
    ∃ s', Agents.pickAgentForCall s cid callUUID nowMs = (some a, s') ∧
      s'.agent a "status" = some AgentStatus.reserved.text := by
  unfold nextAgent at h
  simp only [Agents.pickAgentForCall, h]
  exact ⟨_, rfl, by simp [Agents.hset]⟩

theorem dialOutcome_bridged_iff (inp : TickInput) :
    dialOutcome inp.t04 = .bridged ↔ succeeds inp.t04 = true := by
  cases inp.t04 with
  | ok res => cases hres : res.outcome <;> simp [dialOutcome, succeeds, hres]
  | error e =>
    cases e with
    | plain msg => simp [dialOutcome, succeeds]
    | typed oerr =>
      simp only [dialOutcome, succeeds, outcomeFromOriginateError]
      split_ifs <;> simp

theorem clean_of_idle {inp : TickInput} {r : TickResult} (hl : r.lead = none)
    (ha : r.agent = none) : Clean inp r :=
  ⟨fun L hL => by simp [hl] at hL, fun a hb => by simp [ha] at hb⟩

theorem clean_of_released {inp : TickInput} {r : TickResult} {L : Int} (hl : r.lead = some L)
    (hf : r.store.hopper.inFlight L = none)
    (ha : ∀ a, r.agent = some a →
      r.store.agents.agent a "status" ≠ some AgentStatus.reserved.text) : Clean inp r where
  lead M hM := by
    obtain rfl : L = M := by simpa [hl] using hM
    exact Or.inl hf
  agent a hb := Or.inl (ha a hb)

theorem clean_of_placed {inp : TickInput} {r : TickResult} (hp : CallPlaced inp r) : Clean inp r :=
  ⟨fun _ _ => Or.inr hp, fun _ _ => Or.inr hp⟩

theorem Clean.placed {inp : TickInput} {r : TickResult} (h : Clean inp r) {L : Int}
    {lockVal : String} (hl : r.lead = some L) (hf : r.store.hopper.inFlight L = some lockVal) :
    CallPlaced inp r := by
  have hlead := h.lead L hl
  simpa [hf] using hlead

theorem dispatchPredictive_some {s : PickerStore} {inp : TickInput} {L : Int}
    (h : nextLead s.hopper inp.podID = some L) :
    ∃ s' lockVal, Claimed s s' L lockVal ∧
      ((L = 0 ∧ dispatchPredictive s inp = { store := refund s', lead := some L }) ∨
      (L ≠ 0 ∧ ¬ PassesChecks inp L ∧ ∃ outcome, dispatchPredictive s inp =
        { store := refund (releaseWithPolicy s' L lockVal outcome inp.nowMs), lead := some L }) ∨
      (L ≠ 0 ∧ PassesChecks inp L ∧ (∃ e, inp.t04 = .error e) ∧ dispatchPredictive s inp =
        { store := releaseWithPolicy s' L lockVal (dialOutcome inp.t04) inp.nowMs
          lead := some L, called := true }) ∨
      (L ≠ 0 ∧ PassesChecks inp L ∧ (∃ res, inp.t04 = .ok res) ∧ dispatchPredictive s inp =
        { store := s', lead := some L, called := true })) := by
  obtain ⟨s', lockVal, hne, hclaim, hc⟩ := claimLead_some h
  refine ⟨s', lockVal, hc, ?_⟩
  have htaken : takenLead (L, lockVal) = some L := if_neg hne
  simp only [dispatchPredictive, hclaim, htaken]
  by_cases hL : L = 0
  · left
    simp [hL]
  · right
    by_cases hact : inp.cacheActive = true
    · by_cases helig : leadEligible (inp.leadStatus L) = true
      · right
        have hpass : PassesChecks inp L := ⟨hact, helig⟩
        cases ht : inp.t04 with
        | error e =>
          left
          refine ⟨hL, hpass, ⟨e, rfl⟩, ?_⟩
          simp [hL, hact, helig, processOutcome, ht]
        | ok res =>
          right
          refine ⟨hL, hpass, ⟨res, rfl⟩, ?_⟩
          simp [hL, hact, helig]
      · left
        refine ⟨hL, fun hp => helig hp.2, .leadIneligible, ?_⟩
        simp [hL, hact, helig]
    · left
      refine ⟨hL, fun hp => hact hp.1, .campaignPaused, ?_⟩
      simp [hL, hact]

theorem dispatchPredictive_none {s : PickerStore} {inp : TickInput}
    (h : nextLead s.hopper inp.podID = none) :
    ∃ s', (∀ x, x ∈ s'.hopper.hopper ↔ x ∈ s.hopper.hopper) ∧
      dispatchPredictive s inp = { store := refund s' } := by
  obtain ⟨s', -, hmem, hclaim | ⟨e, hclaim⟩⟩ := claimLead_none h
  · refine ⟨s', hmem, ?_⟩
    simp [dispatchPredictive, hclaim, takenLead]
  · refine ⟨s', hmem, ?_⟩
    simp [dispatchPredictive, hclaim]

theorem dispatchPredictive_clean_iff (s : PickerStore) (inp : TickInput) :
    Clean inp (dispatchPredictive s inp) ↔ PredictiveSafe s inp := by
  cases hn : nextLead s.hopper inp.podID with
  | none =>
    obtain ⟨s', -, hd⟩ := dispatchPredictive_none hn
    have hsafe : PredictiveSafe s inp := fun L hL => by simp [hn] at hL
    rw [hd]
    exact iff_of_true (clean_of_idle rfl rfl) hsafe
  | some L =>
    have hsafe : PredictiveSafe s inp ↔
        L ≠ 0 ∧ (PassesChecks inp L → ∀ res, inp.t04 = .ok res → res.outcome = .success) := by
      simp [PredictiveSafe, hn]
    rw [hsafe]
    obtain ⟨s', lockVal, hc, ⟨hL, hd⟩ | ⟨hL, hpass, outcome, hd⟩ | ⟨hL, hpass, ⟨e, he⟩, hd⟩ |
      ⟨hL, hpass, ⟨res, hres⟩, hd⟩⟩ := dispatchPredictive_some hn
    · rw [hd]
      refine iff_of_false (fun hclean => ?_) (fun hs => hs.1 hL)
      have hplaced := hclean.placed rfl hc.inFlight
      simp [CallPlaced] at hplaced
    · have hf := releaseWithPolicy_inFlight hc.owned outcome inp.nowMs
      rw [hd]
      exact iff_of_true (clean_of_released rfl hf fun a ha => by simp at ha)
        ⟨hL, fun hp => absurd hp hpass⟩
    · have hf := releaseWithPolicy_inFlight hc.owned (dialOutcome inp.t04) inp.nowMs
      rw [hd]
      exact iff_of_true (clean_of_released rfl hf fun a ha => by simp at ha)
        ⟨hL, fun _ res hres => by simp [he] at hres⟩
    · rw [hd]
      constructor
      · intro hclean
        have hplaced := hclean.placed rfl hc.inFlight
        refine ⟨hL, fun _ res' hres' => ?_⟩
        simpa [CallPlaced, succeeds, hres'] using hplaced
      · intro hs
        have hsucc := hs.2 hpass res hres
        exact clean_of_placed ⟨rfl, by simp [succeeds, hres, hsucc]⟩

theorem dispatchProgressive_some {s : PickerStore} {inp : TickInput} {a L : Int} (ha : a ≠ 0)
    (h : nextLead s.hopper inp.podID = some L) :
    ∃ s' lockVal, Claimed s s' L lockVal ∧
      ((L = 0 ∧ dispatchProgressive s inp a =
        { store := refund (releaseReservation s' inp.cfg.campaignID a inp.nowMs)
          lead := some L, agent := some a }) ∨
      (L ≠ 0 ∧ ¬ PassesChecks inp L ∧ ∃ outcome, dispatchProgressive s inp a =
        { store := refund (releaseWithPolicy
            (releaseReservation s' inp.cfg.campaignID a inp.nowMs) L lockVal outcome inp.nowMs)
          lead := some L, agent := some a }) ∨
      (L ≠ 0 ∧ PassesChecks inp L ∧ inp.late = true ∧ dispatchProgressive s inp a =
        { store := s', lead := some L, agent := some a, called := true }) ∨
      (L ≠ 0 ∧ PassesChecks inp L ∧ inp.late = false ∧ succeeds inp.t04 = true ∧
        dispatchProgressive s inp a =
          { store := releaseWithPolicy s' L lockVal .bridged inp.nowMs
            lead := some L, agent := some a, called := true }) ∨
      (L ≠ 0 ∧ PassesChecks inp L ∧ inp.late = false ∧ succeeds inp.t04 = false ∧
        dispatchProgressive s inp a =
          { store := releaseWithPolicy (releaseReservation s' inp.cfg.campaignID a inp.nowMs) L
              lockVal (dialOutcome inp.t04) inp.nowMs
            lead := some L, agent := some a, called := true })) := by
  obtain ⟨s', lockVal, hne, hclaim, hc⟩ := claimLead_some h
  refine ⟨s', lockVal, hc, ?_⟩
  have htaken : takenLead (L, lockVal) = some L := if_neg hne
  simp only [dispatchProgressive, hclaim, htaken]
  by_cases hL : L = 0
  · left
    simp [hL]
  · right
    by_cases hact : inp.cacheActive = true
    · by_cases helig : leadEligible (inp.leadStatus L) = true
      · right
        have hpass : PassesChecks inp L := ⟨hact, helig⟩
        cases hlate : inp.late with
        | true =>
          left
          refine ⟨hL, hpass, rfl, ?_⟩
          simp [hL, hact, helig]
        | false =>
          right
          cases hs : succeeds inp.t04 with
          | true =>
            left
            have hb := (dialOutcome_bridged_iff inp).mpr hs
            refine ⟨hL, hpass, rfl, rfl, ?_⟩
            simp [hL, hact, helig, processOutcome, hb]
          | false =>
            right
            have hb : dialOutcome inp.t04 ≠ .bridged := by
              intro hb
              have hs' := (dialOutcome_bridged_iff inp).mp hb
              simp [hs] at hs'
            refine ⟨hL, hpass, rfl, rfl, ?_⟩
            simp [hL, hact, helig, processOutcome, hb, ha]
      · left
        refine ⟨hL, fun hp => helig hp.2, .leadIneligible, ?_⟩
        simp [hL, hact, helig, releaseAll, ha]
    · left
      refine ⟨hL, fun hp => hact hp.1, .campaignPaused, ?_⟩
      simp [hL, hact, releaseAll, ha]

theorem dispatchProgressive_none {s : PickerStore} {inp : TickInput} {a : Int}
    (h : nextLead s.hopper inp.podID = none) :
    ∃ s', (∀ x, x ∈ s'.hopper.hopper ↔ x ∈ s.hopper.hopper) ∧
      dispatchProgressive s inp a =
        { store := refund (releaseReservation s' inp.cfg.campaignID a inp.nowMs)
          agent := some a } := by
  obtain ⟨s', -, hmem, hclaim | ⟨e, hclaim⟩⟩ := claimLead_none h
  · refine ⟨s', hmem, ?_⟩
    simp [dispatchProgressive, hclaim, takenLead]
  · refine ⟨s', hmem, ?_⟩
    simp [dispatchProgressive, hclaim]

theorem dispatchProgressive_clean_iff (s : PickerStore) (inp : TickInput) {a : Int} (ha : a ≠ 0) :
    Clean inp (dispatchProgressive s inp a) ↔
      ∀ L, nextLead s.hopper inp.podID = some L →
        L ≠ 0 ∧ (PassesChecks inp L → inp.late = true → succeeds inp.t04 = true) := by
  have hfreed : ∀ (t : PickerStore) (b : Int), some a = some b →
      (releaseReservation t inp.cfg.campaignID a inp.nowMs).agents.agent b "status" ≠
        some AgentStatus.reserved.text := by
    intro t b hb
    obtain rfl : a = b := by simpa using hb
    exact releaseReservation_status t inp.cfg.campaignID a inp.nowMs
  cases hn : nextLead s.hopper inp.podID with
  | none =>
    obtain ⟨s', -, hd⟩ := dispatchProgressive_none (a := a) hn
    rw [hd]
    exact iff_of_true ⟨fun L hL => by simp at hL, fun b hb => Or.inl (hfreed s' b hb)⟩
      (fun L hL => by simp at hL)
  | some L =>
    simp only [Option.some.injEq, forall_eq']
    obtain ⟨s', lockVal, hc, ⟨hL, hd⟩ | ⟨hL, hpass, outcome, hd⟩ | ⟨hL, hpass, hlate, hd⟩ |
      ⟨hL, hpass, hlate, hs, hd⟩ | ⟨hL, hpass, hlate, hs, hd⟩⟩ := dispatchProgressive_some ha hn
    · rw [hd]
      refine iff_of_false (fun hclean => ?_) (fun hs => hs.1 hL)
      have hplaced := hclean.placed rfl hc.inFlight
      simp [CallPlaced] at hplaced
    · have hf := releaseWithPolicy_inFlight hc.owned outcome inp.nowMs
      rw [hd]
      exact iff_of_true (clean_of_released rfl hf (hfreed s')) ⟨hL, fun hp => absurd hp hpass⟩
    · rw [hd]
      constructor
      · intro hclean
        have hplaced := hclean.placed rfl hc.inFlight
        exact ⟨hL, fun _ _ => hplaced.2⟩
      · intro hs
        exact clean_of_placed ⟨rfl, hs.2 hpass hlate⟩
    · rw [hd]
      exact iff_of_true (clean_of_placed ⟨rfl, hs⟩) ⟨hL, fun _ hl => by simp [hlate] at hl⟩
    · have hf := releaseWithPolicy_inFlight hc.owned (dialOutcome inp.t04) inp.nowMs
      rw [hd]
      exact iff_of_true (clean_of_released rfl hf (hfreed s'))
        ⟨hL, fun _ hl => by simp [hlate] at hl⟩

theorem tickPredictive_clean_iff (s : PickerStore) (inp : TickInput) :
    Clean inp (tickPredictive s inp) ↔
      (0 ≤ (Tokens.decr s.tokens).val → PredictiveSafe s inp) := by
  by_cases hneg : (Tokens.decr s.tokens).val < 0
  · have hclean : Clean inp (tickPredictive s inp) := by
      simp only [tickPredictive, hneg, if_true]
      exact clean_of_idle rfl rfl
    exact iff_of_true hclean (fun h => by omega)
  · have hpos : 0 ≤ (Tokens.decr s.tokens).val := by omega
    simp only [tickPredictive, hneg, if_false, hpos, forall_const]
    exact dispatchPredictive_clean_iff { s with tokens := some (Tokens.decr s.tokens) } inp

theorem tickProgressive_clean_iff (s : PickerStore) (inp : TickInput) :
    Clean inp (tickProgressive s inp) ↔
      (0 ≤ (Tokens.decr s.tokens).val → ProgressiveSafe s inp) := by
  by_cases hneg : (Tokens.decr s.tokens).val < 0
  · have hclean : Clean inp (tickProgressive s inp) := by
      simp only [tickProgressive, hneg, if_true]
      exact clean_of_idle rfl rfl
    exact iff_of_true hclean (fun h => by omega)
  · have hpos : 0 ≤ (Tokens.decr s.tokens).val := by omega
    simp only [tickProgressive, hneg, if_false, hpos, forall_const]
    cases hn : nextAgent s.agents inp.cfg.campaignID with
    | none =>
      rw [pickAgentForCall_none hn]
      exact iff_of_true (clean_of_idle rfl rfl) (fun a ha => by simp [hn] at ha)
    | some a =>
      obtain ⟨agents, hpick, hstatus⟩ := pickAgentForCall_some hn inp.callUUID inp.nowMs
      have hsafe : ProgressiveSafe s inp ↔
          a ≠ 0 ∧ ∀ L, nextLead s.hopper inp.podID = some L →
            L ≠ 0 ∧ (PassesChecks inp L → inp.late = true → succeeds inp.t04 = true) := by
        simp [ProgressiveSafe, hn]
      rw [hpick, hsafe]
      by_cases ha : a = 0
      · subst a
        refine iff_of_false (fun hclean => ?_) (fun hs => hs.1 rfl)
        have hagent := hclean.agent 0 rfl
        simp [CallPlaced, refund, hstatus] at hagent
      · simp only [Option.getD_some, ha, if_false, ne_eq, not_false_eq_true, true_and]
        exact dispatchProgressive_clean_iff
          { s with tokens := some (Tokens.decr s.tokens), agents := agents } inp ha

theorem tick_clean_iff (s : PickerStore) (inp : TickInput) :
    Clean inp (tick s inp) ↔ TickSafe s inp := by
  cases hact : inp.cfg.active with
  | false =>
    have hclean : Clean inp (tick s inp) := by
      simp only [tick, hact]
      exact clean_of_idle rfl rfl
    exact iff_of_true hclean (fun h => by simp [hact] at h)
  | true =>
    simp only [tick, TickSafe, hact, not_true, if_false, forall_const]
    by_cases hm : inp.cfg.mode = .predictive
    · simp only [hm, if_true]
      exact tickPredictive_clean_iff s inp
    · simp only [hm, if_false]
      exact tickProgressive_clean_iff s inp

theorem Claimed.mem_of_mem {s s' : PickerStore} {L : Int} {lockVal : String}
    (hc : Claimed s s' L lockVal) {x : Int} (hx : x ∈ s'.hopper.hopper) : x ∈ s.hopper.hopper :=
  ((hc.waiting x).mp hx).1

theorem Claimed.mem_of_released {s s' t : PickerStore} {L : Int} {lockVal : String}
    (hc : Claimed s s' L lockVal) (ht : t.hopper = s'.hopper) {x : Int} {outcome : DialOutcome}
    {nowMs : Int} (hx : x ∈ (releaseWithPolicy t L lockVal outcome nowMs).hopper.hopper) :
    x ∈ s.hopper.hopper := by
  rcases mem_releaseWithPolicy hx with rfl | hx
  · exact hc.was_waiting
  · rw [ht] at hx
    exact hc.mem_of_mem hx

theorem dispatchPredictive_hopper {s : PickerStore} {inp : TickInput} {x : Int}
    (hx : x ∈ (dispatchPredictive s inp).store.hopper.hopper) : x ∈ s.hopper.hopper := by
  cases hn : nextLead s.hopper inp.podID with
  | none =>
    obtain ⟨s', hmem, hd⟩ := dispatchPredictive_none hn
    rw [hd] at hx
    exact (hmem x).mp hx
  | some L =>
    obtain ⟨s', lockVal, hc, ⟨-, hd⟩ | ⟨-, -, outcome, hd⟩ | ⟨-, -, -, hd⟩ | ⟨-, -, -, hd⟩⟩ :=
      dispatchPredictive_some hn
    all_goals rw [hd] at hx
    · exact hc.mem_of_mem hx
    · exact hc.mem_of_released rfl hx
    · exact hc.mem_of_released rfl hx
    · exact hc.mem_of_mem hx

theorem dispatchPredictive_placed {s : PickerStore} {inp : TickInput} {L : Int}
    (hl : (dispatchPredictive s inp).lead = some L)
    (hp : CallPlaced inp (dispatchPredictive s inp)) :
    L ∉ (dispatchPredictive s inp).store.hopper.hopper := by
  cases hn : nextLead s.hopper inp.podID with
  | none =>
    obtain ⟨s', -, hd⟩ := dispatchPredictive_none hn
    simp [hd] at hl
  | some M =>
    obtain ⟨s', lockVal, hc, ⟨-, hd⟩ | ⟨-, -, outcome, hd⟩ | ⟨-, -, ⟨e, he⟩, hd⟩ | ⟨-, -, -, hd⟩⟩ :=
      dispatchPredictive_some hn
    · simp [hd, CallPlaced] at hp
    · simp [hd, CallPlaced] at hp
    · simp [CallPlaced, he, succeeds] at hp
    · rw [hd] at hl ⊢
      obtain rfl : M = L := by simpa using hl
      intro hmem
      exact ((hc.waiting M).mp hmem).2 rfl

theorem dispatchProgressive_hopper {s : PickerStore} {inp : TickInput} {a x : Int} (ha : a ≠ 0)
    (hx : x ∈ (dispatchProgressive s inp a).store.hopper.hopper) : x ∈ s.hopper.hopper := by
  cases hn : nextLead s.hopper inp.podID with
  | none =>
    obtain ⟨s', hmem, hd⟩ := dispatchProgressive_none (a := a) hn
    rw [hd] at hx
    exact (hmem x).mp hx
  | some L =>
    obtain ⟨s', lockVal, hc, ⟨-, hd⟩ | ⟨-, -, outcome, hd⟩ | ⟨-, -, -, hd⟩ | ⟨-, -, -, -, hd⟩ |
      ⟨-, -, -, -, hd⟩⟩ := dispatchProgressive_some ha hn
    all_goals rw [hd] at hx
    · exact hc.mem_of_mem hx
    · exact hc.mem_of_released rfl hx
    · exact hc.mem_of_mem hx
    · exact hc.mem_of_released rfl hx
    · exact hc.mem_of_released rfl hx

theorem tick_hopper {s : PickerStore} {inp : TickInput} {x : Int}
    (hx : x ∈ (tick s inp).store.hopper.hopper) : x ∈ s.hopper.hopper := by
  simp only [tick] at hx
  split at hx
  · exact hx
  split at hx
  · simp only [tickPredictive] at hx
    split at hx
    · exact hx
    · have hmem := dispatchPredictive_hopper hx
      exact hmem
  · simp only [tickProgressive] at hx
    split at hx
    · exact hx
    split at hx
    · exact hx
    · rename_i ha
      have hmem := dispatchProgressive_hopper ha hx
      exact hmem

theorem tick_placed {s : PickerStore} {inp : TickInput} {L : Int}
    (hm : inp.cfg.mode = .predictive) (hl : (tick s inp).lead = some L)
    (hp : CallPlaced inp (tick s inp)) : L ∉ (tick s inp).store.hopper.hopper := by
  by_cases hact : inp.cfg.active = true
  · have htick : tick s inp = tickPredictive s inp := by simp [tick, hact, hm]
    rw [htick] at hl hp ⊢
    by_cases hneg : (Tokens.decr s.tokens).val < 0
    · simp [tickPredictive, hneg] at hl
    · have hdisp : tickPredictive s inp =
          dispatchPredictive { s with tokens := some (Tokens.decr s.tokens) } inp := by
        simp [tickPredictive, hneg]
      rw [hdisp] at hl hp ⊢
      exact dispatchPredictive_placed hl hp
  · simp [tick, hact] at hl

theorem NoRedial.tick {w : PickerWorld} (hw : NoRedial w) (inp : TickInput) :
    NoRedial (step w (.tick inp)) := by
  intro x hx
  have hframe : w.dialled x = true → x ∉ (Picker.tick w.store inp).store.hopper.hopper :=
    fun hd hmem => hw x hd (tick_hopper hmem)
  cases hlead : (Picker.tick w.store inp).lead with
  | none =>
    simp only [step, markDialled, hlead] at hx
    exact hframe hx
  | some L =>
    simp only [step, markDialled, hlead] at hx
    by_cases hxL : x = L
    · subst x
      rw [Function.update_self, decide_eq_true_eq] at hx
      exact tick_placed hx.1 hlead hx.2
    · rw [Function.update_of_ne hxL] at hx
      exact hframe hx

theorem NoRedial.sweep_iff {w : PickerWorld} (hw : NoRedial w) (cacheActive : Bool) (now : Instant)
    (leads : List Int) :
    NoRedial (step w (.sweep cacheActive now leads)) ↔ Safe w (.sweep cacheActive now leads) := by
  cases cacheActive with
  | false => exact iff_of_true hw (fun h => by simp at h)
  | true =>
    simp only [step, if_true, NoRedial, Safe, mem_sweepOrphans, forall_const]
    constructor
    · intro h L hL hd hreq
      exact h L hd (Or.inr ⟨hL, hreq⟩)
    · intro h L hd hmem
      rcases hmem with hmem | ⟨hL, hreq⟩
      · exact hw L hd hmem
      · exact h L hL hd hreq

theorem NoRedial.step_iff {w : PickerWorld} (hw : NoRedial w) (a : PickerAction) :
    NoRedial (step w a) ∧ LeavesNothing w a ↔ Safe w a := by
  cases a with
  | tick inp =>
    have hclean := tick_clean_iff w.store inp
    exact ⟨fun h => hclean.mp h.2, fun h => ⟨hw.tick inp, hclean.mpr h⟩⟩
  | sweep cacheActive now leads =>
    rw [← hw.sweep_iff cacheActive now leads]
    exact and_iff_left trivial
  | push leadID score =>
    refine iff_of_true ⟨fun L hL => ?_, trivial⟩ trivial
    by_cases hne : L = leadID
    · subst L
      simp [step] at hL
    · have hd : w.dialled L = true := by simpa [step, hne] using hL
      simpa [step, Hopper.push, hne] using hw L hd
  | recordCallOutcome leadID => exact iff_of_true ⟨hw, trivial⟩ trivial
  | expireLock leadID => exact iff_of_true ⟨hw, trivial⟩ trivial
  | setAgents agents => exact iff_of_true ⟨hw, trivial⟩ trivial
  | setTokens tokens => exact iff_of_true ⟨hw, trivial⟩ trivial

/-- From any store, a run keeps dialled leads out of the hopper and its ticks
leave nothing behind exactly when all its steps are safe. -/
theorem dialled_lead_not_redialled_along_run (s : PickerStore) (l : List PickerAction) :
    Always step NoRedial (.start s) l ∧ EachStep step LeavesNothing (.start s) l ↔
      EachStep step Safe (.start s) l := by
  apply always_and_eachStep_iff (I := fun _ => True)
  · exact fun _ _ _ => trivial
  · intro w a _ hw
    exact hw.step_iff a
  · trivial
  · intro L hL
    simp [PickerWorld.start] at hL

/-- Lead 5 is dialled by `pod-a` at second 1; the call is placed, nothing clears
the in-flight entry, and the sweep six minutes later requeues the lead. -/
theorem sweep_requeues_dialled_lead :
    ¬ Always step NoRedial
      (.start
        { hopper := Hopper.push .empty 5 10
          agents := .empty
          tokens := some ⟨1, true⟩ })
      [.tick
        { podID := "pod-a"
          cfg := ⟨42, .predictive, 30, true⟩
          nowMs := 1000
          callUUID := "u-1"
          cacheActive := true
          leadStatus := fun _ => some "NEW"
          t04 := .ok ⟨"u-1", "job-1", 1, .success, ""⟩
          late := false },
        .expireLock 5,
        .sweep true (unixMilli 361000) [5]] := by
  intro h
  have hlast := h.last 5
  revert hlast
  decide +kernel

end Picker

end Vici2
