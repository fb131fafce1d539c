import Vici2.PickerOrphans

/-! A dial that an agent asks for: the picker claims the lead at the head of the hopper and
takes the claim to be the requested lead's. Which leads it touches, while any other work may
go on between its commands. -/

namespace Vici2

namespace Picker

open Hopper (HopperStore LeadLock)
open Originate (OriginateError OriginateResult)

structure LeadClaim where
  leadID : Int
  campaignID : Int
  lockVal : String
  deriving DecidableEq, Repr

structure ManualDispatchRequest where
  tenantID : Int
  campaignID : Int
  agentID : Int
  leadID : Int

structure ManualDispatchResult where
  attemptUUID : String
  callUUID : String
  deriving DecidableEq, Repr

/-- What a manual dispatch meets: its pod, the cached campaign, the clock at the claim and at
the release, what others do to the store until T04 answers, and that answer. -/
structure ManualInput where
  podID : String
  cfg : Option CampaignConfig
  claimMs : Int
  meanwhile : PickerStore → PickerStore
  t04 : LeadClaim → Except OriginateError OriginateResult
  releaseMs : Int

def errHopperEmpty : String := "picker: hopper empty for campaign"

def originateErrorText : OriginateError → String
  | .typed e => e.msg
  | .plain msg => msg

/-- `Claimer.Claim`. -/
def claimerClaim (s : PickerStore) (campaignID : Int) (instanceID : String)
    (lockTTLSec nowMs : Int) : Except String LeadClaim × PickerStore :=
  match Hopper.claim s.hopper instanceID lockTTLSec nowMs with
  | (.error e, h) => (.error ("picker: claim lead: " ++ e), { s with hopper := h })
  | (.ok (leadID, lockVal), h) =>
    if leadID = 0 then (.error errHopperEmpty, { s with hopper := h })
    else (.ok ⟨leadID, campaignID, lockVal⟩, { s with hopper := h })

/-- A manual dispatch: the claim that T04 is called with, the store after the claim, when T04
has answered and at the end, and the result. -/
structure ManualRun where
  claim : Option LeadClaim := none
  claimed : PickerStore
  answered : PickerStore
  final : PickerStore
  result : Except String ManualDispatchResult

def dispatchManual (s : PickerStore) (req : ManualDispatchRequest) (inp : ManualInput) :
    ManualRun :=
  match inp.cfg with
  | none =>
    ⟨none, s, s, s, .error ("picker: campaign " ++ toString req.campaignID ++ " not active")⟩
  | some cfg =>
    match claimerClaim s req.campaignID inp.podID cfg.leadLockTTLSec inp.claimMs with
    | (.error e, s) => ⟨none, s, s, s, .error ("picker: manual dispatch claim: " ++ e)⟩
    | (.ok claim, s) =>
      let claim := { claim with leadID := req.leadID }
      let answered := inp.meanwhile s
      match inp.t04 claim with
      | .error e =>
        ⟨some claim, s, answered,
          releaseWithPolicy answered claim.leadID claim.lockVal .carrierFail inp.releaseMs,
          .error ("picker: manual dispatch originate: " ++ originateErrorText e)⟩
      | .ok res => ⟨some claim, s, answered, answered, .ok ⟨res.attemptUUID, res.callUUID⟩⟩

/-- All but one lead keep their place in or out of the hopper, their lock and their in-flight
entry. -/
structure SparesOthers (leadID : Int) (s s' : HopperStore) : Prop where
  hopper : ∀ x, x ≠ leadID → (x ∈ s'.hopper ↔ x ∈ s.hopper)
  lock : ∀ x, x ≠ leadID → s'.lock x = s.lock x
  inFlight : ∀ x, x ≠ leadID → s'.inFlight x = s.inFlight x

/-- The lock and the in-flight entry of the claim's lead are those of the claim. -/
def Holds (s : HopperStore) (c : LeadClaim) : Prop :=
  (∃ ttlSec, s.lock c.leadID = some ⟨c.lockVal, ttlSec⟩) ∧ s.inFlight c.leadID = some c.lockVal

/-- A manual dispatch claims and releases no lead but the requested one. -/
structure ConservesLeads (s : PickerStore) (req : ManualDispatchRequest) (r : ManualRun) :
    Prop where
  claims : SparesOthers req.leadID s.hopper r.claimed.hopper
  holds : ∀ c ∈ r.claim, c.leadID = req.leadID ∧ Holds r.claimed.hopper c
  releases : SparesOthers req.leadID r.answered.hopper r.final.hopper

theorem SparesOthers.refl (leadID : Int) (s : HopperStore) : SparesOthers leadID s s :=
  ⟨fun _ _ => Iff.rfl, fun _ _ => rfl, fun _ _ => rfl⟩

theorem releaseWithPolicy_sparesOthers (s : PickerStore) (leadID : Int) (lockVal : String)
    (outcome : DialOutcome) (nowMs : Int) :
    SparesOthers leadID s.hopper (releaseWithPolicy s leadID lockVal outcome nowMs).hopper := by
  by_cases hf : Hopper.Fences s.hopper leadID lockVal
  · simp only [releaseWithPolicy, Hopper.release_fenced hf]
    exact SparesOthers.refl leadID s.hopper
  · simp only [releaseWithPolicy, Hopper.release_unfenced hf]
    refine ⟨fun x hx => ?_, fun x hx => Function.update_of_ne hx _ _,
      fun x hx => Function.update_of_ne hx _ _⟩
    split
    · rw [ZSet.mem_zadd]
      exact ⟨fun h => h.resolve_left hx, Or.inr⟩
    · exact Iff.rfl

section Claim

variable {s : PickerStore} {podID : String} (campaignID ttlSec nowMs : Int)

/-- A claim of nothing puts a lead whose lock is taken back where it was. -/
theorem claimerClaim_none (h : nextLead s.hopper podID = none) :
    ∃ e s', claimerClaim s campaignID podID ttlSec nowMs = (.error e, s') ∧
      ∀ leadID, SparesOthers leadID s.hopper s'.hopper := by
  by_cases hp : podID = ""
  · refine ⟨"picker: claim lead: valkey: Claim requires instanceID", s, ?_,
      fun leadID => SparesOthers.refl leadID s.hopper⟩
    simp only [claimerClaim, Hopper.claim, hp, if_true]
    rfl
  · simp only [nextLead, hp, if_false, ZSet.zfirst_eq_zpopmin] at h
    cases hz : s.hopper.hopper.zpopmin with
    | none =>
      refine ⟨errHopperEmpty, s, ?_, fun leadID => SparesOthers.refl leadID s.hopper⟩
      simp [claimerClaim, Hopper.claim, hp, Hopper.claimLeadFromHopper, hz]
    | some popped =>
      obtain ⟨⟨head, score⟩, rest⟩ := popped
      cases hl : s.hopper.lock head with
      | none => simp [hz, hl] at h
      | some lk =>
        refine ⟨errHopperEmpty,
          { s with hopper := { s.hopper with hopper := rest.zadd head score } },
          ?_, fun leadID => ⟨fun x _ => ?_, fun _ _ => rfl, fun _ _ => rfl⟩⟩
        · simp [claimerClaim, Hopper.claim, hp, Hopper.claimLeadFromHopper, hz, hl]
        · have hhead : head ∈ s.hopper.hopper := ZSet.mem_of_zpopmin hz
          have hrest : x ∈ rest ↔ x ∈ s.hopper.hopper ∧ x ≠ head := ZSet.mem_zpopmin hz
          rw [ZSet.mem_zadd, hrest]
          by_cases hx : x = head
          · subst hx
            exact ⟨fun _ => hhead, fun _ => Or.inl rfl⟩
          · exact ⟨fun h => (h.resolve_left hx).1, fun h => Or.inr ⟨h, hx⟩⟩

/-- A claim takes the lead at the head, whichever lead was meant; a lead numbered zero is taken
but not reported. -/
theorem claimerClaim_some {head : Int} (h : nextLead s.hopper podID = some head) :
    ∃ s' lockVal, SparesOthers head s.hopper s'.hopper ∧
      head ∈ s.hopper.hopper ∧ head ∉ s'.hopper.hopper ∧
      Holds s'.hopper ⟨head, campaignID, lockVal⟩ ∧
      ((head = 0 ∧ claimerClaim s campaignID podID ttlSec nowMs = (.error errHopperEmpty, s')) ∨
        (head ≠ 0 ∧ claimerClaim s campaignID podID ttlSec nowMs =
          (.ok ⟨head, campaignID, lockVal⟩, s'))) := by
  by_cases hp : podID = ""
  · simp [nextLead, hp] at h
  · simp only [nextLead, hp, if_false, ZSet.zfirst_eq_zpopmin] at h
    cases hz : s.hopper.hopper.zpopmin with
    | none => simp [hz] at h
    | some popped =>
      obtain ⟨⟨first, score⟩, rest⟩ := popped
      obtain ⟨rfl, hl⟩ : first = head ∧ s.hopper.lock head = none := by simpa [hz] using h
      let lockVal := podID ++ ":" ++ toString nowMs
      let ttl := if ttlSec ≤ 0 then Hopper.defaultLockTTLSec else ttlSec
      let s' : PickerStore :=
        { s with
          hopper :=
            { hopper := rest
              lock := Function.update s.hopper.lock first (some ⟨lockVal, ttl⟩)
              inFlight := Function.update s.hopper.inFlight first (some lockVal) } }
      have hrest : ∀ x, x ∈ rest ↔ x ∈ s.hopper.hopper ∧ x ≠ first := fun x => ZSet.mem_zpopmin hz
      refine ⟨s', lockVal, ⟨fun x hx => ?_, fun x hx => ?_, fun x hx => ?_⟩,
        ZSet.mem_of_zpopmin hz, fun hmem => ((hrest first).1 hmem).2 rfl,
        ⟨⟨ttl, Function.update_self _ _ _⟩, Function.update_self _ _ _⟩, ?_⟩
      · exact (hrest x).trans ⟨fun h => h.1, fun h => ⟨h, hx⟩⟩
      · exact Function.update_of_ne hx _ _
      · exact Function.update_of_ne hx _ _
      · by_cases hzero : first = 0
        · refine Or.inl ⟨hzero, ?_⟩
          simp only [claimerClaim, Hopper.claim, hp, if_false, Hopper.claimLeadFromHopper, hz, hl]
          rw [if_pos hzero]
        · refine Or.inr ⟨hzero, ?_⟩
          simp only [claimerClaim, Hopper.claim, hp, if_false, Hopper.claimLeadFromHopper, hz, hl]
          rw [if_neg hzero]

end Claim

section Dispatch

variable {s : PickerStore} {req : ManualDispatchRequest} {inp : ManualInput}

theorem dispatchManual_of_error {cfg : CampaignConfig} (hcfg : inp.cfg = some cfg) {e : String}
    {s' : PickerStore}
    (h : claimerClaim s req.campaignID inp.podID cfg.leadLockTTLSec inp.claimMs = (.error e, s')) :
    dispatchManual s req inp =
      ⟨none, s', s', s', .error ("picker: manual dispatch claim: " ++ e)⟩ := by
  unfold dispatchManual
  rw [hcfg]
  dsimp only
  rw [h]

theorem dispatchManual_of_claim {cfg : CampaignConfig} (hcfg : inp.cfg = some cfg)
    {claim : LeadClaim} {s' : PickerStore}
    (h : claimerClaim s req.campaignID inp.podID cfg.leadLockTTLSec inp.claimMs = (.ok claim, s')) :
    let r := dispatchManual s req inp
    r.claim = some { claim with leadID := req.leadID } ∧ r.claimed = s' ∧
      SparesOthers req.leadID r.answered.hopper r.final.hopper := by
  unfold dispatchManual
  rw [hcfg]
  dsimp only
  rw [h]
  dsimp only
  cases inp.t04 { claim with leadID := req.leadID } with
  | error e => exact ⟨rfl, rfl, releaseWithPolicy_sparesOthers _ _ _ _ _⟩
  | ok res => exact ⟨rfl, rfl, SparesOthers.refl _ _⟩

theorem conservesLeads_of_error {s' : PickerStore} {text : String}
    (h : SparesOthers req.leadID s.hopper s'.hopper) :
    ConservesLeads s req ⟨none, s', s', s', .error text⟩ :=
  ⟨h, fun _ hc => absurd hc (Option.not_mem_none _), SparesOthers.refl _ _⟩

/-- A dispatch that takes a head other than the requested lead removes it from the hopper. -/
theorem not_conservesLeads {r : ManualRun} {head : Int} (hne : head ≠ req.leadID)
    (hin : head ∈ s.hopper.hopper) (hout : head ∉ r.claimed.hopper.hopper) :
    ¬ ConservesLeads s req r :=
  fun h => hout ((h.claims.hopper head hne).2 hin)

/-- Leads are conserved exactly where the campaign is not active here, or the claim takes no lead,
or the lead at the head of the hopper is the requested one. -/
theorem dispatchManual_conserves_iff (s : PickerStore) (req : ManualDispatchRequest)
    (inp : ManualInput) :
    ConservesLeads s req (dispatchManual s req inp) ↔
      inp.cfg = none ∨ ∀ head, nextLead s.hopper inp.podID = some head → head = req.leadID := by
  cases hcfg : inp.cfg with
  | none =>
    have hrun : dispatchManual s req inp = ⟨none, s, s, s,
        .error ("picker: campaign " ++ toString req.campaignID ++ " not active")⟩ := by
      unfold dispatchManual
      rw [hcfg]
    rw [hrun]
    exact ⟨fun _ => Or.inl rfl, fun _ => conservesLeads_of_error (SparesOthers.refl _ _)⟩
  | some cfg =>
    rw [or_iff_right (by simp)]
    cases hnext : nextLead s.hopper inp.podID with
    | none =>
      obtain ⟨e, s', hclaim, hspares⟩ := claimerClaim_none req.campaignID
        cfg.leadLockTTLSec inp.claimMs hnext
      rw [dispatchManual_of_error hcfg hclaim]
      exact ⟨fun _ head hhead => by simp at hhead, fun _ => conservesLeads_of_error (hspares _)⟩
    | some head =>
      obtain ⟨s', lockVal, hspares, hin, hout, hholds, hclaim⟩ :=
        claimerClaim_some req.campaignID cfg.leadLockTTLSec inp.claimMs hnext
      have hclaimed : (dispatchManual s req inp).claimed = s' := by
        rcases hclaim with ⟨-, herror⟩ | ⟨-, hok⟩
        · rw [dispatchManual_of_error hcfg herror]
        · exact (dispatchManual_of_claim hcfg hok).2.1
      constructor
      · rintro h head' hhead'
        obtain rfl := Option.some.inj hhead'
        by_contra hne
        exact not_conservesLeads hne hin (hclaimed.symm ▸ hout) h
      · intro h
        obtain rfl := h head rfl
        rcases hclaim with ⟨-, herror⟩ | ⟨-, hok⟩
        · rw [dispatchManual_of_error hcfg herror]
          exact conservesLeads_of_error hspares
        · obtain ⟨hrun, -, hreleases⟩ := dispatchManual_of_claim hcfg hok
          refine ⟨hclaimed.symm ▸ hspares, fun c hc => ?_, hreleases⟩
          rw [hrun] at hc
          obtain rfl := Option.some.inj hc
          exact ⟨rfl, hclaimed.symm ▸ hholds⟩

end Dispatch

/-- Leads 7 and 9 wait, in this order. -/
def twoLeads : PickerStore where
  hopper := { HopperStore.empty with hopper := ⟨[(7, 0), (9, 1)], by decide⟩ }
  agents := Agents.AgentStore.empty
  tokens := none

def manualInput : ManualInput where
  podID := "pod-1"
  cfg := some ⟨1, .manual, 30, true⟩
  claimMs := 1000
  meanwhile := id
  t04 := fun _ => .error (.plain "originate: carrier down")
  releaseMs := 2000

/-- A dial of lead 9 takes lead 7 out of the hopper. -/
theorem manual_dispatch_takes_head : ¬ ∀ (s : PickerStore) (req : ManualDispatchRequest)
    (inp : ManualInput), ConservesLeads s req (dispatchManual s req inp) := by
  intro h
  refine @not_conservesLeads _ _ _ 7 ?_ ?_ ?_ (h twoLeads ⟨1, 1, 4, 9⟩ manualInput)
  · decide
  · decide
  · decide

end Picker

end Vici2
