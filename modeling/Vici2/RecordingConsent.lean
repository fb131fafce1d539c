import Vici2.OriginateSlots

/-! Consent to record a call: the check that joins the requirements of the two states, the
tenant and the campaign, the gate that asks it for a call, and what the channel variables make
of its decision. -/

namespace Vici2

namespace Consent

open Originate (AuditRowPatch GateResult GateScratch OriginateRequest RecordingMode
  buildChannelVars newConsentBlockErr)

/-- From the least to the most strict. -/
inductive Mode
  | allow
  | promptBeep
  | promptMessage
  | requireActive
  | skip
  deriving DecidableEq, Repr

def Mode.rank : Mode → Nat
  | .allow => 0
  | .promptBeep => 1
  | .promptMessage => 2
  | .requireActive => 3
  | .skip => 4

def Mode.text : Mode → String
  | .allow => "ALLOW"
  | .promptBeep => "PROMPT_BEEP"
  | .promptMessage => "PROMPT_MESSAGE"
  | .requireActive => "REQUIRE_ACTIVE"
  | .skip => "SKIP"

theorem Mode.rank_injective : Function.Injective Mode.rank := by
  intro a b h
  cases a <;> cases b <;> first | rfl | exact absurd h (by decide)

instance : LinearOrder Mode := LinearOrder.lift' Mode.rank Mode.rank_injective

def stricterOf (a b : Mode) : Mode := if b < a then a else b

inductive RecordingPurpose
  | general
  | training
  | qualityControl
  | monitoring
  | other (text : String)
  deriving DecidableEq, Repr

inductive CampaignRecordingPolicy
  | always
  | never
  | onDemand
  | auto
  | other (text : String)
  deriving DecidableEq, Repr

inductive Reason
  | ok
  | campaignDisabled
  | tenantPolicySkip
  | state2PartyLead
  | state2PartyCaller
  | state2PartyBoth
  | tenantMinimumFloor
  | campaignOverride
  | b2bPACarveout
  | leadStateUnknown
  | callerStateUnknown
  | requireActiveTenant
  | requireActiveCampaign
  | beepTenant
  | beepCampaign
  deriving DecidableEq, Repr

structure ConsentRule where
  minimumMode : Mode
  b2bExempt : Bool
  citation : String

/-- The rules of the states that have one. -/
abbrev Rules := String → Option ConsentRule

structure CheckRequest where
  leadState : String
  callerState : String
  leadIsBusiness : Bool := false
  campaignRecordingPurpose : RecordingPurpose := .other ""
  campaignRecordingPolicy : CampaignRecordingPolicy := .other ""
  tenantMinimumMode : Mode := .allow
  campaignOverrideMode : Option Mode := none
  consentMsgAudioPath : String := ""
  optOutAction : String := ""

structure CheckResult where
  decision : Mode
  stateApplied : String
  mechanism : String
  reason : Reason
  promptAudio : String := ""
  optOutAction : String := ""
  citation : String := ""
  consentRequired : Bool
  consentRecord : Bool
  deriving DecidableEq, Repr

def pickReason (campaignBumped tenantBumped leadHas callerHas leadStateUnknown
    callerStateUnknown : Bool) (final tenantMin : Mode) : Reason :=
  if tenantMin = .skip then .tenantPolicySkip
  else if campaignBumped then
    if final = .requireActive then .requireActiveCampaign
    else if final = .promptBeep then .beepCampaign
    else .campaignOverride
  else if tenantBumped then
    if final = .requireActive then .requireActiveTenant
    else if final = .promptBeep then .beepTenant
    else .tenantMinimumFloor
  else if leadStateUnknown then .leadStateUnknown
  else if callerStateUnknown ∧ ¬ leadHas then .callerStateUnknown
  else if leadHas ∧ callerHas then .state2PartyBoth
  else if leadHas then .state2PartyLead
  else if callerHas then .state2PartyCaller
  else if callerStateUnknown then .callerStateUnknown
  else .ok

section Check

variable (rules : Rules)

/-- What the law of the lead's state asks for; an unknown state is taken to ask for a message. -/
def leadMode (state : String) : Mode :=
  match rules state with
  | some rule => rule.minimumMode
  | none => if state = "" then .promptMessage else .allow

def callerMode (state : String) : Mode :=
  match rules state with
  | some rule => rule.minimumMode
  | none => .allow

/-- The rule of the lead's state, where its carve-out for calls to businesses applies. -/
def b2bRule (req : CheckRequest) : Option ConsentRule :=
  (rules req.leadState).filter fun rule =>
    req.leadIsBusiness ∧ rule.b2bExempt ∧
      (req.campaignRecordingPurpose = .training ∨ req.campaignRecordingPurpose = .qualityControl ∨
        req.campaignRecordingPurpose = .monitoring)

def checkConsent (req : CheckRequest) : CheckResult :=
  if req.campaignRecordingPolicy = .never then
    { decision := .skip
      stateApplied := req.leadState
      mechanism := "SKIP/campaign-recording-never"
      reason := .campaignDisabled
      consentRequired := false
      consentRecord := false }
  else
    let lead := leadMode rules req.leadState
    let caller := callerMode rules req.callerState
    let legalFloor := stricterOf lead caller
    let states := "/lead=" ++ req.leadState ++ "/caller=" ++ req.callerState
    match b2bRule rules req with
    | some rule =>
      { decision := .allow
        stateApplied := req.leadState
        mechanism := "ALLOW/b2b-pa-carveout" ++ states
        reason := .b2bPACarveout
        citation := rule.citation
        consentRequired := false
        consentRecord := true }
    | none =>
      let legalOrTenant := stricterOf legalFloor req.tenantMinimumMode
      let final := match req.campaignOverrideMode with
        | some override => stricterOf legalOrTenant override
        | none => legalOrTenant
      { decision := final
        stateApplied := if lead < caller then req.callerState else req.leadState
        mechanism := final.text ++ states
        reason := pickReason (legalOrTenant < final) (legalFloor < req.tenantMinimumMode)
          (rules req.leadState).isSome (rules req.callerState).isSome
          (req.leadState = "" ∧ (rules req.leadState).isNone)
          (req.callerState = "" ∧ (rules req.callerState).isNone) final req.tenantMinimumMode
        promptAudio :=
          if final = .promptMessage ∨ final = .requireActive then req.consentMsgAudioPath else ""
        optOutAction := if final = .requireActive then req.optOutAction else ""
        citation := ((rules req.leadState).map ConsentRule.citation).getD ""
        consentRequired := final ≠ .allow ∧ final ≠ .skip
        consentRecord := final ≠ .skip }

end Check

def consentModeToAuditDecision : Mode → String
  | .allow => "ALLOW"
  | .skip => "SKIP_RECORDING"
  | .promptBeep | .promptMessage | .requireActive => "PROMPT"

def mapRecordingMode : RecordingMode → CampaignRecordingPolicy
  | .never => .never
  | .all | .allForce => .always
  | .onDemand => .onDemand
  | .other _ => .auto

/-- What the gate asks of the check: it passes neither the tenant's minimum nor the campaign's
override. -/
def consentRequest (req : OriginateRequest) : CheckRequest where
  leadState := req.leadState
  callerState := req.callerState
  campaignRecordingPolicy := mapRecordingMode req.recordingMode

def consentBlockErr (attemptUUID state : String) : Originate.BaseErr :=
  newConsentBlockErr attemptUUID ("consent_block:" ++ state)

/-- `ConsentGate.Check`. -/
def checkConsentGate (rules : Rules) (req : OriginateRequest) (scratch : GateScratch) :
    GateResult × GateScratch :=
  let decision := consentModeToAuditDecision (checkConsent rules (consentRequest req)).decision
  let patch : AuditRowPatch := { consentDecision := decision, consentState := req.leadState }
  if req.amdAction = "vmdrop" ∧ req.vmDropRequiresConsent ∧ decision ≠ "ALLOW" then
    (⟨some (consentBlockErr req.attemptUUID ("vmdrop_consent:" ++ req.leadState)),
      { patch with
        errorMessage := "vmdrop consent required; lead state=" ++ req.leadState ++ " decision=" ++
          decision
        consentDecision := "BLOCK" }⟩,
      { scratch with consentDecision := "BLOCK" })
  else (⟨none, patch⟩, { scratch with consentDecision := decision })

/-- The minimum of the tenant and the override of the campaign, as their rows have them. -/
structure ConsentPolicy where
  consentMinimumMode : Mode
  consentPolicyOverride : Option Mode

/-- A state whose law asks for more than one party's consent. -/
def TwoParty (rules : Rules) (state : String) : Prop :=
  ∃ rule ∈ rules state, .allow < rule.minimumMode

structure AtLeast (rules : Rules) (leadState callerState : String) (policy : ConsentPolicy)
    (decision : Mode) : Prop where
  lead : leadMode rules leadState ≤ decision
  caller : callerMode rules callerState ≤ decision
  tenant : policy.consentMinimumMode ≤ decision
  campaign : ∀ m ∈ policy.consentPolicyOverride, m ≤ decision

/-- The variables of a call tell the recorder to ask for consent or not to record. -/
def Restrains (vars : List (String × String)) : Prop :=
  vars.lookup "vici2_consent_required" = some "true" ∨
    vars.lookup "vici2_recording_mode" = some "OFF"

/-- Short of the campaign that never records, the decision is at least as strict as the law of
both states, the tenant and the campaign ask for, and with a two-party state the variables of a
call that the gate lets through restrain the recorder. -/
def HoldsFloor (rules : Rules) (policy : ConsentPolicy) (req : OriginateRequest) : Prop :=
  req.recordingMode ≠ .never →
    AtLeast rules req.leadState req.callerState policy
      (checkConsent rules (consentRequest req)).decision ∧
    ∀ scratch scratch' : GateScratch, (checkConsentGate rules req scratch).1.block = none →
      scratch'.consentDecision = (checkConsentGate rules req scratch).2.consentDecision →
      TwoParty rules req.leadState ∨ TwoParty rules req.callerState →
      Restrains (buildChannelVars req scratch')

theorem stricterOf_eq_max (a b : Mode) : stricterOf a b = max a b := by
  unfold stricterOf
  by_cases h : b < a
  · rw [if_pos h, max_eq_left h.le]
  · rw [if_neg h, max_eq_right (not_lt.1 h)]

theorem allow_le (m : Mode) : .allow ≤ m := Nat.zero_le m.rank

section Floor

variable {rules : Rules} {req : CheckRequest}

theorem decision_eq (hpolicy : req.campaignRecordingPolicy ≠ .never)
    (hb2b : b2bRule rules req = none) :
    (checkConsent rules req).decision =
      max (max (max (leadMode rules req.leadState) (callerMode rules req.callerState))
        req.tenantMinimumMode) (req.campaignOverrideMode.getD .allow) := by
  unfold checkConsent
  rw [if_neg hpolicy, hb2b]
  dsimp only
  cases req.campaignOverrideMode with
  | none =>
    show stricterOf (stricterOf _ _) _ = max _ .allow
    rw [max_eq_left (allow_le _), stricterOf_eq_max, stricterOf_eq_max]
  | some override =>
    show stricterOf (stricterOf (stricterOf _ _) _) override = max _ override
    rw [stricterOf_eq_max, stricterOf_eq_max, stricterOf_eq_max]

/-- The check joins all four requirements. -/
theorem checkConsent_atLeast (hpolicy : req.campaignRecordingPolicy ≠ .never)
    (hb2b : b2bRule rules req = none) :
    AtLeast rules req.leadState req.callerState ⟨req.tenantMinimumMode, req.campaignOverrideMode⟩
      (checkConsent rules req).decision := by
  rw [decision_eq hpolicy hb2b]
  refine ⟨?_, ?_, ?_, fun m hm => ?_⟩
  · exact le_max_of_le_left (le_max_of_le_left (le_max_left _ _))
  · exact le_max_of_le_left (le_max_of_le_left (le_max_right _ _))
  · exact le_max_of_le_left (le_max_right _ _)
  · have hsome : req.campaignOverrideMode = some m := hm
    rw [hsome]
    exact le_max_right _ _

theorem modes_of_twoParty {state : String} (h : TwoParty rules state) :
    .allow < leadMode rules state ∧ .allow < callerMode rules state := by
  obtain ⟨rule, hrule, hmode⟩ := h
  have hsome : rules state = some rule := hrule
  unfold leadMode callerMode
  rw [hsome]
  exact ⟨hmode, hmode⟩

end Floor

section Variables

theorem lookup_varIf {p : Prop} [Decidable p] {name key value : String} (h : key ≠ name) :
    (Originate.varIf p name value).lookup key = none := by
  unfold Originate.varIf
  split
  · rw [List.lookup_cons, beq_false_of_ne h]
    rfl
  · rfl

theorem lookup_consentRequired (req : OriginateRequest) (scratch : GateScratch) :
    (buildChannelVars req scratch).lookup "vici2_consent_required" =
      some (if scratch.consentDecision = "PROMPT" then "true" else "false") := by
  unfold buildChannelVars
  simp [List.lookup_append, lookup_varIf, List.lookup_cons]

theorem lookup_recordingMode (req : OriginateRequest) (scratch : GateScratch) :
    (buildChannelVars req scratch).lookup "vici2_recording_mode" =
      some (Originate.mapRecordingModeVar req.recordingMode scratch.consentDecision) := by
  unfold buildChannelVars
  simp [List.lookup_append, lookup_varIf, List.lookup_cons]

/-- Any decision above `ALLOW` restrains the recorder. -/
theorem restrains_of_decision {m : Mode} (hm : .allow < m) (req : OriginateRequest)
    {scratch : GateScratch} (hs : scratch.consentDecision = consentModeToAuditDecision m) :
    Restrains (buildChannelVars req scratch) := by
  unfold Restrains
  rw [lookup_consentRequired, lookup_recordingMode, hs]
  cases m with
  | allow => exact absurd hm (lt_irrefl _)
  | promptBeep => exact Or.inl rfl
  | promptMessage => exact Or.inl rfl
  | requireActive => exact Or.inl rfl
  | skip => exact Or.inr rfl

end Variables

section Gate

variable (rules : Rules) (req : OriginateRequest)

theorem consentRequest_policy (h : req.recordingMode ≠ .never) :
    (consentRequest req).campaignRecordingPolicy ≠ .never := by
  unfold consentRequest
  cases hm : req.recordingMode with
  | never => exact absurd hm h
  | onDemand => exact CampaignRecordingPolicy.noConfusion
  | all => exact CampaignRecordingPolicy.noConfusion
  | allForce => exact CampaignRecordingPolicy.noConfusion
  | other text => exact CampaignRecordingPolicy.noConfusion

/-- The gate never says that the lead is a business. -/
theorem b2bRule_consentRequest : b2bRule rules (consentRequest req) = none := by
  unfold b2bRule consentRequest
  cases rules req.leadState with
  | none => rfl
  | some rule => simp

theorem gate_decision {rules : Rules} {req : OriginateRequest} (h : req.recordingMode ≠ .never) :
    (checkConsent rules (consentRequest req)).decision =
      max (leadMode rules req.leadState) (callerMode rules req.callerState) := by
  rw [decision_eq (consentRequest_policy req h) (b2bRule_consentRequest rules req)]
  have htenant : (consentRequest req).tenantMinimumMode = .allow := rfl
  have hcampaign : (consentRequest req).campaignOverrideMode.getD .allow = .allow := rfl
  rw [htenant, hcampaign, max_eq_left (allow_le _), max_eq_left (allow_le _)]
  rfl

theorem gate_scratch {rules : Rules} {req : OriginateRequest} {scratch : GateScratch}
    (h : (checkConsentGate rules req scratch).1.block = none) :
    (checkConsentGate rules req scratch).2.consentDecision =
      consentModeToAuditDecision (checkConsent rules (consentRequest req)).decision := by
  unfold checkConsentGate at h ⊢
  dsimp only at h ⊢
  split
  · rename_i hblock
    rw [if_pos hblock] at h
    exact absurd h (Option.some_ne_none _)
  · rfl

/-- With a two-party state the variables of a call that passes the gate restrain the recorder. -/
theorem gate_restrains {rules : Rules} {req : OriginateRequest} (hmode : req.recordingMode ≠ .never)
    {scratch scratch' : GateScratch} (hpass : (checkConsentGate rules req scratch).1.block = none)
    (hs : scratch'.consentDecision = (checkConsentGate rules req scratch).2.consentDecision)
    (hstate : TwoParty rules req.leadState ∨ TwoParty rules req.callerState) :
    Restrains (buildChannelVars req scratch') := by
  rw [gate_scratch hpass] at hs
  apply restrains_of_decision _ req hs
  rw [gate_decision hmode]
  rcases hstate with hlead | hcaller
  · exact lt_max_of_lt_left (modes_of_twoParty hlead).1
  · exact lt_max_of_lt_right (modes_of_twoParty hcaller).2

/-- The check itself keeps every requirement it is given. A call keeps the floor exactly where its
campaign never records, or the law of the two states asks for as much as the tenant and the
campaign do. -/
theorem consent_floor_iff :
    (∀ creq : CheckRequest, creq.campaignRecordingPolicy ≠ .never → b2bRule rules creq = none →
      AtLeast rules creq.leadState creq.callerState
        ⟨creq.tenantMinimumMode, creq.campaignOverrideMode⟩ (checkConsent rules creq).decision) ∧
    ∀ policy : ConsentPolicy, HoldsFloor rules policy req ↔
      req.recordingMode = .never ∨
        (policy.consentMinimumMode ≤
            stricterOf (leadMode rules req.leadState) (callerMode rules req.callerState) ∧
          ∀ m ∈ policy.consentPolicyOverride,
            m ≤ stricterOf (leadMode rules req.leadState) (callerMode rules req.callerState)) := by
  refine ⟨fun creq hpolicy hb2b => checkConsent_atLeast hpolicy hb2b, fun policy => ?_⟩
  rw [stricterOf_eq_max]
  by_cases hmode : req.recordingMode = .never
  · exact iff_of_true (fun h => absurd hmode h) (Or.inl hmode)
  · rw [or_iff_right hmode]
    constructor
    · intro h
      obtain ⟨hfloor, -⟩ := h hmode
      rw [gate_decision hmode] at hfloor
      exact ⟨hfloor.tenant, hfloor.campaign⟩
    · intro h _
      refine ⟨?_, fun scratch scratch' hpass hs hstate => gate_restrains hmode hpass hs hstate⟩
      rw [gate_decision hmode]
      exact ⟨le_max_left _ _, le_max_right _ _, h.1, h.2⟩

end Gate

/-- A call between one-party states, for a tenant that asks for a message. -/
theorem tenant_minimum_not_asked : ¬ ∀ (rules : Rules) (policy : ConsentPolicy)
    (req : OriginateRequest), HoldsFloor rules policy req := by
  intro h
  have hfloor := (h (fun _ => none) ⟨.promptMessage, none⟩ Originate.sampleRequest (by decide)).1
  exact absurd hfloor.tenant (by decide)

end Consent

end Vici2
