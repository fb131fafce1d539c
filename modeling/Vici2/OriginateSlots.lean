import Vici2.Originate

/-! The gateway slot of a failed originate. A slot taken by the gateway-cap
gate is given back on no later exit, so a failing run keeps the counter only
when it fails before any slot is taken. -/

namespace Vici2

namespace Originate

open Gateway (GatewayStore)

@[simp] theorem isOk_ok {ε α : Type*} (a : α) : (Except.ok a : Except ε α).isOk = true := rfl

@[simp] theorem isOk_error {ε α : Type*} (e : ε) : (Except.error e : Except ε α).isOk = false := rfl

inductive GateAnswer
  | allow
  | block
  | slot
  deriving DecidableEq, Repr

def answers (req : OriginateRequest) : GateScratch → List Gate → List GateAnswer
  | _, [] => []
  | scratch, .gatewayCap acquireErr :: gates =>
    (if acquireErr.isSome then .block else .slot) :: answers req (scratch.withGateway req) gates
  | scratch, .other _ check :: gates =>
    (if (check req scratch).1.block.isSome then .block else .allow) ::
      answers req (check req scratch).2 gates

/-- Slots taken and whether the run is blocked, with `room` slots left. -/
def slotsTaken (room : Int) : List GateAnswer → Nat × Bool
  | [] => (0, false)
  | .allow :: l => slotsTaken room l
  | .block :: _ => (0, true)
  | .slot :: l =>
    if room ≤ 0 then (0, true) else ((slotsTaken (room - 1) l).1 + 1, (slotsTaken (room - 1) l).2)

theorem slotsTaken_fst_eq_zero_iff (room : Int) (l : List GateAnswer) :
    (slotsTaken room l).1 = 0 ↔
      room ≤ 0 ∨ GateAnswer.slot ∉ l.takeWhile (fun a => a ≠ .block) := by
  induction l with
  | nil => simp [slotsTaken]
  | cons a l ih =>
    cases a with
    | allow => simpa [slotsTaken] using ih
    | block => simp [slotsTaken]
    | slot =>
      by_cases hr : room ≤ 0
      · simp [slotsTaken, hr]
      · simp [slotsTaken, hr]

theorem slotsTaken_snd_eq_false_iff (room : Int) (l : List GateAnswer) (hroom : 0 ≤ room) :
    (slotsTaken room l).2 = false ↔
      GateAnswer.block ∉ l ∧ (l.count .slot : Int) ≤ room := by
  induction l generalizing room with
  | nil => simp [slotsTaken, hroom]
  | cons a l ih =>
    cases a with
    | allow => simpa [slotsTaken] using ih room hroom
    | block => simp [slotsTaken]
    | slot =>
      by_cases hr : room ≤ 0
      · have hc : ¬ ((l.count .slot : Int) + 1 ≤ room) := by omega
        simp [slotsTaken, hr, hc]
      · have hh := ih (room - 1) (by omega)
        have hc : ((l.count .slot : Int) + 1 ≤ room) ↔ (l.count .slot : Int) ≤ room - 1 := by omega
        simp [slotsTaken, hr, hh, hc]

theorem checkGatewayCap_slot {s : GatewayStore} {req : OriginateRequest}
    (hm : 0 < req.maxConcurrent) (hr : s.activeCount req.gatewayID < req.maxConcurrent) :
    (checkGatewayCap s none req).1.block = none ∧
      (checkGatewayCap s none req).2.activeCount req.gatewayID =
        s.activeCount req.gatewayID + 1 := by
  have ha := Gateway.acquire_allowed hr 0 req.leadID req.attemptUUID 0 inFlightTTLSec
  simp only [checkGatewayCap, not_le.mpr hm, if_false, ha, true_and]
  rw [Gateway.activeCount_update, if_pos rfl]

theorem checkGatewayCap_blocked {s : GatewayStore} {req : OriginateRequest}
    {acquireErr : Option String} (hm : 0 < req.maxConcurrent)
    (hr : acquireErr.isSome = true ∨ req.maxConcurrent ≤ s.activeCount req.gatewayID) :
    (checkGatewayCap s acquireErr req).1.block.isSome = true ∧
      (checkGatewayCap s acquireErr req).2 = s := by
  cases acquireErr with
  | some e => simp [checkGatewayCap, not_le.mpr hm, gatewayFull]
  | none =>
    have hr : req.maxConcurrent ≤ s.activeCount req.gatewayID := by simpa using hr
    have ha := Gateway.acquire_limit hr 0 req.leadID req.attemptUUID 0 inFlightTTLSec
    simp [checkGatewayCap, not_le.mpr hm, gatewayFull, ha]

theorem runGates_cons_blocked {req : OriginateRequest} {scratch : GateScratch} {s : GatewayStore}
    (gate : Gate) (gates : List Gate) (row : AuditRow)
    (h : (gate.check s req scratch).1.block.isSome = true) :
    (runGates req (gate :: gates) scratch row s).1.isOk = false ∧
      (runGates req (gate :: gates) scratch row s).2.2 = (gate.check s req scratch).2.2 := by
  rcases hc : gate.check s req scratch with ⟨⟨block, patch⟩, scratch', s'⟩
  rw [hc] at h
  obtain ⟨e, rfl⟩ := Option.isSome_iff_exists.mp h
  simp [runGates, hc]

theorem runGates_cons_allowed {req : OriginateRequest} {scratch : GateScratch} {s : GatewayStore}
    (gate : Gate) (gates : List Gate) (row : AuditRow)
    (h : (gate.check s req scratch).1.block = none) :
    runGates req (gate :: gates) scratch row s =
      runGates req gates (gate.check s req scratch).2.1
        (row.applyPatch (gate.check s req scratch).1.auditPatch)
        (gate.check s req scratch).2.2 := by
  rcases hc : gate.check s req scratch with ⟨⟨block, patch⟩, scratch', s'⟩
  rw [hc] at h
  obtain rfl : block = none := h
  simp [runGates, hc]

theorem runGates_slots {req : OriginateRequest} (hm : 0 < req.maxConcurrent) (gates : List Gate)
    (scratch : GateScratch) (row : AuditRow) (s : GatewayStore) :
    (runGates req gates scratch row s).2.2.activeCount req.gatewayID =
        s.activeCount req.gatewayID +
          (slotsTaken (req.maxConcurrent - s.activeCount req.gatewayID)
            (answers req scratch gates)).1 ∧
      ((runGates req gates scratch row s).1.isOk = true ↔
        (slotsTaken (req.maxConcurrent - s.activeCount req.gatewayID)
          (answers req scratch gates)).2 = false) := by
  induction gates generalizing scratch row s with
  | nil => simp [runGates, answers, slotsTaken]
  | cons gate gates ih =>
    cases gate with
    | other name check =>
      by_cases hb : (check req scratch).1.block.isSome = true
      · obtain ⟨hok, hs⟩ := runGates_cons_blocked (s := s) (.other name check) gates row hb
        rw [hok, hs]
        simp [answers, hb, slotsTaken, Gate.check]
      · have hn : (check req scratch).1.block = none := by simpa using hb
        have hh := ih (check req scratch).2 (row.applyPatch (check req scratch).1.auditPatch) s
        rw [runGates_cons_allowed (.other name check) gates row hn]
        simpa [answers, hb, slotsTaken, Gate.check] using hh
    | gatewayCap acquireErr =>
      by_cases hf : acquireErr.isSome = true ∨ req.maxConcurrent ≤ s.activeCount req.gatewayID
      · obtain ⟨hb, hs⟩ := checkGatewayCap_blocked hm hf
        have hb' : ((Gate.gatewayCap acquireErr).check s req scratch).1.block.isSome = true := hb
        obtain ⟨hok, hstore⟩ := runGates_cons_blocked (.gatewayCap acquireErr) gates row hb'
        have htaken : slotsTaken (req.maxConcurrent - s.activeCount req.gatewayID)
            (answers req scratch (.gatewayCap acquireErr :: gates)) = (0, true) := by
          by_cases he : acquireErr.isSome = true
          · simp [answers, he, slotsTaken]
          · have hroom : req.maxConcurrent - s.activeCount req.gatewayID ≤ 0 := by
              have := hf.resolve_left he
              omega
            simp [answers, he, slotsTaken, hroom]
        rw [hok, hstore, htaken]
        simp [Gate.check, hs]
      · obtain ⟨he, hr⟩ := not_or.mp hf
        obtain rfl : acquireErr = none := by simpa using he
        obtain ⟨hb, hs⟩ := checkGatewayCap_slot hm (not_le.mp hr)
        have hh := ih (scratch.withGateway req)
          (row.applyPatch (checkGatewayCap s none req).1.auditPatch) (checkGatewayCap s none req).2
        rw [runGates_cons_allowed (.gatewayCap none) gates row hb]
        have hroom : ¬ req.maxConcurrent - s.activeCount req.gatewayID ≤ 0 := by omega
        have hsub : req.maxConcurrent - (s.activeCount req.gatewayID + 1) =
            req.maxConcurrent - s.activeCount req.gatewayID - 1 := by omega
        rw [hs, hsub] at hh
        simp only [Gate.check, answers, Option.isSome_none, Bool.false_eq_true, if_false,
          slotsTaken, hroom]
        refine ⟨?_, hh.2⟩
        rw [hh.1]
        push_cast
        ring

/-- Nothing after the gates fails: the INSERT, where there is a database, and
T01, where it is wired. -/
def Delivers (env : OriginateEnv) : Prop :=
  (∀ db, env.db = some db → db.insertAuditRow.isOk = true) ∧
    ∀ r, env.t01 = some r → r.isOk = true

/-- Where the run reaches its gates: there is no cap or no room under it; or
some gate blocks before the first slot is taken; or nothing fails at all. -/
def SlotSafe (env : OriginateEnv) (gates : List Gate) (req : OriginateRequest)
    (s : GatewayStore) : Prop :=
  ∀ cidNum cidName cidSrc, req.attemptUUID ≠ "" → replay env req = none →
    pickCallerID env req = .ok (cidNum, cidName, cidSrc) →
    let l := answers req
      { callerID := cidNum, callerIDName := cidName, callerIDSource := some cidSrc } gates
    req.maxConcurrent ≤ 0 ∨ req.maxConcurrent ≤ s.activeCount req.gatewayID ∨
      GateAnswer.slot ∉ l.takeWhile (fun a => a ≠ .block) ∨
      (GateAnswer.block ∉ l ∧
        s.activeCount req.gatewayID + l.count .slot ≤ req.maxConcurrent ∧ Delivers env)

def KeepsSlotOnFailure (env : OriginateEnv) (gates : List Gate) (req : OriginateRequest)
    (s : GatewayStore) : Prop :=
  (originate env gates req s).result.isOk = false →
    (originate env gates req s).store.activeCount req.gatewayID = s.activeCount req.gatewayID

theorem dial_store (env : OriginateEnv) (req : OriginateRequest) (scratch : GateScratch)
    (row : AuditRow) (writes : List AuditWrite) (s : GatewayStore) :
    (dial env req scratch row writes s).store = s := by
  unfold dial
  cases env.t01.getD (.ok req.attemptUUID) with
  | error e => rfl
  | ok u => rfl

theorem dial_isOk (env : OriginateEnv) (req : OriginateRequest) (scratch : GateScratch)
    (row : AuditRow) (writes : List AuditWrite) (s : GatewayStore) :
    (dial env req scratch row writes s).result.isOk = true ↔
      ∀ r, env.t01 = some r → r.isOk = true := by
  unfold dial
  rcases ht : env.t01 with _ | (e | u)
  · simp
  · simp
  · simp

theorem gateAndDial_store (env : OriginateEnv) (gates : List Gate) (req : OriginateRequest)
    (scratch : GateScratch) (row : AuditRow) (s : GatewayStore) :
    (gateAndDial env gates req scratch row s).store = (runGates req gates scratch row s).2.2 := by
  unfold gateAndDial
  rcases runGates req gates scratch row s with ⟨e | scratch', row', s'⟩
  · rfl
  · rcases env.db with _ | db
    · exact dial_store ..
    · rcases hi : db.insertAuditRow with e | id
      · simp [hi]
      · simp [hi, dial_store]

theorem gateAndDial_isOk (env : OriginateEnv) (gates : List Gate) (req : OriginateRequest)
    (scratch : GateScratch) (row : AuditRow) (s : GatewayStore) :
    (gateAndDial env gates req scratch row s).result.isOk = true ↔
      (runGates req gates scratch row s).1.isOk = true ∧ Delivers env := by
  unfold gateAndDial Delivers
  rcases runGates req gates scratch row s with ⟨e | scratch', row', s'⟩
  · simp
  · rcases hdb : env.db with _ | db
    · simp [dial_isOk]
    · rcases hi : db.insertAuditRow with e | id
      · simp [hi]
      · have hd := dial_isOk env req scratch' { row' with outcome := some .other, id := id }
          [.insert { row' with outcome := some .other }] s'
        simpa [hi] using hd

theorem runGates_uncapped {req : OriginateRequest} (hm : req.maxConcurrent ≤ 0) (gates : List Gate)
    (scratch : GateScratch) (row : AuditRow) (s : GatewayStore) :
    (runGates req gates scratch row s).2.2 = s := by
  induction gates generalizing scratch row with
  | nil => rfl
  | cons gate gates ih =>
    have hs : (gate.check s req scratch).2.2 = s := by
      cases gate with
      | gatewayCap acquireErr => simp [Gate.check, checkGatewayCap, hm]
      | other name check => rfl
    by_cases hb : (gate.check s req scratch).1.block.isSome = true
    · rw [(runGates_cons_blocked gate gates row hb).2, hs]
    · rw [runGates_cons_allowed gate gates row (by simpa using hb), hs]
      exact ih _ _

theorem gateAndDial_keeps_iff (env : OriginateEnv) (gates : List Gate) (req : OriginateRequest)
    (scratch : GateScratch) (row : AuditRow) (s : GatewayStore) :
    ((gateAndDial env gates req scratch row s).result.isOk = false →
        (gateAndDial env gates req scratch row s).store.activeCount req.gatewayID =
          s.activeCount req.gatewayID) ↔
      req.maxConcurrent ≤ 0 ∨ req.maxConcurrent ≤ s.activeCount req.gatewayID ∨
        GateAnswer.slot ∉ (answers req scratch gates).takeWhile (fun a => a ≠ .block) ∨
        (GateAnswer.block ∉ answers req scratch gates ∧
          s.activeCount req.gatewayID + (answers req scratch gates).count .slot ≤
            req.maxConcurrent ∧ Delivers env) := by
  rw [gateAndDial_store]
  by_cases hm : req.maxConcurrent ≤ 0
  · rw [runGates_uncapped hm]
    simp [hm]
  · obtain ⟨hcount, hok⟩ := runGates_slots (not_le.mp hm) gates scratch row s
    have hzero := slotsTaken_fst_eq_zero_iff (req.maxConcurrent - s.activeCount req.gatewayID)
      (answers req scratch gates)
    have hres := gateAndDial_isOk env gates req scratch row s
    rw [hcount]
    by_cases hfull : req.maxConcurrent ≤ s.activeCount req.gatewayID
    · have hz := hzero.mpr (.inl (by omega))
      simp [hz, hfull]
    · have hfree := slotsTaken_snd_eq_false_iff
        (req.maxConcurrent - s.activeCount req.gatewayID) (answers req scratch gates) (by omega)
      have hroom : ((answers req scratch gates).count .slot : Int) ≤
          req.maxConcurrent - s.activeCount req.gatewayID ↔
            s.activeCount req.gatewayID + (answers req scratch gates).count .slot ≤
              req.maxConcurrent := by omega
      rw [hok, hfree, hroom, and_assoc] at hres
      constructor
      · intro h
        by_cases hr : (gateAndDial env gates req scratch row s).result.isOk = true
        · exact .inr (.inr (.inr (hres.mp hr)))
        · have hkeep := h (by simpa using hr)
          have hz := hzero.mp (by omega)
          exact .inr (.inr (.inl (hz.resolve_left (by omega))))
      · rintro (h | h | h | h) hfail
        · exact absurd h hm
        · exact absurd h hfull
        · have hz := hzero.mpr (.inr h)
          omega
        · rw [hres.mpr h] at hfail
          simp at hfail

/-- A failed originate leaves the gateway's active-call counter as it was
exactly when it never reaches its gates, takes no slot, or does not fail. -/
theorem originate_keeps_slot_on_failure_iff (env : OriginateEnv) (gates : List Gate)
    (req : OriginateRequest) (s : GatewayStore) :
    KeepsSlotOnFailure env gates req s ↔ SlotSafe env gates req s := by
  unfold KeepsSlotOnFailure SlotSafe originate
  by_cases hu : req.attemptUUID = ""
  · simp [hu]
  · rcases hr : replay env req with _ | result
    · rcases hp : pickCallerID env req with e | ⟨cidNum, cidName, cidSrc⟩
      · simp [hu]
      · have hk := gateAndDial_keeps_iff env gates req
          { callerID := cidNum, callerIDName := cidName, callerIDSource := some cidSrc }
          (newAuditRow env req cidNum cidSrc) s
        simpa [hu, hr, hp] using hk
    · simp [hu]

def sampleRequest : OriginateRequest where
  attemptUUID := "6f1f2a52-6f0e-4c3e-9a3e-0d8f6f7f6c11"
  tenantID := 1
  leadID := 5
  campaignID := "42"
  listID := 9
  agentID := 0
  destNumber := "+15551230000"
  mode := .predictive
  callerIDOverride := ""
  callerIDName := ""
  gatewayID := 7
  gatewayName := "twilio_main"
  carrierID := 3
  fsHost := ""
  bypassToken := ""
  requestID := ""
  ipAddress := ""
  actorUserID := 0
  dialTimeout := 22
  recordingMode := .all
  callerIDCampaign := "+15559870000"
  listCallerID := none
  leadState := "TX"
  callerState := "TX"
  isAutoDialer := true
  maxConcurrent := 10
  dropCapPct := 0
  amdAction := "drop"
  vmDropRequiresConsent := true
  numberPoolID := 0
  localPresenceAreaCode := ""

def dncBlocks : Gate :=
  .other "dnc" fun req scratch =>
    (⟨some (newDNCErr req.attemptUUID "internal"), { dncDecision := "BLOCK" }⟩, scratch)

theorem dnc_block_leaks_slot :
    ¬ KeepsSlotOnFailure ⟨none, none, none, 1, 2⟩ [.gatewayCap none, dncBlocks] sampleRequest
      GatewayStore.empty := by
  unfold KeepsSlotOnFailure
  decide

end Originate

end Vici2
