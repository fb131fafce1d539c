import Vici2.CallbackLeads

/-! Statuses that a lead must not leave. `validateTransition` holds the rule;
dispositions and callbacks write the lead's status without it. -/

namespace Vici2

namespace Callbacks

structure IllegalTransition where
  old : Option String
  new : Option String
  errorCode : String
  reason : String

def illegalTransitions : List IllegalTransition :=
  [⟨none, some "INCALL", "illegal_to_incall", "INCALL is set by T01 CHANNEL_BRIDGE only"⟩,
    ⟨none, some "QUEUE", "illegal_to_queue", "QUEUE is set by E01 filler only"⟩,
    ⟨none, some "NEW", "illegal_to_new", "Cannot un-call a lead"⟩,
    ⟨some "SALE", none, "sale_immutable", "Sales are immutable without admin force-recycle"⟩,
    ⟨none, some "INVALID", "illegal_to_invalid", "INVALID is set by T04 hangup-map only"⟩,
    ⟨some "DNC", none, "dnc_immutable", "DNC is sticky by FTC TSR; use M06 admin path"⟩]

def IllegalTransition.forbids (rule : IllegalTransition) (old new : String) : Bool :=
  (rule.old = none ∧ rule.new = some new) ∨ (rule.old = some old ∧ rule.new = none) ∨
    (rule.old = some old ∧ rule.new = some new)

/-- The recycle delay of the system-wide row of a status, by tenant. -/
abbrev SystemStatuses := Int → String → Option (Option Int)

def validateTransition (sys : SystemStatuses) (tenantId : Int) (old new : String) :
    Except (String × String) Unit :=
  match illegalTransitions.find? fun rule => rule.forbids old new with
  | some rule => .error (rule.errorCode, rule.reason)
  | none =>
    if sys tenantId old = some (some (-1)) then
      .error ("terminal_status", "Status " ++ old ++
        " is terminal (recycleDelaySeconds=-1); use force-recycle endpoint")
    else .ok ()

/-- No transition leads out of the status. -/
def Sticky (sys : SystemStatuses) (tenantId : Int) (status : String) : Prop :=
  ∀ new, validateTransition sys tenantId status new ≠ .ok ()

structure EffectiveStatus where
  code : String
  selectable : Bool
  deriving DecidableEq, Repr

def systemOnly : List String := ["QUEUE", "INCALL", "NEW", "INVALID"]

/-- `DispositionService.submit`, given the statuses that the status service lists
for the campaign, where its transaction commits. One that is rolled back changes nothing
and is no operation of a run. -/
def submit (db : Db) (statuses : List EffectiveStatus) (tenantId leadId : Int)
    (statusCode : String) : Except String Db :=
  match statuses.find? fun s => s.code = statusCode with
  | none => .error "status_not_found"
  | some status =>
    if ¬ status.selectable then .error "status_not_agent_selectable"
    else if statusCode ∈ systemOnly then .error "illegal_disposition_code"
    else
      match db.leads leadId with
      | none => .error "lead_gone"
      | some lead =>
        if lead.tenantId = tenantId then .ok (db.setLeadStatus leadId statusCode)
        else .error "lead_gone"

inductive LeadOp
  | callback (op : CallbackOp)
  | submit (statuses : List EffectiveStatus) (tenantId leadId : Int) (statusCode : String)

def runLeadOp (db : Db) : LeadOp → Db
  | .callback op => runOp db op
  | .submit statuses tenantId leadId statusCode =>
    match submit db statuses tenantId leadId statusCode with
    | .ok db' => db'
    | .error _ => db

/-- A lead in a sticky status changes to no status that the rule rejects. -/
def StickyKept (sys : SystemStatuses) (db db' : Db) : Prop :=
  ∀ id, ∀ lead ∈ db.leads id, ∀ lead' ∈ db'.leads id, Sticky sys lead.tenantId lead.status →
    lead'.status = lead.status ∨
      validateTransition sys lead.tenantId lead.status lead'.status = .ok ()

def KeepsSticky (sys : SystemStatuses) (db : Db) (op : LeadOp) : Prop :=
  StickyKept sys db (runLeadOp db op)

/-- The lead is not in a sticky status, unless it is the one given. -/
def Spared (sys : SystemStatuses) (db : Db) (leadId : Int) (status : String) : Prop :=
  ∀ lead ∈ db.leads leadId, Sticky sys lead.tenantId lead.status → lead.status = status

def Write.Spares (sys : SystemStatuses) (db : Db) : Write → Prop
  | .create tenantId leadId _ _ leadStatus =>
    db.countPending tenantId leadId db.nextId = 0 → leadStatus ∉ ["CBHOLD", "CALLBK"] →
      Spared sys db leadId "CBHOLD"
  | .snooze .. => True
  | .cancel tenantId id leadId =>
    db.countOpen tenantId leadId id = 0 → Spared sys db leadId "NA"
  | .promote id leadId _ =>
    (∃ c ∈ db.callbacks, c.id = id ∧ c.status = .pending) → Spared sys db leadId "CALLBK"
  | .reschedule _ leadId _ => Spared sys db leadId "CBHOLD"
  | .terminate _ leadId => Spared sys db leadId "NA"

/-- An operation that is carried out and sets the status of its lead finds the
lead in a status that is not sticky, or already in the status it sets. -/
def SparesSticky (sys : SystemStatuses) (db : Db) : LeadOp → Prop
  | .callback (.create actor body now) => ∀ w, readCreate db actor body now = .ok w → w.Spares sys db
  | .callback (.snooze ..) => True
  | .callback (.cancel actor id) => ∀ w, readCancel db actor id = .ok w → w.Spares sys db
  | .callback (.bulkCancel ..) => True
  | .callback (.promote tenantId id dueBy) =>
    ∀ w, readDue db tenantId id dueBy = some w → w.Spares sys db
  | .callback (.noAnswer tenantId id policy) =>
    ∀ w, readNoAnswer db tenantId id policy = some w → w.Spares sys db
  | .submit statuses tenantId leadId statusCode =>
    (∃ s, (statuses.find? fun s => s.code = statusCode) = some s ∧ s.selectable = true) →
      statusCode ∉ systemOnly → (∃ lead, db.leads leadId = some lead ∧ lead.tenantId = tenantId) →
        Spared sys db leadId statusCode

theorem sticky_iff (sys : SystemStatuses) (tenantId : Int) (status : String) :
    Sticky sys tenantId status ↔
      status = "SALE" ∨ status = "DNC" ∨ sys tenantId status = some (some (-1)) := by
  constructor
  · intro h
    by_contra hnot
    push Not at hnot
    obtain ⟨hsale, hdnc, hterminal⟩ := hnot
    apply h "CBHOLD"
    have hnone : (illegalTransitions.find? fun rule => rule.forbids status "CBHOLD") = none := by
      simp [illegalTransitions, IllegalTransition.forbids, Ne.symm hsale, Ne.symm hdnc]
    unfold validateTransition
    rw [hnone]
    exact if_neg hterminal
  · intro h new hok
    have hrule : ∀ rule ∈ illegalTransitions, rule.forbids status new = false := by
      intro rule hmem
      unfold validateTransition at hok
      cases hfind : illegalTransitions.find? fun rule => rule.forbids status new with
      | some rule' =>
        rw [hfind] at hok
        cases hok
      | none => exact Bool.eq_false_iff.2 (List.find?_eq_none.1 hfind rule hmem)
    rcases h with rfl | rfl | hterminal
    · have hsale := hrule _ (List.mem_of_getElem? (i := 3) rfl)
      simp [IllegalTransition.forbids] at hsale
    · have hdnc := hrule _ (List.mem_of_getElem? (i := 5) rfl)
      simp [IllegalTransition.forbids] at hdnc
    · unfold validateTransition at hok
      split at hok
      · cases hok
      · rw [if_pos hterminal] at hok
        cases hok

theorem Sticky.status_eq {sys : SystemStatuses} {tenantId : Int} {status new : String}
    (h : Sticky sys tenantId status)
    (hkept : new = status ∨ validateTransition sys tenantId status new = .ok ()) : new = status := by
  rcases hkept with hsame | hok
  · exact hsame
  · exact absurd hok (h new)

section Writes

variable {sys : SystemStatuses} {db after : Db}

theorem stickyKept_of_leads (h : after.leads = db.leads) : StickyKept sys db after := by
  intro id lead hlead lead' hlead' _
  rw [h] at hlead'
  obtain rfl := Option.some.inj (hlead.symm.trans hlead')
  exact Or.inl rfl

/-- A lead takes the status given, and every other lead is as before. -/
theorem stickyKept_setLead_iff (h : after.leads = db.leads) (leadId : Int) {g : Lead → Lead}
    {status : String} (hg : ∀ lead, (g lead).status = status) :
    StickyKept sys db (after.setLead leadId g) ↔ Spared sys db leadId status := by
  constructor
  · intro hkept lead hlead hsticky
    have hset : (after.setLead leadId g).leads leadId = some (g lead) :=
      leads_setLead_self g ((congrFun h leadId).trans hlead)
    have hstatus := hsticky.status_eq (hkept leadId lead hlead (g lead) hset hsticky)
    rw [hg lead] at hstatus
    exact hstatus.symm
  · intro hspared id lead hlead lead' hlead' hsticky
    by_cases hid : id = leadId
    · subst id
      have hset : (after.setLead leadId g).leads leadId = some (g lead) :=
        leads_setLead_self g ((congrFun h leadId).trans hlead)
      obtain rfl := Option.some.inj (hset.symm.trans hlead')
      rw [hg lead]
      exact Or.inl (hspared lead hlead hsticky).symm
    · have hsame : (after.setLead leadId g).leads id = db.leads id :=
        (leads_setLead_ne g hid).trans (congrFun h id)
      rw [Option.mem_def, hsame] at hlead'
      obtain rfl := Option.some.inj (hlead.symm.trans hlead')
      exact Or.inl rfl

theorem stickyKept_ite_iff {p q : Prop} [Decidable p] {other : Db} (h : after.leads = db.leads)
    (hother : other.leads = db.leads) (leadId : Int) {g : Lead → Lead} {status : String}
    (hg : ∀ lead, (g lead).status = status) (hpq : p ↔ q) :
    StickyKept sys db (if p then after.setLead leadId g else other) ↔
      (q → Spared sys db leadId status) := by
  split
  · next hp =>
    rw [stickyKept_setLead_iff h leadId hg]
    exact ⟨fun hspared _ => hspared, fun hspared => hspared (hpq.1 hp)⟩
  · next hp => exact iff_of_true (stickyKept_of_leads hother) fun hq => absurd (hpq.2 hq) hp

theorem countPending_inserted (cb : Callback) (tenantId leadId : Int) :
    (db.inserted cb).countPending tenantId leadId cb.id = db.countPending tenantId leadId cb.id := by
  unfold Db.countPending Db.inserted
  rw [List.countP_append]
  simp

theorem countOpen_setStatus (st : CallbackStatus) (tenantId id leadId : Int) :
    (db.setStatus id st).countOpen tenantId leadId id = db.countOpen tenantId leadId id := by
  unfold Db.countOpen Db.setStatus Db.updateCallbacks
  rw [List.countP_map]
  apply List.countP_congr
  intro c _
  by_cases hid : c.id = id
  · simp [hid]
  · simp [hid]

theorem stickyKept_apply_iff (w : Write) : StickyKept sys db (w.apply db) ↔ w.Spares sys db := by
  cases w with
  | create tenantId leadId userId callbackAt leadStatus =>
    let cb : Callback := ⟨db.nextId, tenantId, leadId, userId, callbackAt, .pending⟩
    have hcount : (db.inserted cb).countPending tenantId leadId cb.id = 0 ∧
          leadStatus ∉ ["CBHOLD", "CALLBK"] ↔
        db.countPending tenantId leadId db.nextId = 0 ∧ leadStatus ∉ ["CBHOLD", "CALLBK"] := by
      rw [countPending_inserted cb]
    refine Iff.trans ?_ and_imp
    refine Iff.trans ?_ (imp_congr_left hcount)
    apply stickyKept_ite_iff
    · rfl
    · rfl
    · exact fun _ => rfl
    · exact Iff.rfl
  | snooze id callbackAt => exact iff_of_true (stickyKept_of_leads rfl) trivial
  | cancel tenantId id leadId =>
    apply stickyKept_ite_iff
    · rfl
    · rfl
    · exact fun _ => rfl
    · rw [countOpen_setStatus]
  | promote id leadId userId =>
    apply stickyKept_ite_iff
    · rfl
    · rfl
    · exact fun _ => rfl
    · simp only [List.any_eq_true, decide_eq_true_eq]
  | reschedule id leadId callbackAt =>
    apply stickyKept_setLead_iff
    · rfl
    · exact fun _ => rfl
  | terminate id leadId =>
    apply stickyKept_setLead_iff
    · rfl
    · exact fun _ => rfl

theorem stickyKept_run_iff (r : Option Write) :
    StickyKept sys db (db.run r) ↔ ∀ w, r = some w → w.Spares sys db := by
  cases r with
  | none => exact iff_of_true (stickyKept_of_leads rfl) (fun w h => by cases h)
  | some w =>
    show StickyKept sys db (w.apply db) ↔ _
    rw [stickyKept_apply_iff w]
    exact ⟨fun h v hv => Option.some.inj hv ▸ h, fun h => h w rfl⟩

theorem toOption_eq_some_iff {α : Type} {x : Except String α} {a : α} :
    x.toOption = some a ↔ x = .ok a := by
  constructor
  · exact toOption_some
  · rintro rfl
    rfl

theorem submit_ok_iff {statuses : List EffectiveStatus} {tenantId leadId : Int}
    {statusCode : String} :
    submit db statuses tenantId leadId statusCode = .ok after ↔
      (∃ s, (statuses.find? fun s => s.code = statusCode) = some s ∧ s.selectable = true) ∧
        statusCode ∉ systemOnly ∧ (∃ lead, db.leads leadId = some lead ∧ lead.tenantId = tenantId) ∧
        db.setLeadStatus leadId statusCode = after := by
  unfold submit
  cases statuses.find? fun s => s.code = statusCode with
  | none => simp
  | some status =>
    by_cases hselectable : status.selectable
    · by_cases hcode : statusCode ∈ systemOnly
      · simp [hselectable, hcode]
      · cases db.leads leadId with
        | none => simp [hselectable, hcode]
        | some lead =>
          by_cases htenant : lead.tenantId = tenantId
          · simp [hselectable, hcode, htenant]
          · simp [hselectable, hcode, htenant]
    · simp [hselectable]

theorem stickyKept_submit_iff (statuses : List EffectiveStatus) (tenantId leadId : Int)
    (statusCode : String) :
    KeepsSticky sys db (.submit statuses tenantId leadId statusCode) ↔
      SparesSticky sys db (.submit statuses tenantId leadId statusCode) := by
  unfold KeepsSticky
  cases hsubmit : submit db statuses tenantId leadId statusCode with
  | ok after =>
    obtain ⟨hfound, hcode, hlead, rfl⟩ := submit_ok_iff.1 hsubmit
    have hspared : StickyKept sys db (db.setLeadStatus leadId statusCode) ↔
        Spared sys db leadId statusCode := by
      apply stickyKept_setLead_iff
      · rfl
      · exact fun _ => rfl
    simp only [runLeadOp, hsubmit]
    rw [hspared]
    exact ⟨fun h _ _ _ => h, fun h => h hfound hcode hlead⟩
  | error code =>
    simp only [runLeadOp, hsubmit]
    refine iff_of_true (stickyKept_of_leads rfl) ?_
    intro hfound hcode hlead
    rw [submit_ok_iff.2 ⟨hfound, hcode, hlead, rfl⟩] at hsubmit
    cases hsubmit

theorem keepsSticky_iff (op : LeadOp) : KeepsSticky sys db op ↔ SparesSticky sys db op := by
  cases op with
  | submit statuses tenantId leadId statusCode =>
    exact stickyKept_submit_iff statuses tenantId leadId statusCode
  | callback op =>
    cases op with
    | create actor body now =>
      refine (stickyKept_run_iff _).trans ?_
      simp only [toOption_eq_some_iff]
      rfl
    | snooze actor id callbackAt now =>
      refine iff_of_true ((stickyKept_run_iff _).2 ?_) trivial
      intro w hw
      obtain ⟨cb, -, -, rfl⟩ := readSnooze_ok (toOption_some hw)
      trivial
    | cancel actor id =>
      refine (stickyKept_run_iff _).trans ?_
      simp only [toOption_eq_some_iff]
      rfl
    | bulkCancel tenantId ids => exact iff_of_true (stickyKept_of_leads rfl) trivial
    | promote tenantId id dueBy => exact stickyKept_run_iff _
    | noAnswer tenantId id policy => exact stickyKept_run_iff _

end Writes

theorem sticky_statuses_kept_iff (sys : SystemStatuses) (db : Db) (l : List LeadOp) :
    EachStep runLeadOp (KeepsSticky sys) db l ↔ EachStep runLeadOp (SparesSticky sys) db l :=
  eachStep_congr (I := fun _ => True) (fun _ _ _ _ => trivial) (fun _ op _ => keepsSticky_iff op) l
    trivial

/-- Lead 42 of tenant 1, on the do-not-call list. -/
def dncLead : Db := ⟨[], 1, fun id => if id = 42 then some ⟨1, "DNC", false, none⟩ else none⟩

theorem callback_puts_dnc_lead_on_hold :
    ¬ ∀ sys db l, EachStep runLeadOp (KeepsSticky sys) db l := by
  intro h
  have hstep := (h (fun _ _ => none) dncLead
    [.callback (.create supervisor ⟨42, 3600000, false, none⟩ 0)]).1
  have hsticky : Sticky (fun _ _ => none) 1 "DNC" := (sticky_iff _ _ _).2 (Or.inr (Or.inl rfl))
  have hstatus := hsticky.status_eq
    (hstep 42 ⟨1, "DNC", false, none⟩ rfl ⟨1, "CBHOLD", false, none⟩ (by decide) hsticky)
  exact absurd hstatus (by decide)

end Callbacks

end Vici2
