import Mathlib.Data.List.Nodup
import Vici2.Callbacks

/-! Leads and their callbacks, operation after operation: which operations keep a
lead in a callback status exactly while it has an open callback. -/

namespace Vici2

namespace Callbacks

inductive CallbackOp
  | create (actor : AuthContext) (body : CreateBody) (now : Int)
  | snooze (actor : AuthContext) (id callbackAt now : Int)
  | cancel (actor : AuthContext) (id : Int)
  | bulkCancel (tenantId : Int) (ids : List Int)
  | promote (tenantId id dueBy : Int)
  | noAnswer (tenantId id : Int) (policy : NoAnswerPolicy)

def Db.run (db : Db) : Option Write → Db
  | none => db
  | some w => w.apply db

def runOp (db : Db) : CallbackOp → Db
  | .create actor body now => db.run (readCreate db actor body now).toOption
  | .snooze actor id callbackAt now => db.run (readSnooze db actor id callbackAt now).toOption
  | .cancel actor id => db.run (readCancel db actor id).toOption
  | .bulkCancel tenantId ids => bulkCancel db tenantId ids
  | .promote tenantId id dueBy => db.run (readDue db tenantId id dueBy)
  | .noAnswer tenantId id policy => db.run (readNoAnswer db tenantId id policy)

def InCallback (status : String) : Prop := status = "CBHOLD" ∨ status = "CALLBK"

instance (status : String) : Decidable (InCallback status) := inferInstanceAs (Decidable (_ ∨ _))

def Db.HasOpen (db : Db) (leadId : Int) : Prop :=
  ∃ c ∈ db.callbacks, c.leadId = leadId ∧ c.status.Open

def AgreeAt (db : Db) (leadId : Int) : Prop :=
  ∀ lead ∈ db.leads leadId, InCallback lead.status ↔ db.HasOpen leadId

/-- A lead is in a callback status exactly while it has an open callback. -/
def Agree (db : Db) : Prop := ∀ leadId, AgreeAt db leadId

structure WellFormed (db : Db) : Prop where
  ids : (db.callbacks.map Callback.id).Nodup
  fresh : ∀ c ∈ db.callbacks, c.id < db.nextId
  lead : ∀ c ∈ db.callbacks, ∃ lead, db.leads c.leadId = some lead ∧ lead.tenantId = c.tenantId

def Db.Targets (tenantId : Int) (ids : List Int) (c : Callback) : Prop :=
  c.id ∈ ids ∧ c.tenantId = tenantId ∧ c.status.Open

instance (tenantId : Int) (ids : List Int) (c : Callback) : Decidable (Db.Targets tenantId ids c) :=
  inferInstanceAs (Decidable (_ ∧ _))

/-- A bulk cancel leaves every lead it touches another open callback, and an
unanswered call terminates the only open callback of its lead. -/
def KeepsLead (db : Db) : CallbackOp → Prop
  | .bulkCancel tenantId ids => ∀ c ∈ db.callbacks, Db.Targets tenantId ids c →
      ∃ d ∈ db.callbacks, d.leadId = c.leadId ∧ d.status.Open ∧ ¬ Db.Targets tenantId ids d
  | .noAnswer tenantId id .terminateNA => ∀ c ∈ db.findFor tenantId id, c.status = .live →
      ∀ d ∈ db.callbacks, d.leadId = c.leadId → d.status.Open → d.id = id
  | _ => True

instance (db : Db) : (op : CallbackOp) → Decidable (KeepsLead db op)
  | .bulkCancel tenantId ids => inferInstanceAs (Decidable
      (∀ c ∈ db.callbacks, Db.Targets tenantId ids c →
        ∃ d ∈ db.callbacks, d.leadId = c.leadId ∧ d.status.Open ∧ ¬ Db.Targets tenantId ids d))
  | .noAnswer tenantId id .terminateNA => inferInstanceAs (Decidable
      (∀ c ∈ db.findFor tenantId id, c.status = .live →
        ∀ d ∈ db.callbacks, d.leadId = c.leadId → d.status.Open → d.id = id))
  | .noAnswer _ _ .leaveCallbk => inferInstanceAs (Decidable True)
  | .noAnswer _ _ .reschedule24h => inferInstanceAs (Decidable True)
  | .create .. => inferInstanceAs (Decidable True)
  | .snooze .. => inferInstanceAs (Decidable True)
  | .cancel .. => inferInstanceAs (Decidable True)
  | .promote .. => inferInstanceAs (Decidable True)

theorem findFor_some {db : Db} {tenantId id : Int} {c : Callback}
    (h : db.findFor tenantId id = some c) :
    c ∈ db.callbacks ∧ c.id = id ∧ c.tenantId = tenantId := by
  have hc := List.find?_some h
  exact ⟨List.mem_of_find?_eq_some h, of_decide_eq_true hc⟩

theorem WellFormed.unique {db : Db} (hdb : WellFormed db) {c d : Callback} (hc : c ∈ db.callbacks)
    (hd : d ∈ db.callbacks) (h : c.id = d.id) : c = d :=
  List.inj_on_of_nodup_map hdb.ids hc hd h

section Updates

variable {db : Db} {p : Callback → Prop} [DecidablePred p] {f : Callback → Callback}

theorem mem_updateCallbacks {c : Callback} :
    c ∈ (db.updateCallbacks p f).callbacks ↔ ∃ d ∈ db.callbacks, (if p d then f d else d) = c :=
  List.mem_map

theorem hasOpen_updateCallbacks (hlead : ∀ c, (f c).leadId = c.leadId) (leadId : Int) :
    (db.updateCallbacks p f).HasOpen leadId ↔
      ∃ c ∈ db.callbacks, c.leadId = leadId ∧
        if p c then (f c).status.Open else c.status.Open := by
  constructor
  · rintro ⟨c, hc, hcl, hopen⟩
    obtain ⟨d, hd, rfl⟩ := mem_updateCallbacks.1 hc
    refine ⟨d, hd, ?_, ?_⟩
    · split at hcl
      · rw [← hlead d]
        exact hcl
      · exact hcl
    · split
      · next hp =>
        rw [if_pos hp] at hopen
        exact hopen
      · next hp =>
        rw [if_neg hp] at hopen
        exact hopen
  · rintro ⟨c, hc, hcl, hopen⟩
    refine ⟨if p c then f c else c, mem_updateCallbacks.2 ⟨c, hc, rfl⟩, ?_, ?_⟩
    · split
      · rw [hlead c]
        exact hcl
      · exact hcl
    · split
      · next hp =>
        rw [if_pos hp] at hopen
        exact hopen
      · next hp =>
        rw [if_neg hp] at hopen
        exact hopen

theorem WellFormed.updateCallbacks (hdb : WellFormed db) (hid : ∀ c, (f c).id = c.id)
    (hlead : ∀ c, (f c).leadId = c.leadId) (htenant : ∀ c, (f c).tenantId = c.tenantId) :
    WellFormed (db.updateCallbacks p f) where
  ids := by
    have hmap : (db.updateCallbacks p f).callbacks.map Callback.id = db.callbacks.map Callback.id := by
      unfold Db.updateCallbacks
      rw [List.map_map]
      apply List.map_congr_left
      intro c _
      simp only [Function.comp]
      split
      · exact hid c
      · rfl
    rw [hmap]
    exact hdb.ids
  fresh := by
    intro c hc
    obtain ⟨d, hd, rfl⟩ := mem_updateCallbacks.1 hc
    split
    · rw [hid d]
      exact hdb.fresh d hd
    · exact hdb.fresh d hd
  lead := by
    intro c hc
    obtain ⟨d, hd, rfl⟩ := mem_updateCallbacks.1 hc
    split
    · rw [hlead d, htenant d]
      exact hdb.lead d hd
    · exact hdb.lead d hd

theorem WellFormed.setLead (hdb : WellFormed db) (leadId : Int) {g : Lead → Lead}
    (hg : ∀ lead, (g lead).tenantId = lead.tenantId) : WellFormed (db.setLead leadId g) where
  ids := hdb.ids
  fresh := hdb.fresh
  lead := by
    intro c hc
    obtain ⟨lead, hlead, htenant⟩ := hdb.lead c hc
    by_cases hl : c.leadId = leadId
    · refine ⟨g lead, ?_, ?_⟩
      · simp only [Db.setLead]
        rw [hl, Function.update_self, ← hl, hlead, Option.map_some]
      · rw [hg lead]
        exact htenant
    · refine ⟨lead, ?_, htenant⟩
      simp only [Db.setLead, Function.update_of_ne hl]
      exact hlead

end Updates

theorem open_of_guardTransition {old new : CallbackStatus} (h : guardTransition old new = .ok ()) :
    old.Open := by
  cases old with
  | pending => exact Or.inl rfl
  | live => exact Or.inr rfl
  | done => cases h
  | dead => cases h

theorem readCreate_ok {db : Db} {actor : AuthContext} {body : CreateBody} {now : Int} {w : Write}
    (h : readCreate db actor body now = .ok w) :
    ∃ lead userId, db.leads body.leadId = some lead ∧ lead.tenantId = actor.tenantId ∧
      w = .create actor.tenantId body.leadId userId body.callbackAt lead.status := by
  unfold readCreate at h
  split at h
  · cases h
  · cases h
  · next userId _ _ =>
    split at h
    · cases h
    · next lead hlead =>
      split at h
      · next hok =>
        obtain rfl := Except.ok.inj h
        exact ⟨lead, userId, hlead, hok.1, rfl⟩
      · cases h

theorem readSnooze_ok {db : Db} {actor : AuthContext} {id callbackAt now : Int} {w : Write}
    (h : readSnooze db actor id callbackAt now = .ok w) :
    ∃ cb, db.findFor actor.tenantId id = some cb ∧ cb.status.Open ∧ w = .snooze id callbackAt := by
  unfold readSnooze at h
  split at h
  · cases h
  · split at h
    · cases h
    · next cb hcb =>
      split at h
      · cases h
      · split at h
        · cases h
        · next hguard =>
          obtain rfl := Except.ok.inj h
          exact ⟨cb, hcb, open_of_guardTransition hguard, rfl⟩

theorem readCancel_ok {db : Db} {actor : AuthContext} {id : Int} {w : Write}
    (h : readCancel db actor id = .ok w) :
    ∃ cb, db.findFor actor.tenantId id = some cb ∧ cb.status.Open ∧
      w = .cancel actor.tenantId id cb.leadId := by
  unfold readCancel at h
  split at h
  · cases h
  · next cb hcb =>
    split at h
    · cases h
    · split at h
      · cases h
      · next hguard =>
        obtain rfl := Except.ok.inj h
        exact ⟨cb, hcb, open_of_guardTransition hguard, rfl⟩

theorem readDue_some {db : Db} {tenantId id dueBy : Int} {w : Write}
    (h : readDue db tenantId id dueBy = some w) :
    ∃ cb, db.findFor tenantId id = some cb ∧ cb.status = .pending ∧
      w = .promote id cb.leadId cb.userId := by
  unfold readDue at h
  split at h
  · cases h
  · next cb hcb =>
    split at h
    · next hdue =>
      obtain rfl := Option.some.inj h
      exact ⟨cb, hcb, hdue.1, rfl⟩
    · cases h

section Row

variable {db : Db} {cb : Callback} {p : Callback → Prop} [DecidablePred p]
  {f : Callback → Callback} {s : CallbackStatus}

/-- Another callback of the lead is open. -/
def OtherOpen (db : Db) (id leadId : Int) : Prop :=
  ∃ c ∈ db.callbacks, c.id ≠ id ∧ c.leadId = leadId ∧ c.status.Open

theorem hasOpen_iff_other (hdb : WellFormed db) (hc : cb ∈ db.callbacks) (x : Int) :
    db.HasOpen x ↔ OtherOpen db cb.id x ∨ (cb.leadId = x ∧ cb.status.Open) := by
  constructor
  · rintro ⟨d, hd, hdx, hopen⟩
    by_cases hid : d.id = cb.id
    · obtain rfl := hdb.unique hd hc hid
      exact Or.inr ⟨hdx, hopen⟩
    · exact Or.inl ⟨d, hd, hid, hdx, hopen⟩
  · rintro (⟨d, hd, -, hdx, hopen⟩ | ⟨hx, hopen⟩)
    · exact ⟨d, hd, hdx, hopen⟩
    · exact ⟨cb, hc, hx, hopen⟩

theorem hasOpen_row (hdb : WellFormed db) (hc : cb ∈ db.callbacks)
    (hp : ∀ c ∈ db.callbacks, p c ↔ c.id = cb.id) (hlead : ∀ c, (f c).leadId = c.leadId)
    (hst : ∀ c, (f c).status = s) (x : Int) :
    (db.updateCallbacks p f).HasOpen x ↔
      OtherOpen db cb.id x ∨ (cb.leadId = x ∧ s.Open) := by
  rw [hasOpen_updateCallbacks hlead]
  constructor
  · rintro ⟨d, hd, hdx, hopen⟩
    by_cases hid : d.id = cb.id
    · rw [if_pos ((hp d hd).2 hid), hst d] at hopen
      obtain rfl := hdb.unique hd hc hid
      exact Or.inr ⟨hdx, hopen⟩
    · rw [if_neg fun h => hid ((hp d hd).1 h)] at hopen
      exact Or.inl ⟨d, hd, hid, hdx, hopen⟩
  · rintro (⟨d, hd, hid, hdx, hopen⟩ | ⟨hx, hopen⟩)
    · refine ⟨d, hd, hdx, ?_⟩
      rw [if_neg fun h => hid ((hp d hd).1 h)]
      exact hopen
    · refine ⟨cb, hc, hx, ?_⟩
      rw [if_pos ((hp cb hc).2 rfl), hst cb]
      exact hopen

/-- One open callback takes the status `s` and its lead the status of `lead'`. -/
theorem agree_row_iff (hdb : WellFormed db) (hagree : Agree db) (hc : cb ∈ db.callbacks)
    (hp : ∀ c ∈ db.callbacks, p c ↔ c.id = cb.id)
    (hlead : ∀ c, (f c).leadId = c.leadId) (hst : ∀ c, (f c).status = s) {db' : Db}
    (hcallbacks : db'.callbacks = (db.updateCallbacks p f).callbacks)
    (hleads : ∀ x, x ≠ cb.leadId → db'.leads x = db.leads x) {lead' : Lead}
    (hlead' : db'.leads cb.leadId = some lead') :
    Agree db' ↔ (InCallback lead'.status ↔ OtherOpen db cb.id cb.leadId ∨ s.Open) := by
  have hafter : ∀ x, db'.HasOpen x ↔ OtherOpen db cb.id x ∨ (cb.leadId = x ∧ s.Open) := by
    intro x
    have hrow := hasOpen_row hdb hc hp hlead hst x
    unfold Db.HasOpen at hrow ⊢
    rw [hcallbacks]
    exact hrow
  have hat : AgreeAt db' cb.leadId ↔
      (InCallback lead'.status ↔ OtherOpen db cb.id cb.leadId ∨ s.Open) := by
    unfold AgreeAt
    rw [hlead', hafter]
    simp
  rw [← hat]
  constructor
  · intro h
    exact h cb.leadId
  · intro h x
    by_cases hx : x = cb.leadId
    · rw [hx]
      exact h
    · have hsame : db'.HasOpen x ↔ db.HasOpen x := by
        rw [hafter, hasOpen_iff_other hdb hc]
        simp [Ne.symm hx]
      unfold AgreeAt
      rw [hleads x hx, hsame]
      exact hagree x

theorem lead_of_open (hdb : WellFormed db) (hagree : Agree db) (hc : cb ∈ db.callbacks)
    (hopen : cb.status.Open) :
    ∃ lead, db.leads cb.leadId = some lead ∧ lead.tenantId = cb.tenantId ∧
      InCallback lead.status := by
  obtain ⟨lead, hlead, htenant⟩ := hdb.lead cb hc
  exact ⟨lead, hlead, htenant, (hagree cb.leadId lead hlead).2 ⟨cb, hc, rfl, hopen⟩⟩

theorem leads_setLead_self {leadId : Int} {lead : Lead} (g : Lead → Lead)
    (h : db.leads leadId = some lead) : (db.setLead leadId g).leads leadId = some (g lead) := by
  simp [Db.setLead, h]

theorem leads_setLead_ne {leadId x : Int} (g : Lead → Lead) (h : x ≠ leadId) :
    (db.setLead leadId g).leads x = db.leads x := by
  simp [Db.setLead, h]

theorem agree_setLead_iff (hdb : WellFormed db) (hagree : Agree db) (hc : cb ∈ db.callbacks)
    (hp : ∀ c ∈ db.callbacks, p c ↔ c.id = cb.id) (hf : ∀ c, (f c).leadId = c.leadId)
    (hst : ∀ c, (f c).status = s) {lead : Lead} (hlead : db.leads cb.leadId = some lead)
    (g : Lead → Lead) :
    Agree ((db.updateCallbacks p f).setLead cb.leadId g) ↔
      (InCallback (g lead).status ↔ OtherOpen db cb.id cb.leadId ∨ s.Open) := by
  have hcallbacks : ((db.updateCallbacks p f).setLead cb.leadId g).callbacks =
      (db.updateCallbacks p f).callbacks := rfl
  apply agree_row_iff hdb hagree hc hp hf hst hcallbacks
  · exact fun x hx => leads_setLead_ne g hx
  · exact leads_setLead_self g hlead

theorem agree_keepLead_iff (hdb : WellFormed db) (hagree : Agree db) (hc : cb ∈ db.callbacks)
    (hp : ∀ c ∈ db.callbacks, p c ↔ c.id = cb.id) (hf : ∀ c, (f c).leadId = c.leadId)
    (hst : ∀ c, (f c).status = s) {lead : Lead} (hlead : db.leads cb.leadId = some lead) :
    Agree (db.updateCallbacks p f) ↔
      (InCallback lead.status ↔ OtherOpen db cb.id cb.leadId ∨ s.Open) :=
  agree_row_iff hdb hagree hc hp hf hst rfl (fun _ _ => rfl) hlead

end Row

theorem not_inCallback_NA : ¬ InCallback "NA" := by decide

section Ops

variable {db : Db} {cb : Callback}

theorem agree_snooze (hdb : WellFormed db) (hagree : Agree db) (hc : cb ∈ db.callbacks)
    (hopen : cb.status.Open) (callbackAt : Int) : Agree (Write.apply db (.snooze cb.id callbackAt)) := by
  obtain ⟨lead, hlead, -, hin⟩ := lead_of_open hdb hagree hc hopen
  refine (agree_keepLead_iff (s := .pending) hdb hagree hc ?_ ?_ ?_ hlead).2 ?_
  · exact fun _ _ => Iff.rfl
  · exact fun _ => rfl
  · exact fun _ => rfl
  · exact iff_of_true hin (Or.inr (Or.inl rfl))

theorem agree_promote (hdb : WellFormed db) (hagree : Agree db) (hc : cb ∈ db.callbacks)
    (hpending : cb.status = .pending) (userId : Option Int) :
    Agree (Write.apply db (.promote cb.id cb.leadId userId)) := by
  obtain ⟨lead, hlead, -, -⟩ := lead_of_open hdb hagree hc (Or.inl hpending)
  have hany : db.callbacks.any fun c => c.id = cb.id ∧ c.status = .pending := by
    rw [List.any_eq_true]
    exact ⟨cb, hc, decide_eq_true ⟨rfl, hpending⟩⟩
  simp only [Write.apply, applyPromote, if_pos hany]
  refine (agree_setLead_iff (s := .live) hdb hagree hc ?_ ?_ ?_ hlead _).2 ?_
  · intro c hmem
    constructor
    · exact fun h => h.1
    · intro h
      exact ⟨h, (hdb.unique hmem hc h) ▸ hpending⟩
  · exact fun _ => rfl
  · exact fun _ => rfl
  · exact iff_of_true (Or.inr rfl) (Or.inr (Or.inr rfl))

theorem agree_reschedule (hdb : WellFormed db) (hagree : Agree db) (hc : cb ∈ db.callbacks)
    (hopen : cb.status.Open) (callbackAt : Int) :
    Agree (Write.apply db (.reschedule cb.id cb.leadId callbackAt)) := by
  obtain ⟨lead, hlead, -, -⟩ := lead_of_open hdb hagree hc hopen
  refine (agree_setLead_iff (s := .pending) hdb hagree hc ?_ ?_ ?_ hlead _).2 ?_
  · exact fun _ _ => Iff.rfl
  · exact fun _ => rfl
  · exact fun _ => rfl
  · exact iff_of_true (Or.inl rfl) (Or.inr (Or.inl rfl))

theorem agree_terminate_iff (hdb : WellFormed db) (hagree : Agree db) (hc : cb ∈ db.callbacks)
    (hopen : cb.status.Open) :
    Agree (Write.apply db (.terminate cb.id cb.leadId)) ↔ ¬ OtherOpen db cb.id cb.leadId := by
  obtain ⟨lead, hlead, -, -⟩ := lead_of_open hdb hagree hc hopen
  refine (agree_setLead_iff (s := .done) hdb hagree hc ?_ ?_ ?_ hlead _).trans ?_
  · exact fun _ _ => Iff.rfl
  · exact fun _ => rfl
  · exact fun _ => rfl
  · simp [not_inCallback_NA, CallbackStatus.Open]

theorem countOpen_setStatus_eq_zero (hdb : WellFormed db) (hc : cb ∈ db.callbacks) :
    (db.setStatus cb.id .dead).countOpen cb.tenantId cb.leadId cb.id = 0 ↔
      ¬ OtherOpen db cb.id cb.leadId := by
  unfold Db.countOpen
  rw [List.countP_eq_zero]
  constructor
  · rintro h ⟨d, hd, hid, hdl, hopen⟩
    have htenant : d.tenantId = cb.tenantId := by
      obtain ⟨lead, hlead, ht⟩ := hdb.lead d hd
      obtain ⟨lead', hlead', ht'⟩ := hdb.lead cb hc
      rw [hdl, hlead'] at hlead
      rw [← ht, ← ht', Option.some.inj hlead]
    have hmem : d ∈ (db.setStatus cb.id .dead).callbacks :=
      mem_updateCallbacks.2 ⟨d, hd, if_neg hid⟩
    exact h d hmem (decide_eq_true ⟨htenant, hdl, hopen, hid⟩)
  · intro h d hmem hcount
    obtain ⟨-, hdl, hopen, hid⟩ := of_decide_eq_true hcount
    obtain ⟨c, hcmem, rfl⟩ := mem_updateCallbacks.1 hmem
    split at hid
    · next hcid => exact hid hcid
    · next hcid =>
      rw [if_neg hcid] at hdl hopen
      exact h ⟨c, hcmem, hcid, hdl, hopen⟩

theorem agree_cancel (hdb : WellFormed db) (hagree : Agree db) (hc : cb ∈ db.callbacks)
    (hopen : cb.status.Open) :
    Agree (Write.apply db (.cancel cb.tenantId cb.id cb.leadId)) := by
  obtain ⟨lead, hlead, -, hin⟩ := lead_of_open hdb hagree hc hopen
  have hcount := countOpen_setStatus_eq_zero hdb hc
  simp only [Write.apply, applyCancel]
  by_cases hother : OtherOpen db cb.id cb.leadId
  · rw [if_neg fun h => hcount.1 h hother]
    refine (agree_keepLead_iff (s := .dead) hdb hagree hc ?_ ?_ ?_ hlead).2 ?_
    · exact fun _ _ => Iff.rfl
    · exact fun _ => rfl
    · exact fun _ => rfl
    · exact iff_of_true hin (Or.inl hother)
  · rw [if_pos (hcount.2 hother)]
    refine (agree_setLead_iff (s := .dead) hdb hagree hc ?_ ?_ ?_ hlead _).2 ?_
    · exact fun _ _ => Iff.rfl
    · exact fun _ => rfl
    · exact fun _ => rfl
    · exact iff_of_false not_inCallback_NA (by simp [hother, CallbackStatus.Open])

end Ops

section Create

variable {db : Db} {tenantId leadId : Int} {lead : Lead}

def Db.inserted (db : Db) (cb : Callback) : Db :=
  { db with callbacks := db.callbacks ++ [cb], nextId := db.nextId + 1 }

theorem WellFormed.inserted (hdb : WellFormed db) {cb : Callback} (hid : cb.id = db.nextId)
    (hlead : db.leads cb.leadId = some lead) (htenant : lead.tenantId = cb.tenantId) :
    WellFormed (db.inserted cb) where
  ids := by
    unfold Db.inserted
    rw [List.map_append, List.nodup_append]
    refine ⟨hdb.ids, List.nodup_singleton _, ?_⟩
    intro a ha b hb
    obtain ⟨c, hc, rfl⟩ := List.mem_map.1 ha
    obtain rfl := List.mem_singleton.1 hb
    rw [hid]
    exact Int.ne_of_lt (hdb.fresh c hc)
  fresh := by
    intro c hc
    show c.id < db.nextId + 1
    rcases List.mem_append.1 hc with hc | hc
    · exact Int.lt_add_one_of_le (Int.le_of_lt (hdb.fresh c hc))
    · obtain rfl := List.mem_singleton.1 hc
      rw [hid]
      exact Int.lt_add_one_of_le (Int.le_refl _)
  lead := by
    intro c hc
    rcases List.mem_append.1 hc with hc | hc
    · exact hdb.lead c hc
    · obtain rfl := List.mem_singleton.1 hc
      exact ⟨lead, hlead, htenant⟩

theorem hasOpen_inserted {cb : Callback} (hopen : cb.status.Open) (x : Int) :
    (db.inserted cb).HasOpen x ↔ cb.leadId = x ∨ db.HasOpen x := by
  constructor
  · rintro ⟨c, hc, hcx, hcopen⟩
    rcases List.mem_append.1 hc with hc | hc
    · exact Or.inr ⟨c, hc, hcx, hcopen⟩
    · obtain rfl := List.mem_singleton.1 hc
      exact Or.inl hcx
  · rintro (hx | ⟨c, hc, hcx, hcopen⟩)
    · exact ⟨cb, List.mem_append_right _ (List.mem_singleton_self cb), hx, hopen⟩
    · exact ⟨c, List.mem_append_left _ hc, hcx, hcopen⟩

theorem hasOpen_of_countPending {cb : Callback}
    (h : (db.inserted cb).countPending tenantId leadId cb.id ≠ 0) : db.HasOpen leadId := by
  unfold Db.countPending at h
  rw [ne_eq, List.countP_eq_zero] at h
  push Not at h
  obtain ⟨c, hc, hcount⟩ := h
  obtain ⟨-, hcl, hpending, hid⟩ := of_decide_eq_true hcount
  rcases List.mem_append.1 hc with hc | hc
  · exact ⟨c, hc, hcl, Or.inl hpending⟩
  · obtain rfl := List.mem_singleton.1 hc
    exact absurd rfl hid

theorem agree_create (hagree : Agree db) (hlead : db.leads leadId = some lead) (userId : Option Int)
    (callbackAt : Int) :
    Agree (Write.apply db (.create tenantId leadId userId callbackAt lead.status)) := by
  let cb : Callback := ⟨db.nextId, tenantId, leadId, userId, callbackAt, .pending⟩
  have hopen : cb.status.Open := Or.inl rfl
  have hothers : ∀ x, x ≠ leadId → ((db.inserted cb).HasOpen x ↔ db.HasOpen x) := by
    intro x hx
    rw [hasOpen_inserted hopen]
    simp [cb, Ne.symm hx]
  have hnew : (db.inserted cb).HasOpen leadId := (hasOpen_inserted hopen leadId).2 (Or.inl rfl)
  have happly : Write.apply db (.create tenantId leadId userId callbackAt lead.status) =
      if (db.inserted cb).countPending tenantId leadId cb.id = 0 ∧
          lead.status ∉ ["CBHOLD", "CALLBK"] then
        (db.inserted cb).setLeadStatus leadId "CBHOLD"
      else db.inserted cb := rfl
  rw [happly]
  split
  · intro x l hl
    by_cases hx : x = leadId
    · subst x
      have hset : ((db.inserted cb).setLeadStatus leadId "CBHOLD").leads leadId =
          some { lead with status := "CBHOLD" } := @leads_setLead_self (db.inserted cb) leadId lead _ hlead
      rw [Option.mem_def, hset] at hl
      obtain rfl := Option.some.inj hl
      exact iff_of_true (Or.inl rfl) hnew
    · have hkept : ((db.inserted cb).setLeadStatus leadId "CBHOLD").leads x = db.leads x :=
        @leads_setLead_ne (db.inserted cb) leadId x _ hx
      rw [Option.mem_def, hkept] at hl
      exact (hagree x l hl).trans (hothers x hx).symm
  · next hkeep =>
    intro x l hl
    by_cases hx : x = leadId
    · subst x
      obtain rfl : lead = l := Option.some.inj (hlead.symm.trans hl)
      refine iff_of_true ?_ hnew
      by_contra hin
      apply hkeep
      constructor
      · by_contra hcount
        exact hin ((hagree leadId lead hlead).2 (hasOpen_of_countPending hcount))
      · intro hmem
        apply hin
        simpa [InCallback] using hmem
    · exact (hagree x l hl).trans (hothers x hx).symm

end Create

theorem agree_bulkCancel_iff {db : Db} (hdb : WellFormed db) (hagree : Agree db) (tenantId : Int)
    (ids : List Int) :
    Agree (bulkCancel db tenantId ids) ↔ KeepsLead db (.bulkCancel tenantId ids) := by
  have hafter : ∀ x, (bulkCancel db tenantId ids).HasOpen x ↔
      ∃ d ∈ db.callbacks, d.leadId = x ∧ d.status.Open ∧ ¬ Db.Targets tenantId ids d := by
    intro x
    unfold bulkCancel
    rw [hasOpen_updateCallbacks]
    case hlead => exact fun _ => rfl
    apply exists_congr
    intro d
    refine and_congr_right fun _ => and_congr_right fun _ => ?_
    split
    · next htarget =>
      exact iff_of_false (fun h => by simp [CallbackStatus.Open] at h) fun h => h.2 htarget
    · next htarget => exact ⟨fun h => ⟨h, htarget⟩, fun h => h.1⟩
  constructor
  · intro h c hc htarget
    obtain ⟨lead, hlead, -⟩ := hdb.lead c hc
    have hin := (hagree c.leadId lead hlead).2 ⟨c, hc, rfl, htarget.2.2⟩
    exact (hafter c.leadId).1 ((h c.leadId lead hlead).1 hin)
  · intro h x lead hlead
    rw [hagree x lead hlead, hafter]
    constructor
    · rintro ⟨c, hc, hcx, hopen⟩
      by_cases htarget : Db.Targets tenantId ids c
      · obtain ⟨d, hd, hdl, hrest⟩ := h c hc htarget
        exact ⟨d, hd, hdl.trans hcx, hrest⟩
      · exact ⟨c, hc, hcx, hopen, htarget⟩
    · rintro ⟨d, hd, hdx, hopen, -⟩
      exact ⟨d, hd, hdx, hopen⟩

theorem WellFormed.updateAndSetLead {db : Db} (hdb : WellFormed db) {p : Callback → Prop}
    [DecidablePred p] {f : Callback → Callback} {leadId : Int} {g : Lead → Lead}
    (hid : ∀ c, (f c).id = c.id) (hlead : ∀ c, (f c).leadId = c.leadId)
    (htenant : ∀ c, (f c).tenantId = c.tenantId) (hg : ∀ lead, (g lead).tenantId = lead.tenantId) :
    WellFormed ((db.updateCallbacks p f).setLead leadId g) :=
  (hdb.updateCallbacks hid hlead htenant).setLead leadId hg

theorem WellFormed.apply {db : Db} (hdb : WellFormed db) {w : Write}
    (hcreate : ∀ t l u at' s, w = .create t l u at' s →
      ∃ lead, db.leads l = some lead ∧ lead.tenantId = t) : WellFormed (w.apply db) := by
  cases w with
  | create tenantId leadId userId callbackAt leadStatus =>
    obtain ⟨lead, hlead, htenant⟩ := hcreate _ _ _ _ _ rfl
    have hinserted : WellFormed
        (db.inserted ⟨db.nextId, tenantId, leadId, userId, callbackAt, .pending⟩) :=
      hdb.inserted rfl hlead htenant
    simp only [Write.apply, applyCreate]
    split
    · exact hinserted.setLead leadId fun _ => rfl
    · exact hinserted
  | snooze id callbackAt =>
    apply hdb.updateCallbacks
    all_goals exact fun _ => rfl
  | cancel tenantId id leadId =>
    have hset : WellFormed (db.setStatus id .dead) := by
      apply hdb.updateCallbacks
      all_goals exact fun _ => rfl
    simp only [Write.apply, applyCancel]
    split
    · exact hset.setLead leadId fun _ => rfl
    · exact hset
  | promote id leadId userId =>
    simp only [Write.apply, applyPromote]
    split
    · apply hdb.updateAndSetLead
      all_goals exact fun _ => rfl
    · exact hdb
  | reschedule id leadId callbackAt =>
    apply hdb.updateAndSetLead
    all_goals exact fun _ => rfl
  | terminate id leadId =>
    apply hdb.updateAndSetLead
    all_goals exact fun _ => rfl

theorem toOption_some {α : Type} {x : Except String α} {a : α} (h : x.toOption = some a) :
    x = .ok a := by
  cases x with
  | error e => cases h
  | ok b => exact congrArg Except.ok (Option.some.inj h)

theorem readNoAnswer_some {db : Db} {tenantId id : Int} {policy : NoAnswerPolicy} {w : Write}
    (h : readNoAnswer db tenantId id policy = some w) :
    ∃ cb, db.findFor tenantId id = some cb ∧ cb.status = .live ∧
      ((policy = .reschedule24h ∧ w = .reschedule id cb.leadId (cb.callbackAt + 86400 * 1000)) ∨
        policy = .terminateNA ∧ w = .terminate id cb.leadId) := by
  unfold readNoAnswer at h
  split at h
  · cases h
  · next cb hcb =>
    split at h
    · cases h
    · next hlive =>
      refine ⟨cb, hcb, not_not.1 hlive, ?_⟩
      cases policy with
      | leaveCallbk => cases h
      | reschedule24h => exact Or.inl ⟨rfl, (Option.some.inj h).symm⟩
      | terminateNA => exact Or.inr ⟨rfl, (Option.some.inj h).symm⟩

/-- Only a creation needs its lead to be there; every other write is about a
callback that has one. -/
theorem WellFormed.runOp {db : Db} (hdb : WellFormed db) (op : CallbackOp) :
    WellFormed (runOp db op) := by
  have hrun : ∀ r : Option Write,
      (∀ w, r = some w → ∀ t l u at' s, w = .create t l u at' s →
        ∃ lead, db.leads l = some lead ∧ lead.tenantId = t) → WellFormed (db.run r) := by
    intro r hr
    cases r with
    | none => exact hdb
    | some w => exact hdb.apply (hr w rfl)
  cases op with
  | create actor body now =>
    apply hrun
    intro w hw t l u at' s he
    obtain ⟨lead, userId, hlead, htenant, rfl⟩ := readCreate_ok (toOption_some hw)
    cases he
    exact ⟨lead, hlead, htenant⟩
  | snooze actor id callbackAt now =>
    apply hrun
    intro w hw t l u at' s he
    obtain ⟨cb, -, -, rfl⟩ := readSnooze_ok (toOption_some hw)
    cases he
  | cancel actor id =>
    apply hrun
    intro w hw t l u at' s he
    obtain ⟨cb, -, -, rfl⟩ := readCancel_ok (toOption_some hw)
    cases he
  | bulkCancel tenantId ids =>
    apply hdb.updateCallbacks
    all_goals exact fun _ => rfl
  | promote tenantId id dueBy =>
    apply hrun
    intro w hw t l u at' s he
    obtain ⟨cb, -, -, rfl⟩ := readDue_some hw
    cases he
  | noAnswer tenantId id policy =>
    apply hrun
    intro w hw t l u at' s he
    obtain ⟨cb, -, -, ⟨-, rfl⟩ | ⟨-, rfl⟩⟩ := readNoAnswer_some hw
    · cases he
    · cases he

theorem agree_noAnswer_iff {db : Db} (hdb : WellFormed db) (hagree : Agree db)
    (tenantId id : Int) (policy : NoAnswerPolicy) :
    Agree (runOp db (.noAnswer tenantId id policy)) ↔ KeepsLead db (.noAnswer tenantId id policy) := by
  cases hr : readNoAnswer db tenantId id policy with
  | none =>
    have hsame : runOp db (.noAnswer tenantId id policy) = db := by
      simp only [runOp, hr, Db.run]
    rw [hsame]
    refine iff_of_true hagree ?_
    cases policy with
    | leaveCallbk => trivial
    | reschedule24h => trivial
    | terminateNA =>
      intro c hc hlive
      simp only [readNoAnswer, Option.mem_def.1 hc, hlive, ne_eq, not_true_eq_false, if_false] at hr
      cases hr
  | some w =>
    have hrun : runOp db (.noAnswer tenantId id policy) = w.apply db := by
      simp only [runOp, hr, Db.run]
    rw [hrun]
    obtain ⟨cb, hfind, hlive, ⟨rfl, rfl⟩ | ⟨rfl, rfl⟩⟩ := readNoAnswer_some hr
    · obtain ⟨hc, rfl, -⟩ := findFor_some hfind
      exact iff_of_true (agree_reschedule hdb hagree hc (Or.inr hlive) _) trivial
    · obtain ⟨hc, rfl, -⟩ := findFor_some hfind
      rw [agree_terminate_iff hdb hagree hc (Or.inr hlive)]
      simp only [KeepsLead, hfind, Option.mem_def, Option.some.injEq, forall_eq', hlive, true_implies]
      constructor
      · intro h d hd hdl hopen
        by_contra hid
        exact h ⟨d, hd, hid, hdl, hopen⟩
      · rintro h ⟨d, hd, hid, hdl, hopen⟩
        exact hid (h d hd hdl hopen)

theorem agree_runOp_iff {db : Db} (hdb : WellFormed db) (hagree : Agree db) (op : CallbackOp) :
    Agree (runOp db op) ↔ KeepsLead db op := by
  have hrun : ∀ r : Option Write, (∀ w, r = some w → Agree (w.apply db)) → Agree (db.run r) := by
    intro r hr
    cases r with
    | none => exact hagree
    | some w => exact hr w rfl
  cases op with
  | create actor body now =>
    refine iff_of_true (hrun _ ?_) trivial
    intro w hw
    obtain ⟨lead, userId, hlead, -, rfl⟩ := readCreate_ok (toOption_some hw)
    exact agree_create hagree hlead userId _
  | snooze actor id callbackAt now =>
    refine iff_of_true (hrun _ ?_) trivial
    intro w hw
    obtain ⟨cb, hfind, hopen, rfl⟩ := readSnooze_ok (toOption_some hw)
    obtain ⟨hc, rfl, -⟩ := findFor_some hfind
    exact agree_snooze hdb hagree hc hopen callbackAt
  | cancel actor id =>
    refine iff_of_true (hrun _ ?_) trivial
    intro w hw
    obtain ⟨cb, hfind, hopen, rfl⟩ := readCancel_ok (toOption_some hw)
    obtain ⟨hc, rfl, htenant⟩ := findFor_some hfind
    rw [← htenant]
    exact agree_cancel hdb hagree hc hopen
  | bulkCancel tenantId ids => exact agree_bulkCancel_iff hdb hagree tenantId ids
  | promote tenantId id dueBy =>
    refine iff_of_true (hrun _ ?_) trivial
    intro w hw
    obtain ⟨cb, hfind, hpending, rfl⟩ := readDue_some hw
    obtain ⟨hc, rfl, -⟩ := findFor_some hfind
    exact agree_promote hdb hagree hc hpending cb.userId
  | noAnswer tenantId id policy => exact agree_noAnswer_iff hdb hagree tenantId id policy

theorem leads_agree_throughout_iff {db : Db} (hdb : WellFormed db) (hagree : Agree db)
    (l : List CallbackOp) : Always runOp Agree db l ↔ EachStep runOp KeepsLead db l :=
  always_iff_eachStep (fun _ op hdb _ _ => hdb.runOp op)
    (fun _ op hdb hagree => agree_runOp_iff hdb hagree op) l hdb hagree

theorem wellFormed_oneLead : WellFormed oneLead :=
  ⟨List.nodup_nil, fun c hc => (by cases hc), fun c hc => (by cases hc)⟩

theorem agree_oneLead : Agree oneLead := by
  intro x lead hlead
  simp only [oneLead, Option.mem_def] at hlead
  split at hlead
  · obtain rfl := Option.some.inj hlead
    refine iff_of_false (by decide) ?_
    rintro ⟨c, hc, -⟩
    cases hc
  · cases hlead

/-- Two callbacks for the lead; one is cancelled, the other rings out and is
terminated. -/
def cancelThenTerminate : List CallbackOp :=
  [.create supervisor ⟨42, 3600000, false, none⟩ 0, .create supervisor ⟨42, 7200000, true, none⟩ 0,
    .cancel supervisor 2, .promote 1 1 3600000, .noAnswer 1 1 .terminateNA]

theorem cancel_then_terminate_agrees :
    (WellFormed oneLead ∧ Agree oneLead) ∧ Always runOp Agree oneLead cancelThenTerminate :=
  ⟨⟨wellFormed_oneLead, agree_oneLead⟩,
    (leads_agree_throughout_iff wellFormed_oneLead agree_oneLead cancelThenTerminate).2 (by decide)⟩

theorem bulk_cancel_strands_lead :
    ¬ ∀ db l, WellFormed db → Agree db → Always runOp Agree db l := by
  intro h
  obtain ⟨-, -, hcancelled⟩ := h oneLead
    [.create supervisor ⟨42, 3600000, false, none⟩ 0, .bulkCancel 1 [1]] wellFormed_oneLead
    agree_oneLead
  have hlead := (hcancelled 42 ⟨1, "CBHOLD", false, none⟩ rfl).1 (Or.inl rfl)
  obtain ⟨c, hc, -, hopen⟩ := hlead
  obtain rfl := List.mem_singleton.1 hc
  exact absurd hopen (by decide)

end Callbacks

end Vici2
