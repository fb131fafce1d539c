import Vici2.KeyedBatches

/-! Resetting and purging a list, a thousand leads at a time. Both loops look up where
to go on by the mark they have just written; for a reset that mark is a status which a
lead may have had before. -/

namespace Vici2

namespace Lists

/-- The columns of a lead that a clone carries over. -/
structure LeadColumns where
  phoneE164 : String
  phoneAlt : Option String
  phoneAlt2 : Option String
  countryCode : String
  title : Option String
  firstName : Option String
  middleInitial : Option String
  lastName : Option String
  address1 : Option String
  address2 : Option String
  city : Option String
  state : Option String
  postalCode : Option String
  email : Option String
  dateOfBirth : Option Int
  gender : String
  comments : Option String
  rank : Int
  ownerUserId : Option Int
  vendorLeadCode : Option String
  sourceId : Option String
  customData : String
  isBusiness : Bool
  deriving DecidableEq, Repr

structure Lead where
  id : Int
  tenantId : Int
  listId : Int
  status : String
  columns : LeadColumns
  calledCount : Int
  lastCalledAt : Option Int
  deletedAt : Option Int
  entryAt : Int
  modifyAt : Int
  createdAt : Int
  updatedAt : Int
  deriving DecidableEq, Repr

abbrev LeadTable := Keyed Lead.id

def batchSize : Nat := 1000

def Lead.inList (tenantId listId : Int) (l : Lead) : Bool :=
  l.tenantId == tenantId && l.listId == listId

/-- A lead of the list that is not deleted. -/
def Lead.liveIn (tenantId listId : Int) (l : Lead) : Bool :=
  l.inList tenantId listId && l.deletedAt.isNone

def Lead.reset (l : Lead) : Lead :=
  { l with status := "NEW", calledCount := 0, lastCalledAt := none }

def Lead.purge (now : Int) (l : Lead) : Lead :=
  { l with status := "DELETED", deletedAt := some now }

section

variable (coll : String → String) (tenantId listId now : Int)

/-- Statuses compare under the collation of the column. -/
def resetBatches : BatchUpdate Lead where
  key := Lead.id
  matched := Lead.liveIn tenantId listId
  write := Lead.reset
  found l := l.liveIn tenantId listId && decide (coll l.status = coll "NEW")
  size := batchSize
  size_pos := by decide
  key_write _ := rfl
  found_write l h := by
    rw [Bool.and_eq_true, decide_eq_true_eq]
    exact ⟨h, rfl⟩

def purgeBatches : BatchUpdate Lead where
  key := Lead.id
  matched := Lead.liveIn tenantId listId
  write := Lead.purge now
  found l := l.inList tenantId listId && decide (l.deletedAt = some now)
  size := batchSize
  size_pos := by decide
  key_write _ := rfl
  found_write l h := by
    rw [Bool.and_eq_true, decide_eq_true_eq]
    exact ⟨(Bool.and_eq_true_iff.1 h).1, rfl⟩

/-- The leads affected and the table afterwards. -/
def resetListSync (t : LeadTable) : Option (Nat × LeadTable) :=
  (resetBatches coll tenantId listId).run t

def purgeListSync (t : LeadTable) : Option (Nat × LeadTable) :=
  (purgeBatches tenantId listId now).run t

/-- Every live lead of the list is reset and counted, and no other lead changes. -/
def ResetComplete (t : LeadTable) : Prop :=
  ∃ t', resetListSync coll tenantId listId t =
      some (t.rows.countP (Lead.liveIn tenantId listId), t') ∧
    t'.rows = updateAll (Lead.liveIn tenantId listId) Lead.reset t.rows

/-- How many live leads of the list stand before a lead. -/
def liveBefore (t : LeadTable) (l : Lead) : Nat :=
  t.rows.countP fun r => r.liveIn tenantId listId && decide (r.id < l.id)

end

section

variable {coll : String → String} {tenantId listId now : Int} {t : LeadTable}

theorem resetListSync_terminates :
    ∃ n t', resetListSync coll tenantId listId t = some (n, t') := by
  obtain ⟨n, t', hrun, -⟩ := @BatchUpdate.run_spec _ (resetBatches coll tenantId listId) t
  exact ⟨n, t', hrun⟩

/-- With positive ids, the leads found late are those already new with a batch of live
leads before them. -/
theorem late_resetBatches_iff
    (hpos : ∀ l ∈ t.rows, l.liveIn tenantId listId = true → 0 < l.id) {x : Lead} :
    (resetBatches coll tenantId listId).Late t.rows x ↔
      x ∈ t.rows ∧ x.liveIn tenantId listId = true ∧ coll x.status = coll "NEW" ∧
        batchSize ≤ liveBefore tenantId listId t x := by
  have hbefore : (t.rows.countP fun r =>
      (resetBatches coll tenantId listId).after 0 (Lead.liveIn tenantId listId) r &&
        decide (r.id < x.id)) = liveBefore tenantId listId t x := by
    apply List.countP_congr
    intro r hr
    rw [Bool.and_eq_true, Bool.and_eq_true, BatchUpdate.after_iff]
    constructor
    · rintro ⟨⟨hlive, -⟩, hlt⟩
      exact ⟨hlive, hlt⟩
    · rintro ⟨hlive, hlt⟩
      exact ⟨⟨hlive, hpos r hr hlive⟩, hlt⟩
  unfold BatchUpdate.Late
  constructor
  · rintro ⟨hmem, hfound, -, hcount⟩
    obtain ⟨hlive, hnew⟩ := Bool.and_eq_true_iff.1 hfound
    exact ⟨hmem, hlive, of_decide_eq_true hnew, by rw [← hbefore]; exact hcount⟩
  · rintro ⟨hmem, hlive, hnew, hcount⟩
    refine ⟨hmem, ?_, hpos x hmem hlive, ?_⟩
    · exact Bool.and_eq_true_iff.2 ⟨hlive, decide_eq_true hnew⟩
    · rw [← hbefore] at hcount
      exact hcount

/-- A reset is complete on the lists whose live leads have positive ids and none of
which, past the first thousand, is new already. -/
theorem resetListSync_complete_iff (coll : String → String) (tenantId listId : Int)
    (t : LeadTable) :
    ResetComplete coll tenantId listId t ↔
      ∀ l ∈ t.rows, l.liveIn tenantId listId = true →
        0 < l.id ∧ (coll l.status = coll "NEW" → liveBefore tenantId listId t l < batchSize) := by
  have hfound : ∀ l, (resetBatches coll tenantId listId).found l = true →
      (resetBatches coll tenantId listId).matched l = true :=
    fun l h => (Bool.and_eq_true_iff.1 h).1
  have hiff := BatchUpdate.run_complete_iff hfound t
  constructor
  · intro h l hl hlive
    obtain ⟨hpos, hlate⟩ := hiff.1 h
    refine ⟨hpos l hl hlive, ?_⟩
    intro hnew
    by_contra hge
    apply hlate l
    exact (late_resetBatches_iff hpos).2 ⟨hl, hlive, hnew, Nat.not_lt.1 hge⟩
  · intro h
    have hpos : ∀ l ∈ t.rows, l.liveIn tenantId listId = true → 0 < l.id :=
      fun l hl hlive => (h l hl hlive).1
    apply hiff.2
    refine ⟨hpos, ?_⟩
    intro x hx
    obtain ⟨hmem, hlive, hnew, hge⟩ := (late_resetBatches_iff hpos).1 hx
    have hlt := (h x hmem hlive).2 hnew
    omega

def plainColumns : LeadColumns where
  phoneE164 := "+12125550100"
  phoneAlt := none
  phoneAlt2 := none
  countryCode := "US"
  title := none
  firstName := none
  middleInitial := none
  lastName := none
  address1 := none
  address2 := none
  city := none
  state := none
  postalCode := none
  email := none
  dateOfBirth := none
  gender := "U"
  comments := none
  rank := 0
  ownerUserId := none
  vendorLeadCode := none
  sourceId := none
  customData := "\x7b\x7d"
  isBusiness := false

/-- The `i`-th lead of list 7 of tenant 1. -/
def numberedLead (status : String) (deletedAt : Option Int) (i : Nat) : Lead where
  id := i + 1
  tenantId := 1
  listId := 7
  status := status
  columns := plainColumns
  calledCount := 3
  lastCalledAt := none
  deletedAt := deletedAt
  entryAt := 0
  modifyAt := 0
  createdAt := 0
  updatedAt := 0

def numberedTable (n : Nat) (status : Nat → String) (deletedAt : Nat → Option Int) :
    LeadTable where
  rows := (List.range n).map fun i => numberedLead (status i) (deletedAt i) i
  sorted := by
    rw [List.pairwise_map]
    apply List.pairwise_lt_range.imp
    intro i j hij
    exact Int.add_lt_add_right (Int.ofNat_lt.2 hij) 1

theorem mem_numberedTable {n i : Nat} (status : Nat → String) (deletedAt : Nat → Option Int)
    (hi : i < n) :
    numberedLead (status i) (deletedAt i) i ∈ (numberedTable n status deletedAt).rows :=
  List.mem_map.2 ⟨i, List.mem_range.2 hi, rfl⟩

/-- Lead 1002 is new, the others are not. -/
def newestIsNew : LeadTable :=
  numberedTable 1002 (fun i => if i = 1001 then "NEW" else "NA") fun _ => none

/-- The cursor goes to lead 1002 after the first batch. Lead 1001 is not reset. -/
theorem reset_stops_at_new_lead : ¬ ResetComplete id 1 7 newestIsNew := by
  intro h
  have hfound : ∀ l, (resetBatches id 1 7).found l = true →
      (resetBatches id 1 7).matched l = true := fun l hl => (Bool.and_eq_true_iff.1 hl).1
  have hlate := ((BatchUpdate.run_complete_iff hfound newestIsNew).1 h).2
  apply hlate (numberedLead "NEW" none 1001)
  have hmem : numberedLead "NEW" none 1001 ∈ newestIsNew.rows :=
    mem_numberedTable _ _ (by omega)
  have hbefore : (newestIsNew.rows.countP fun r => (resetBatches id 1 7).after 0
      (Lead.liveIn 1 7) r && decide (r.id < 1002)) = 1001 := by decide +kernel
  refine ⟨hmem, by decide +kernel, by decide +kernel, ?_⟩
  show 1000 ≤ _
  calc 1000 ≤ 1001 := by omega
    _ = _ := hbefore.symm

/-- What the purge writes was nowhere before, so that its cursor is the end of each
batch. -/
theorem purgeListSync_complete
    (hpos : ∀ l ∈ t.rows, l.liveIn tenantId listId = true → 0 < l.id)
    (hnow : ∀ l ∈ t.rows, l.inList tenantId listId = true → l.deletedAt ≠ some now) :
    ∃ t', purgeListSync tenantId listId now t =
        some (t.rows.countP (Lead.liveIn tenantId listId), t') ∧
      t'.rows = updateAll (Lead.liveIn tenantId listId) (Lead.purge now) t.rows := by
  have hlate : ∀ x, ¬ (purgeBatches tenantId listId now).Late t.rows x := by
    rintro x ⟨hmem, hfound, -⟩
    obtain ⟨hin, hdel⟩ := Bool.and_eq_true_iff.1 hfound
    exact hnow x hmem hin (of_decide_eq_true hdel)
  exact BatchUpdate.run_complete hpos hlate
end

end Lists

end Vici2
