import Mathlib.Data.List.Forall2
import Vici2.BatchCopies
import Vici2.ListReset

/-! Cloning a list. Each statement copies the first thousand leads that are wanted; the
next starts after the first thousand leads of any kind. -/

namespace Vici2

namespace Lists

structure ListRow where
  id : Int
  tenantId : Int
  name : String
  description : Option String
  active : Bool
  ownerUserId : Option Int
  callerIdOverride : Option String
  callerIdName : Option String
  settings : String
  source : Option String
  resetTime : Option Int
  expiration : Option Int
  createdAt : Int
  updatedAt : Int
  deriving DecidableEq, Repr

/-- The table of leads and the ids that its counter gives out from now on. -/
structure LeadStore where
  rows : List Lead
  ids : Nat → Int
  sorted : rows.Pairwise fun a b => a.id < b.id
  increasing : ∀ i, ids i < ids (i + 1)
  fresh : ∀ l ∈ rows, l.id < ids 0

theorem LeadStore.ids_lt (s : LeadStore) {i j : Nat} (h : i < j) : s.ids i < s.ids j := by
  induction j with
  | zero => omega
  | succ j ih =>
    have hstep := s.increasing j
    by_cases hij : i = j
    · subst hij
      exact hstep
    · exact Int.lt_trans (ih (by omega)) hstep

def withIds (ids : Nat → Int) (new : List Lead) : List Lead :=
  new.mapIdx fun i l => { l with id := ids i }

theorem mem_withIds {ids : Nat → Int} {new : List Lead} {l : Lead} (h : l ∈ withIds ids new) :
    ∃ i, ∃ hi : i < new.length, { new[i] with id := ids i } = l :=
  List.mem_mapIdx.1 h

theorem withIds_sorted (s : LeadStore) (new : List Lead) :
    (withIds s.ids new).Pairwise fun a b => a.id < b.id := by
  rw [List.pairwise_iff_getElem]
  intro i j hi hj hij
  simp only [withIds, List.getElem_mapIdx]
  exact s.ids_lt hij

def LeadStore.insert (s : LeadStore) (new : List Lead) : LeadStore where
  rows := s.rows ++ withIds s.ids new
  ids i := s.ids (i + new.length)
  sorted := by
    rw [List.pairwise_append]
    refine ⟨s.sorted, withIds_sorted s new, ?_⟩
    intro a ha b hb
    obtain ⟨i, -, rfl⟩ := mem_withIds hb
    have hfresh := s.fresh a ha
    by_cases hi : i = 0
    · subst hi
      exact hfresh
    · exact Int.lt_trans hfresh (s.ids_lt (Nat.pos_of_ne_zero hi))
  increasing i := s.ids_lt (by omega)
  fresh := by
    intro l hl
    rcases List.mem_append.1 hl with hl | hl
    · have hfresh := s.fresh l hl
      by_cases hzero : new.length = 0
      · rw [hzero]
        exact hfresh
      · exact Int.lt_trans hfresh (s.ids_lt (by omega))
    · obtain ⟨i, hi, rfl⟩ := mem_withIds hl
      exact s.ids_lt (by omega)

/-- Every lead has its list, by foreign key. -/
structure Db where
  lists : List ListRow
  nextListId : Int
  leads : LeadStore
  lists_below : ∀ l ∈ lists, l.id < nextListId
  leads_listed : ∀ r ∈ leads.rows, ∃ l ∈ lists, l.id = r.listId

structure CloneInput where
  name : String
  description : Option String
  includeDeleted : Bool

section

variable (coll : String → String) (tenantId sourceListId : Int) (input : CloneInput)

def wanted (l : Lead) : Bool := input.includeDeleted || l.deletedAt.isNone

def findList (db : Db) : Option ListRow :=
  db.lists.find? fun l => l.id == sourceListId && l.tenantId == tenantId

/-- The name of a list is unique within its tenant. -/
def nameTaken (db : Db) : Bool :=
  db.lists.any fun l => l.tenantId == tenantId && coll l.name == coll input.name

def createdList (db : Db) (source : ListRow) (now : Int) : ListRow where
  id := db.nextListId
  tenantId := tenantId
  name := input.name
  description := input.description <|> source.description
  active := source.active
  ownerUserId := source.ownerUserId
  callerIdOverride := source.callerIdOverride
  callerIdName := source.callerIdName
  settings := source.settings
  source := source.source
  resetTime := none
  expiration := none
  createdAt := now
  updatedAt := now

/-- The `SELECT` of the copying statement. -/
def Lead.copyTo (newListId now : Int) (l : Lead) : Lead where
  id := 0
  tenantId := l.tenantId
  listId := newListId
  status := "NEW"
  columns := l.columns
  calledCount := 0
  lastCalledAt := none
  deletedAt := none
  entryAt := now
  modifyAt := now
  createdAt := now
  updatedAt := now

def listAfter (cursor : Int) (rows : List Lead) : List Lead :=
  rows.filter fun l => l.inList tenantId sourceListId && decide (cursor < l.id)

def selectBatch (cursor : Int) (rows : List Lead) : List Lead :=
  ((listAfter tenantId sourceListId cursor rows).filter (wanted input)).take batchSize

def lastRow (cursor : Int) (rows : List Lead) : Option Lead :=
  (listAfter tenantId sourceListId cursor rows)[batchSize - 1]?

structure CloneState where
  clonedLeads : Nat
  /-- The rows that the statements took, in order. -/
  taken : List Lead
  leads : LeadStore

def insertSelect (newListId now cursor : Int) (st : CloneState) : CloneState :=
  let batch := selectBatch tenantId sourceListId input cursor st.leads.rows
  { clonedLeads := st.clonedLeads + batch.length
    taken := st.taken ++ batch
    leads := st.leads.insert (batch.map (Lead.copyTo newListId now)) }

/-- The batch loop; `now i` is the clock at the `i`-th statement from here. -/
def cloneLoop (newListId : Int) : Nat → (Nat → Int) → Int → CloneState → Option CloneState
  | 0, _, _, _ => none
  | fuel + 1, now, cursor, st =>
    let batchAffected := (selectBatch tenantId sourceListId input cursor st.leads.rows).length
    let st' := insertSelect tenantId sourceListId input newListId (now 0) cursor st
    if batchAffected < batchSize then some st'
    else
      match lastRow tenantId sourceListId cursor st'.leads.rows with
      | none => some st'
      | some last => cloneLoop newListId fuel (fun i => now (i + 1)) last.id st'

def cloneList (db : Db) (now : Nat → Int) : Option (Except String (ListRow × CloneState)) :=
  match findList tenantId sourceListId db with
  | none => some (.error "LIST_NOT_FOUND")
  | some source =>
    if nameTaken coll tenantId input db then some (.error "P2002")
    else
      let newList := createdList tenantId input db source (now 0)
      (cloneLoop tenantId sourceListId input newList.id (db.leads.rows.length + 1)
        (fun i => now (i + 1)) 0 ⟨0, [], db.leads⟩).map fun st => .ok (newList, st)

/-- The leads to be copied. -/
def sourceLeads (db : Db) : List Lead :=
  (db.leads.rows.filter (Lead.inList tenantId sourceListId)).filter (wanted input)

structure IsCopy (list : ListRow) (l copy : Lead) : Prop where
  tenantId : copy.tenantId = l.tenantId
  listId : copy.listId = list.id
  columns : copy.columns = l.columns
  status : copy.status = "NEW"
  calledCount : copy.calledCount = 0
  lastCalledAt : copy.lastCalledAt = none
  deletedAt : copy.deletedAt = none

/-- Each wanted lead is copied once into the new list, and the count is theirs. -/
def CopiesEachOnce (db : Db) (now : Nat → Int) : Prop :=
  ∃ list st, cloneList coll tenantId sourceListId input db now = some (.ok (list, st)) ∧
    st.clonedLeads = (sourceLeads tenantId sourceListId input db).length ∧
    st.taken.Perm (sourceLeads tenantId sourceListId input db) ∧
    ∃ copies, st.leads.rows = db.leads.rows ++ copies ∧
      List.Forall₂ (IsCopy list) st.taken copies ∧
      st.leads.rows.filter (fun l => l.listId == list.id) = copies

end

section

variable {coll : String → String} {tenantId sourceListId : Int} {input : CloneInput}

theorem forall₂_copies (list : ListRow) (now : Int) (batch : List Lead) (ids : Nat → Int) :
    List.Forall₂ (IsCopy list) batch (withIds ids (batch.map (Lead.copyTo list.id now))) := by
  induction batch generalizing ids with
  | nil => exact List.Forall₂.nil
  | cons l batch ih =>
    have hrest := ih fun i => ids (i + 1)
    unfold withIds at *
    rw [List.map_cons, List.mapIdx_cons]
    exact List.Forall₂.cons ⟨rfl, rfl, rfl, rfl, rfl, rfl, rfl⟩ hrest

theorem listId_of_copies {list : ListRow} {batch copies : List Lead}
    (h : List.Forall₂ (IsCopy list) batch copies) : ∀ c ∈ copies, c.listId = list.id := by
  induction h with
  | nil => simp
  | cons hcopy _ ih =>
    intro c hc
    rcases List.mem_cons.1 hc with rfl | hc
    · exact hcopy.listId
    · exact ih c hc

/-- Leads of another list are not seen by the queries. -/
theorem listAfter_append {cursor : Int} {rows copies : List Lead}
    (h : ∀ c ∈ copies, c.listId ≠ sourceListId) :
    listAfter tenantId sourceListId cursor (rows ++ copies) =
      listAfter tenantId sourceListId cursor rows := by
  have hnone : listAfter tenantId sourceListId cursor copies = [] := by
    apply List.filter_eq_nil_iff.2
    intro c hc hin
    simp only [Lead.inList, Bool.and_eq_true, beq_iff_eq] at hin
    exact h c hc hin.1.2
  unfold listAfter at *
  rw [List.filter_append, hnone, List.append_nil]

theorem listAfter_sorted {cursor : Int} {rows : List Lead}
    (h : rows.Pairwise fun a b => a.id < b.id) :
    (listAfter tenantId sourceListId cursor rows).Pairwise fun a b => a.id < b.id :=
  h.filter _

theorem listAfter_lastRow {cursor : Int} {rows : List Lead} {last : Lead}
    (h : rows.Pairwise fun a b => a.id < b.id)
    (hlast : lastRow tenantId sourceListId cursor rows = some last) :
    listAfter tenantId sourceListId last.id rows =
      (listAfter tenantId sourceListId cursor rows).drop batchSize := by
  have hmem : last ∈ listAfter tenantId sourceListId cursor rows := List.mem_of_getElem? hlast
  have hafter : cursor < last.id := by
    have hkeep := (List.mem_filter.1 hmem).2
    simp only [Bool.and_eq_true, decide_eq_true_eq] at hkeep
    exact hkeep.2
  have hdrop := filter_key_lt (listAfter_sorted h) hlast
  rw [show batchSize - 1 + 1 = batchSize from rfl] at hdrop
  rw [← hdrop]
  unfold listAfter
  rw [List.filter_filter]
  apply List.filter_congr
  intro l _
  rw [Bool.eq_iff_iff]
  simp only [Bool.and_eq_true, decide_eq_true_eq]
  constructor
  · rintro ⟨hin, hlt⟩
    exact ⟨hlt, hin, by omega⟩
  · rintro ⟨hlt, hin, -⟩
    exact ⟨hin, hlt⟩

/-- `st'` is `st` after `rows` have been copied into the list. -/
structure Copied (list : ListRow) (rows : List Lead) (st st' : CloneState) : Prop where
  taken : st'.taken = st.taken ++ rows
  clonedLeads : st'.clonedLeads = st.clonedLeads + rows.length
  copies : ∃ copies, st'.leads.rows = st.leads.rows ++ copies ∧
    List.Forall₂ (IsCopy list) rows copies

theorem Copied.trans {list : ListRow} {rows rows' : List Lead} {st st' st'' : CloneState}
    (h : Copied list rows st st') (h' : Copied list rows' st' st'') :
    Copied list (rows ++ rows') st st'' := by
  obtain ⟨copies, hrows, hcopies⟩ := h.copies
  obtain ⟨copies', hrows', hcopies'⟩ := h'.copies
  constructor
  · rw [h'.taken, h.taken, List.append_assoc]
  · rw [h'.clonedLeads, h.clonedLeads, List.length_append, Nat.add_assoc]
  · refine ⟨copies ++ copies', ?_, List.rel_append hcopies hcopies'⟩
    rw [hrows', hrows, List.append_assoc]

theorem insertSelect_copied (list : ListRow) (now cursor : Int) (st : CloneState) :
    Copied list (selectBatch tenantId sourceListId input cursor st.leads.rows) st
      (insertSelect tenantId sourceListId input list.id now cursor st) where
  taken := rfl
  clonedLeads := rfl
  copies := ⟨_, rfl, forall₂_copies list now _ _⟩

theorem Copied.listAfter {list : ListRow} (hne : list.id ≠ sourceListId) {rows : List Lead}
    {st st' : CloneState} (h : Copied list rows st st') (cursor : Int) :
    listAfter tenantId sourceListId cursor st'.leads.rows =
      listAfter tenantId sourceListId cursor st.leads.rows := by
  obtain ⟨copies, hrows, hcopies⟩ := h.copies
  rw [hrows]
  apply listAfter_append
  intro c hc
  rw [listId_of_copies hcopies c hc]
  exact hne

/-- One turn of the loop: the last batch, or a full one that passes as many source leads. -/
theorem cloneLoop_step {list : ListRow} (hne : list.id ≠ sourceListId) (fuel : Nat)
    (now : Nat → Int) (cursor : Int) (st : CloneState) {rest : List Lead}
    (hrest : listAfter tenantId sourceListId cursor st.leads.rows = rest) :
    ∃ st', Copied list ((rest.filter (wanted input)).take batchSize) st st' ∧
      ((rest.countP (wanted input) < batchSize ∧
          cloneLoop tenantId sourceListId input list.id (fuel + 1) now cursor st = some st') ∨
        (batchSize ≤ rest.countP (wanted input) ∧
          ∃ last : Lead, listAfter tenantId sourceListId last.id st'.leads.rows =
              rest.drop batchSize ∧
            cloneLoop tenantId sourceListId input list.id (fuel + 1) now cursor st =
              cloneLoop tenantId sourceListId input list.id fuel (fun i => now (i + 1))
                last.id st')) := by
  have hcopied := @insertSelect_copied tenantId sourceListId input list (now 0) cursor st
  have hbatch : selectBatch tenantId sourceListId input cursor st.leads.rows =
      (rest.filter (wanted input)).take batchSize := by
    rw [← hrest]
    rfl
  rw [hbatch] at hcopied
  refine ⟨_, hcopied, ?_⟩
  by_cases hshort : rest.countP (wanted input) < batchSize
  · left
    have hlen : ((rest.filter (wanted input)).take batchSize).length < batchSize := by
      rw [List.length_take, ← List.countP_eq_length_filter]
      omega
    refine ⟨hshort, ?_⟩
    simp only [cloneLoop, hbatch, if_pos hlen]
  · right
    have hfull := Nat.not_lt.1 hshort
    have hlen := length_batch hfull
    have hle : rest.countP (wanted input) ≤ rest.length := List.countP_le_length
    have hpos : 0 < batchSize := by decide
    obtain ⟨last, hget⟩ : ∃ last, rest[batchSize - 1]? = some last :=
      ⟨_, List.getElem?_eq_getElem (by omega)⟩
    have hlast : lastRow tenantId sourceListId cursor
        (insertSelect tenantId sourceListId input list.id (now 0) cursor st).leads.rows =
          some last := by
      unfold lastRow
      rw [hcopied.listAfter hne, hrest]
      exact hget
    refine ⟨hfull, last, ?_, ?_⟩
    · rw [listAfter_lastRow (CloneState.leads _).sorted hlast, hcopied.listAfter hne, hrest]
    · simp only [cloneLoop, hbatch, hlen, Nat.lt_irrefl, if_false, hlast]

/-- The leads copied by the loop are those of the counted batches. -/
theorem cloneLoop_copied {list : ListRow} (hne : list.id ≠ sourceListId) {fuel : Nat}
    (now : Nat → Int) {cursor : Int} (st : CloneState) {rest : List Lead}
    (hrest : listAfter tenantId sourceListId cursor st.leads.rows = rest)
    (hfuel : rest.length < fuel) :
    ∃ st', cloneLoop tenantId sourceListId input list.id fuel now cursor st = some st' ∧
      Copied list (batchCopy (wanted input) batchSize (by decide) rest) st st' := by
  induction fuel generalizing now cursor st rest with
  | zero => omega
  | succ fuel ih =>
    obtain ⟨st', hcopied, ⟨hshort, hloop⟩ | ⟨hfull, last, hnext, hloop⟩⟩ :=
      @cloneLoop_step tenantId sourceListId input _ hne fuel now cursor st _ hrest
    · refine ⟨st', hloop, ?_⟩
      rw [batchCopy_short hshort]
      have htake : (rest.filter (wanted input)).take batchSize = rest.filter (wanted input) := by
        apply List.take_of_length_le
        rw [← List.countP_eq_length_filter]
        omega
      rw [htake] at hcopied
      exact hcopied
    · have hle : rest.countP (wanted input) ≤ rest.length := List.countP_le_length
      have hpos : 0 < batchSize := by decide
      have hfuel' : (rest.drop batchSize).length < fuel := by
        rw [List.length_drop]
        omega
      obtain ⟨st'', hloop', hcopied'⟩ := ih (fun i => now (i + 1)) st' hnext hfuel'
      refine ⟨st'', by rw [hloop, hloop'], ?_⟩
      rw [batchCopy_full hfull]
      exact hcopied.trans hcopied'

theorem cloneList_copied {db : Db} {source : ListRow} (now : Nat → Int)
    (hsource : findList tenantId sourceListId db = some source)
    (hname : nameTaken coll tenantId input db = false) :
    ∃ st, cloneList coll tenantId sourceListId input db now =
        some (.ok (createdList tenantId input db source (now 0), st)) ∧
      Copied (createdList tenantId input db source (now 0))
        (batchCopy (wanted input) batchSize (by decide)
          (listAfter tenantId sourceListId 0 db.leads.rows)) ⟨0, [], db.leads⟩ st := by
  have hmem : source ∈ db.lists := List.mem_of_find?_eq_some hsource
  have hid : source.id = sourceListId := by
    have hfound := List.find?_some hsource
    simp only [Bool.and_eq_true, beq_iff_eq] at hfound
    exact hfound.1
  have hne : (createdList tenantId input db source (now 0)).id ≠ sourceListId := by
    have hbelow := db.lists_below source hmem
    show db.nextListId ≠ sourceListId
    omega
  have hfuel : (listAfter tenantId sourceListId 0 db.leads.rows).length <
      db.leads.rows.length + 1 := Nat.lt_succ_of_le (List.length_filter_le _ _)
  obtain ⟨st, hloop, hcopied⟩ := @cloneLoop_copied tenantId sourceListId input _ hne _
    (fun i => now (i + 1)) 0 ⟨0, [], db.leads⟩ _ rfl hfuel
  refine ⟨st, ?_, hcopied⟩
  unfold cloneList
  simp only [hsource, hname, hloop]
  rfl

/-- The new list starts empty. -/
theorem filter_newList {db : Db} {list : ListRow} {copies : List Lead}
    (hid : list.id = db.nextListId) (h : ∀ c ∈ copies, c.listId = list.id) :
    (db.leads.rows ++ copies).filter (fun l => l.listId == list.id) = copies := by
  have hold : db.leads.rows.filter (fun l => l.listId == list.id) = [] := by
    apply List.filter_eq_nil_iff.2
    intro l hl heq
    obtain ⟨owner, howner, howns⟩ := db.leads_listed l hl
    have hbelow := db.lists_below owner howner
    rw [beq_iff_eq] at heq
    omega
  rw [List.filter_append, hold, List.nil_append]
  exact List.filter_eq_self.2 fun c hc => beq_iff_eq.2 (h c hc)

theorem mem_sourceLeads {db : Db} {l : Lead} :
    l ∈ sourceLeads tenantId sourceListId input db ↔
      l ∈ db.leads.rows ∧ l.inList tenantId sourceListId = true ∧ wanted input l = true := by
  unfold sourceLeads
  rw [List.mem_filter, List.mem_filter, and_assoc]

theorem mem_listAfter {cursor : Int} {rows : List Lead} {l : Lead} :
    l ∈ listAfter tenantId sourceListId cursor rows ↔
      l ∈ rows ∧ l.inList tenantId sourceListId = true ∧ cursor < l.id := by
  unfold listAfter
  rw [List.mem_filter, Bool.and_eq_true, decide_eq_true_eq]

theorem sourceLeads_eq {db : Db}
    (hpos : ∀ l ∈ sourceLeads tenantId sourceListId input db, 0 < l.id) :
    (listAfter tenantId sourceListId 0 db.leads.rows).filter (wanted input) =
      sourceLeads tenantId sourceListId input db := by
  unfold sourceLeads listAfter
  rw [List.filter_filter, List.filter_filter]
  apply List.filter_congr
  intro l hl
  rw [Bool.eq_iff_iff]
  simp only [Bool.and_eq_true, decide_eq_true_eq]
  constructor
  · rintro ⟨hw, hin, -⟩
    exact ⟨hw, hin⟩
  · rintro ⟨hw, hin⟩
    exact ⟨hw, hin, hpos l (mem_sourceLeads.2 ⟨hl, hin, hw⟩)⟩

theorem CopiesEachOnce.perm {db : Db} {source : ListRow} {now : Nat → Int}
    (h : CopiesEachOnce coll tenantId sourceListId input db now)
    (hsource : findList tenantId sourceListId db = some source)
    (hname : nameTaken coll tenantId input db = false) :
    (batchCopy (wanted input) batchSize (by decide)
      (listAfter tenantId sourceListId 0 db.leads.rows)).Perm
        (sourceLeads tenantId sourceListId input db) := by
  obtain ⟨list, st, hrun, -, hperm, -⟩ := h
  obtain ⟨st', hrun', hcopied⟩ := cloneList_copied now hsource hname
  rw [hrun] at hrun'
  obtain ⟨-, rfl⟩ := Prod.mk.inj (Except.ok.inj (Option.some.inj hrun'))
  have htaken := hcopied.taken
  rw [List.nil_append] at htaken
  rw [htaken] at hperm
  exact hperm

theorem allBatches_of_includeDeleted (h : input.includeDeleted = true) (rows : List Lead) :
    AllBatches (wanted input) batchSize rows := by
  intro l _
  unfold wanted
  rw [h, Bool.true_or]

end

/-- List 7 of tenant 1 with `n` leads. -/
def oneListDb (n : Nat) (hn : n ≤ 5000) (deletedAt : Nat → Option Int) : Db where
  lists := [⟨7, 1, "spring", none, true, none, none, none, "\x7b\x7d", none, none, none, 0, 0⟩]
  nextListId := 8
  leads :=
    { rows := (numberedTable n (fun _ => "NA") deletedAt).rows
      ids := fun i => 5001 + i
      sorted := (numberedTable n (fun _ => "NA") deletedAt).sorted
      increasing := by
        intro i
        omega
      fresh := by
        intro l hl
        obtain ⟨i, hi, rfl⟩ := List.mem_map.1 hl
        have hlt := List.mem_range.1 hi
        show (i : Int) + 1 < 5001 + (0 : Nat)
        omega }
  lists_below := by
    intro l hl
    obtain rfl := List.mem_singleton.1 hl
    decide
  leads_listed := by
    intro l hl
    obtain ⟨i, -, rfl⟩ := List.mem_map.1 hl
    exact ⟨_, List.mem_singleton.2 rfl, rfl⟩

def springCopy : CloneInput where
  name := "spring copy"
  description := none
  includeDeleted := false

/-- Lead 1 of the list is deleted. -/
def firstDeleted (i : Nat) : Option Int := if i = 0 then some 5 else none

end Lists

end Vici2
