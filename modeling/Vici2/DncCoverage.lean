import Vici2.DncImport

/-! Coverage of the do-not-call table by the Bloom filters, along every sequence
of writes. Rows of the federal and litigator lists are covered by one filter for
all tenants, internal rows by the filter of their tenant; a state row is read by
every tenant and covered for the importing one only. -/

namespace Vici2

namespace Dnc

/-- Every tenant that the query shows the row to finds its phone in the filter. -/
def RowCovered (bloom : List (String × String)) (r : DncRow) : Prop :=
  match r.source with
  | .federal => (filterKey .federal none, r.phoneE164) ∈ bloom
  | .litigator => (filterKey .litigator none, r.phoneE164) ∈ bloom
  | .internal => (filterKey .internal (some r.tenantID), r.phoneE164) ∈ bloom
  | .state => False
  | .other _ => True

def AllCovered (s : DncStore) : Prop := ∀ r ∈ s.table, RowCovered s.bloom r

theorem RowCovered.mono {bloom bloom' : List (String × String)} (hsub : bloom ⊆ bloom')
    {r : DncRow} (h : RowCovered bloom r) : RowCovered bloom' r := by
  unfold RowCovered at h ⊢
  cases hs : r.source with
  | federal => rw [hs] at h; exact hsub h
  | litigator => rw [hs] at h; exact hsub h
  | internal => rw [hs] at h; exact hsub h
  | state => rw [hs] at h; exact h
  | other name => trivial

theorem AllCovered.covered {s : DncStore} (h : AllCovered s) (coll : String → String) :
    Covered coll s := by
  intro now a sources src hsrc
  obtain ⟨r, hr, hs, hcov, -, -⟩ := mem_confirmedSources hsrc
  have hrow := h r hr
  unfold RowCovered at hrow
  rw [hs] at hrow
  simp only [ConfirmArgs.covers, hs, Bool.and_eq_true, Bool.or_eq_true, decide_eq_true_eq] at hcov
  obtain ⟨⟨hphone, -⟩, hscope⟩ := hcov
  rw [← hphone]
  cases src with
  | federal => exact hrow
  | litigator => exact hrow
  | state => exact hrow.elim
  | internal =>
    simp only [DncSource.row, Bool.and_eq_true, decide_eq_true_eq] at hscope
    rw [← hscope.1]
    exact hrow

theorem mem_chunks {rows : List BulkRow} {chunk : List BulkRow} {row : BulkRow}
    (hc : chunk ∈ chunks rows) (hr : row ∈ chunk) : row ∈ rows := by
  obtain ⟨i, -, rfl⟩ := List.mem_map.1 hc
  exact List.mem_of_mem_drop (List.mem_of_mem_take hr)

section Import

variable {env : ImportEnv} {opts : ImportOpts}

theorem rowCovered_valid (hstate : opts.source ≠ .state) {valid : List ValidRow} {v : ValidRow}
    (hv : v ∈ valid) :
    RowCovered ((valid.map ValidRow.phone).map fun p => (importKey opts, p)) (v.row opts) := by
  have hmem : (importKey opts, v.phone) ∈
      (valid.map ValidRow.phone).map fun p => (importKey opts, p) :=
    List.mem_map_of_mem (List.mem_map_of_mem hv)
  unfold RowCovered
  cases hs : opts.source with
  | state => exact absurd hs hstate
  | internal =>
    simp only [ValidRow.row, dbTenantId, hs, ImportSource.row, if_true]
    simpa only [importKey, hs] using hmem
  | litigator =>
    simp only [ValidRow.row, hs, ImportSource.row]
    simpa only [importKey, hs] using hmem

theorem AllCovered.importChunk {st : ImportState} {chunk : List BulkRow}
    (h : AllCovered st.store)
    (hplain : ∀ v ∈ chunk.filterMap (validRow env opts), v.plain = true)
    (hstate : opts.source = .state → chunk.filterMap (validRow env opts) = []) :
    AllCovered (importChunk env opts st chunk).store := by
  unfold Dnc.importChunk
  dsimp only
  by_cases hnil : chunk.filterMap (validRow env opts) = []
  · rw [if_pos hnil]
    exact h
  · rw [if_neg hnil]
    have hne : opts.source ≠ .state := fun hs => hnil (hstate hs)
    have hall : (chunk.filterMap (validRow env opts)).all ValidRow.plain = true :=
      List.all_eq_true.2 hplain
    intro r hr
    simp only [madd, insertValid, hall, if_true] at hr ⊢
    rcases mem_of_mem_insertIgnore hr with hr | hr
    · exact (h r hr).mono (List.subset_append_left _ _)
    · obtain ⟨v, hv, rfl⟩ := List.mem_map.1 hr
      exact (rowCovered_valid hne hv).mono (List.subset_append_right _ _)

theorem AllCovered.foldl_importChunk {css : List (List BulkRow)} {st : ImportState}
    (h : AllCovered st.store)
    (hplain : ∀ c ∈ css, ∀ v ∈ c.filterMap (validRow env opts), v.plain = true)
    (hstate : opts.source = .state → ∀ c ∈ css, c.filterMap (validRow env opts) = []) :
    AllCovered (css.foldl (Dnc.importChunk env opts) st).store := by
  induction css generalizing st with
  | nil => exact h
  | cons c css ih =>
    apply ih
    · exact h.importChunk (hplain c List.mem_cons_self)
        fun hs => hstate hs c List.mem_cons_self
    · exact fun x hx => hplain x (List.mem_cons_of_mem _ hx)
    · exact fun hs x hx => hstate hs x (List.mem_cons_of_mem _ hx)

theorem mem_importedRows {chunk : List BulkRow} {v : ValidRow}
    (hc : chunk ∈ chunks ((parseCsvRows opts.csvText).take maxRows))
    (hv : v ∈ chunk.filterMap (validRow env opts)) : v ∈ importedRows env opts := by
  obtain ⟨row, hrow, hval⟩ := List.mem_filterMap.1 hv
  exact List.mem_filterMap.2 ⟨row, mem_chunks hc hrow, hval⟩

theorem AllCovered.bulkImport {s : DncStore} (h : AllCovered s)
    (hsafe : SafeWrite env (.bulkImport opts)) : AllCovered (bulkImportDnc env opts s).store := by
  obtain ⟨hplain, hstate⟩ := hsafe
  unfold bulkImportDnc
  apply AllCovered.foldl_importChunk (by exact h)
  · intro c hc v hv
    exact hplain v (mem_importedRows hc hv)
  · intro hs c hc
    apply List.eq_nil_iff_forall_not_mem.2
    intro v hv
    have hmem := mem_importedRows hc hv
    rw [hstate hs] at hmem
    simp at hmem

end Import

def pendingBloom (st : SyncState) : List (String × String) :=
  st.store.bloom ++ st.bloomAdds.map fun p => (filterKey .federal none, p)

/-- While the delta runs: rows and pending adds are covered by the filters and
the phones still to be added to the federal one. -/
structure Pending (st : SyncState) : Prop where
  rows : ∀ r ∈ st.store.table, RowCovered (pendingBloom st) r
  batch : ∀ p ∈ st.addBatch, (filterKey .federal none, p) ∈ pendingBloom st

theorem rowCovered_federalRow {bloom : List (String × String)} {p : String}
    (h : (filterKey .federal none, p) ∈ bloom) : RowCovered bloom (federalRow p) := h

theorem rowCovered_expireRow {bloom : List (String × String)} {now : Int} {phones : List String}
    {r : DncRow} (h : RowCovered bloom r) : RowCovered bloom (expireRow now phones r) := by
  unfold expireRow
  split
  · exact h
  · exact h

theorem Pending.flushAdd {db : MySQL} {st : SyncState} (h : Pending st) :
    Pending (flushAdd db st) := by
  have hbloom : pendingBloom (Dnc.flushAdd db st) = pendingBloom st := by
    unfold pendingBloom Dnc.flushAdd processAdd
    dsimp only
    split <;> rfl
  refine ⟨?_, by simp [Dnc.flushAdd]⟩
  rw [hbloom]
  intro r hr
  unfold Dnc.flushAdd processAdd at hr
  dsimp only at hr
  split at hr
  · exact h.rows r hr
  · rcases mem_of_mem_insertIgnore hr with hr | hr
    · exact h.rows r hr
    · obtain ⟨p, hp, rfl⟩ := List.mem_map.1 hr
      exact rowCovered_federalRow (h.batch p hp)

theorem Pending.flushDel {db : MySQL} {st : SyncState} (h : Pending st) :
    Pending (flushDel db st) := by
  have hbloom : pendingBloom (Dnc.flushDel db st) = pendingBloom st := by
    unfold pendingBloom Dnc.flushDel processDel
    dsimp only
    split <;> rfl
  refine ⟨?_, ?_⟩
  · rw [hbloom]
    intro r hr
    unfold Dnc.flushDel processDel at hr
    dsimp only at hr
    split at hr
    · exact h.rows r hr
    · obtain ⟨x, hx, rfl⟩ := List.mem_map.1 hr
      exact rowCovered_expireRow (h.rows x hx)
  · rw [hbloom]
    exact h.batch

theorem flushBloom_pendingBloom (st : SyncState) :
    (flushBloom st).store.bloom = pendingBloom st := by
  unfold flushBloom processBloomAdds madd pendingBloom
  dsimp only
  by_cases hnil : st.bloomAdds = []
  · simp [hnil]
  · rw [if_neg hnil]
    rfl

theorem Pending.flushBloom {st : SyncState} (h : Pending st) : Pending (flushBloom st) := by
  have hbloom : pendingBloom (Dnc.flushBloom st) = pendingBloom st := by
    have hb := flushBloom_pendingBloom st
    unfold pendingBloom at hb ⊢
    rw [hb]
    simp [Dnc.flushBloom]
  refine ⟨?_, ?_⟩
  · rw [hbloom, flushBloom_table]
    exact h.rows
  · rw [hbloom]
    exact h.batch

theorem Pending.syncParsed {db : MySQL} {st : SyncState} {d : DeltaLine} (h : Pending st) :
    Pending (syncParsed db st d) := by
  unfold Dnc.syncParsed
  cases hd : d.action with
  | del =>
    dsimp only
    have hst : Pending { st with delBatch := st.delBatch ++ [d.e164] } := ⟨h.rows, h.batch⟩
    split
    · exact hst.flushDel
    · exact hst
  | add =>
    dsimp only
    have hsub : pendingBloom st ⊆ pendingBloom { st with
        addBatch := st.addBatch ++ [d.e164], bloomAdds := st.bloomAdds ++ [d.e164] } := by
      intro x hx
      unfold pendingBloom at hx ⊢
      simp only [List.map_append, List.mem_append] at hx ⊢
      rcases hx with hx | hx
      · exact Or.inl hx
      · exact Or.inr (Or.inl hx)
    have hst : Pending { st with
        addBatch := st.addBatch ++ [d.e164], bloomAdds := st.bloomAdds ++ [d.e164] } := by
      refine ⟨fun r hr => (h.rows r hr).mono hsub, ?_⟩
      intro p hp
      rcases List.mem_append.1 hp with hp | hp
      · exact hsub (h.batch p hp)
      · rw [List.mem_singleton] at hp
        subst hp
        simp [pendingBloom]
    by_cases hfill : batchSize ≤ (st.addBatch ++ [d.e164]).length
    · rw [if_pos hfill]
      split
      · exact hst.flushAdd.flushBloom
      · exact hst.flushAdd
    · rw [if_neg hfill]
      split
      · exact hst.flushBloom
      · exact hst

theorem AllCovered.federalDelta {db : MySQL} {s : DncStore} (h : AllCovered s)
    (file : List String) : AllCovered (runFederalDeltaSync db file s).store := by
  have hloop : ∀ (ds : List DeltaLine) (st : SyncState), Pending st →
      Pending (ds.foldl (Dnc.syncParsed db) st) := by
    intro ds
    induction ds with
    | nil => exact fun st hst => hst
    | cons d ds ih => exact fun st hst => ih _ hst.syncParsed
  have hstart : Pending ⟨s, [], [], [], 0, 0⟩ := by
    refine ⟨?_, by simp⟩
    intro r hr
    exact (h r hr).mono (List.subset_append_left _ _)
  have hend : Pending (Dnc.flushDel db (Dnc.flushAdd db
      (file.foldl (syncLine db) ⟨s, [], [], [], 0, 0⟩))) := by
    rw [foldl_syncLine]
    exact (hloop (deltaLines file) _ hstart).flushAdd.flushDel
  intro r hr
  unfold runFederalDeltaSync at hr ⊢
  rw [flushBloom_table] at hr
  rw [flushBloom_pendingBloom]
  exact hend.rows r hr

theorem AllCovered.write {env : ImportEnv} {s : DncStore} (h : AllCovered s) {w : DncWrite}
    (hsafe : SafeWrite env w) : AllCovered (write env s w) := by
  cases w with
  | bulkImport opts => exact h.bulkImport hsafe
  | federalDelta file => exact h.federalDelta file

/-- Along every sequence of writes without state imports, no filter hides a row
from any tenant. -/
theorem bloom_covers_along_run (env : ImportEnv) (ws : List DncWrite)
    (hsafe : ∀ w ∈ ws, SafeWrite env w) :
    Always (write env) (Covered env.db.coll) DncStore.empty ws := by
  have hempty : AllCovered DncStore.empty := by simp [AllCovered, DncStore.empty]
  have hrun : Always (Dnc.write env) AllCovered DncStore.empty ws :=
    always_of_eachStep (fun s w hs hw => hs.write hw) hempty (eachStep_of_forall_mem hsafe _)
  exact hrun.mono fun s hs => hs.covered env.db.coll

/-- The library on the one number of the examples below. -/
def oneNumber : ImportEnv :=
  ⟨⟨id, fun _ => 0⟩, fun s => if s = "+14155551212" then some s else none, fun _ _ t => t⟩

theorem internal_import_covered :
    (confirmedSources id (write oneNumber DncStore.empty
        (.bulkImport ⟨1, .internal, "phone\n+14155551212", none, none, none⟩)).table 0
        ⟨"+14155551212", 1, "__GLOBAL__", "__"⟩ [.internal] = [.internal]) ∧
      Covered id (write oneNumber DncStore.empty
        (.bulkImport ⟨1, .internal, "phone\n+14155551212", none, none, none⟩)) := by
  have hsafe : ∀ w ∈ [DncWrite.bulkImport ⟨1, .internal, "phone\n+14155551212", none, none, none⟩],
      SafeWrite oneNumber w := by
    intro w hw
    rw [List.mem_singleton] at hw
    subst hw
    exact ⟨by decide, by decide⟩
  exact ⟨by decide, (bloom_covers_along_run oneNumber _ hsafe).last⟩

theorem state_import_hidden_from_other_tenant :
    ¬ Always (write oneNumber) (Covered id) DncStore.empty
      [.bulkImport ⟨1, .state, "phone\n+14155551212", none, none, some "TX"⟩] := by
  intro h
  have hmem := h.last 0 ⟨"+14155551212", 2, "__GLOBAL__", "TX"⟩ [.state] .state (by decide)
  revert hmem
  decide

end Dnc

end Vici2
