import Vici2.LeadImportAccounting

/-! The writer of a lead import, and a second run that resumes at the batch at which the
first one failed. Batches are skipped by their index, while the rows that fill them depend
on what the scrub of each run let through. -/

namespace Vici2

namespace LeadImport

section Writer

variable {ν : Type}

/-- The leads of the list, and what the writer has counted. -/
structure DbWriter (ν : Type) where
  leads : List (NormalizedLead ν)
  processed : Nat
  inserted : Nat
  skipped : Nat

def DbWriter.phones (w : DbWriter ν) : List String := w.leads.map (·.phoneE164)

def insertIgnore (leads : List (NormalizedLead ν)) (rows : List (ValidRow ν)) :
    List (NormalizedLead ν) :=
  rows.foldl (fun leads row =>
    if row.lead.phoneE164 ∈ leads.map (·.phoneE164) then leads else leads ++ [row.lead]) leads

def DbWriter.write (w : DbWriter ν) (resumeFromBatch : Option Nat) (batch : Batch ν) :
    DbWriter ν :=
  if ∃ k ∈ resumeFromBatch, batch.batchIndex < k then
    { w with processed := w.processed + batch.rows.length }
  else if batch.rows = [] then w
  else
    let leads := insertIgnore w.leads batch.rows
    let insertedCount := leads.length - w.leads.length
    { leads := leads
      processed := w.processed + batch.rows.length
      inserted := w.inserted + insertedCount
      skipped := w.skipped + (batch.rows.length - insertedCount) }

/-- The writes of a run, up to the batch whose write fails. -/
def DbWriter.writeAll (resumeFromBatch failAt : Option Nat) :
    DbWriter ν → List (Batch ν) → DbWriter ν
  | w, [] => w
  | w, batch :: batches =>
    if failAt = some batch.batchIndex then w
    else writeAll resumeFromBatch failAt (w.write resumeFromBatch batch) batches

/-- The leads after a run that fails at batch `k` and the run that resumes there. -/
def afterResume (J : Runtime ν) (S : Settings) (first second : Nat → ScrubReply)
    (rows : List MappedRow) (k : Nat) (leads : List (NormalizedLead ν)) : DbWriter ν :=
  let failed := DbWriter.writeAll none (some k) ⟨leads, 0, 0, 0⟩ (batches J S first rows)
  DbWriter.writeAll (some k) none ⟨failed.leads, 0, 0, 0⟩ (batches J S second rows)

theorem mem_insertIgnore (leads : List (NormalizedLead ν)) (rows : List (ValidRow ν))
    (phone : String) :
    phone ∈ (insertIgnore leads rows).map (·.phoneE164) ↔
      phone ∈ leads.map (·.phoneE164) ∨ phone ∈ rows.map (·.lead.phoneE164) := by
  induction rows generalizing leads with
  | nil => simp [insertIgnore]
  | cons row rows ih =>
    have hcons : insertIgnore leads (row :: rows) = insertIgnore
        (if row.lead.phoneE164 ∈ leads.map (·.phoneE164) then leads else leads ++ [row.lead])
        rows := rfl
    rw [hcons, ih, List.map_cons, List.mem_cons]
    by_cases hin : row.lead.phoneE164 ∈ leads.map (·.phoneE164)
    · rw [if_pos hin]
      constructor
      · rintro (h | h)
        · exact .inl h
        · exact .inr (.inr h)
      · rintro (h | rfl | h)
        · exact .inl h
        · exact .inl hin
        · exact .inr h
    · rw [if_neg hin, List.map_append, List.mem_append, or_assoc]
      simp

theorem mem_write_phones (w : DbWriter ν) (resume : Option Nat) (batch : Batch ν)
    (phone : String) :
    phone ∈ (w.write resume batch).phones ↔
      phone ∈ w.phones ∨
        (¬ ∃ k ∈ resume, batch.batchIndex < k) ∧ phone ∈ batch.rows.map (·.lead.phoneE164) := by
  rw [DbWriter.write]
  by_cases hskip : ∃ k ∈ resume, batch.batchIndex < k
  · rw [if_pos hskip]
    exact ⟨.inl, fun h => h.elim id fun h => absurd hskip h.1⟩
  · rw [if_neg hskip]
    by_cases hempty : batch.rows = []
    · simp [hempty]
    · rw [if_neg hempty]
      simp only [DbWriter.phones, mem_insertIgnore, hskip, not_false_eq_true, true_and]

/-- What a run writes from its batches, before the one that fails. -/
theorem mem_writeAll_none (w : DbWriter ν) (resume : Option Nat) (bs : List (Batch ν))
    (phone : String) :
    phone ∈ (DbWriter.writeAll resume none w bs).phones ↔
      phone ∈ w.phones ∨ ∃ b ∈ bs, (¬ ∃ k ∈ resume, b.batchIndex < k) ∧
        phone ∈ b.rows.map (·.lead.phoneE164) := by
  induction bs generalizing w with
  | nil => simp [DbWriter.writeAll]
  | cons b bs ih =>
    rw [DbWriter.writeAll, if_neg (by simp), ih, mem_write_phones, or_assoc]
    simp only [List.mem_cons, exists_eq_or_imp]

theorem take_cut {n i k : Nat} (hik : i < k) {rows rest : List (ValidRow ν)}
    (hrows : rows.length = n) :
    (rows ++ rest).take ((k - i) * n) = rows ++ rest.take ((k - (i + 1)) * n) := by
  have hsplit : (k - i) * n = rows.length + (k - (i + 1)) * n := by
    have hsucc : k - i = (k - (i + 1)) + 1 := by omega
    rw [hsucc, Nat.add_mul, hrows]
    omega
  rw [hsplit, List.take_length_add_append]

theorem drop_cut {n i k : Nat} (hik : i < k) {rows rest : List (ValidRow ν)}
    (hrows : rows.length = n) :
    (rows ++ rest).drop ((k - i) * n) = rest.drop ((k - (i + 1)) * n) := by
  have hsplit : (k - i) * n = rows.length + (k - (i + 1)) * n := by
    have hsucc : k - i = (k - (i + 1)) + 1 := by omega
    rw [hsucc, Nat.add_mul, hrows]
    omega
  rw [hsplit, List.drop_length_add_append]

theorem short_of_lt {n i k : Nat} (hik : i < k) {rows : List (ValidRow ν)}
    (hrows : rows.length < n) : rows.length ≤ (k - i) * n := by
  have hone : 1 * n ≤ (k - i) * n := Nat.mul_le_mul_right n (by omega)
  omega

/-- A run that fails at batch `k` has written the rows of the batches before it. -/
theorem Cut.mem_written {n i : Nat} {rows : List (ValidRow ν)} {out : List (Batch ν)}
    (h : Cut n i rows out) {k : Nat} (hik : i ≤ k) (w : DbWriter ν) (phone : String) :
    phone ∈ (DbWriter.writeAll none (some k) w out).phones ↔
      phone ∈ w.phones ∨ phone ∈ (rows.take ((k - i) * n)).map (·.lead.phoneE164) := by
  induction h generalizing w with
  | nil => simp [DbWriter.writeAll]
  | @last i rows hne hlt =>
    rw [DbWriter.writeAll]
    by_cases hend : k = i
    · simp [hend]
    · rw [if_neg (by simpa using hend), DbWriter.writeAll, mem_write_phones,
        List.take_of_length_le (short_of_lt (by omega) hlt)]
      simp
  | @cons i rows rest out hrows _ ih =>
    rw [DbWriter.writeAll]
    by_cases hend : k = i
    · simp [hend]
    · rw [if_neg (by simpa using hend), ih (by omega), mem_write_phones,
        take_cut (by omega) hrows, List.map_append, List.mem_append]
      simp [or_assoc]

/-- The batches from `k` on hold the rows after those of the first `k`. -/
theorem Cut.mem_resumed {n i : Nat} {rows : List (ValidRow ν)} {out : List (Batch ν)}
    (h : Cut n i rows out) (k : Nat) (phone : String) :
    (∃ b ∈ out, ¬ b.batchIndex < k ∧ phone ∈ b.rows.map (·.lead.phoneE164)) ↔
      phone ∈ (rows.drop ((k - i) * n)).map (·.lead.phoneE164) := by
  induction h with
  | nil => simp
  | @last i rows hne hlt =>
    by_cases hik : i < k
    · rw [List.drop_of_length_le (short_of_lt hik hlt)]
      simp [hik]
    · have hzero : k - i = 0 := by omega
      have hki : k ≤ i := Nat.le_of_not_lt hik
      simp [hzero, hki]
  | @cons i rows rest out hrows _ ih =>
    by_cases hik : i < k
    · rw [drop_cut hik hrows, ← ih]
      simp only [List.mem_cons, exists_eq_or_imp, hik, not_true, false_and, false_or]
    · have hzero : k - i = 0 := by omega
      have hzero' : k - (i + 1) = 0 := by omega
      rw [hzero', Nat.zero_mul, List.drop_zero] at ih
      rw [hzero, Nat.zero_mul, List.drop_zero, List.map_append, List.mem_append, ← ih]
      simp only [List.mem_cons, exists_eq_or_imp, hik, not_false_eq_true, true_and]

theorem mem_afterResume (J : Runtime ν) (S : Settings) (hpos : 0 < S.batchSize)
    (first second : Nat → ScrubReply) (rows : List MappedRow) (k : Nat)
    (leads : List (NormalizedLead ν)) (phone : String) :
    phone ∈ (afterResume J S first second rows k leads).phones ↔
      phone ∈ leads.map (·.phoneE164) ∨
        phone ∈ ((scrubbedRows J S first rows).take (k * S.batchSize)).map (·.lead.phoneE164) ∨
        phone ∈ ((scrubbedRows J S second rows).drop (k * S.batchSize)).map
          (·.lead.phoneE164) := by
  have hfirst := (batcher_cut hpos (scrubbedRows J S first rows)).1
  have hsecond := (batcher_cut hpos (scrubbedRows J S second rows)).1
  have hwritten := hfirst.mem_written (Nat.zero_le k) ⟨leads, 0, 0, 0⟩ phone
  have hresumed := hsecond.mem_resumed k phone
  rw [Nat.sub_zero] at hwritten hresumed
  rw [afterResume, mem_writeAll_none, ← hresumed]
  have hnot : ∀ b : Batch ν, (¬ ∃ j ∈ some k, b.batchIndex < j) ↔ ¬ b.batchIndex < k := by
    simp
  simp only [hnot]
  exact (or_congr_left hwritten).trans or_assoc

end Writer

section Ranks

variable {α : Type*}

/-- How many earlier entries are kept. -/
def rank (fates : List (Option α)) (j : Nat) : Nat := (fates.take j).countP (·.isSome)

theorem mem_take_filterMap {fates : List (Option α)} {m : Nat} {y : α} :
    y ∈ (fates.filterMap id).take m ↔
      ∃ j, fates[j]? = some (some y) ∧ rank fates j < m := by
  induction fates generalizing m with
  | nil => simp
  | cons fate fates ih =>
    cases fate with
    | none =>
      rw [List.filterMap_cons_none rfl, ih]
      constructor
      · rintro ⟨j, hj, hrank⟩
        exact ⟨j + 1, hj, by simpa [rank] using hrank⟩
      · rintro ⟨j, hj, hrank⟩
        cases j with
        | zero => simp at hj
        | succ j => exact ⟨j, hj, by simpa [rank] using hrank⟩
    | some x =>
      have hcons : (some x :: fates).filterMap id = x :: fates.filterMap id := rfl
      rw [hcons]
      cases m with
      | zero => simp
      | succ m =>
        rw [List.take_succ_cons, List.mem_cons, ih]
        constructor
        · rintro (rfl | ⟨j, hj, hrank⟩)
          · exact ⟨0, rfl, by simp [rank]⟩
          · refine ⟨j + 1, hj, ?_⟩
            simp only [rank, List.take_succ_cons, List.countP_cons, Option.isSome_some, if_true] at *
            omega
        · rintro ⟨j, hj, hrank⟩
          cases j with
          | zero =>
            left
            simpa using hj.symm
          | succ j =>
            right
            refine ⟨j, hj, ?_⟩
            simp only [rank, List.take_succ_cons, List.countP_cons, Option.isSome_some, if_true] at *
            omega

end Ranks

section Fates

variable {ν : Type} (opts : ScrubOptions) (replies : Nat → ScrubReply)

/-- What the scrub of a run makes of each valid row: the flushes take a hundred rows
each. -/
def scrubFates (k : Nat) (rows : List (ValidRow ν)) : List (Option (ValidRow ν)) :=
  if rows = [] then []
  else
    (scrubBatch opts (replies k) (rows.take dncBatchSize)).map Prod.fst ++
      scrubFates (k + 1) (rows.drop dncBatchSize)
termination_by rows.length
decreasing_by
  next hne =>
    have hlen := List.length_pos_iff.2 hne
    rw [List.length_drop]
    simp only [dncBatchSize]
    omega

theorem scrubFates_nil (k : Nat) : scrubFates opts replies k ([] : List (ValidRow ν)) = [] := by
  rw [scrubFates, if_pos rfl]

theorem scrubFates_flush (k : Nat) {batch : List (ValidRow ν)} (rest : List (ValidRow ν))
    (hbatch : batch.length = dncBatchSize) :
    scrubFates opts replies k (batch ++ rest) =
      (scrubBatch opts (replies k) batch).map Prod.fst ++ scrubFates opts replies (k + 1) rest := by
  have hne : batch ++ rest ≠ [] := by
    intro hnil
    rw [(List.append_eq_nil_iff.1 hnil).1] at hbatch
    simp [dncBatchSize] at hbatch
  rw [scrubFates, if_neg hne, ← hbatch, List.take_left, List.drop_left]

theorem scrubFates_short (k : Nat) {batch : List (ValidRow ν)}
    (hbatch : batch.length < dncBatchSize) :
    scrubFates opts replies k batch = (scrubBatch opts (replies k) batch).map Prod.fst := by
  by_cases hnil : batch = []
  · rw [hnil, scrubFates_nil]
    rfl
  · rw [scrubFates, if_neg hnil, List.take_of_length_le (Nat.le_of_lt hbatch),
      List.drop_of_length_le (Nat.le_of_lt hbatch), scrubFates_nil, List.append_nil]

theorem dncTcpaScrub_fates (rows : List (ValidRow ν)) :
    ((dncTcpaScrub opts replies).run rows).1 =
      (scrubFates opts replies 0 rows).filterMap id := by
  refine (dncTcpaScrub opts replies).runFrom_induction (Q := fun s xs out _ =>
    s.1.length < dncBatchSize → out = (scrubFates opts replies s.2 (s.1 ++ xs)).filterMap id)
    ?_ ?_ ([], 0) rows (Nat.zero_lt_succ 99)
  · intro s hs
    rw [List.append_nil, scrubFates_short opts replies s.2 hs, List.filterMap_map]
    rfl
  · intro s row rows out ev h hs
    have hassoc : s.1 ++ row :: rows = s.1 ++ [row] ++ rows := by simp
    have hlen : (s.1 ++ [row]).length = s.1.length + 1 := by simp
    rw [hassoc]
    by_cases hfull : dncBatchSize ≤ (s.1 ++ [row]).length
    · have hexact : (s.1 ++ [row]).length = dncBatchSize := by omega
      have hstep : (dncTcpaScrub opts replies).transform s row =
          (([], s.2 + 1), flushBuffer opts (replies s.2) (s.1 ++ [row])) := if_pos hfull
      rw [hstep] at h ⊢
      rw [scrubFates_flush opts replies s.2 rows hexact, List.filterMap_append,
        h (by simp [dncBatchSize]), List.filterMap_map]
      rfl
    · have hstep : (dncTcpaScrub opts replies).transform s row =
          ((s.1 ++ [row], s.2), [], []) := if_neg hfull
      rw [hstep] at h ⊢
      exact h (Nat.lt_of_not_le hfull)

theorem scrubBatch_phone (reply : ScrubReply) (batch : List (ValidRow ν)) :
    List.Forall₂ (fun row fate => ∀ v ∈ fate, v.lead.phoneE164 = row.lead.phoneE164) batch
      ((scrubBatch opts reply batch).map Prod.fst) := by
  rw [scrubBatch, List.map_map, List.forall₂_map_right_iff]
  exact List.forall₂_same.2 fun row _ => (scrubRow_fate opts _ _ row).2

/-- A row that passes the scrub keeps its phone. -/
theorem scrubFates_phone (k : Nat) (rows : List (ValidRow ν)) :
    List.Forall₂ (fun row fate => ∀ v ∈ fate, v.lead.phoneE164 = row.lead.phoneE164) rows
      (scrubFates opts replies k rows) := by
  fun_induction scrubFates opts replies k rows with
  | case1 k => exact .nil
  | case2 k rows hne ih =>
    have hfirst := scrubBatch_phone opts (replies k) (rows.take dncBatchSize)
    have hboth := List.rel_append hfirst ih
    dsimp only at hboth
    rwa [List.take_append_drop] at hboth

/-- The row at position `j` is not blocked. -/
def Passes (fates : List (Option (ValidRow ν))) (j : Nat) : Prop :=
  ∃ v, fates[j]? = some (some v)

theorem phone_of_fate {rows : List (ValidRow ν)} {fates : List (Option (ValidRow ν))}
    (h : List.Forall₂ (fun row fate => ∀ v ∈ fate, v.lead.phoneE164 = row.lead.phoneE164) rows
      fates) {j : Nat} {v : ValidRow ν} (hv : fates[j]? = some (some v)) :
    ∃ row, rows[j]? = some row ∧ v.lead.phoneE164 = row.lead.phoneE164 := by
  obtain ⟨hlen, hall⟩ := List.forall₂_iff_get.1 h
  obtain ⟨hj, hget⟩ := List.getElem?_eq_some_iff.1 hv
  have hj' : j < rows.length := by omega
  refine ⟨rows[j], List.getElem?_eq_getElem hj', ?_⟩
  exact hall j hj' hj v (by simpa using hget)

end Fates

section Resume

variable {ν : Type} (J : Runtime ν) (S : Settings) (first second : Nat → ScrubReply)
  (rows : List MappedRow)

theorem mem_take_scrubbed {replies : Nat → ScrubReply} {m : Nat} {phone : String} :
    phone ∈ ((scrubbedRows J S replies rows).take m).map (·.lead.phoneE164) ↔
      ∃ j row, (validRows J S rows)[j]? = some row ∧ row.lead.phoneE164 = phone ∧
        Passes (scrubFates S.scrub replies 0 (validRows J S rows)) j ∧
        rank (scrubFates S.scrub replies 0 (validRows J S rows)) j < m := by
  have hphone := scrubFates_phone S.scrub replies 0 (validRows J S rows)
  rw [scrubbedRows, dncTcpaScrub_fates]
  constructor
  · intro hmem
    obtain ⟨v, hv, rfl⟩ := List.mem_map.1 hmem
    obtain ⟨j, hj, hrank⟩ := mem_take_filterMap.1 hv
    obtain ⟨row, hrow, heq⟩ := phone_of_fate hphone hj
    exact ⟨j, row, hrow, heq.symm, ⟨v, hj⟩, hrank⟩
  · rintro ⟨j, row, hrow, rfl, ⟨v, hj⟩, hrank⟩
    obtain ⟨row', hrow', heq⟩ := phone_of_fate hphone hj
    have hsame : row' = row := Option.some.inj (hrow'.symm.trans hrow)
    refine List.mem_map.2 ⟨v, mem_take_filterMap.2 ⟨j, hj, hrank⟩, ?_⟩
    rw [heq, hsame]

theorem validRows_nodup : ((validRows J S rows).map (·.lead.phoneE164)).Nodup :=
  (inFileDedup_phones [] (normalizedRows J S rows)).1

theorem index_of_phone {j j' : Nat} {row row' : ValidRow ν}
    (hrow : (validRows J S rows)[j]? = some row) (hrow' : (validRows J S rows)[j']? = some row')
    (hphone : row.lead.phoneE164 = row'.lead.phoneE164) : j = j' := by
  obtain ⟨hj, hget⟩ := List.getElem?_eq_some_iff.1 hrow
  obtain ⟨hj', hget'⟩ := List.getElem?_eq_some_iff.1 hrow'
  have hi : j < ((validRows J S rows).map (·.lead.phoneE164)).length := by simpa using hj
  have hi' : j' < ((validRows J S rows).map (·.lead.phoneE164)).length := by simpa using hj'
  have heq : ((validRows J S rows).map (·.lead.phoneE164))[j] =
      ((validRows J S rows).map (·.lead.phoneE164))[j'] := by
    simp [hget, hget', hphone]
  exact (validRows_nodup J S rows).getElem_inj_iff.1 heq

theorem scrubbedRows_nodup (replies : Nat → ScrubReply) :
    ((scrubbedRows J S replies rows).map (·.lead.phoneE164)).Nodup := by
  have hsub := (dncTcpaScrub_tracks S.scrub replies (validRows J S rows)).sublist_map
    (f := fun v => v.lead.phoneE164) (g := fun v => v.lead.phoneE164) fun row v e h => h.2 v rfl
  exact (validRows_nodup J S rows).sublist hsub

/-- A row that passes is among the first `m` of the rows let through, or after them, as
its rank says. -/
theorem mem_drop_scrubbed {replies : Nat → ScrubReply} {m j : Nat} {row : ValidRow ν}
    (hrow : (validRows J S rows)[j]? = some row)
    (hpass : Passes (scrubFates S.scrub replies 0 (validRows J S rows)) j) :
    row.lead.phoneE164 ∈ ((scrubbedRows J S replies rows).drop m).map (·.lead.phoneE164) ↔
      ¬ rank (scrubFates S.scrub replies 0 (validRows J S rows)) j < m := by
  have hall : row.lead.phoneE164 ∈ (scrubbedRows J S replies rows).map (·.lead.phoneE164) := by
    obtain ⟨v, hv, heq⟩ := List.mem_map.1 ((mem_take_scrubbed J S rows).2
      ⟨j, row, hrow, rfl, hpass, Nat.lt_succ_self _⟩)
    exact List.mem_map.2 ⟨v, List.mem_of_mem_take hv, heq⟩
  have hsplit := List.take_append_drop m (scrubbedRows J S replies rows)
  have hnodup := scrubbedRows_nodup J S rows replies
  rw [← hsplit, List.map_append] at hnodup hall
  constructor
  · intro hdrop hrank
    have htake := (mem_take_scrubbed J S rows).2 ⟨j, row, hrow, rfl, hpass, hrank⟩
    exact (List.nodup_append.1 hnodup).2.2 _ htake _ hdrop rfl
  · intro hrank
    rcases List.mem_append.1 hall with htake | hdrop
    · obtain ⟨j', row', hrow', hphone, -, hrank'⟩ := (mem_take_scrubbed J S rows).1 htake
      rw [index_of_phone J S rows hrow' hrow hphone] at hrank'
      exact absurd hrank' hrank
    · exact hdrop

/-- Nothing is lost exactly when every row that the second run lets through into a batch it
skips is in the list already or was let through by the first run into a batch it
committed. -/
theorem resume_keeps_all_iff (hpos : 0 < S.batchSize) (k : Nat)
    (leads : List (NormalizedLead ν)) :
    (∀ j row, (validRows J S rows)[j]? = some row →
        Passes (scrubFates S.scrub second 0 (validRows J S rows)) j →
        row.lead.phoneE164 ∈ (afterResume J S first second rows k leads).phones) ↔
      ∀ j row, (validRows J S rows)[j]? = some row →
        Passes (scrubFates S.scrub second 0 (validRows J S rows)) j →
        rank (scrubFates S.scrub second 0 (validRows J S rows)) j < k * S.batchSize →
        row.lead.phoneE164 ∈ leads.map (·.phoneE164) ∨
          (Passes (scrubFates S.scrub first 0 (validRows J S rows)) j ∧
            rank (scrubFates S.scrub first 0 (validRows J S rows)) j < k * S.batchSize) := by
  refine forall_congr' fun j => forall_congr' fun row => forall_congr' fun hrow =>
    forall_congr' fun hpass => ?_
  have htake : row.lead.phoneE164 ∈ ((scrubbedRows J S first rows).take (k * S.batchSize)).map
      (·.lead.phoneE164) ↔
      Passes (scrubFates S.scrub first 0 (validRows J S rows)) j ∧
        rank (scrubFates S.scrub first 0 (validRows J S rows)) j < k * S.batchSize := by
    rw [mem_take_scrubbed]
    constructor
    · rintro ⟨j', row', hrow', hphone, hpass', hrank'⟩
      rw [index_of_phone J S rows hrow' hrow hphone] at hpass' hrank'
      exact ⟨hpass', hrank'⟩
    · rintro ⟨hpass', hrank'⟩
      exact ⟨j, row, hrow, rfl, hpass', hrank'⟩
  rw [mem_afterResume J S hpos, htake, mem_drop_scrubbed J S rows hrow hpass]
  tauto

end Resume

def threeNumbers : Runtime Int :=
  { indianaRuntime with
    parsePhoneNumber := fun text _ =>
      if text ∈ ["+13175551212", "+13175551213", "+13175551214"] then some text else none }

def oneByOne : Settings := ⟨⟨none, none⟩, ⟨.skip, .skip⟩, 1⟩

def threeLeads : List MappedRow :=
  [⟨[("phone_e164", "+13175551212")], ["+13175551212"], ⟨2, 2⟩⟩,
    ⟨[("phone_e164", "+13175551213")], ["+13175551213"], ⟨3, 3⟩⟩,
    ⟨[("phone_e164", "+13175551214")], ["+13175551214"], ⟨4, 4⟩⟩]

/-- The first of the three numbers is on the list at the time of the check. -/
def firstListed : ScrubReply :=
  { cleanReply with dnc := ⟨none, fun _ => [("+13175551212", "internal")]⟩ }

theorem same_answers_keep_all :
    0 < oneByOne.batchSize ∧
      ∀ j row, (validRows threeNumbers oneByOne threeLeads)[j]? = some row →
        Passes (scrubFates oneByOne.scrub (fun _ => cleanReply) 0
          (validRows threeNumbers oneByOne threeLeads)) j →
        row.lead.phoneE164 ∈ (afterResume threeNumbers oneByOne (fun _ => cleanReply)
          (fun _ => cleanReply) threeLeads 1 []).phones := by
  have hpos : 0 < oneByOne.batchSize := by decide
  have hiff := resume_keeps_all_iff threeNumbers oneByOne (fun _ => cleanReply)
    (fun _ => cleanReply) threeLeads hpos 1 []
  exact ⟨hpos, hiff.2 fun _ _ _ hpass hrank => .inr ⟨hpass, hrank⟩⟩

/-- The number is blocked when the first run scrubs and free when the second does: the
batch it then fills has the index of one that the first run has committed. -/
theorem expired_listing_loses_row :
    1 < (batches threeNumbers oneByOne (fun _ => firstListed) threeLeads).length ∧
      ¬ ∀ j row, (validRows threeNumbers oneByOne threeLeads)[j]? = some row →
        Passes (scrubFates oneByOne.scrub (fun _ => cleanReply) 0
          (validRows threeNumbers oneByOne threeLeads)) j →
        row.lead.phoneE164 ∈ (afterResume threeNumbers oneByOne (fun _ => firstListed)
          (fun _ => cleanReply) threeLeads 1 []).phones := by
  refine ⟨by decide, ?_⟩
  intro h
  have hpass : Passes (scrubFates oneByOne.scrub (fun _ => cleanReply) 0
      (validRows threeNumbers oneByOne threeLeads)) 0 := by
    rw [scrubFates_short _ _ _ (by decide)]
    exact ⟨_, rfl⟩
  have hmem := h 0 _ rfl hpass
  revert hmem
  decide

end LeadImport

end Vici2
