import Mathlib.Data.List.Nodup
import Mathlib.Data.List.Range
import Vici2.LeadImport

/-! The accounts of a lead import: every data row is in one batch or among the errors. -/

namespace Vici2

namespace LeadImport

/-- What an error repeats of its row. -/
abbrev Name := Info × List String

def MappedRow.name (row : MappedRow) : Name := (row.info, row.rawRecord)

def RowError.name (err : RowError) : Name := (⟨err.sourceLine, err.sourceRecord⟩, err.rawRecord)

/-- The codes of errors that leave the row in. -/
def ErrorCode.warns : ErrorCode → Bool
  | .dncWarn => true
  | .tzBlockedWarn => true
  | _ => false

def RowError.Blocks (err : RowError) : Prop := err.code.warns = false

/-- The calls made for a row name it, and one of them blocks exactly when it is dropped. -/
def Fate (name : Name) (out : Option Name) (calls : Multiset (List RowError)) : Prop :=
  (∀ call ∈ calls, ∀ err ∈ call, err.name = name) ∧
    match out with
    | none => ∃ call ∈ calls, ∃ err ∈ call, err.Blocks
    | some n => n = name ∧ ∀ call ∈ calls, ∀ err ∈ call, ¬ err.Blocks

theorem Fate.comp {name : Name} {n : Name} {out : Option Name} {e e' : Multiset (List RowError)}
    (h : Fate name (some n) e) (h' : Fate n out e') : Fate name out (e + e') := by
  obtain ⟨hnames, hn, hfree⟩ := h
  subst hn
  obtain ⟨hnames', hout⟩ := h'
  refine ⟨?_, ?_⟩
  · intro call hcall
    rcases Multiset.mem_add.1 hcall with hcall | hcall
    · exact hnames call hcall
    · exact hnames' call hcall
  · cases out with
    | none =>
      obtain ⟨call, hcall, err, herr, hblocks⟩ := hout
      exact ⟨call, Multiset.mem_add.2 (.inr hcall), err, herr, hblocks⟩
    | some m =>
      refine ⟨hout.1, ?_⟩
      intro call hcall
      rcases Multiset.mem_add.1 hcall with hcall | hcall
      · exact hfree call hcall
      · exact hout.2 call hcall

section Stages

variable {ν : Type}

def NormalizedRow.name (row : NormalizedRow ν) : Name := (row.info, row.rawRecord)

def ValidRow.name (row : ValidRow ν) : Name := (row.info, row.rawRecord)

/-- A row without a lead carries the errors that say why. -/
def NormalizedRow.Explained (row : NormalizedRow ν) : Prop :=
  row.lead = none → row.errors ≠ [] ∧ ∀ err ∈ row.errors, err.name = row.name ∧ err.Blocks

section

variable (J : Runtime ν) (opts : NormalizeValidateOptions)

theorem stateErrors_spec (row : MappedRow) :
    ∀ err ∈ stateErrors J row, err.name = row.name ∧ err.Blocks := by
  rw [stateErrors]
  cases stateOf J row with
  | none => simp
  | some state =>
    by_cases hstate : state ∈ usStates
    · simp [hstate]
    · simp [hstate, makeError, RowError.name, MappedRow.name, RowError.Blocks, ErrorCode.warns]

theorem dateErrors_spec (row : MappedRow) :
    ∀ err ∈ dateErrors J row, err.name = row.name ∧ err.Blocks := by
  rw [dateErrors]
  cases dateOf J row with
  | ok date => simp
  | error raw =>
    simp [makeError, RowError.name, MappedRow.name, RowError.Blocks, ErrorCode.warns]

theorem normalizeValidate_name (row : MappedRow) :
    (normalizeValidate J opts row).name = row.name := by
  rw [normalizeValidate]
  dsimp only
  split
  · rfl
  · split <;> rfl

theorem normalizeValidate_explained (row : MappedRow) :
    (normalizeValidate J opts row).Explained := by
  intro hlead
  have hname := normalizeValidate_name J opts row
  rw [hname]
  have hone : ∀ code message, (code : ErrorCode).warns = false →
      [makeError row code message] ≠ [] ∧
        ∀ err ∈ [makeError row code message], err.name = row.name ∧ err.Blocks := by
    intro code message hcode
    simp [makeError, RowError.name, MappedRow.name, RowError.Blocks, hcode]
  rw [normalizeValidate] at hlead ⊢
  dsimp only at hlead ⊢
  split
  · exact hone _ _ rfl
  · split
    · exact hone _ _ rfl
    · next hphone _ phone hparse =>
      simp only [hphone, hparse, if_false] at hlead
      refine ⟨?_, ?_⟩
      · intro hnil
        exact absurd hlead (by rw [if_pos hnil]; simp)
      · intro err herr
        rcases List.mem_append.1 herr with herr | herr
        · exact stateErrors_spec J row err herr
        · exact dateErrors_spec J row err herr

def NormalizeFate (row : MappedRow) (out : Option (NormalizedRow ν))
    (calls : Multiset (List RowError)) : Prop :=
  out = some (normalizeValidate J opts row) ∧ calls = 0

theorem normalizeStage_tracks (rows : List MappedRow) :
    Tracks (NormalizeFate J opts) rows ((normalizeStage J opts).run rows).1
      (((normalizeStage J opts).run rows).2 : Multiset (List RowError)) := by
  refine (normalizeStage J opts).runFrom_induction
    (Q := fun _ xs out ev =>
      Tracks (NormalizeFate J opts) xs out (ev : Multiset (List RowError))) ?_ ?_ () rows
  · intro s
    exact .nil
  · intro s row rows out ev h
    have hkeep : NormalizeFate J opts row (some (normalizeValidate J opts row)) 0 := ⟨rfl, rfl⟩
    exact .keep_silent hkeep h

end

/-- What the dedup stage makes of a row whose lack of a lead is explained. -/
def DedupFate (row : NormalizedRow ν) (out : Option (ValidRow ν))
    (calls : Multiset (List RowError)) : Prop :=
  row.Explained → Fate row.name (out.map (·.name)) calls

theorem fate_drop {name : Name} {call : List RowError} (hne : call ≠ [])
    (hcall : ∀ err ∈ call, err.name = name ∧ err.Blocks) : Fate name none {call} := by
  obtain ⟨err, herr⟩ := List.exists_mem_of_ne_nil call hne
  refine ⟨?_, call, Multiset.mem_singleton_self call, err, herr, (hcall err herr).2⟩
  intro call' hcall'
  rw [Multiset.mem_singleton.1 hcall']
  exact fun err herr => (hcall err herr).1

theorem fate_keep (name : Name) : Fate name (some name) 0 := by
  simp [Fate]

theorem inFileDedup_tracksFrom (seen : List (String × Nat)) (rows : List (NormalizedRow ν)) :
    Tracks DedupFate rows (inFileDedup.runFrom seen rows).1
      ((inFileDedup.runFrom seen rows).2 : Multiset (List RowError)) := by
  refine inFileDedup.runFrom_induction
    (Q := fun _ xs out ev => Tracks DedupFate xs out (ev : Multiset (List RowError))) ?_ ?_ seen rows
  · intro s
    exact .nil
  · intro seen row rows out ev h
    cases hlead : row.lead with
    | none =>
      have hdrop : DedupFate row none {row.errors} := fun hexplained =>
        fate_drop (hexplained hlead).1 (hexplained hlead).2
      simpa [inFileDedup, hlead] using Tracks.drop_one hdrop h
    | some lead =>
      cases hseen : seen.lookup lead.phoneE164 with
      | some prevLine =>
        have hdrop : DedupFate row none {[duplicateError row lead.phoneE164 prevLine]} := by
          intro _
          refine fate_drop (by simp) ?_
          simp [duplicateError, RowError.name, NormalizedRow.name, RowError.Blocks,
            ErrorCode.warns]
        simpa [inFileDedup, hlead, hseen] using Tracks.drop_one hdrop h
      | none =>
        have hkeep : DedupFate row (some ⟨lead, row.rawRecord, row.info⟩) 0 :=
          fun _ => fate_keep row.name
        simpa [inFileDedup, hlead, hseen] using Tracks.keep_silent hkeep h

theorem inFileDedup_phones (seen : List (String × Nat)) (rows : List (NormalizedRow ν)) :
    ((inFileDedup.runFrom seen rows).1.map (·.lead.phoneE164)).Nodup ∧
      ∀ v ∈ (inFileDedup.runFrom seen rows).1, v.lead.phoneE164 ∉ seen.map Prod.fst := by
  refine inFileDedup.runFrom_induction (Q := fun seen _ out _ =>
    (out.map fun v : ValidRow ν => v.lead.phoneE164).Nodup ∧
      ∀ v ∈ out, v.lead.phoneE164 ∉ seen.map Prod.fst) ?_ ?_ seen rows
  · intro s
    simp [inFileDedup]
  · intro seen row rows out ev h
    cases hlead : row.lead with
    | none => simpa [inFileDedup, hlead] using h
    | some lead =>
      cases hseen : seen.lookup lead.phoneE164 with
      | some prevLine => simpa [inFileDedup, hlead, hseen] using h
      | none =>
        have hnew : lead.phoneE164 ∉ seen.map Prod.fst := by
          intro hmem
          obtain ⟨entry, hentry, heq⟩ := List.mem_map.1 hmem
          have hne := List.lookup_eq_none_iff.1 hseen entry hentry
          simp [heq] at hne
        have hrest : (out.map fun v : ValidRow ν => v.lead.phoneE164).Nodup ∧
            ∀ v ∈ out, v.lead.phoneE164 ∉ seen.map Prod.fst ++ [lead.phoneE164] := by
          simpa [inFileDedup, hlead, hseen] using h
        have hout : (inFileDedup.transform seen row).2.1 = [⟨lead, row.rawRecord, row.info⟩] := by
          simp [inFileDedup, hlead, hseen]
        rw [hout]
        refine ⟨?_, ?_⟩
        · rw [List.singleton_append, List.map_cons, List.nodup_cons]
          refine ⟨?_, hrest.1⟩
          intro hmem
          obtain ⟨v, hv, heq⟩ := List.mem_map.1 hmem
          exact hrest.2 v hv (by simp [heq])
        · intro v hv
          rcases List.mem_cons.1 hv with rfl | hv
          · exact hnew
          · intro hmem
            exact hrest.2 v hv (List.mem_append_left _ hmem)

/-- A scrubbed row keeps its phone. -/
def ScrubFate (row : ValidRow ν) (out : Option (ValidRow ν)) (calls : Multiset (List RowError)) :
    Prop :=
  Fate row.name (out.map (·.name)) calls ∧
    ∀ v ∈ out, v.lead.phoneE164 = row.lead.phoneE164

theorem ScrubFate.congr {row row' : ValidRow ν} {out : Option (ValidRow ν)}
    {calls : Multiset (List RowError)} (h : ScrubFate row' out calls)
    (hname : row'.name = row.name) (hphone : row'.lead.phoneE164 = row.lead.phoneE164) :
    ScrubFate row out calls := by
  rwa [ScrubFate, ← hname, ← hphone]

/-- The calls made so far for a row warn about it. -/
def Warnings (name : Name) (calls : List (List RowError)) : Prop :=
  ∀ call ∈ calls, ∀ err ∈ call, err.name = name ∧ ¬ err.Blocks

theorem Warnings.keep {name : Name} {calls : List (List RowError)} (h : Warnings name calls) :
    Fate name (some name) (calls : Multiset (List RowError)) :=
  ⟨fun call hcall err herr => (h call hcall err herr).1, rfl,
    fun call hcall err herr => (h call hcall err herr).2⟩

theorem Warnings.concat {name : Name} {calls : List (List RowError)} (h : Warnings name calls)
    {err : RowError} (hname : err.name = name) (hwarn : ¬ err.Blocks) :
    Warnings name (calls ++ [[err]]) := by
  intro call hcall
  rcases List.mem_append.1 hcall with hcall | hcall
  · exact h call hcall
  · rw [List.mem_singleton.1 hcall]
    intro err' herr'
    rw [List.mem_singleton.1 herr']
    exact ⟨hname, hwarn⟩

theorem Warnings.drop {name : Name} {calls : List (List RowError)} (h : Warnings name calls)
    {err : RowError} (hname : err.name = name) (hblocks : err.Blocks) :
    Fate name none ((calls ++ [[err]] : List (List RowError)) : Multiset (List RowError)) := by
  refine ⟨?_, [err], by simp, err, by simp, hblocks⟩
  intro call hcall
  rcases List.mem_append.1 hcall with hcall | hcall
  · exact fun err herr => (h call hcall err herr).1
  · rw [List.mem_singleton.1 hcall]
    intro err' herr'
    rw [List.mem_singleton.1 herr', hname]

theorem scrubTz_fate (opts : ScrubOptions) (reply : TzReply) (row : ValidRow ν)
    {calls : List (List RowError)} (h : Warnings row.name calls) :
    ScrubFate row (scrubTz opts reply row calls).1
      ((scrubTz opts reply row calls).2 : Multiset (List RowError)) := by
  rw [scrubTz]
  split
  · cases opts.tzPolicy with
    | skip => exact ⟨h.drop rfl rfl, by simp⟩
    | mark =>
      have hwarn : Warnings row.name (calls ++
          [[row.error .tzBlockedWarn "No timezone resolved; tz_blocked=true"]]) :=
        h.concat rfl (by simp [RowError.Blocks, ValidRow.error, ErrorCode.warns])
      exact ⟨hwarn.keep, by simp⟩
    | proceed => exact ⟨h.keep, by simp⟩
  · exact ⟨h.keep, by simp⟩

theorem scrubRow_fate (opts : ScrubOptions) (dnc : DncResult) (reply : TzReply)
    (row : ValidRow ν) :
    ScrubFate row (scrubRow opts dnc reply row).1
      ((scrubRow opts dnc reply row).2 : Multiset (List RowError)) := by
  have hnone : Warnings row.name [] := by simp [Warnings]
  have hwarn : ∀ message, Warnings row.name [[row.error .dncWarn message]] := by
    intro message
    exact hnone.concat rfl (by simp [RowError.Blocks, ValidRow.error, ErrorCode.warns])
  rw [scrubRow]
  dsimp only
  split
  · cases opts.dncPolicy with
    | skip => exact ⟨hnone.drop rfl rfl, by simp⟩
    | mark =>
      refine ScrubFate.congr (scrubTz_fate opts reply _ ?_) rfl rfl
      exact hwarn _
    | proceed => exact scrubTz_fate opts reply _ (hwarn _)
  · exact scrubTz_fate opts reply row hnone

theorem flushBuffer_tracks (opts : ScrubOptions) (reply : ScrubReply) (batch : List (ValidRow ν)) :
    Tracks ScrubFate batch (flushBuffer opts reply batch).1
      ((flushBuffer opts reply batch).2 : Multiset (List RowError)) :=
  Tracks.of_map fun row _ => scrubRow_fate opts _ _ row

theorem dncTcpaScrub_tracks (opts : ScrubOptions) (replies : Nat → ScrubReply)
    (rows : List (ValidRow ν)) :
    Tracks ScrubFate rows ((dncTcpaScrub opts replies).run rows).1
      (((dncTcpaScrub opts replies).run rows).2 : Multiset (List RowError)) := by
  refine (dncTcpaScrub opts replies).runFrom_induction (Q := fun s xs out ev =>
    Tracks ScrubFate (s.1 ++ xs) out (ev : Multiset (List RowError))) ?_ ?_ ([], 0) rows
  · intro s
    rw [List.append_nil]
    exact flushBuffer_tracks opts (replies s.2) s.1
  · intro s row rows out ev h
    have hassoc : s.1 ++ row :: rows = s.1 ++ [row] ++ rows := by simp
    rw [hassoc]
    by_cases hfull : dncBatchSize ≤ (s.1 ++ [row]).length
    · have hstep : (dncTcpaScrub opts replies).transform s row =
          (([], s.2 + 1), flushBuffer opts (replies s.2) (s.1 ++ [row])) := if_pos hfull
      rw [hstep] at h ⊢
      have hboth := (flushBuffer_tracks opts (replies s.2) (s.1 ++ [row])).append h
      rw [Multiset.coe_add] at hboth
      exact hboth
    · have hstep : (dncTcpaScrub opts replies).transform s row =
          ((s.1 ++ [row], s.2), [], []) := if_neg hfull
      rw [hstep] at h ⊢
      exact h

end Stages

section Batches

variable {ν : Type}

/-- The rows cut into batches of `n` from index `i` on, the last one possibly shorter. -/
inductive Cut (n : Nat) : Nat → List (ValidRow ν) → List (Batch ν) → Prop
  | nil {i} : Cut n i [] []
  | last {i rows} : rows ≠ [] → rows.length < n → Cut n i rows [⟨rows, i⟩]
  | cons {i rows rest out} : rows.length = n → Cut n (i + 1) rest out →
      Cut n i (rows ++ rest) (⟨rows, i⟩ :: out)

theorem batcher_cut {n : Nat} (hn : 0 < n) (rows : List (ValidRow ν)) :
    Cut n 0 rows ((batcher n).run rows).1 ∧ ((batcher n).run rows).2 = [] := by
  refine (batcher n).runFrom_induction (Q := fun s xs out ev =>
    s.1.length < n → Cut n s.2 (s.1 ++ xs) out ∧ ev = []) ?_ ?_ ([], 0) rows hn
  · intro s hs
    rw [List.append_nil]
    by_cases hempty : s.1 = []
    · have hflush : (batcher n).flush s = ([], []) := if_pos hempty
      rw [hflush, hempty]
      exact ⟨.nil, rfl⟩
    · have hflush : (batcher n).flush s = ([⟨s.1, s.2⟩], []) := if_neg hempty
      rw [hflush]
      exact ⟨.last hempty hs, rfl⟩
  · intro s row rows out ev h hs
    have hassoc : s.1 ++ row :: rows = s.1 ++ [row] ++ rows := by simp
    have hlen : (s.1 ++ [row]).length = s.1.length + 1 := by simp
    rw [hassoc]
    by_cases hfull : n ≤ (s.1 ++ [row]).length
    · have hexact : (s.1 ++ [row]).length = n := by omega
      have hstep : (batcher n).transform s row =
          (((s.1 ++ [row]).drop n, s.2 + 1), [⟨(s.1 ++ [row]).take n, s.2⟩], []) := if_pos hfull
      have htake : (s.1 ++ [row]).take n = s.1 ++ [row] := List.take_of_length_le (by omega)
      have hdrop : (s.1 ++ [row]).drop n = [] := List.drop_of_length_le (by omega)
      rw [htake, hdrop] at hstep
      rw [hstep] at h ⊢
      obtain ⟨hcut, hev⟩ := h hn
      exact ⟨.cons hexact hcut, hev⟩
    · have hstep : (batcher n).transform s row = ((s.1 ++ [row], s.2), [], []) := if_neg hfull
      rw [hstep] at h ⊢
      exact h (Nat.lt_of_not_le hfull)

theorem Cut.flatten {n i : Nat} {rows : List (ValidRow ν)} {out : List (Batch ν)}
    (h : Cut n i rows out) : out.flatMap (·.rows) = rows := by
  induction h with
  | nil => rfl
  | last _ _ => simp
  | cons _ _ ih => simp [ih]

theorem Cut.indices {n i : Nat} {rows : List (ValidRow ν)} {out : List (Batch ν)}
    (h : Cut n i rows out) : out.map (·.batchIndex) = List.range' i out.length := by
  induction h with
  | nil => rfl
  | last _ _ => rfl
  | cons _ _ ih => simp [ih, List.range'_succ]

theorem Cut.full {n i : Nat} {rows : List (ValidRow ν)} {out : List (Batch ν)}
    (h : Cut n i rows out) : ∀ b ∈ out.dropLast, b.rows.length = n := by
  induction h with
  | nil => simp
  | last _ _ => simp
  | @cons i rows rest out hrows hrest ih =>
    cases out with
    | nil => simp
    | cons b out =>
      intro b' hb'
      rcases List.mem_cons.1 hb' with rfl | hb'
      · exact hrows
      · exact ih b' hb'

theorem Cut.sizes {n i : Nat} {rows : List (ValidRow ν)} {out : List (Batch ν)} (hn : 0 < n)
    (h : Cut n i rows out) : ∀ b ∈ out, b.rows ≠ [] ∧ b.rows.length ≤ n := by
  induction h with
  | nil => simp
  | last hne hlt => simp [hne, Nat.le_of_lt hlt]
  | cons hrows _ ih =>
    intro b hb
    rcases List.mem_cons.1 hb with rfl | hb
    · refine ⟨?_, Nat.le_of_eq hrows⟩
      intro hnil
      have hzero : n = 0 := by rw [← hrows]; exact List.length_eq_zero_iff.2 hnil
      omega
    · exact ih b hb

end Batches

section Collector

theorem addLoop_exceeded {c : ErrorsCollector} {errors : List RowError}
    (h : (c.addLoop errors).exceeded = false) :
    c.exceeded = false ∧ (c.addLoop errors).errors = c.errors ++ errors := by
  induction errors generalizing c with
  | nil => exact ⟨h, (List.append_nil _).symm⟩
  | cons err errors ih =>
    rw [ErrorsCollector.addLoop] at h ⊢
    dsimp only at h ⊢
    split at h
    · simp at h
    · next hcap =>
      obtain ⟨hex, herrs⟩ := ih h
      rw [if_neg hcap]
      exact ⟨hex, by rw [herrs]; simp⟩

theorem collect_errors {calls : List (List RowError)} {c : ErrorsCollector}
    (h : (calls.foldl ErrorsCollector.addErrors c).exceeded = false) :
    c.exceeded = false ∧
      (calls.foldl ErrorsCollector.addErrors c).errors = c.errors ++ calls.flatten := by
  induction calls generalizing c with
  | nil => exact ⟨h, (List.append_nil _).symm⟩
  | cons call calls ih =>
    rw [List.foldl_cons] at h ⊢
    obtain ⟨hafter, herrs⟩ := ih h
    by_cases hex : c.exceeded = true
    · rw [ErrorsCollector.addErrors, if_pos hex] at hafter
      simp [hex] at hafter
    · rw [ErrorsCollector.addErrors, if_neg hex] at hafter herrs
      obtain ⟨hbefore, hloop⟩ := addLoop_exceeded hafter
      refine ⟨hbefore, ?_⟩
      rw [ErrorsCollector.addErrors, if_neg hex, herrs, hloop, List.flatten_cons,
        List.append_assoc]

end Collector

/-- The data rows of a file: the parser counts the records. -/
structure DataRows where
  rows : List MappedRow
  distinct : (rows.map (·.info.records)).Nodup

theorem DataRows.nodup_names (data : DataRows) : (data.rows.map (·.name)).Nodup := by
  have h : data.rows.map (·.info.records) = (data.rows.map (·.name)).map (·.1.records) := by
    rw [List.map_map]
    rfl
  exact List.Nodup.of_map _ (h ▸ data.distinct)

section Accounts

variable {ν : Type}

/-- Every row is in one batch and blocked by no error, or in none and blocked; the batches
keep the order of the rows, repeat no phone, and are full and numbered. -/
structure Accounted (n : Nat) (rows : List MappedRow) (batches : List (Batch ν))
    (errors : List RowError) : Prop where
  order : ((batches.flatMap (·.rows)).map (·.name)).Sublist (rows.map (·.name))
  fate : ∀ row ∈ rows,
    ((∃! b, b ∈ batches ∧ row.name ∈ b.rows.map (·.name)) ∧
        ∀ err ∈ errors, err.name = row.name → ¬ err.Blocks) ∨
      ((∀ b ∈ batches, row.name ∉ b.rows.map (·.name)) ∧
        ∃ err ∈ errors, err.name = row.name ∧ err.Blocks)
  phones : ((batches.flatMap (·.rows)).map (·.lead.phoneE164)).Nodup
  full : ∀ b ∈ batches.dropLast, b.rows.length = n
  last : ∀ b ∈ batches.getLast?, b.rows ≠ [] ∧ b.rows.length ≤ n
  indices : batches.map (·.batchIndex) = List.range batches.length

def RowFate (row : MappedRow) (out : Option (ValidRow ν)) (calls : Multiset (List RowError)) :
    Prop :=
  Fate row.name (out.map (·.name)) calls

variable (J : Runtime ν) (S : Settings) (replies : Nat → ScrubReply) (rows : List MappedRow)

theorem comp_rowFate {row : MappedRow} {out : Option (ValidRow ν)}
    {calls : Multiset (List RowError)}
    (h : Tracks.Comp (Tracks.Comp (NormalizeFate J S.normalize) DedupFate) ScrubFate row out
      calls) : RowFate row out calls := by
  have hdedup : ∀ {out : Option (ValidRow ν)} {calls},
      Tracks.Comp (NormalizeFate J S.normalize) DedupFate row out calls →
        Fate row.name (out.map (·.name)) calls := by
    rintro out calls (⟨⟨hnone, -⟩, -⟩ | ⟨n, e₁, e₂, ⟨hsome, hzero⟩, hfate, rfl⟩)
    · simp at hnone
    · rw [Option.some.injEq] at hsome
      subst hsome hzero
      have hn := hfate (normalizeValidate_explained J S.normalize row)
      rw [normalizeValidate_name] at hn
      simpa using hn
  rcases h with ⟨hdrop, rfl⟩ | ⟨v, e₁, e₂, hkeep, ⟨hscrub, -⟩, rfl⟩
  · exact hdedup hdrop
  · exact (hdedup hkeep).comp hscrub

theorem pipeline_tracks (hpos : 0 < S.batchSize) :
    Tracks RowFate rows (scrubbedRows J S replies rows)
      (errorCalls J S replies rows : Multiset (List RowError)) := by
  have hnorm := normalizeStage_tracks J S.normalize rows
  have hdedup : Tracks DedupFate (normalizedRows J S rows) (validRows J S rows)
      ((inFileDedup.run (normalizedRows J S rows)).2 : Multiset (List RowError)) :=
    inFileDedup_tracksFrom [] (normalizedRows J S rows)
  have hscrub := dncTcpaScrub_tracks S.scrub replies (validRows J S rows)
  have hall := ((hnorm.comp hdedup).comp hscrub).mono fun _ _ _ h => comp_rowFate J S h
  have hbatch := (batcher_cut hpos (scrubbedRows J S replies rows)).2
  rw [errorCalls, hbatch, List.append_nil, ← Multiset.coe_add, ← Multiset.coe_add]
  exact hall

/-- The errors that name a row come from its own share. -/
theorem share_of_name {before after : List MappedRow} {row : MappedRow}
    {out₁ out₂ : List (ValidRow ν)} {ev₁ ev₂ s : Multiset (List RowError)}
    (hnodup : ((before ++ row :: after).map (·.name)).Nodup)
    (h₁ : Tracks RowFate before out₁ ev₁) (h₂ : Tracks RowFate after out₂ ev₂)
    {call : List RowError} (hcall : call ∈ ev₁ + (s + ev₂)) {err : RowError} (herr : err ∈ call)
    (hname : err.name = row.name) : call ∈ s := by
  rw [List.map_append, List.map_cons] at hnodup
  obtain ⟨-, hafter, hbefore⟩ := List.nodup_append.1 hnodup
  have hother : ∀ {xs : List MappedRow} {out : List (ValidRow ν)} {ev},
      Tracks RowFate xs out ev → row.name ∉ xs.map (·.name) → call ∉ ev := by
    intro xs out ev h hnot hmem
    obtain ⟨x, hx, o, s, hfate, hs⟩ := h.events_of hmem
    have hx' := hfate.1 call hs err herr
    exact hnot (List.mem_map.2 ⟨x, hx, by rw [← hx', hname]⟩)
  rcases Multiset.mem_add.1 hcall with hcall | hcall
  · refine absurd hcall (hother h₁ ?_)
    intro hmem
    exact hbefore _ hmem _ List.mem_cons_self rfl
  · rcases Multiset.mem_add.1 hcall with hcall | hcall
    · exact hcall
    · exact absurd hcall (hother h₂ (List.nodup_cons.1 hafter).1)

theorem name_not_mem_others {before after : List MappedRow} {row : MappedRow}
    {out₁ out₂ : List (ValidRow ν)} {ev₁ ev₂ : Multiset (List RowError)}
    (hnodup : ((before ++ row :: after).map (·.name)).Nodup)
    (h₁ : Tracks RowFate before out₁ ev₁) (h₂ : Tracks RowFate after out₂ ev₂) :
    row.name ∉ (out₁ ++ out₂).map (·.name) := by
  rw [List.map_append, List.map_cons] at hnodup
  obtain ⟨-, hafter, hbefore⟩ := List.nodup_append.1 hnodup
  have hkept : ∀ row (v : ValidRow ν) e, RowFate row (some v) e → v.name = row.name :=
    fun row v e h => h.2.1
  intro hmem
  rw [List.map_append] at hmem
  rcases List.mem_append.1 hmem with hmem | hmem
  · exact hbefore _ ((h₁.sublist_map hkept).subset hmem) _ List.mem_cons_self rfl
  · exact (List.nodup_cons.1 hafter).1 ((h₂.sublist_map hkept).subset hmem)

theorem batch_unique {batches : List (Batch ν)} {name : Name}
    (hnodup : ((batches.flatMap (·.rows)).map (·.name)).Nodup)
    (hmem : name ∈ (batches.flatMap (·.rows)).map (·.name)) :
    ∃! b, b ∈ batches ∧ name ∈ b.rows.map (·.name) := by
  rw [List.map_flatMap] at hnodup hmem
  obtain ⟨-, hpair⟩ := List.nodup_flatMap.1 hnodup
  obtain ⟨b, hb, hname⟩ := List.mem_flatMap.1 hmem
  refine ⟨b, ⟨hb, hname⟩, ?_⟩
  rintro b' ⟨hb', hname'⟩
  by_contra hne
  have hsymm : Std.Symm (Function.onFun List.Disjoint fun b : Batch ν => b.rows.map (·.name)) :=
    ⟨fun _ _ h => List.Disjoint.symm h⟩
  have hdisjoint := hpair.forall hb' hb hne
  exact hdisjoint hname' hname

theorem fate_of_row {rows : List MappedRow} {out : List (ValidRow ν)}
    {ev : Multiset (List RowError)} (htracks : Tracks RowFate rows out ev)
    (hnames : (rows.map (·.name)).Nodup) {row : MappedRow} (hrow : row ∈ rows) :
    (row.name ∈ out.map (·.name) ∧
        ∀ call ∈ ev, ∀ err ∈ call, err.name = row.name → ¬ err.Blocks) ∨
      (row.name ∉ out.map (·.name) ∧
        ∃ call ∈ ev, ∃ err ∈ call, err.name = row.name ∧ err.Blocks) := by
  obtain ⟨before, after, rfl⟩ := List.append_of_mem hrow
  obtain ⟨o, s, out₁, out₂, ev₁, ev₂, h₁, hfate, h₂, hout, hev⟩ := htracks.share
  rw [hout, hev]
  cases o with
  | some v =>
    left
    refine ⟨by simp [hfate.2.1], ?_⟩
    intro call hcall err herr hname
    have hcs := share_of_name hnames h₁ h₂ hcall herr hname
    exact hfate.2.2 call hcs err herr
  | none =>
    right
    obtain ⟨call, hcs, err, herr, hblocks⟩ := hfate.2
    refine ⟨name_not_mem_others hnames h₁ h₂, call, ?_, err, herr, hfate.1 call hcs err herr,
      hblocks⟩
    exact Multiset.mem_add.2 (.inr (Multiset.mem_add.2 (.inl hcs)))

/-- The accounts balance for every interleaving of the stages' calls below the cap. -/
theorem import_accounted (data : DataRows) (hpos : 0 < S.batchSize) (calls : List (List RowError))
    (hcalls : calls.Perm (errorCalls J S replies data.rows))
    (hcap : (ErrorsCollector.collect calls).exceeded = false) :
    Accounted S.batchSize data.rows (batches J S replies data.rows)
      (ErrorsCollector.collect calls).errors := by
  have htracks := pipeline_tracks J S replies data.rows hpos
  have hcut := (batcher_cut hpos (scrubbedRows J S replies data.rows)).1
  have hflat : (batches J S replies data.rows).flatMap (·.rows) =
      scrubbedRows J S replies data.rows := hcut.flatten
  have horder := htracks.sublist_map (f := MappedRow.name) (g := ValidRow.name)
    fun row v e h => h.2.1
  have herr : ∀ err, err ∈ (ErrorsCollector.collect calls).errors ↔
      ∃ call ∈ (errorCalls J S replies data.rows : Multiset (List RowError)), err ∈ call := by
    intro err
    have hall : (ErrorsCollector.collect calls).errors = calls.flatten := (collect_errors hcap).2
    rw [hall, List.mem_flatten]
    exact exists_congr fun call => and_congr_left fun _ => hcalls.mem_iff
  refine ⟨hflat ▸ horder, ?_, ?_, hcut.full, ?_, ?_⟩
  · intro row hrow
    rcases fate_of_row htracks data.nodup_names hrow with
      ⟨hin, hfree⟩ | ⟨hout, call, hcall, err, he, hb⟩
    · refine .inl ⟨batch_unique ?_ (hflat ▸ hin), ?_⟩
      · rw [hflat]
        exact data.nodup_names.sublist horder
      · intro err he hname
        obtain ⟨call, hcall, he⟩ := (herr err).1 he
        exact hfree call hcall err he hname
    · refine .inr ⟨?_, err, (herr err).2 ⟨call, hcall, he⟩, hb⟩
      intro b hbatch hname
      obtain ⟨v, hv, heq⟩ := List.mem_map.1 hname
      exact hout (List.mem_map.2 ⟨v, hflat ▸ List.mem_flatMap.2 ⟨b, hbatch, hv⟩, heq⟩)
  · have hphones := (inFileDedup_phones [] (normalizedRows J S data.rows)).1
    have hscrub := (dncTcpaScrub_tracks S.scrub replies (validRows J S data.rows)).sublist_map
      (f := fun v => v.lead.phoneE164) (g := fun v => v.lead.phoneE164)
      fun row v e h => h.2 v rfl
    rw [hflat]
    exact hphones.sublist hscrub
  · intro b hb
    exact hcut.sizes hpos b (List.mem_of_getLast? hb)
  · rw [List.range_eq_range']
    exact hcut.indices

end Accounts

def indianaRuntime : Runtime Int where
  parsePhoneNumber text _ := if text = "+13175551212" then some text else none
  dateFnsParse _ _ := none
  toUpperCase text := String.ofList (text.toList.map Char.toUpper)
  toLowerCase text := String.ofList (text.toList.map Char.toLower)
  parseInt _ := none
  zero := 0

def skipBlocked : Settings := ⟨⟨none, none⟩, ⟨.skip, .skip⟩, batchSize⟩

def cleanReply : ScrubReply where
  dnc := ⟨none, fun _ => []⟩
  tz _ := ⟨fun _ _ => [("America/Indiana/Indianapolis", "NXX")], fun _ => []⟩

/-- A valid row, the same phone again, and a row without a phone. -/
def threeRows : DataRows where
  rows :=
    [⟨[("phone_e164", "+13175551212")], ["+13175551212"], ⟨2, 2⟩⟩,
      ⟨[("phone_e164", "+13175551212")], ["+13175551212"], ⟨3, 3⟩⟩,
      ⟨[("phone_e164", "")], [""], ⟨4, 4⟩⟩]
  distinct := by decide

theorem threeRows_accounted :
    Accounted batchSize threeRows.rows
      (batches indianaRuntime skipBlocked (fun _ => cleanReply) threeRows.rows)
      (ErrorsCollector.collect
        (errorCalls indianaRuntime skipBlocked (fun _ => cleanReply) threeRows.rows)).errors :=
  import_accounted indianaRuntime skipBlocked (fun _ => cleanReply) threeRows (by decide) _
    (List.Perm.refl _) (by decide)

end LeadImport

end Vici2
