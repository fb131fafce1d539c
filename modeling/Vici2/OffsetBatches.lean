import Vici2.KeyedBatches
import Vici2.Runs

/-! Updates in batches whose cursor is found by counting. After an update of `n` rows a query
takes the `n`-th row of its kind behind the old cursor. Others change the table between the
statements, and a job that fails begins again. -/

namespace Vici2

variable {α : Type*}

section Sorted

variable {key : α → Int} {l : List α}

theorem mem_take_of_countP_le (hsorted : l.Pairwise fun a b => key a < key b) {x : α} {n : Nat}
    (hx : x ∈ l) (hn : l.countP (fun r => decide (key r ≤ key x)) ≤ n) : x ∈ l.take n := by
  induction l generalizing n with
  | nil => cases hx
  | cons a l ih =>
    obtain ⟨hfirst, hrest⟩ := List.pairwise_cons.1 hsorted
    have hle : key a ≤ key x := by
      rcases List.mem_cons.1 hx with rfl | hx
      · exact le_refl _
      · exact (hfirst x hx).le
    rw [List.countP_cons_of_pos (by simpa using hle)] at hn
    obtain ⟨n, rfl⟩ : ∃ m, n = m + 1 := ⟨n - 1, by omega⟩
    rw [List.take_succ_cons]
    rcases List.mem_cons.1 hx with rfl | hx
    · exact List.mem_cons_self
    · exact List.mem_cons_of_mem _ (ih hrest hx (by omega))

theorem head_drop_of_lt_countP (hsorted : l.Pairwise fun a b => key a < key b) {last : Int}
    {n : Nat} (hn : n < l.countP fun r => decide (key r ≤ last)) :
    ∃ r ∈ l, (l.drop n).head? = some r ∧ key r ≤ last := by
  induction l generalizing n with
  | nil => simp at hn
  | cons a l ih =>
    obtain ⟨hfirst, hrest⟩ := List.pairwise_cons.1 hsorted
    cases n with
    | zero =>
      obtain ⟨y, hy, hle⟩ := List.countP_pos_iff.1 hn
      refine ⟨a, List.mem_cons_self, rfl, ?_⟩
      have hlast : key y ≤ last := of_decide_eq_true hle
      rcases List.mem_cons.1 hy with rfl | hy
      · exact hlast
      · exact (hfirst y hy).le.trans hlast
    | succ n =>
      have hless : n < l.countP fun r => decide (key r ≤ last) := by
        rw [List.countP_cons] at hn
        split at hn <;> omega
      obtain ⟨r, hr, hhead, hle⟩ := ih hrest hless
      exact ⟨r, List.mem_cons_of_mem _ hr, hhead, hle⟩

theorem le_of_mem_take (hsorted : l.Pairwise fun a b => key a < key b) {x : α} {last : Int}
    {n : Nat} (hn : n ≤ l.countP fun r => decide (key r ≤ last)) (hx : x ∈ l.take n) :
    key x ≤ last := by
  induction l generalizing n with
  | nil => simp at hx
  | cons a l ih =>
    obtain ⟨hfirst, hrest⟩ := List.pairwise_cons.1 hsorted
    cases n with
    | zero => simp at hx
    | succ n =>
      have hless : n ≤ l.countP fun r => decide (key r ≤ last) := by
        rw [List.countP_cons] at hn
        split at hn <;> omega
      rw [List.take_succ_cons] at hx
      rcases List.mem_cons.1 hx with rfl | hx
      · obtain ⟨r, hr, -, hle⟩ := head_drop_of_lt_countP hsorted (Nat.lt_of_lt_of_le n.succ_pos hn)
        rcases List.mem_cons.1 hr with rfl | hr
        · exact hle
        · exact (hfirst r hr).le.trans hle
      · exact ih hrest hless hx

theorem countP_of_head_drop (hsorted : l.Pairwise fun a b => key a < key b) {n : Nat} {r : α}
    (hr : (l.drop n).head? = some r) :
    l.countP (fun x => decide (key x ≤ key r)) = n + 1 := by
  induction l generalizing n with
  | nil => simp at hr
  | cons a l ih =>
    obtain ⟨hfirst, hrest⟩ := List.pairwise_cons.1 hsorted
    cases n with
    | zero =>
      obtain rfl : a = r := by simpa using hr
      have hlater : l.countP (fun x => decide (key x ≤ key a)) = 0 :=
        List.countP_eq_zero.2 fun x hx => by simpa using hfirst x hx
      rw [List.countP_cons_of_pos (by simp), hlater]
    | succ n =>
      have hmem : r ∈ l := List.mem_of_mem_drop (List.mem_of_mem_head? hr)
      rw [List.countP_cons_of_pos (by simpa using (hfirst r hmem).le), ih hrest hr]

end Sorted

theorem updateLimit_congr {p q : α → Bool} {f : α → α} {n : Nat} {rows : List α}
    (h : ∀ r ∈ rows, p r = q r) : updateLimit p f n rows = updateLimit q f n rows := by
  induction rows generalizing n with
  | nil => cases n <;> rfl
  | cons r rows ih =>
    have hrest : ∀ x ∈ rows, p x = q x := fun x hx => h x (List.mem_cons_of_mem _ hx)
    cases n with
    | zero => rfl
    | succ n =>
      rw [updateLimit, updateLimit, h r List.mem_cons_self]
      simp only [ih hrest]

theorem countP_le_updateAll {p q : α → Bool} {f : α → α}
    (h : ∀ r, p r = true → q (f r) = true) (rows : List α) :
    rows.countP p ≤ (updateAll p f rows).countP q := by
  unfold updateAll
  rw [List.countP_map]
  apply List.countP_mono_left
  intro r _ hp
  simp [hp, h r hp]

theorem countP_updateAll_self {p : α → Bool} {f : α → α} (h : ∀ r, p r = true → p (f r) = true)
    (rows : List α) : (updateAll p f rows).countP p = rows.countP p := by
  unfold updateAll
  rw [List.countP_map]
  apply List.countP_congr
  intro r _
  by_cases hp : p r = true
  · simp [hp, h r hp]
  · simp [hp]

namespace BatchUpdate

variable (U : BatchUpdate α)

def batchKeys (cursor : Int) (rows : List α) : List Int :=
  ((rows.filter (U.after cursor U.matched)).take U.size).map U.key

/-- `SELECT key … ORDER BY key LIMIT 1 OFFSET n - 1` -/
def nthKey (n : Nat) (cursor : Int) (rows : List α) : Option Int :=
  ((rows.filter (U.after cursor U.found)).drop (n - 1)).head?.map U.key

section Batch

variable {U} {rows : List α} {cursor last : Int}

/-- Where a batch ends at `last`, its rows are the matched ones up to there. -/
theorem mem_batch_iff (hsorted : U.Sorted rows)
    (hcount : rows.countP (U.within cursor last) = U.size) {r : α} :
    r ∈ (rows.filter (U.after cursor U.matched)).take U.size ↔
      r ∈ rows ∧ U.within cursor last r = true := by
  have hsorted' := List.Pairwise.filter (U.after cursor U.matched) hsorted
  have hsize : (rows.filter (U.after cursor U.matched)).countP
      (fun x => decide (U.key x ≤ last)) = U.size := by
    rw [List.countP_filter, ← hcount]
    exact List.countP_congr fun x _ => by simp [within, and_comm]
  constructor
  · intro hr
    have hle := le_of_mem_take hsorted' hsize.ge hr
    obtain ⟨hmem, hafter⟩ := List.mem_filter.1 (List.mem_of_mem_take hr)
    obtain ⟨hmatched, hlt⟩ := after_iff.1 hafter
    exact ⟨hmem, within_iff.2 ⟨hmatched, hlt, hle⟩⟩
  · rintro ⟨hmem, hin⟩
    obtain ⟨hmatched, hlt, hle⟩ := within_iff.1 hin
    have hr := List.mem_filter.2 ⟨hmem, after_iff.2 ⟨hmatched, hlt⟩⟩
    apply mem_take_of_countP_le hsorted' hr
    rw [← hsize]
    apply List.countP_mono_left
    intro x _ hx
    have hx' : U.key x ≤ U.key r := of_decide_eq_true hx
    exact decide_eq_true (hx'.trans hle)

/-- An update writes the rows of its batch and no others. -/
theorem updateLimit_eq_updateAll (hsorted : U.Sorted rows) (cursor : Int) :
    (updateLimit (U.after cursor U.matched) U.write U.size rows).1 =
      updateAll (fun r => decide (U.key r ∈ U.batchKeys cursor rows)) U.write rows := by
  have hnodup : (rows.map U.key).Nodup := List.pairwise_map.2 (hsorted.imp fun h => h.ne)
  have hkeys : ∀ r ∈ rows, U.key r ∈ U.batchKeys cursor rows ↔
      r ∈ (rows.filter (U.after cursor U.matched)).take U.size := by
    intro r hr
    constructor
    · intro h
      obtain ⟨x, hx, hkey⟩ := List.mem_map.1 h
      have hmem := (List.mem_filter.1 (List.mem_of_mem_take hx)).1
      rwa [List.inj_on_of_nodup_map hnodup hmem hr hkey] at hx
    · exact List.mem_map_of_mem
  by_cases hfull : U.size ≤ rows.countP (U.after cursor U.matched)
  · obtain ⟨b, -, -, -, hcount, he⟩ := batch_full hsorted hfull
    rw [he]
    apply updateAll_congr
    intro r hr
    rw [Bool.eq_iff_iff, decide_eq_true_eq, hkeys r hr, mem_batch_iff hsorted hcount]
    exact (and_iff_right hr).symm
  · have hshort : rows.countP (U.after cursor U.matched) ≤ U.size := by omega
    rw [updateLimit_short U.write hshort]
    apply updateAll_congr
    intro r hr
    rw [List.countP_eq_length_filter] at hshort
    rw [Bool.eq_iff_iff, decide_eq_true_eq, hkeys r hr, List.take_of_length_le hshort,
      List.mem_filter]
    exact (and_iff_right hr).symm

end Batch

theorem updateLimit_sorted {rows : List α} (hsorted : U.Sorted rows) (cursor : Int) :
    U.Sorted (updateLimit (U.after cursor U.matched) U.write U.size rows).1 := by
  rw [updateLimit_eq_updateAll hsorted]
  exact hsorted.updateAll _

end BatchUpdate

/-- Where a job stands between two of its statements. -/
inductive OffsetPhase
  | update (cursor : Int)
  | select (cursor : Int) (affected : Nat)
  | done
  deriving DecidableEq, Repr

/-- An attempt at work on a table; `written` has the keys of the rows that were written so far,
`batch` those of the latest update. -/
structure OffsetAttempt (U : BatchUpdate α) where
  table : Keyed U.key
  phase : OffsetPhase
  processed : Nat
  written : List Int
  batch : List Int

namespace OffsetAttempt

variable {U : BatchUpdate α}

/-- What was written before the attempt stays written. -/
def start (table : Keyed U.key) (written : List Int) : OffsetAttempt U :=
  ⟨table, .update 0, 0, written, []⟩

def statement (j : OffsetAttempt U) : OffsetAttempt U :=
  match j.phase with
  | .update cursor =>
    let batch := updateLimit (U.after cursor U.matched) U.write U.size j.table.rows
    { table := ⟨batch.1, U.updateLimit_sorted j.table.sorted cursor⟩
      phase := if batch.2 = 0 then .done else .select cursor batch.2
      processed := j.processed + batch.2
      written := j.written ++ U.batchKeys cursor j.table.rows
      batch := U.batchKeys cursor j.table.rows }
  | .select cursor affected =>
    let next := (U.nthKey affected cursor j.table.rows).getD cursor
    { j with phase := if affected < U.size then .done else .update next }
  | .done => j

/-- The row is there to be written, or was. -/
def Stays (k : Int) (j : OffsetAttempt U) : Prop :=
  k ∈ j.written ∨ ∃ r ∈ j.table.rows, U.key r = k ∧ U.matched r = true

instance Stays.instDecidable (k : Int) : DecidablePred (Stays (U := U) k) :=
  fun j => inferInstanceAs (Decidable (k ∈ j.written ∨ ∃ r ∈ j.table.rows, _))

/-- The query finds each row of the batch in the new table that it would find in the old. -/
def KeepsBatch (j : OffsetAttempt U) (table : Keyed U.key) : Prop :=
  ∀ r ∈ j.table.rows, U.key r ∈ j.batch → U.found r = true →
    ∃ r' ∈ table.rows, U.key r' = U.key r ∧ U.found r' = true

instance KeepsBatch.instDecidable (j : OffsetAttempt U) (table : Keyed U.key) :
    Decidable (j.KeepsBatch table) :=
  inferInstanceAs (Decidable (∀ r ∈ j.table.rows, _ → _ → ∃ r' ∈ table.rows, _))

/-- Up to `last` the query finds at least as many rows as the update wrote. -/
structure Batch (j : OffsetAttempt U) (cursor last : Int) (keys : List Int) : Prop where
  nodup : keys.Nodup
  size_le : U.size ≤ keys.length
  found : ∀ k ∈ keys, cursor < k ∧ k ≤ last ∧ k ∈ j.batch ∧
    ∃ r ∈ j.table.rows, U.key r = k ∧ U.found r = true

/-- The job has written the row, or has it still before it. -/
def Reaches (k : Int) (j : OffsetAttempt U) : Prop :=
  k ∈ j.written ∨
    match j.phase with
    | .update cursor => cursor < k
    | .select cursor affected =>
      affected = U.size ∧ ∃ last keys, last < k ∧ j.Batch cursor last keys
    | .done => False

theorem Reaches.update {k : Int} {j : OffsetAttempt U} {cursor : Int}
    (hphase : j.phase = .update cursor) (h : j.Reaches k) (hstays : j.Stays k) : j.statement.Reaches k := by
  unfold statement
  rw [hphase]
  rcases hstays with hwritten | ⟨r, hr, rfl, hmatched⟩
  · exact Or.inl (List.mem_append_left _ hwritten)
  rcases h with hwritten | h
  · exact Or.inl (List.mem_append_left _ hwritten)
  rw [hphase] at h
  have hr' : r ∈ j.table.rows.filter (U.after cursor U.matched) :=
    List.mem_filter.2 ⟨hr, BatchUpdate.after_iff.2 ⟨hmatched, h⟩⟩
  by_cases hfull : U.size ≤ j.table.rows.countP (U.after cursor U.matched)
  · obtain ⟨b, hb, hbm, hlt, hcount, he⟩ := BatchUpdate.batch_full j.table.sorted hfull
    by_cases hle : U.key r ≤ U.key b
    · left
      apply List.mem_append_right
      apply List.mem_map_of_mem
      exact (BatchUpdate.mem_batch_iff j.table.sorted hcount).2
        ⟨hr, BatchUpdate.within_iff.2 ⟨hmatched, h, hle⟩⟩
    · right
      have hpos := U.size_pos
      simp only [he]
      rw [if_neg (by omega)]
      refine ⟨rfl, U.key b, U.batchKeys cursor j.table.rows, by omega, ?_, ?_, ?_⟩
      · have hsorted := (List.Pairwise.filter (U.after cursor U.matched) j.table.sorted).sublist
          (List.take_sublist U.size _)
        exact List.pairwise_map.2 (hsorted.imp fun h => h.ne)
      · rw [BatchUpdate.batchKeys, List.length_map, List.length_take,
          ← List.countP_eq_length_filter]
        omega
      · intro k hk
        obtain ⟨x, hx, rfl⟩ := List.mem_map.1 hk
        obtain ⟨hxr, hin⟩ := (BatchUpdate.mem_batch_iff j.table.sorted hcount).1 hx
        obtain ⟨hxm, hxc, hxb⟩ := BatchUpdate.within_iff.1 hin
        refine ⟨hxc, hxb, hk, U.write x, ?_, U.key_write x, U.found_write x hxm⟩
        exact List.mem_map.2 ⟨x, hxr, if_pos hin⟩
  · left
    apply List.mem_append_right
    rw [BatchUpdate.batchKeys, List.take_of_length_le]
    · exact List.mem_map_of_mem hr'
    · rw [← List.countP_eq_length_filter]
      omega

theorem Batch.nthKey {j : OffsetAttempt U} {cursor last : Int} {keys : List Int}
    (h : j.Batch cursor last keys) :
    ∃ next, U.nthKey U.size cursor j.table.rows = some next ∧ next ≤ last := by
  have hsorted := j.table.sorted.filter (U.after cursor U.found)
  have hsub : keys ⊆ ((j.table.rows.filter (U.after cursor U.found)).filter
      fun r => decide (U.key r ≤ last)).map U.key := by
    intro k hk
    obtain ⟨hlt, hle, -, r, hr, rfl, hfound⟩ := h.found k hk
    refine List.mem_map_of_mem (List.mem_filter.2 ⟨List.mem_filter.2 ⟨hr, ?_⟩, decide_eq_true hle⟩)
    exact BatchUpdate.after_iff.2 ⟨hfound, hlt⟩
  have hlen := (h.nodup.subperm hsub).length_le
  rw [List.length_map, ← List.countP_eq_length_filter] at hlen
  have hpos := U.size_pos
  have hsize := h.size_le
  have hplace : U.size - 1 < (j.table.rows.filter (U.after cursor U.found)).countP
      fun r => decide (U.key r ≤ last) := by omega
  obtain ⟨r, -, hhead, hle⟩ := head_drop_of_lt_countP hsorted hplace
  refine ⟨U.key r, ?_, hle⟩
  rw [BatchUpdate.nthKey, hhead]
  rfl

theorem Reaches.select {k : Int} {j : OffsetAttempt U} {cursor : Int} {affected : Nat}
    (hphase : j.phase = .select cursor affected) (h : j.Reaches k) : j.statement.Reaches k := by
  unfold statement
  rw [hphase]
  rcases h with hwritten | h
  · exact Or.inl hwritten
  rw [hphase] at h
  obtain ⟨rfl, last, keys, hlt, hbatch⟩ := h
  obtain ⟨next, hnext, hle⟩ := hbatch.nthKey
  right
  simp only [hnext, Option.getD_some, lt_irrefl, if_false]
  omega

theorem Reaches.statement {k : Int} {j : OffsetAttempt U} (h : j.Reaches k)
    (hstays : j.Stays k) : j.statement.Reaches k := by
  cases hphase : j.phase with
  | update cursor => exact h.update hphase hstays
  | select cursor affected => exact h.select hphase
  | done =>
    have hsame : j.statement = j := by
      unfold OffsetAttempt.statement
      rw [hphase]
    rw [hsame]
    exact h

theorem Reaches.others {k : Int} {j : OffsetAttempt U} {table : Keyed U.key} (h : j.Reaches k)
    (hkeeps : ∀ cursor affected, j.phase = .select cursor affected → j.KeepsBatch table) :
    ({ j with table := table } : OffsetAttempt U).Reaches k := by
  rcases h with hwritten | h
  · exact Or.inl hwritten
  right
  cases hphase : j.phase with
  | update cursor =>
    rw [hphase] at h
    exact h
  | done =>
    rw [hphase] at h
    exact h.elim
  | select cursor affected =>
    rw [hphase] at h
    obtain ⟨hsize, last, keys, hlt, hbatch⟩ := h
    refine ⟨hsize, last, keys, hlt, hbatch.nodup, hbatch.size_le, ?_⟩
    intro k' hk'
    obtain ⟨hc, hl, hw, r, hr, rfl, hfound⟩ := hbatch.found k' hk'
    exact ⟨hc, hl, hw, hkeeps cursor affected hphase r hr hw hfound⟩

section Alone

variable {table : Keyed U.key} {j : OffsetAttempt U} {cursor last : Int}

/-- The job has done what one update up to `last` does. -/
structure Upto (table : Keyed U.key) (j : OffsetAttempt U) (last : Int) : Prop where
  rows : j.table.rows = updateAll (U.within 0 last) U.write table.rows
  processed : j.processed = table.rows.countP (U.within 0 last)

/-- The cursor stands at the end of what was written, or what was written does not match again. -/
def Behind (U : BatchUpdate α) (cursor last : Int) : Prop :=
  0 ≤ cursor ∧ cursor ≤ last ∧ (cursor = last ∨ ∀ r, U.matched (U.write r) = false)

theorem Upto.after_eq (h : j.Upto table last) (hbehind : Behind U cursor last) :
    ∀ r ∈ j.table.rows, U.after cursor U.matched r = U.after last U.matched r := by
  intro r hr
  obtain ⟨h0, hle, rfl | hnot⟩ := hbehind
  · rfl
  rw [Bool.eq_iff_iff, BatchUpdate.after_iff, BatchUpdate.after_iff]
  constructor
  · rintro ⟨hm, hlt⟩
    refine ⟨hm, ?_⟩
    by_contra hin
    rw [h.rows] at hr
    rcases BatchUpdate.mem_updateAll hr with ⟨x, -, -, rfl⟩ | ⟨-, hout⟩
    · rw [hnot] at hm
      cases hm
    · rw [Bool.eq_false_iff, ne_eq, BatchUpdate.within_iff] at hout
      exact hout ⟨hm, by omega, by omega⟩
  · rintro ⟨hm, hlt⟩
    exact ⟨hm, by omega⟩

theorem Upto.countP_after (h : j.Upto table last) {next : Int} (hle : last ≤ next) :
    j.table.rows.countP (U.after next U.matched) =
      table.rows.countP (U.after next U.matched) := by
  rw [h.rows]
  refine BatchUpdate.countP_after_updateAll U ?_ table.rows
  intro r hr
  exact (BatchUpdate.within_iff.1 hr).2.2.trans hle

theorem Upto.short (h : j.Upto table last) (hphase : j.phase = .update cursor)
    (hbehind : Behind U cursor last)
    (hshort : table.rows.countP (U.after last U.matched) < U.size) :
    j.statement.statement.phase = .done ∧
      j.statement.statement.table.rows = updateAll (U.after 0 U.matched) U.write table.rows ∧
      j.statement.statement.processed = table.rows.countP (U.after 0 U.matched) := by
  have hle : 0 ≤ last := hbehind.1.trans hbehind.2.1
  have hcount := h.countP_after (le_refl last)
  have hbatch : updateLimit (U.after cursor U.matched) U.write U.size j.table.rows =
      (updateAll (U.after 0 U.matched) U.write table.rows,
        table.rows.countP (U.after last U.matched)) := by
    rw [updateLimit_congr (h.after_eq hbehind), updateLimit_short U.write (by omega), hcount,
      h.rows, BatchUpdate.updateAll_after hle]
  have hsplit := BatchUpdate.countP_after_split U hle table.rows
  have hprocessed := h.processed
  have hfirst : j.statement.table.rows = updateAll (U.after 0 U.matched) U.write table.rows ∧
      j.statement.processed = table.rows.countP (U.after 0 U.matched) ∧
      j.statement.phase = if table.rows.countP (U.after last U.matched) = 0 then .done
        else .select cursor (table.rows.countP (U.after last U.matched)) := by
    unfold statement
    rw [hphase]
    simp only [hbatch]
    refine ⟨trivial, ?_, trivial⟩
    omega
  obtain ⟨hrows, hsum, hnext⟩ := hfirst
  generalize j.statement = s at hrows hsum hnext
  unfold statement
  by_cases hzero : table.rows.countP (U.after last U.matched) = 0
  · rw [if_pos hzero] at hnext
    rw [hnext]
    exact ⟨hnext, hrows, hsum⟩
  · rw [if_neg hzero] at hnext
    rw [hnext]
    exact ⟨if_pos hshort, hrows, hsum⟩

theorem Upto.full (h : j.Upto table last) (hphase : j.phase = .update cursor)
    (hbehind : Behind U cursor last)
    (hkind : (∀ r, U.found r = true → U.matched r = true) ∨ ∀ r, U.matched (U.write r) = false)
    (hfull : U.size ≤ table.rows.countP (U.after last U.matched)) :
    ∃ cursor' last', j.statement.statement.phase = .update cursor' ∧ Behind U cursor' last' ∧
      j.statement.statement.Upto table last' ∧
      table.rows.countP (U.after last' U.matched) + U.size =
        table.rows.countP (U.after last U.matched) := by
  have h0 : 0 ≤ last := hbehind.1.trans hbehind.2.1
  have hcount := h.countP_after (le_refl last)
  rw [← hcount] at hfull
  obtain ⟨b, hb, hbm, hlt, hsize, he⟩ := BatchUpdate.batch_full j.table.sorted hfull
  rw [← updateLimit_congr (h.after_eq hbehind)] at he
  have hpos := U.size_pos
  -- what the batch adds to the rows and to their number
  have hrows : updateAll (U.within last (U.key b)) U.write j.table.rows =
      updateAll (U.within 0 (U.key b)) U.write table.rows := by
    rw [h.rows]
    exact BatchUpdate.updateAll_within h0 hlt.le table.rows
  have hleft := BatchUpdate.countP_after_split U hlt.le j.table.rows
  have hrest := h.countP_after hlt.le
  have hto := BatchUpdate.countP_after_split U h0 table.rows
  have hto' := BatchUpdate.countP_after_split U (h0.trans hlt.le) table.rows
  have hprocessed := h.processed
  -- what the query finds
  set found := (updateAll (U.within last (U.key b)) U.write j.table.rows).filter
    (U.after cursor U.found) with hfound
  have hsorted : found.Pairwise fun x y => U.key x < U.key y :=
    (BatchUpdate.Sorted.updateAll j.table.sorted _).filter _
  have hmany : U.size ≤ found.countP fun r => decide (U.key r ≤ U.key b) := by
    rw [← hsize, hfound, List.countP_filter]
    refine countP_le_updateAll ?_ j.table.rows
    intro r hr
    obtain ⟨hm, hl, hr⟩ := BatchUpdate.within_iff.1 hr
    rw [Bool.and_eq_true, BatchUpdate.after_iff, U.key_write]
    exact ⟨decide_eq_true hr, U.found_write r hm, hbehind.2.1.trans_lt hl⟩
  obtain ⟨r, hr, hhead, hle⟩ := head_drop_of_lt_countP hsorted
    (show U.size - 1 < found.countP fun r => decide (U.key r ≤ U.key b) by omega)
  have hcursor : cursor < U.key r := (BatchUpdate.after_iff.1 (List.mem_filter.1 hr).2).2
  have hnext : Behind U (U.key r) (U.key b) := by
    refine ⟨(hbehind.1.trans_lt hcursor).le, hle, ?_⟩
    rcases hkind with hmatch | hnot
    · left
      have hwrite : U.matched (U.write b) = true := hmatch _ (U.found_write b hbm)
      obtain rfl : cursor = last := by
        rcases hbehind.2.2 with hsame | hnot
        · exact hsame
        · rw [hnot] at hwrite
          cases hwrite
      have hfew : found.countP (fun r => decide (U.key r ≤ U.key b)) ≤ U.size := by
        rw [← hsize, hfound, List.countP_filter]
        have hself := countP_updateAll_self (p := U.within cursor (U.key b)) (f := U.write)
          (fun x hx => by
            obtain ⟨hm, hl, hr⟩ := BatchUpdate.within_iff.1 hx
            rw [BatchUpdate.within_iff, U.key_write]
            exact ⟨hmatch _ (U.found_write x hm), hl, hr⟩) j.table.rows
        rw [← hself]
        apply List.countP_mono_left
        intro x _ hx
        rw [Bool.and_eq_true, BatchUpdate.after_iff] at hx
        exact BatchUpdate.within_iff.2 ⟨hmatch x hx.2.1, hx.2.2, of_decide_eq_true hx.1⟩
      have hplace := countP_of_head_drop hsorted hhead
      by_contra hne
      have hmem : U.write b ∈ found := by
        refine List.mem_filter.2 ⟨List.mem_map.2 ⟨b, hb, if_pos ?_⟩, BatchUpdate.after_iff.2 ?_⟩
        · exact BatchUpdate.within_iff.2 ⟨hbm, hlt, le_refl _⟩
        · exact ⟨U.found_write b hbm, by rw [U.key_write]; exact hlt⟩
      have hless : found.countP (fun x => decide (U.key x ≤ U.key r)) <
          found.countP fun x => decide (U.key x ≤ U.key b) := by
        refine BatchUpdate.countP_lt_of_mem hmem ?_ ?_ ?_
        · rw [decide_eq_false_iff_not, U.key_write]
          omega
        · rw [decide_eq_true_eq, U.key_write]
        · intro x hx
          exact decide_eq_true ((of_decide_eq_true hx).trans hle)
      omega
    · exact Or.inr hnot
  have hfirst : j.statement.table.rows =
        updateAll (U.within last (U.key b)) U.write j.table.rows ∧
      j.statement.processed = table.rows.countP (U.within 0 (U.key b)) ∧
      j.statement.phase = .select cursor U.size := by
    unfold statement
    rw [hphase]
    simp only [he]
    refine ⟨trivial, ?_, if_neg (by omega)⟩
    omega
  obtain ⟨hrows', hsum, hselect⟩ := hfirst
  generalize j.statement = s at hrows' hsum hselect
  have hkey : U.nthKey U.size cursor s.table.rows = some (U.key r) := by
    rw [BatchUpdate.nthKey, hrows', ← hfound, hhead]
    rfl
  refine ⟨U.key r, U.key b, ?_, hnext, ⟨?_, ?_⟩, by omega⟩
  · unfold statement
    rw [hselect]
    simp only [hkey, lt_irrefl, if_false, Option.getD_some]
  · unfold statement
    rw [hselect]
    exact hrows'.trans hrows
  · unfold statement
    rw [hselect]
    exact hsum

/-- A job that is left alone ends, with every matched row behind the start written and counted
once. -/
theorem alone_done
    (hkind : (∀ r, U.found r = true → U.matched r = true) ∨ ∀ r, U.matched (U.write r) = false)
    (table : Keyed U.key) :
    ∃ n, (statement^[n] (start table [])).phase = .done ∧
      (statement^[n] (start table [])).table.rows =
        updateAll (U.after 0 U.matched) U.write table.rows ∧
      (statement^[n] (start table [])).processed = table.rows.countP (U.after 0 U.matched) := by
  have hrun : ∀ fuel (j : OffsetAttempt U) cursor last, j.phase = .update cursor →
      Behind U cursor last → j.Upto table last →
      table.rows.countP (U.after last U.matched) ≤ fuel →
      ∃ n, (statement^[n] j).phase = .done ∧
        (statement^[n] j).table.rows = updateAll (U.after 0 U.matched) U.write table.rows ∧
        (statement^[n] j).processed = table.rows.countP (U.after 0 U.matched) := by
    intro fuel
    induction fuel with
    | zero =>
      intro j cursor last hphase hbehind h hfuel
      exact ⟨2, h.short hphase hbehind (Nat.lt_of_le_of_lt hfuel U.size_pos)⟩
    | succ fuel ih =>
      intro j cursor last hphase hbehind h hfuel
      by_cases hfull : U.size ≤ table.rows.countP (U.after last U.matched)
      · obtain ⟨cursor', last', hphase', hbehind', h', hless⟩ := h.full hphase hbehind hkind hfull
        have hpos := U.size_pos
        obtain ⟨n, hn⟩ := ih _ cursor' last' hphase' hbehind' h' (by omega)
        exact ⟨n + 2, hn⟩
      · exact ⟨2, h.short hphase hbehind (Nat.lt_of_not_le hfull)⟩
  have hnone : ∀ r ∈ table.rows, U.within 0 0 r = false := by
    intro r _
    rw [Bool.eq_false_iff, ne_eq, BatchUpdate.within_iff]
    omega
  refine hrun _ (start table []) 0 0 rfl ⟨le_refl _, le_refl _, Or.inl rfl⟩ ⟨?_, ?_⟩ (le_refl _)
  · exact (updateAll_of_false hnone).symm
  · exact (List.countP_eq_zero.2 fun r hr => by simp [hnone r hr]).symm

end Alone

end OffsetAttempt

/-- A batched update whose attempts each bring a value of their own into what they write. -/
structure RetriedUpdate (α ι : Type*) where
  key : α → Int
  matched : α → Bool
  write : ι → α → α
  found : ι → α → Bool
  size : Nat
  size_pos : 0 < size
  key_write : ∀ i r, key (write i r) = key r
  found_write : ∀ i r, matched r = true → found i (write i r) = true

abbrev RetriedUpdate.attempt {ι : Type*} (R : RetriedUpdate α ι) (i : ι) : BatchUpdate α where
  key := R.key
  matched := R.matched
  write := R.write i
  found := R.found i
  size := R.size
  size_pos := R.size_pos
  key_write := R.key_write i
  found_write := R.found_write i

/-- A job in its present attempt. -/
structure OffsetJob {ι : Type*} (R : RetriedUpdate α ι) where
  value : ι
  attempt : OffsetAttempt (R.attempt value)

inductive OffsetEvent {ι : Type*} (R : RetriedUpdate α ι)
  | statement
  | restart (value : ι)
  | others (table : Keyed R.key)

namespace OffsetJob

variable {ι : Type*} {R : RetriedUpdate α ι}

def start (value : ι) (table : Keyed R.key) : OffsetJob R := ⟨value, .start table []⟩

def step (j : OffsetJob R) : OffsetEvent R → OffsetJob R
  | .statement => ⟨j.value, j.attempt.statement⟩
  | .restart value =>
    if j.attempt.phase = .done then j
    else ⟨value, .start j.attempt.table j.attempt.written⟩
  | .others table => ⟨j.value, { j.attempt with table := table }⟩

def Stays (k : Int) (j : OffsetJob R) : Prop := j.attempt.Stays k

instance Stays.instDecidable (k : Int) : DecidablePred (Stays (R := R) k) :=
  fun j => inferInstanceAs (Decidable (j.attempt.Stays k))

/-- Between an update and its query others leave to the query the rows of the batch. -/
def Keeps (j : OffsetJob R) : OffsetEvent R → Prop
  | .others table =>
    match j.attempt.phase with
    | .select _ _ => j.attempt.KeepsBatch table
    | _ => True
  | _ => True

instance Keeps.instDecidable : ∀ (j : OffsetJob R) (e : OffsetEvent R), Decidable (j.Keeps e)
  | _, .statement => isTrue trivial
  | _, .restart _ => isTrue trivial
  | ⟨_, _, .update _, _, _, _⟩, .others _ => isTrue trivial
  | ⟨v, t, .select cursor affected, n, written, batch⟩, .others table =>
    OffsetAttempt.KeepsBatch.instDecidable (U := R.attempt v)
      ⟨t, .select cursor affected, n, written, batch⟩ table
  | ⟨_, _, .done, _, _, _⟩, .others _ => isTrue trivial

theorem reaches_step {k : Int} (hk : 0 < k) {j : OffsetJob R} (e : OffsetEvent R)
    (h : j.attempt.Reaches k) (hstays : j.Stays k) (hkeeps : j.Keeps e) :
    (j.step e).attempt.Reaches k := by
  cases e with
  | statement => exact h.statement hstays
  | others table =>
    refine h.others fun cursor affected hphase => ?_
    unfold Keeps at hkeeps
    rw [hphase] at hkeeps
    exact hkeeps
  | restart value =>
    by_cases hdone : j.attempt.phase = .done
    · have hsame : j.step (.restart value) = j := if_pos hdone
      rw [hsame]
      exact h
    · have hagain : j.step (.restart value) =
          ⟨value, .start j.attempt.table j.attempt.written⟩ := if_neg hdone
      rw [hagain]
      exact Or.inr hk

/-- A job that ends has written every row that stayed, in one attempt or another, if others let
each query find the rows of its batch. -/
theorem mem_written_of_done {k : Int} (hk : 0 < k) {value : ι} {table : Keyed R.key}
    {events : List (OffsetEvent R)} (hstays : Always step (Stays k) (start value table) events)
    (hkeeps : EachStep step Keeps (start value table) events)
    (hdone : (events.foldl step (start value table)).attempt.phase = .done) :
    k ∈ (events.foldl step (start value table)).attempt.written := by
  have hreaches : Always step (fun j => j.attempt.Reaches k) (start value table) events := by
    refine always_of_eachStep ?_ (Or.inr hk) (hkeeps.and (hstays.eachStep fun _ _ h => h))
    intro j e h hok
    exact reaches_step hk e h hok.2 hok.1
  rcases hreaches.last with hwritten | h
  · exact hwritten
  · rw [hdone] at h
    exact h.elim

end OffsetJob

end Vici2
