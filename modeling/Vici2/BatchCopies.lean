import Mathlib.Data.List.Basic
import Mathlib.Data.Int.Init

/-! Copying the rows of a kind in batches, when the place to go on from is counted
among all rows. -/

namespace Vici2

variable {α : Type*}

theorem filter_key_lt {key : α → Int} {rows : List α} {n : Nat} {y : α}
    (hsorted : rows.Pairwise fun a b => key a < key b) (hy : rows[n]? = some y) :
    rows.filter (fun r => decide (key y < key r)) = rows.drop (n + 1) := by
  induction rows generalizing n with
  | nil => simp at hy
  | cons r rows ih =>
    obtain ⟨hfirst, hrest⟩ := List.pairwise_cons.1 hsorted
    cases n with
    | zero =>
      obtain rfl : r = y := by simpa using hy
      rw [List.filter_cons_of_neg (by simp)]
      exact List.filter_eq_self.2 fun x hx => decide_eq_true (hfirst x hx)
    | succ n =>
      have hmem : y ∈ rows := List.mem_of_getElem? hy
      have hlt := hfirst y hmem
      rw [List.filter_cons_of_neg (by rw [decide_eq_true_eq]; omega)]
      exact ih hrest hy

/-- Copying in batches that are counted two ways: each takes the first `n` rows of a
kind, and the next starts after the first `n` rows of any kind. -/
def batchCopy (p : α → Bool) (n : Nat) (hn : 0 < n) (rows : List α) : List α :=
  if rows.countP p < n then rows.filter p
  else (rows.filter p).take n ++ batchCopy p n hn (rows.drop n)
termination_by rows.length
decreasing_by
  have hle : rows.countP p ≤ rows.length := List.countP_le_length
  rw [List.length_drop]
  omega

section

variable {p : α → Bool} {n : Nat} {hn : 0 < n} {rows : List α}

theorem batchCopy_short (h : rows.countP p < n) : batchCopy p n hn rows = rows.filter p := by
  rw [batchCopy, if_pos h]

theorem batchCopy_full (h : n ≤ rows.countP p) :
    batchCopy p n hn rows = (rows.filter p).take n ++ batchCopy p n hn (rows.drop n) := by
  rw [batchCopy, if_neg (Nat.not_lt.2 h)]

theorem mem_of_mem_batchCopy {x : α} (h : x ∈ batchCopy p n hn rows) : x ∈ rows ∧ p x = true := by
  induction rows using batchCopy.induct p n hn with
  | case1 rows hshort =>
    rw [batchCopy_short hshort] at h
    exact List.mem_filter.1 h
  | case2 rows hfull ih =>
    rw [batchCopy_full (Nat.not_lt.1 hfull)] at h
    rcases List.mem_append.1 h with h | h
    · exact List.mem_filter.1 (List.mem_of_mem_take h)
    · obtain ⟨hx, hp⟩ := ih h
      exact ⟨List.mem_of_mem_drop hx, hp⟩

theorem length_batch (h : n ≤ rows.countP p) : ((rows.filter p).take n).length = n := by
  rw [List.length_take, ← List.countP_eq_length_filter]
  omega

theorem countP_take_drop (p : α → Bool) (n : Nat) (rows : List α) :
    rows.countP p = (rows.take n).countP p + (rows.drop n).countP p := by
  rw [← List.countP_append, List.take_append_drop]

theorem countP_le_length_batchCopy : rows.countP p ≤ (batchCopy p n hn rows).length := by
  induction rows using batchCopy.induct p n hn with
  | case1 rows hshort =>
    have hall : (batchCopy p n hn rows).length = rows.countP p := by
      rw [batchCopy_short hshort, List.countP_eq_length_filter]
    exact Nat.le_of_eq hall.symm
  | case2 rows hfull ih =>
    have hge := Nat.not_lt.1 hfull
    have hsplit := countP_take_drop p n rows
    have hle : (rows.take n).countP p ≤ (rows.take n).length := List.countP_le_length
    rw [List.length_take] at hle
    rw [batchCopy_full hge, List.length_append, length_batch hge]
    omega

/-- The rows that the full batches pass are all of the kind. -/
def AllBatches (p : α → Bool) (n : Nat) (rows : List α) : Prop :=
  ∀ x ∈ rows.take (rows.countP p / n * n), p x = true

theorem allBatches_short (h : rows.countP p < n) : AllBatches p n rows := by
  intro x hx
  rw [Nat.div_eq_of_lt h, Nat.zero_mul] at hx
  simp at hx

theorem allBatches_full (hn : 0 < n) (h : n ≤ rows.countP p) :
    AllBatches p n rows ↔ (∀ x ∈ rows.take n, p x = true) ∧ AllBatches p n (rows.drop n) := by
  have hlen : rows.countP p ≤ rows.length := List.countP_le_length
  have hsplit := countP_take_drop p n rows
  have hcount : (∀ x ∈ rows.take n, p x = true) →
      rows.countP p / n * n = n + (rows.drop n).countP p / n * n := by
    intro hall
    have hfirst : (rows.take n).countP p = n := by
      rw [List.countP_eq_length.2 hall, List.length_take]
      omega
    rw [hsplit, hfirst, Nat.add_comm n, Nat.add_div_right _ hn, Nat.succ_mul, Nat.add_comm]
  have hone : n ≤ rows.countP p / n * n := by
    have hpos : 1 ≤ rows.countP p / n := (Nat.one_le_div_iff hn).2 h
    calc n = 1 * n := (Nat.one_mul n).symm
      _ ≤ rows.countP p / n * n := Nat.mul_le_mul_right n hpos
  unfold AllBatches
  constructor
  · intro hall
    have hfirst : ∀ x ∈ rows.take n, p x = true := by
      intro x hx
      apply hall
      exact (List.take_subset_take_left rows hone) hx
    refine ⟨hfirst, ?_⟩
    intro x hx
    apply hall
    rw [hcount hfirst, List.take_add]
    exact List.mem_append_right _ hx
  · rintro ⟨hfirst, hrest⟩ x hx
    rw [hcount hfirst, List.take_add] at hx
    rcases List.mem_append.1 hx with hx | hx
    · exact hfirst x hx
    · exact hrest x hx

theorem batchCopy_eq_filter (hn : 0 < n) (h : AllBatches p n rows) :
    batchCopy p n hn rows = rows.filter p := by
  induction rows using batchCopy.induct p n hn with
  | case1 rows hshort => exact batchCopy_short hshort
  | case2 rows hfull ih =>
    have hge := Nat.not_lt.1 hfull
    obtain ⟨hfirst, hrest⟩ := (allBatches_full hn hge).1 h
    have hlen : rows.countP p ≤ rows.length := List.countP_le_length
    have hsame : rows.filter p = rows.take n ++ (rows.drop n).filter p := by
      conv_lhs => rw [← List.take_append_drop n rows, List.filter_append,
        List.filter_eq_self.2 hfirst]
    have htake : (rows.filter p).take n = rows.take n := by
      rw [hsame]
      apply List.take_left'
      rw [List.length_take]
      omega
    rw [batchCopy_full hge, ih hrest, htake, ← hsame]

/-- No row is copied twice exactly where the full batches pass rows of the kind only. -/
theorem length_batchCopy_iff : (batchCopy p n hn rows).length = rows.countP p ↔ AllBatches p n rows := by
  constructor
  · intro h
    induction rows using batchCopy.induct p n hn with
    | case1 rows hshort => exact allBatches_short hshort
    | case2 rows hfull ih =>
      have hge := Nat.not_lt.1 hfull
      have hsplit := countP_take_drop p n rows
      have hlen : rows.countP p ≤ rows.length := List.countP_le_length
      have hle : (rows.take n).countP p ≤ (rows.take n).length := List.countP_le_length
      have hrest := @countP_le_length_batchCopy _ p n hn (rows.drop n)
      have htake : (rows.take n).length = n := by
        rw [List.length_take]
        omega
      rw [batchCopy_full hge, List.length_append, length_batch hge] at h
      apply (allBatches_full hn hge).2
      refine ⟨List.countP_eq_length.1 (by omega), ih (by omega)⟩
  · intro h
    rw [batchCopy_eq_filter hn h, List.countP_eq_length_filter]

end

end Vici2
