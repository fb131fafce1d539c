import Mathlib.Data.List.Basic
import Mathlib.Data.Int.Init

/-! Updates of a table in batches. A batch takes the first rows of a kind after a
cursor, in the order of their keys; the cursor then moves to the last key of a kind of
its own. -/

namespace Vici2

variable {α : Type*}

/-- `UPDATE … ORDER BY key LIMIT n` on rows that stand in the order of their keys: the
table afterwards, and the number of rows matched. -/
def updateLimit (p : α → Bool) (f : α → α) : Nat → List α → List α × Nat
  | 0, rows => (rows, 0)
  | _ + 1, [] => ([], 0)
  | n + 1, r :: rows =>
    if p r then
      let rest := updateLimit p f n rows
      (f r :: rest.1, rest.2 + 1)
    else
      let rest := updateLimit p f (n + 1) rows
      (r :: rest.1, rest.2)

def updateAll (p : α → Bool) (f : α → α) (rows : List α) : List α :=
  rows.map fun r => if p r then f r else r

theorem updateAll_congr {p q : α → Bool} {f : α → α} {rows : List α}
    (h : ∀ r ∈ rows, p r = q r) : updateAll p f rows = updateAll q f rows := by
  unfold updateAll
  apply List.map_congr_left
  intro r hr
  rw [h r hr]

theorem updateAll_of_false {p : α → Bool} {f : α → α} {rows : List α}
    (h : ∀ r ∈ rows, p r = false) : updateAll p f rows = rows := by
  induction rows with
  | nil => rfl
  | cons r rows ih =>
    have hr := h r List.mem_cons_self
    have hrest := ih fun x hx => h x (List.mem_cons_of_mem _ hx)
    unfold updateAll at hrest ⊢
    rw [List.map_cons, hrest, hr]
    rfl

/-- Two updates of different rows are one. -/
theorem updateAll_updateAll {p q s : α → Bool} {f : α → α} (hs : ∀ r, s r = (p r || q r))
    (hq : ∀ r, p r = true → q (f r) = false) (rows : List α) :
    updateAll q f (updateAll p f rows) = updateAll s f rows := by
  unfold updateAll
  rw [List.map_map]
  apply List.map_congr_left
  intro r _
  by_cases hp : p r = true
  · simp [hs, hp, hq r hp]
  · simp [hs, hp]

theorem countP_updateAll {p g : α → Bool} {f : α → α}
    (h : ∀ r, p r = true → g r = false ∧ g (f r) = false) (rows : List α) :
    (updateAll p f rows).countP g = rows.countP g := by
  unfold updateAll
  rw [List.countP_map]
  apply List.countP_congr
  intro r _
  by_cases hp : p r = true
  · simp [hp, h r hp]
  · simp [hp]

/-- Where fewer rows than the limit match, all of them are updated. -/
theorem updateLimit_short {p : α → Bool} (f : α → α) {n : Nat} {rows : List α}
    (h : rows.countP p ≤ n) : updateLimit p f n rows = (updateAll p f rows, rows.countP p) := by
  induction rows generalizing n with
  | nil =>
    cases n with
    | zero => rfl
    | succ n => rfl
  | cons r rows ih =>
    by_cases hp : p r = true
    · rw [List.countP_cons_of_pos hp] at h ⊢
      cases n with
      | zero => omega
      | succ n =>
        rw [updateLimit, if_pos hp, ih (by omega)]
        simp [updateAll, hp]
    · rw [List.countP_cons_of_neg hp] at h ⊢
      cases n with
      | zero =>
        have hnone : ∀ x ∈ r :: rows, p x = false := by
          intro x hx
          rcases List.mem_cons.1 hx with rfl | hx
          · simpa using hp
          · simpa using List.countP_eq_zero.1 (Nat.le_zero.1 h) x hx
        rw [updateAll_of_false hnone, Nat.le_zero.1 h]
        rfl
      | succ n =>
        rw [updateLimit, if_neg hp, ih h]
        simp [updateAll, hp]

/-- Where the limit is reached, the rows updated are those up to some matching row. -/
theorem updateLimit_full {key : α → Int} {p : α → Bool} (f : α → α) {n : Nat} {rows : List α}
    (hsorted : rows.Pairwise fun a b => key a < key b) (hn : 0 < n) (h : n ≤ rows.countP p) :
    ∃ b ∈ rows, p b = true ∧
      rows.countP (fun r => p r && decide (key r ≤ key b)) = n ∧
      updateLimit p f n rows =
        (updateAll (fun r => p r && decide (key r ≤ key b)) f rows, n) := by
  induction rows generalizing n with
  | nil => simp at h; omega
  | cons r rows ih =>
    obtain ⟨hfirst, hrest⟩ := List.pairwise_cons.1 hsorted
    obtain ⟨n, rfl⟩ : ∃ m, n = m + 1 := ⟨n - 1, by omega⟩
    by_cases hp : p r = true
    · rw [List.countP_cons_of_pos hp] at h
      rw [updateLimit, if_pos hp]
      by_cases hzero : n = 0
      · subst hzero
        have hlater : ∀ x ∈ rows, (p x && decide (key x ≤ key r)) = false := by
          intro x hx
          simp [hfirst x hx]
        have hcount : rows.countP (fun x => p x && decide (key x ≤ key r)) = 0 :=
          List.countP_eq_zero.2 fun x hx => by simp [hlater x hx]
        refine ⟨r, List.mem_cons_self, hp, ?_, ?_⟩
        · rw [List.countP_cons_of_pos (by simp [hp]), hcount]
        · have hkeep := @updateAll_of_false α _ f _ hlater
          unfold updateAll at hkeep ⊢
          rw [List.map_cons, hkeep]
          simp [updateLimit, hp]
      · obtain ⟨b, hb, hpb, hcount, he⟩ := ih hrest (n := n) (by omega) (by omega)
        have hle : key r ≤ key b := Int.le_of_lt (hfirst b hb)
        refine ⟨b, List.mem_cons_of_mem _ hb, hpb, ?_, ?_⟩
        · rw [List.countP_cons_of_pos (by simp [hp, hle]), hcount]
        · rw [he]
          simp [updateAll, hp, hle]
    · rw [List.countP_cons_of_neg hp] at h
      obtain ⟨b, hb, hpb, hcount, he⟩ := ih hrest hn h
      refine ⟨b, List.mem_cons_of_mem _ hb, hpb, ?_, ?_⟩
      · rw [List.countP_cons_of_neg (by simp [hp]), hcount]
      · rw [updateLimit, if_neg hp, he]
        simp [updateAll, hp]

theorem countP_split (p q : α → Bool) (rows : List α) :
    rows.countP p = rows.countP (fun r => p r && q r) + rows.countP (fun r => p r && !q r) := by
  induction rows with
  | nil => rfl
  | cons r rows ih =>
    rw [List.countP_cons, List.countP_cons, List.countP_cons, ih]
    cases hp : p r <;> cases hq : q r <;> simp <;> omega

/-- A table in the order of its primary key. -/
structure Keyed (key : α → Int) where
  rows : List α
  sorted : rows.Pairwise fun a b => key a < key b

/-- An update in batches. What it writes keeps its key and is found by the query for
the next cursor. -/
structure BatchUpdate (α : Type*) where
  key : α → Int
  matched : α → Bool
  write : α → α
  found : α → Bool
  size : Nat
  size_pos : 0 < size
  key_write : ∀ r, key (write r) = key r
  found_write : ∀ r, matched r = true → found (write r) = true

namespace BatchUpdate

variable (U : BatchUpdate α)

def after (cursor : Int) (p : α → Bool) (r : α) : Bool := p r && decide (cursor < U.key r)

def Sorted (rows : List α) : Prop := rows.Pairwise fun a b => U.key a < U.key b

/-- `SELECT MAX(key)` -/
def maxKey (p : α → Bool) (rows : List α) : Option Int := ((rows.filter p).map U.key).max?

/-- The loop; the rows affected and the table afterwards, once it ends. -/
def loop : Nat → Int → Nat → List α → Option (Nat × List α)
  | 0, _, _, _ => none
  | fuel + 1, cursor, affected, rows =>
    let batch := updateLimit (U.after cursor U.matched) U.write U.size rows
    if batch.2 < U.size then some (affected + batch.2, batch.1)
    else
      let next := (U.maxKey (U.after cursor U.found) batch.1).getD 0
      if next = 0 then some (affected + batch.2, batch.1)
      else loop fuel next (affected + batch.2) batch.1

variable {U}

/-- The matched rows with a key in `(cursor, last]`. -/
def within (U : BatchUpdate α) (cursor last : Int) (r : α) : Bool :=
  U.after cursor U.matched r && decide (U.key r ≤ last)

theorem after_iff {cursor : Int} {p : α → Bool} {r : α} :
    U.after cursor p r = true ↔ p r = true ∧ cursor < U.key r := by
  simp [after]

theorem within_iff {cursor last : Int} {r : α} :
    U.within cursor last r = true ↔ U.matched r = true ∧ cursor < U.key r ∧ U.key r ≤ last := by
  simp [within, after_iff, and_assoc]

theorem key_ite (p : α → Bool) (r : α) : U.key (if p r then U.write r else r) = U.key r := by
  split
  · exact U.key_write r
  · rfl

theorem Sorted.updateAll {rows : List α} (h : U.Sorted rows) (p : α → Bool) :
    U.Sorted (updateAll p U.write rows) := by
  unfold Sorted Vici2.updateAll at *
  rw [List.pairwise_map]
  apply h.imp
  intro a b hab
  rw [key_ite, key_ite]
  exact hab

/-- Rows after what was written stand as they did. -/
theorem countP_after_updateAll (U : BatchUpdate α) {p q : α → Bool} {cursor : Int}
    (h : ∀ r, p r = true → U.key r ≤ cursor) (rows : List α) :
    (Vici2.updateAll p U.write rows).countP (U.after cursor q) = rows.countP (U.after cursor q) := by
  apply countP_updateAll
  intro r hp
  have hle := h r hp
  rw [Bool.eq_false_iff, Bool.eq_false_iff, ne_eq, ne_eq, after_iff, after_iff, U.key_write]
  constructor
  · rintro ⟨-, hlt⟩
    omega
  · rintro ⟨-, hlt⟩
    omega

theorem countP_after_split (U : BatchUpdate α) {cursor last : Int} (h : cursor ≤ last) (rows : List α) :
    rows.countP (U.after cursor U.matched) =
      rows.countP (U.within cursor last) + rows.countP (U.after last U.matched) := by
  rw [countP_split _ (fun r => decide (U.key r ≤ last))]
  congr 1
  apply List.countP_congr
  intro r _
  simp only [Bool.and_eq_true, Bool.not_eq_true', decide_eq_false_iff_not, after_iff]
  constructor
  · rintro ⟨⟨hp, -⟩, hlt⟩
    exact ⟨hp, by omega⟩
  · rintro ⟨hp, hlt⟩
    exact ⟨⟨hp, by omega⟩, by omega⟩

/-- A full batch: it ends at some row, and the next cursor is at or after it. -/
theorem batch_full {cursor : Int} {rows : List α} (hsorted : U.Sorted rows)
    (hfull : U.size ≤ rows.countP (U.after cursor U.matched)) :
    ∃ b ∈ rows, U.matched b = true ∧ cursor < U.key b ∧
      rows.countP (U.within cursor (U.key b)) = U.size ∧
      updateLimit (U.after cursor U.matched) U.write U.size rows =
        (Vici2.updateAll (U.within cursor (U.key b)) U.write rows, U.size) := by
  obtain ⟨b, hb, hpb, hcount, he⟩ := updateLimit_full U.write hsorted U.size_pos hfull
  obtain ⟨hmatched, hlt⟩ := after_iff.1 hpb
  exact ⟨b, hb, hmatched, hlt, hcount, he⟩

theorem maxKey_spec {p : α → Bool} {rows : List α} {x : α} (hx : x ∈ rows) (hp : p x = true) :
    ∃ y ∈ rows, p y = true ∧ U.maxKey p rows = some (U.key y) ∧
      ∀ z ∈ rows, p z = true → U.key z ≤ U.key y := by
  have hmem : U.key x ∈ (rows.filter p).map U.key :=
    List.mem_map_of_mem (List.mem_filter.2 ⟨hx, hp⟩)
  cases hmax : U.maxKey p rows with
  | none =>
    have hnil := List.max?_eq_none_iff.1 hmax
    rw [hnil] at hmem
    cases hmem
  | some m =>
    have hspec := List.max?_eq_some_iff.1 hmax
    obtain ⟨y, hy, rfl⟩ := List.mem_map.1 hspec.1
    obtain ⟨hy, hpy⟩ := List.mem_filter.1 hy
    refine ⟨y, hy, hpy, rfl, ?_⟩
    intro z hz hpz
    exact hspec.2 _ (List.mem_map_of_mem (List.mem_filter.2 ⟨hz, hpz⟩))

theorem mem_updateAll_of_not {p : α → Bool} {rows : List α} {x : α} (hx : x ∈ rows)
    (hp : p x = false) : x ∈ Vici2.updateAll p U.write rows := by
  unfold Vici2.updateAll
  exact List.mem_map.2 ⟨x, hx, by simp [hp]⟩

theorem mem_updateAll {p : α → Bool} {rows : List α} {x : α}
    (hx : x ∈ Vici2.updateAll p U.write rows) :
    (∃ r ∈ rows, p r = true ∧ x = U.write r) ∨ (x ∈ rows ∧ p x = false) := by
  unfold Vici2.updateAll at hx
  obtain ⟨r, hr, rfl⟩ := List.mem_map.1 hx
  by_cases hp : p r = true
  · rw [if_pos hp]
    exact Or.inl ⟨r, hr, hp, rfl⟩
  · rw [if_neg hp]
    exact Or.inr ⟨hr, by simpa using hp⟩

/-- One turn of the loop: the last batch, or a full one after which the cursor moves to
the last row that the query finds. -/
theorem loop_step {cursor : Int} {rows : List α} (hcursor : 0 ≤ cursor) (hsorted : U.Sorted rows)
    (fuel affected : Nat) :
    (rows.countP (U.after cursor U.matched) < U.size ∧
        U.loop (fuel + 1) cursor affected rows =
          some (affected + rows.countP (U.after cursor U.matched),
            Vici2.updateAll (U.after cursor U.matched) U.write rows)) ∨
      ∃ b ∈ rows, ∃ y ∈ Vici2.updateAll (U.within cursor (U.key b)) U.write rows,
        cursor < U.key b ∧ rows.countP (U.within cursor (U.key b)) = U.size ∧
        U.key b ≤ U.key y ∧ U.found y = true ∧
        (∀ z ∈ Vici2.updateAll (U.within cursor (U.key b)) U.write rows,
          U.found z = true → cursor < U.key z → U.key z ≤ U.key y) ∧
        U.loop (fuel + 1) cursor affected rows =
          U.loop fuel (U.key y) (affected + U.size)
            (Vici2.updateAll (U.within cursor (U.key b)) U.write rows) := by
  by_cases hfull : U.size ≤ rows.countP (U.after cursor U.matched)
  · right
    obtain ⟨b, hb, hmatched, hlt, hcount, he⟩ := batch_full hsorted hfull
    have hwritten : U.write b ∈ Vici2.updateAll (U.within cursor (U.key b)) U.write rows := by
      have hin : U.within cursor (U.key b) b = true := within_iff.2 ⟨hmatched, hlt, Int.le_refl _⟩
      unfold Vici2.updateAll
      exact List.mem_map.2 ⟨b, hb, by simp [hin]⟩
    have hfound : U.after cursor U.found (U.write b) = true := by
      rw [after_iff, U.key_write]
      exact ⟨U.found_write b hmatched, hlt⟩
    obtain ⟨y, hy, hpy, hmax, hlast⟩ := maxKey_spec hwritten hfound
    have hle := hlast _ hwritten hfound
    rw [U.key_write] at hle
    refine ⟨b, hb, y, hy, hlt, hcount, hle, (after_iff.1 hpy).1, ?_, ?_⟩
    · intro z hz hzf hzlt
      exact hlast z hz (after_iff.2 ⟨hzf, hzlt⟩)
    · rw [loop]
      simp only [he, Nat.lt_irrefl, if_false, hmax, Option.getD_some]
      rw [if_neg (by omega)]
  · left
    have hshort := updateLimit_short U.write (Nat.le_of_lt (Nat.lt_of_not_le hfull))
    refine ⟨Nat.lt_of_not_le hfull, ?_⟩
    rw [loop]
    simp only [hshort]
    rw [if_pos (Nat.lt_of_not_le hfull)]

theorem loop_terminates {fuel : Nat} {cursor : Int} {rows : List α} (hcursor : 0 ≤ cursor)
    (hsorted : U.Sorted rows) (affected : Nat)
    (hfuel : rows.countP (U.after cursor U.matched) < fuel) :
    ∃ out, U.loop fuel cursor affected rows = some out := by
  induction fuel generalizing cursor rows affected with
  | zero => omega
  | succ fuel ih =>
    obtain ⟨-, he⟩ | ⟨b, -, y, -, hlt, hcount, hle, -, -, he⟩ := loop_step hcursor hsorted fuel affected
    · exact ⟨_, he⟩
    · rw [he]
      apply ih (by omega) (hsorted.updateAll _)
      have hsplit := countP_after_split U (Int.le_of_lt hlt) rows
      have hleft := countP_after_split U hle rows
      have hkeep := @countP_after_updateAll _ U (U.within cursor (U.key b)) U.matched (U.key y)
        (fun _ hr => Int.le_trans (within_iff.1 hr).2.2 hle) rows
      have hpos := U.size_pos
      omega

/-- No row is counted twice. -/
theorem loop_le {fuel : Nat} {cursor : Int} {rows : List α} (hcursor : 0 ≤ cursor)
    (hsorted : U.Sorted rows) {affected n : Nat} {out : List α}
    (h : U.loop fuel cursor affected rows = some (n, out)) :
    n ≤ affected + rows.countP (U.after cursor U.matched) := by
  induction fuel generalizing cursor rows affected with
  | zero => cases h
  | succ fuel ih =>
    obtain ⟨-, he⟩ | ⟨b, -, y, -, hlt, hcount, hle, -, -, he⟩ := loop_step hcursor hsorted fuel affected
    · rw [he] at h
      obtain ⟨rfl, -⟩ := Prod.mk.inj (Option.some.inj h)
      exact Nat.le_refl _
    · rw [he] at h
      have hih := ih (by omega) (hsorted.updateAll _) h
      have hsplit := countP_after_split U (Int.le_of_lt hlt) rows
      have hleft := countP_after_split U hle rows
      have hkeep := @countP_after_updateAll _ U (U.within cursor (U.key b)) U.matched (U.key y)
        (fun _ hr => Int.le_trans (within_iff.1 hr).2.2 hle) rows
      omega

/-- A found row with a batch of matched rows before it. -/
def Late (U : BatchUpdate α) (rows : List α) (x : α) : Prop :=
  x ∈ rows ∧ U.found x = true ∧ 0 < U.key x ∧
    U.size ≤ rows.countP fun r => U.after 0 U.matched r && decide (U.key r < U.key x)

theorem updateAll_within {cursor last : Int} (h0 : 0 ≤ cursor) (h : cursor ≤ last) (rows : List α) :
    Vici2.updateAll (U.within cursor last) U.write
        (Vici2.updateAll (U.within 0 cursor) U.write rows) =
      Vici2.updateAll (U.within 0 last) U.write rows := by
  apply updateAll_updateAll
  · intro r
    rw [Bool.eq_iff_iff, Bool.or_eq_true, within_iff, within_iff, within_iff]
    constructor
    · rintro ⟨hp, hlt, hle⟩
      by_cases hin : cursor < U.key r
      · exact Or.inr ⟨hp, hin, hle⟩
      · exact Or.inl ⟨hp, hlt, Int.not_lt.1 hin⟩
    · rintro (⟨hp, hlt, hle⟩ | ⟨hp, hlt, hle⟩)
      · exact ⟨hp, hlt, by omega⟩
      · exact ⟨hp, by omega, hle⟩
  · intro r hr
    have hle := (within_iff.1 hr).2.2
    rw [Bool.eq_false_iff, ne_eq, within_iff, U.key_write]
    rintro ⟨-, hlt, -⟩
    omega

theorem updateAll_after {cursor : Int} (h0 : 0 ≤ cursor) (rows : List α) :
    Vici2.updateAll (U.after cursor U.matched) U.write
        (Vici2.updateAll (U.within 0 cursor) U.write rows) =
      Vici2.updateAll (U.after 0 U.matched) U.write rows := by
  apply updateAll_updateAll
  · intro r
    rw [Bool.eq_iff_iff, Bool.or_eq_true, within_iff, after_iff, after_iff]
    constructor
    · rintro ⟨hp, hlt⟩
      by_cases hin : cursor < U.key r
      · exact Or.inr ⟨hp, hin⟩
      · exact Or.inl ⟨hp, hlt, Int.not_lt.1 hin⟩
    · rintro (⟨hp, hlt, hle⟩ | ⟨hp, hlt⟩)
      · exact ⟨hp, hlt⟩
      · exact ⟨hp, by omega⟩
  · intro r hr
    have hle := (within_iff.1 hr).2.2
    rw [Bool.eq_false_iff, ne_eq, after_iff, U.key_write]
    rintro ⟨-, hlt⟩
    omega

/-- Without late rows each cursor is the end of its batch, and no row is passed by. -/
theorem loop_complete {rows : List α} (hsorted : U.Sorted rows) (hlate : ∀ x, ¬ U.Late rows x)
    {fuel : Nat} {cursor : Int} (hcursor : 0 ≤ cursor)
    (hfuel : rows.countP (U.after cursor U.matched) < fuel) :
    U.loop fuel cursor (rows.countP (U.within 0 cursor))
        (Vici2.updateAll (U.within 0 cursor) U.write rows) =
      some (rows.countP (U.after 0 U.matched),
        Vici2.updateAll (U.after 0 U.matched) U.write rows) := by
  induction fuel generalizing cursor with
  | zero => omega
  | succ fuel ih =>
    have hkeep := @countP_after_updateAll _ U (U.within 0 cursor) U.matched cursor
      (fun _ hr => (within_iff.1 hr).2.2) rows
    have hstart := countP_after_split U hcursor rows
    obtain ⟨-, he⟩ | ⟨b, -, y, hy, hlt, hcount, hle, hfound, -, he⟩ :=
      loop_step hcursor (hsorted.updateAll (U.within 0 cursor)) fuel (rows.countP (U.within 0 cursor))
    · rw [he, hkeep, updateAll_after hcursor, ← hstart]
    · have hwithin : rows.countP (U.within cursor (U.key b)) = U.size := by
        rw [← hcount]
        apply (countP_updateAll _ rows).symm
        intro r hr
        have hr' := (within_iff.1 hr).2.2
        rw [Bool.eq_false_iff, Bool.eq_false_iff, ne_eq, ne_eq, within_iff, within_iff, U.key_write]
        constructor
        · rintro ⟨-, hlt, -⟩
          omega
        · rintro ⟨-, hlt, -⟩
          omega
      have hsplit := countP_after_split U (Int.le_of_lt hlt) rows
      have hwhole := countP_after_split U (show 0 ≤ U.key b by omega) rows
      have hpos := U.size_pos
      rw [updateAll_within hcursor (Int.le_of_lt hlt)] at hy he
      -- a found row behind the batch would be late
      have hlast : U.key y = U.key b := by
        obtain ⟨r, -, hr, rfl⟩ | ⟨hmem, -⟩ := mem_updateAll hy
        · have hr' := (within_iff.1 hr).2.2
          rw [U.key_write] at hle ⊢
          omega
        · by_contra hne
          apply hlate y
          refine ⟨hmem, hfound, by omega, ?_⟩
          rw [← hwithin]
          apply List.countP_mono_left
          intro r _ hr
          obtain ⟨hp, hlt', hle'⟩ := within_iff.1 hr
          simp only [Bool.and_eq_true, after_iff, decide_eq_true_eq]
          exact ⟨⟨hp, by omega⟩, by omega⟩
      have hsum : rows.countP (U.within 0 cursor) + U.size = rows.countP (U.within 0 (U.key b)) := by
        omega
      rw [he, hlast, hsum]
      exact ih (by omega) (by omega)

theorem countP_lt_of_mem {p q : α → Bool} {rows : List α} {x : α} (hx : x ∈ rows)
    (hpx : p x = false) (hqx : q x = true) (h : ∀ r, p r = true → q r = true) :
    rows.countP p < rows.countP q := by
  have hsplit := countP_split q p rows
  have hle : rows.countP p ≤ rows.countP (fun r => q r && p r) :=
    List.countP_mono_left fun r _ hr => by simp [hr, h r hr]
  have hpos : 0 < rows.countP (fun r => q r && !p r) :=
    List.countP_pos_iff.2 ⟨x, hx, by simp [hpx, hqx]⟩
  omega

/-- Past a late row the cursor jumps ahead of rows that it has not counted. -/
theorem loop_short {rows : List α} (hsorted : U.Sorted rows) {x : α} (hx : U.Late rows x)
    (hmatched : U.matched x = true) {fuel n : Nat} {out : List α}
    (h : U.loop fuel 0 0 rows = some (n, out)) : n < rows.countP (U.after 0 U.matched) := by
  obtain ⟨hmem, hfound, hpos, hbefore⟩ := hx
  cases fuel with
  | zero => cases h
  | succ fuel =>
    have hbelow : rows.countP (fun r => U.after 0 U.matched r && decide (U.key r < U.key x)) ≤
        rows.countP (U.after 0 U.matched) :=
      List.countP_mono_left fun r _ hr => (Bool.and_eq_true_iff.1 hr).1
    obtain ⟨hlast, -⟩ | ⟨b, -, y, -, hlt, hcount, hle, -, hmax, he⟩ :=
      loop_step (Int.le_refl 0) hsorted fuel 0
    · omega
    · have hbx : U.key b < U.key x := by
        by_contra hno
        have hless : rows.countP (fun r => U.after 0 U.matched r && decide (U.key r < U.key x)) <
            rows.countP (U.within 0 (U.key b)) := by
          apply countP_lt_of_mem hmem (by simp) (within_iff.2 ⟨hmatched, hpos, by omega⟩)
          intro r hr
          simp only [Bool.and_eq_true, after_iff, decide_eq_true_eq] at hr
          exact within_iff.2 ⟨hr.1.1, hr.1.2, by omega⟩
        omega
      have hout : U.within 0 (U.key b) x = false := by
        rw [Bool.eq_false_iff, ne_eq, within_iff]
        rintro ⟨-, -, hle'⟩
        omega
      have hxy := hmax x (mem_updateAll_of_not hmem hout) hfound hpos
      rw [he] at h
      have hrest := loop_le (by omega) (hsorted.updateAll _) h
      have hsplit := countP_after_split U (Int.le_of_lt hlt) rows
      have hleft := countP_after_split U hle rows
      have hkeep := @countP_after_updateAll _ U (U.within 0 (U.key b)) U.matched (U.key y)
        (fun _ hr => Int.le_trans (within_iff.1 hr).2.2 hle) rows
      have hskipped : 0 < rows.countP (U.within (U.key b) (U.key y)) :=
        List.countP_pos_iff.2 ⟨x, hmem, within_iff.2 ⟨hmatched, hbx, hxy⟩⟩
      omega

theorem map_key_updateAll (p : α → Bool) (rows : List α) :
    (Vici2.updateAll p U.write rows).map U.key = rows.map U.key := by
  unfold Vici2.updateAll
  rw [List.map_map]
  apply List.map_congr_left
  intro r _
  exact key_ite p r

theorem loop_map_key {fuel : Nat} {cursor : Int} {rows : List α} (hcursor : 0 ≤ cursor)
    (hsorted : U.Sorted rows) {affected n : Nat} {out : List α}
    (h : U.loop fuel cursor affected rows = some (n, out)) :
    out.map U.key = rows.map U.key := by
  induction fuel generalizing cursor rows affected with
  | zero => cases h
  | succ fuel ih =>
    obtain ⟨-, he⟩ | ⟨b, -, y, -, hlt, -, hle, -, -, he⟩ := loop_step hcursor hsorted fuel affected
    · rw [he] at h
      obtain ⟨-, rfl⟩ := Prod.mk.inj (Option.some.inj h)
      exact map_key_updateAll _ rows
    · rw [he] at h
      rw [ih (by omega) (hsorted.updateAll _) h]
      exact map_key_updateAll _ rows

theorem loop_sorted {fuel : Nat} {rows : List α} (hsorted : U.Sorted rows) {out : Nat × List α}
    (h : U.loop fuel 0 0 rows = some out) : U.Sorted out.2 := by
  have hkeys := loop_map_key (Int.le_refl 0) hsorted h
  unfold Sorted at *
  rw [← List.pairwise_map] at hsorted ⊢
  rw [hkeys]
  exact hsorted

/-- The whole update; a table has enough rows for the loop to end. -/
def run (U : BatchUpdate α) (t : Keyed U.key) : Option (Nat × Keyed U.key) :=
  match h : U.loop (t.rows.length + 1) 0 0 t.rows with
  | none => none
  | some out => some (out.1, ⟨out.2, loop_sorted t.sorted h⟩)

theorem run_spec (t : Keyed U.key) :
    ∃ n t', U.run t = some (n, t') ∧
      U.loop (t.rows.length + 1) 0 0 t.rows = some (n, t'.rows) := by
  have hfuel : t.rows.countP (U.after 0 U.matched) < t.rows.length + 1 :=
    Nat.lt_succ_of_le List.countP_le_length
  obtain ⟨out, hout⟩ := loop_terminates (Int.le_refl 0) t.sorted 0 hfuel
  unfold run
  split
  · rename_i hnone
    rw [hout] at hnone
    cases hnone
  · rename_i out' hsome
    exact ⟨_, _, rfl, hsome⟩

theorem run_of_not_late {t : Keyed U.key} (hlate : ∀ x, ¬ U.Late t.rows x) :
    ∃ t', U.run t = some (t.rows.countP (U.after 0 U.matched), t') ∧
      t'.rows = Vici2.updateAll (U.after 0 U.matched) U.write t.rows := by
  have hnone : ∀ r ∈ t.rows, U.within 0 0 r = false := by
    intro r _
    rw [Bool.eq_false_iff, ne_eq, within_iff]
    rintro ⟨-, hlt, hle⟩
    omega
  have hfuel : t.rows.countP (U.after 0 U.matched) < t.rows.length + 1 :=
    Nat.lt_succ_of_le List.countP_le_length
  have hloop := loop_complete t.sorted hlate (Int.le_refl 0) hfuel
  rw [updateAll_of_false hnone, List.countP_eq_zero.2 fun r hr => by simp [hnone r hr]] at hloop
  obtain ⟨n, t', hrun, hspec⟩ := run_spec t
  rw [hloop] at hspec
  obtain ⟨rfl, hrows⟩ := Prod.mk.inj (Option.some.inj hspec)
  exact ⟨t', hrun, hrows.symm⟩

theorem run_complete {t : Keyed U.key} (hpos : ∀ r ∈ t.rows, U.matched r = true → 0 < U.key r)
    (hlate : ∀ x, ¬ U.Late t.rows x) :
    ∃ t', U.run t = some (t.rows.countP U.matched, t') ∧
      t'.rows = Vici2.updateAll U.matched U.write t.rows := by
  have hsame : ∀ r ∈ t.rows, U.after 0 U.matched r = U.matched r := by
    intro r hr
    rw [Bool.eq_iff_iff, after_iff]
    exact ⟨fun h => h.1, fun h => ⟨h, hpos r hr h⟩⟩
  obtain ⟨t', hrun, hrows⟩ := run_of_not_late hlate
  rw [updateAll_congr hsame] at hrows
  rw [List.countP_congr fun r hr => by rw [hsame r hr]] at hrun
  exact ⟨t', hrun, hrows⟩

/-- Where the query finds matched rows only, the update is complete on the tables whose
matched rows have positive keys and are not found late. -/
theorem run_complete_iff (hfound : ∀ r, U.found r = true → U.matched r = true) (t : Keyed U.key) :
    (∃ t', U.run t = some (t.rows.countP U.matched, t') ∧
        t'.rows = Vici2.updateAll U.matched U.write t.rows) ↔
      (∀ r ∈ t.rows, U.matched r = true → 0 < U.key r) ∧ ∀ x, ¬ U.Late t.rows x := by
  constructor
  · rintro ⟨t', hrun, -⟩
    obtain ⟨n, t'', hrun', hloop⟩ := run_spec t
    rw [hrun] at hrun'
    obtain ⟨rfl, -⟩ := Prod.mk.inj (Option.some.inj hrun')
    constructor
    · intro r hr hmatched
      by_contra hneg
      have hle := loop_le (Int.le_refl 0) t.sorted hloop
      have hless : t.rows.countP (U.after 0 U.matched) < t.rows.countP U.matched := by
        apply countP_lt_of_mem hr _ hmatched
        · intro x hx
          exact (after_iff.1 hx).1
        · rw [Bool.eq_false_iff, ne_eq, after_iff]
          rintro ⟨-, hlt⟩
          exact hneg hlt
      omega
    · intro x hx
      have hshort := loop_short t.sorted hx (hfound x hx.2.1) hloop
      have hall : t.rows.countP (U.after 0 U.matched) ≤ t.rows.countP U.matched :=
        List.countP_mono_left fun r _ hr => (after_iff.1 hr).1
      omega
  · rintro ⟨hpos, hlate⟩
    exact run_complete hpos hlate

end BatchUpdate

end Vici2
