import Mathlib.Data.List.Induction
import Vici2.FederalDelta

/-! What a delta file leaves in the table. The two batches are written at
different times, so the outcome for a phone depends on whether one of its adds
is written before one of its deletes. -/

namespace Vici2

namespace Dnc

def adds (ds : List DeltaLine) : List String :=
  (ds.filter fun d => decide (d.action = .add)).map DeltaLine.e164

def dels (ds : List DeltaLine) : List String :=
  (ds.filter fun d => decide (d.action = .del)).map DeltaLine.e164

/-- The number of lines of one action read by the time the batch of the `n`-th
of them is full. -/
def due (n : Nat) : Nat := (n / batchSize + 1) * batchSize

def full (k : Nat) : Nat := k / batchSize * batchSize

/-- The batch of the `n`-th add line is written before that of the `m`-th
delete line: whenever the latter is full, so is the former. -/
def WrittenBefore (ds : List DeltaLine) (n m : Nat) : Prop :=
  ∀ pre, pre <+: ds → due m ≤ (dels pre).length → due n ≤ (adds pre).length

/-- One of the phone's adds is written before one of its deletes. -/
def Overtaken (ds : List DeltaLine) (p : String) : Prop :=
  ∃ n m, (adds ds)[n]? = some p ∧ (dels ds)[m]? = some p ∧ WrittenBefore ds n m

def Spoiled (ds : List DeltaLine) (p : String) : Prop :=
  ∃ n m, (adds ds)[n]? = some p ∧ (dels ds)[m]? = some p ∧ due m ≤ (dels ds).length ∧
    WrittenBefore ds n m

theorem adds_add {ds : List DeltaLine} {d : DeltaLine} (h : d.action = .add) :
    adds (ds ++ [d]) = adds ds ++ [d.e164] := by
  simp [adds, h]

theorem adds_del {ds : List DeltaLine} {d : DeltaLine} (h : d.action = .del) :
    adds (ds ++ [d]) = adds ds := by
  simp [adds, h]

theorem dels_add {ds : List DeltaLine} {d : DeltaLine} (h : d.action = .add) :
    dels (ds ++ [d]) = dels ds := by
  simp [dels, h]

theorem dels_del {ds : List DeltaLine} {d : DeltaLine} (h : d.action = .del) :
    dels (ds ++ [d]) = dels ds ++ [d.e164] := by
  simp [dels, h]

theorem due_le_iff {n k : Nat} : due n ≤ k ↔ n < full k := by
  unfold due full batchSize
  omega

theorem lt_due (n : Nat) : n < due n := by
  unfold due batchSize
  omega

theorem full_le (k : Nat) : full k ≤ k := by
  unfold full batchSize
  omega

theorem dels_length_mono {pre ds : List DeltaLine} (h : pre <+: ds) :
    (dels pre).length ≤ (dels ds).length := by
  unfold dels
  rw [List.length_map, List.length_map]
  exact (h.sublist.filter _).length_le

theorem writtenBefore_concat {ds : List DeltaLine} {d : DeltaLine} {n m : Nat} :
    WrittenBefore (ds ++ [d]) n m ↔ WrittenBefore ds n m ∧
      (due m ≤ (dels (ds ++ [d])).length → due n ≤ (adds (ds ++ [d])).length) := by
  constructor
  · intro h
    exact ⟨fun pre hpre => h pre (hpre.trans (List.prefix_append ds [d])),
      h (ds ++ [d]) (List.prefix_refl _)⟩
  · rintro ⟨h, hlast⟩ pre hpre
    rcases List.prefix_concat_iff.1 hpre with hpre | hpre
    · rw [hpre]
      exact hlast
    · exact h pre hpre

theorem writtenBefore_of_unfilled {ds : List DeltaLine} {n m : Nat}
    (h : (dels ds).length < due m) : WrittenBefore ds n m := by
  intro pre hpre hdue
  have hle := dels_length_mono hpre
  omega

theorem WrittenBefore.due_le {ds : List DeltaLine} {n m : Nat} (h : WrittenBefore ds n m)
    (hm : due m ≤ (dels ds).length) : due n ≤ (adds ds).length :=
  h ds (List.prefix_refl ds) hm

theorem spoiled_add {ds : List DeltaLine} {d : DeltaLine} (hd : d.action = .add) (p : String) :
    Spoiled (ds ++ [d]) p ↔ Spoiled ds p := by
  unfold Spoiled
  simp only [writtenBefore_concat, adds_add hd, dels_add hd]
  constructor
  · rintro ⟨n, m, hn, hm, hdue, hw, -⟩
    have hlt := hw.due_le hdue
    have hn' := lt_due n
    rw [List.getElem?_append_left (by omega)] at hn
    exact ⟨n, m, hn, hm, hdue, hw⟩
  · rintro ⟨n, m, hn, hm, hdue, hw⟩
    have hlt := hw.due_le hdue
    have hn' := lt_due n
    refine ⟨n, m, ?_, hm, hdue, hw, ?_⟩
    · rw [List.getElem?_append_left (by omega)]
      exact hn
    · intro _
      rw [List.length_append]
      omega

theorem spoiled_del_unfilled {ds : List DeltaLine} {d : DeltaLine} (hd : d.action = .del)
    (hk : full ((dels ds).length + 1) = full (dels ds).length) (p : String) :
    Spoiled (ds ++ [d]) p ↔ Spoiled ds p := by
  have hsame : ∀ m, due m ≤ (dels ds).length + 1 ↔ due m ≤ (dels ds).length := by
    intro m
    rw [due_le_iff, due_le_iff, hk]
  unfold Spoiled
  simp only [writtenBefore_concat, adds_del hd, dels_del hd, List.length_append, List.length_singleton,
    hsame]
  constructor
  · rintro ⟨n, m, hn, hm, hdue, hw, -⟩
    have hm' := lt_due m
    rw [List.getElem?_append_left (by omega)] at hm
    exact ⟨n, m, hn, hm, hdue, hw⟩
  · rintro ⟨n, m, hn, hm, hdue, hw⟩
    have hm' := lt_due m
    refine ⟨n, m, hn, ?_, hdue, hw, fun _ => hw.due_le hdue⟩
    rw [List.getElem?_append_left (by omega)]
    exact hm

theorem mem_take_iff {l : List String} {p : String} {k : Nat} :
    p ∈ l.take k ↔ ∃ n, n < k ∧ l[n]? = some p := by
  rw [List.mem_iff_getElem?]
  constructor
  · rintro ⟨n, hn⟩
    rw [List.getElem?_take] at hn
    by_cases hlt : n < k
    · rw [if_pos hlt] at hn
      exact ⟨n, hlt, hn⟩
    · rw [if_neg hlt] at hn
      simp at hn
  · rintro ⟨n, hlt, hn⟩
    exact ⟨n, by rw [List.getElem?_take, if_pos hlt, hn]⟩

theorem mem_drop_iff {l : List String} {p : String} {k : Nat} :
    p ∈ l.drop k ↔ ∃ n, k ≤ n ∧ l[n]? = some p := by
  rw [List.mem_iff_getElem?]
  constructor
  · rintro ⟨n, hn⟩
    rw [List.getElem?_drop] at hn
    exact ⟨k + n, by omega, hn⟩
  · rintro ⟨n, hle, hn⟩
    refine ⟨n - k, ?_⟩
    rw [List.getElem?_drop, Nat.add_sub_cancel' hle]
    exact hn

theorem spoiled_del_filled {ds : List DeltaLine} {d : DeltaLine} (hd : d.action = .del)
    (hk : full ((dels ds).length + 1) = (dels ds).length + 1) (p : String) :
    Spoiled (ds ++ [d]) p ↔ Spoiled ds p ∨
      (p ∈ (dels ds ++ [d.e164]).drop (full (dels ds).length) ∧
        p ∈ (adds ds).take (full (adds ds).length)) := by
  have hdue : ∀ m, due m ≤ (dels ds).length + 1 ↔ m < (dels ds).length + 1 := by
    intro m
    rw [due_le_iff, hk]
  unfold Spoiled
  simp only [writtenBefore_concat, adds_del hd, dels_del hd, List.length_append, List.length_singleton,
    hdue]
  constructor
  · rintro ⟨n, m, hn, hm, hlt, hw, hlast⟩
    have hfull := due_le_iff.1 (hlast hlt)
    by_cases hold : due m ≤ (dels ds).length
    · have hm' := lt_due m
      rw [List.getElem?_append_left (by omega)] at hm
      exact Or.inl ⟨n, m, hn, hm, hold, hw⟩
    · have hle : full (dels ds).length ≤ m := by
        by_contra hc
        exact hold (due_le_iff.2 (by omega))
      exact Or.inr ⟨mem_drop_iff.2 ⟨m, hle, hm⟩, mem_take_iff.2 ⟨n, hfull, hn⟩⟩
  · rintro (⟨n, m, hn, hm, hold, hw⟩ | ⟨hp, ha⟩)
    · have hm' := lt_due m
      refine ⟨n, m, hn, ?_, by omega, hw, fun _ => hw.due_le hold⟩
      rw [List.getElem?_append_left (by omega)]
      exact hm
    · obtain ⟨m, hle, hm⟩ := mem_drop_iff.1 hp
      obtain ⟨n, hlt, hn⟩ := mem_take_iff.1 ha
      have hm' : m < (dels ds).length + 1 := by
        have := (List.getElem?_eq_some_iff.1 hm).1
        simpa using this
      have hnew : (dels ds).length < due m := by
        by_contra hc
        have := due_le_iff.1 (Nat.le_of_not_lt hc)
        omega
      exact ⟨n, m, hn, hm, hm', writtenBefore_of_unfilled hnew, fun _ => due_le_iff.2 hlt⟩

/-- What the loop has done after the lines `ds`, for one phone that was known
or listed before. -/
structure Progress (db : MySQL) (now : Int) (p : String) (s : DncStore) (ds : List DeltaLine)
    (st : SyncState) : Prop where
  addBatch : st.addBatch = (adds ds).drop (full (adds ds).length)
  delBatch : st.delBatch = (dels ds).drop (full (dels ds).length)
  known : Known db p st.store ↔ Known db p s ∨ p ∈ (adds ds).take (full (adds ds).length)
  listed : Listed now p st.store ↔
    (Listed now p s ∧ p ∉ (dels ds).take (full (dels ds).length)) ∨
      (¬ Known db p s ∧ p ∈ (adds ds).take (full (adds ds).length) ∧ ¬ Spoiled ds p)

theorem Spoiled.added {ds : List DeltaLine} {p : String} (h : Spoiled ds p) :
    p ∈ (adds ds).take (full (adds ds).length) := by
  obtain ⟨n, m, hn, -, hdue, hw⟩ := h
  exact mem_take_iff.2 ⟨n, due_le_iff.1 (hw.due_le hdue), hn⟩

theorem full_succ_cases (k : Nat) :
    (full (k + 1) = full k ∧ k - full k + 1 < batchSize) ∨
      (full (k + 1) = k + 1 ∧ batchSize ≤ k - full k + 1) := by
  unfold full batchSize
  omega

theorem known_congr {db : MySQL} {s s' : DncStore} {p : String} (h : s'.table = s.table) :
    Known db p s' ↔ Known db p s := by
  unfold Known
  rw [h]

theorem listed_congr {now : Int} {s s' : DncStore} {p : String} (h : s'.table = s.table) :
    Listed now p s' ↔ Listed now p s := by
  unfold Listed
  rw [h]

theorem syncParsed_add (db : MySQL) (st : SyncState) {d : DeltaLine} (hd : d.action = .add) :
    (syncParsed db st d).delBatch = st.delBatch ∧
      ((st.addBatch.length + 1 < batchSize ∧
          (syncParsed db st d).addBatch = st.addBatch ++ [d.e164] ∧
          (syncParsed db st d).store.table = st.store.table) ∨
        (batchSize ≤ st.addBatch.length + 1 ∧ (syncParsed db st d).addBatch = [] ∧
          (syncParsed db st d).store.table =
            (processAdd db st.store (st.addBatch ++ [d.e164])).table)) := by
  have hlen : (st.addBatch ++ [d.e164]).length = st.addBatch.length + 1 := by simp
  unfold syncParsed
  simp only [hd, hlen]
  by_cases hfill : batchSize ≤ st.addBatch.length + 1
  · rw [if_pos hfill]
    refine ⟨?_, Or.inr ⟨hfill, ?_, ?_⟩⟩
    · split <;> rfl
    · split <;> rfl
    · split
      · rw [flushBloom_table]
        rfl
      · rfl
  · rw [if_neg hfill]
    refine ⟨?_, Or.inl ⟨by omega, ?_, ?_⟩⟩
    · split <;> rfl
    · split <;> rfl
    · split
      · rw [flushBloom_table]
      · rfl

theorem syncParsed_del (db : MySQL) (st : SyncState) {d : DeltaLine} (hd : d.action = .del) :
    (syncParsed db st d).addBatch = st.addBatch ∧
      ((st.delBatch.length + 1 < batchSize ∧
          (syncParsed db st d).delBatch = st.delBatch ++ [d.e164] ∧
          (syncParsed db st d).store = st.store) ∨
        (batchSize ≤ st.delBatch.length + 1 ∧ (syncParsed db st d).delBatch = [] ∧
          (syncParsed db st d).store = processDel db st.store (st.delBatch ++ [d.e164]))) := by
  have hlen : (st.delBatch ++ [d.e164]).length = st.delBatch.length + 1 := by simp
  unfold syncParsed
  simp only [hd, hlen]
  by_cases hfill : batchSize ≤ st.delBatch.length + 1
  · rw [if_pos hfill]
    exact ⟨rfl, Or.inr ⟨hfill, rfl, rfl⟩⟩
  · rw [if_neg hfill]
    exact ⟨rfl, Or.inl ⟨by omega, rfl, rfl⟩⟩

section Batch

variable {l : List String} {e : String}

theorem take_unfilled (h : full (l.length + 1) = full l.length) :
    (l ++ [e]).take (full (l ++ [e]).length) = l.take (full l.length) := by
  have hle := full_le l.length
  rw [List.length_append, List.length_singleton, h, List.take_append_of_le_length hle]

theorem drop_unfilled (h : full (l.length + 1) = full l.length) :
    (l ++ [e]).drop (full (l ++ [e]).length) = l.drop (full l.length) ++ [e] := by
  have hle := full_le l.length
  rw [List.length_append, List.length_singleton, h, List.drop_append_of_le_length hle]

theorem take_filled (h : full (l.length + 1) = l.length + 1) :
    (l ++ [e]).take (full (l ++ [e]).length) = l ++ [e] := by
  rw [List.length_append, List.length_singleton, h]
  exact List.take_of_length_le (by simp)

theorem drop_filled (h : full (l.length + 1) = l.length + 1) :
    (l ++ [e]).drop (full (l ++ [e]).length) = [] := by
  rw [List.length_append, List.length_singleton, h]
  exact List.drop_of_length_le (by simp)

theorem mem_take_or_drop {p : String} {k : Nat} : p ∈ l ↔ p ∈ l.take k ∨ p ∈ l.drop k := by
  rw [← List.mem_append, List.take_append_drop]

end Batch

theorem Progress.add {db : MySQL} {now : Int} {p : String} {s : DncStore} {ds : List DeltaLine}
    {st : SyncState} (h : Progress db now p s ds st) {d : DeltaLine} (hd : d.action = .add) :
    Progress db now p s (ds ++ [d]) (syncParsed db st d) := by
  have hlen : st.addBatch.length = (adds ds).length - full (adds ds).length := by
    rw [h.addBatch, List.length_drop]
  obtain ⟨hdel, hcases⟩ := syncParsed_add db st hd
  have hdel' : (syncParsed db st d).delBatch =
      (dels (ds ++ [d])).drop (full (dels (ds ++ [d])).length) := by
    rw [hdel, h.delBatch, dels_add hd]
  rcases full_succ_cases (adds ds).length with ⟨hk, hlt⟩ | ⟨hk, hle⟩
  · obtain ⟨-, hbatch, htable⟩ | ⟨hle, -, -⟩ := hcases
    · refine ⟨?_, hdel', ?_, ?_⟩
      · rw [hbatch, h.addBatch, adds_add hd, drop_unfilled hk]
      · rw [known_congr htable, h.known, adds_add hd, take_unfilled hk]
      · rw [listed_congr htable, h.listed, spoiled_add hd, dels_add hd, adds_add hd,
          take_unfilled hk]
    · omega
  · obtain ⟨hlt, -, -⟩ | ⟨-, hbatch, htable⟩ := hcases
    · omega
    · have hbatch' : st.addBatch ++ [d.e164] =
          (adds ds ++ [d.e164]).drop (full (adds ds).length) := by
        rw [h.addBatch, List.drop_append_of_le_length (full_le _)]
      have hmem : ∀ q, q ∈ adds ds ++ [d.e164] ↔
          q ∈ (adds ds).take (full (adds ds).length) ∨ q ∈ st.addBatch ++ [d.e164] := by
        intro q
        have hsplit : q ∈ adds ds ++ [d.e164] ↔ _ ∨ _ :=
          mem_take_or_drop (k := full (adds ds).length)
        rwa [List.take_append_of_le_length (full_le _), ← hbatch'] at hsplit
      refine ⟨?_, hdel', ?_, ?_⟩
      · rw [hbatch, adds_add hd, drop_filled hk]
      · rw [known_congr htable, known_processAdd, h.known, adds_add hd, take_filled hk, hmem,
          or_assoc]
      · rw [listed_congr htable, listed_processAdd, h.listed, h.known, spoiled_add hd, dels_add hd,
          adds_add hd, take_filled hk, hmem]
        have hsp : Spoiled ds p → p ∈ (adds ds).take (full (adds ds).length) := Spoiled.added
        clear hk hle hlen
        grind

theorem Progress.del {db : MySQL} {now : Int} (hclock : ∀ k, db.clock k ≤ now) {p : String}
    {s : DncStore} {ds : List DeltaLine} {st : SyncState} (h : Progress db now p s ds st)
    {d : DeltaLine} (hd : d.action = .del) :
    Progress db now p s (ds ++ [d]) (syncParsed db st d) := by
  have hlen : st.delBatch.length = (dels ds).length - full (dels ds).length := by
    rw [h.delBatch, List.length_drop]
  obtain ⟨hadd, hcases⟩ := syncParsed_del db st hd
  have hadd' : (syncParsed db st d).addBatch =
      (adds (ds ++ [d])).drop (full (adds (ds ++ [d])).length) := by
    rw [hadd, h.addBatch, adds_del hd]
  rcases full_succ_cases (dels ds).length with ⟨hk, hlt⟩ | ⟨hk, hle⟩
  · obtain ⟨-, hbatch, hstore⟩ | ⟨hle, -, -⟩ := hcases
    · refine ⟨hadd', ?_, ?_, ?_⟩
      · rw [hbatch, h.delBatch, dels_del hd, drop_unfilled hk]
      · rw [hstore, h.known, adds_del hd]
      · rw [hstore, h.listed, spoiled_del_unfilled hd hk, adds_del hd, dels_del hd,
          take_unfilled hk]
    · omega
  · obtain ⟨hlt, -, -⟩ | ⟨-, hbatch, hstore⟩ := hcases
    · omega
    · have hbatch' : st.delBatch ++ [d.e164] =
          (dels ds ++ [d.e164]).drop (full (dels ds).length) := by
        rw [h.delBatch, List.drop_append_of_le_length (full_le _)]
      have hmem : p ∈ dels ds ++ [d.e164] ↔
          p ∈ (dels ds).take (full (dels ds).length) ∨ p ∈ st.delBatch ++ [d.e164] := by
        have hsplit : p ∈ dels ds ++ [d.e164] ↔ _ ∨ _ :=
          mem_take_or_drop (k := full (dels ds).length)
        rwa [List.take_append_of_le_length (full_le _), ← hbatch'] at hsplit
      refine ⟨hadd', ?_, ?_, ?_⟩
      · rw [hbatch, dels_del hd, drop_filled hk]
      · rw [hstore, known_processDel, h.known, adds_del hd]
      · rw [hstore, listed_processDel hclock, h.listed, spoiled_del_filled hd hk, adds_del hd,
          dels_del hd, take_filled hk, hmem, ← hbatch']
        clear hk hle hlen
        grind

theorem progress_foldl {db : MySQL} {now : Int} (hclock : ∀ k, db.clock k ≤ now) (p : String)
    (s : DncStore) (ds : List DeltaLine) :
    Progress db now p s ds (ds.foldl (syncParsed db) ⟨s, [], [], [], 0, 0⟩) := by
  induction ds using List.reverseRecOn with
  | nil =>
    refine ⟨rfl, rfl, ?_, ?_⟩
    · simp [adds]
    · simp [adds, dels]
  | append_singleton ds d ih =>
    rw [List.foldl_concat]
    cases hd : d.action with
    | add => exact ih.add hd
    | del => exact ih.del hclock hd

theorem overtaken_of_delBatch {ds : List DeltaLine} {p : String} (ha : p ∈ adds ds)
    (hd : p ∈ (dels ds).drop (full (dels ds).length)) : Overtaken ds p := by
  obtain ⟨m, hle, hm⟩ := mem_drop_iff.1 hd
  obtain ⟨n, hn⟩ := List.mem_iff_getElem?.1 ha
  have hunfilled : (dels ds).length < due m := by
    by_contra hc
    have := due_le_iff.1 (Nat.le_of_not_lt hc)
    omega
  exact ⟨n, m, hn, hm, writtenBefore_of_unfilled hunfilled⟩

theorem overtaken_iff_spoiled {ds : List DeltaLine} {p : String}
    (hd : p ∉ (dels ds).drop (full (dels ds).length)) : Overtaken ds p ↔ Spoiled ds p := by
  constructor
  · rintro ⟨n, m, hn, hm, hw⟩
    have hdue : due m ≤ (dels ds).length := by
      by_contra hc
      have hle : full (dels ds).length ≤ m := by
        by_contra hlt
        exact hc (due_le_iff.2 (by omega))
      exact hd (mem_drop_iff.2 ⟨m, hle, hm⟩)
    exact ⟨n, m, hn, hm, hdue, hw⟩
  · rintro ⟨n, m, hn, hm, -, hw⟩
    exact ⟨n, m, hn, hm, hw⟩

/-- A phone is listed at the end if it was before and no line deletes it, or if
it was unknown, some line adds it and none of its adds is written before one of
its deletes. -/
theorem listed_runFederalDeltaSync {db : MySQL} {now : Int} (hclock : ∀ k, db.clock k ≤ now)
    (file : List String) (s : DncStore) (p : String) :
    Listed now p (runFederalDeltaSync db file s).store ↔
      (Listed now p s ∧ p ∉ dels (deltaLines file)) ∨
        (¬ Known db p s ∧ p ∈ adds (deltaLines file) ∧ ¬ Overtaken (deltaLines file) p) := by
  have hprog := progress_foldl hclock p s (deltaLines file)
  rw [← foldl_syncLine] at hprog
  have hadds : p ∈ adds (deltaLines file) ↔ _ ∨ _ :=
    mem_take_or_drop (k := full (adds (deltaLines file)).length)
  have hdels : p ∈ dels (deltaLines file) ↔ _ ∨ _ :=
    mem_take_or_drop (k := full (dels (deltaLines file)).length)
  unfold runFederalDeltaSync
  rw [listed_congr (flushBloom_table _)]
  unfold flushDel flushAdd
  dsimp only
  rw [listed_processDel hclock, listed_processAdd, hprog.listed, hprog.known, hprog.addBatch,
    hprog.delBatch]
  by_cases hd : p ∈ (dels (deltaLines file)).drop (full (dels (deltaLines file)).length)
  · have hover : p ∈ adds (deltaLines file) → Overtaken (deltaLines file) p :=
      fun ha => overtaken_of_delBatch ha hd
    grind
  · rw [overtaken_iff_spoiled hd]
    have hsp : Spoiled (deltaLines file) p → _ := Spoiled.added
    grind

def rowsOf (p : String) (s : DncStore) : List DncRow :=
  s.table.filter fun r => decide (r.phoneE164 = p)

theorem rowsOf_processAdd {db : MySQL} {s : DncStore} {phones : List String} {p : String}
    (h : p ∉ phones) : rowsOf p (processAdd db s phones) = rowsOf p s := by
  have hins : ∀ (phones : List String) (table : List DncRow), p ∉ phones →
      (insertIgnore db.coll table (phones.map federalRow)).filter (fun r => decide (r.phoneE164 = p)) =
        table.filter fun r => decide (r.phoneE164 = p) := by
    intro phones
    induction phones with
    | nil => exact fun table _ => rfl
    | cons q phones ih =>
      intro table hq
      simp only [List.mem_cons, not_or] at hq
      have hone : (insertIgnoreOne db.coll table (federalRow q)).filter
          (fun r => decide (r.phoneE164 = p)) = table.filter fun r => decide (r.phoneE164 = p) := by
        unfold insertIgnoreOne
        split
        · rfl
        · have hqp : ¬ q = p := fun he => hq.1 he.symm
          simp [federalRow, hqp]
      exact (ih _ hq.2).trans hone
  unfold processAdd rowsOf
  split
  · rfl
  · exact hins phones s.table h

theorem rowsOf_processDel {db : MySQL} {s : DncStore} {phones : List String} {p : String}
    (h : p ∉ phones) : rowsOf p (processDel db s phones) = rowsOf p s := by
  have hphone : ∀ r, (expireRow (db.clock s.statements) phones r).phoneE164 = r.phoneE164 := by
    intro r
    unfold expireRow
    split <;> rfl
  have hsame : ∀ r, r.phoneE164 = p → expireRow (db.clock s.statements) phones r = r := by
    intro r hr
    unfold expireRow
    rw [if_neg]
    rintro ⟨-, hm⟩
    exact h (hr ▸ hm)
  unfold processDel rowsOf
  split
  · rfl
  · rw [List.filter_map]
    simp only [Function.comp_def, hphone]
    rw [List.map_congr_left (g := id), List.map_id]
    intro r hr
    exact hsame r (by simpa using (List.mem_filter.1 hr).2)

structure Untouched (p : String) (s : DncStore) (st : SyncState) : Prop where
  rows : rowsOf p st.store = rowsOf p s
  addBatch : p ∉ st.addBatch
  delBatch : p ∉ st.delBatch

theorem rowsOf_congr {p : String} {s s' : DncStore} (h : s'.table = s.table) :
    rowsOf p s' = rowsOf p s := by
  unfold rowsOf
  rw [h]

theorem Untouched.step {db : MySQL} {p : String} {s : DncStore} {st : SyncState} {d : DeltaLine}
    (h : Untouched p s st) (hp : p ≠ d.e164) : Untouched p s (syncParsed db st d) := by
  cases hd : d.action with
  | add =>
    have hbatch : p ∉ st.addBatch ++ [d.e164] := by simp [h.addBatch, hp]
    obtain ⟨hdel, ⟨-, hadd, htable⟩ | ⟨-, hadd, htable⟩⟩ := syncParsed_add db st hd
    · refine ⟨?_, by rw [hadd]; exact hbatch, by rw [hdel]; exact h.delBatch⟩
      rw [rowsOf_congr htable, h.rows]
    · refine ⟨?_, by simp [hadd], by rw [hdel]; exact h.delBatch⟩
      rw [rowsOf_congr htable, rowsOf_processAdd hbatch, h.rows]
  | del =>
    have hbatch : p ∉ st.delBatch ++ [d.e164] := by simp [h.delBatch, hp]
    obtain ⟨hadd, ⟨-, hdel, hstore⟩ | ⟨-, hdel, hstore⟩⟩ := syncParsed_del db st hd
    · refine ⟨?_, by rw [hadd]; exact h.addBatch, by rw [hdel]; exact hbatch⟩
      rw [hstore, h.rows]
    · refine ⟨?_, by rw [hadd]; exact h.addBatch, by simp [hdel]⟩
      rw [hstore, rowsOf_processDel hbatch, h.rows]

theorem rowsOf_runFederalDeltaSync {db : MySQL} {file : List String} {s : DncStore} {p : String}
    (hp : ∀ d ∈ deltaLines file, d.e164 ≠ p) :
    rowsOf p (runFederalDeltaSync db file s).store = rowsOf p s := by
  have hloop : ∀ (ds : List DeltaLine) (st : SyncState), (∀ d ∈ ds, d.e164 ≠ p) →
      Untouched p s st → Untouched p s (ds.foldl (syncParsed db) st) := by
    intro ds
    induction ds with
    | nil => exact fun st _ h => h
    | cons d ds ih =>
      intro st hds h
      have hd : p ≠ d.e164 := fun he => hds d List.mem_cons_self he.symm
      exact ih _ (fun x hx => hds x (List.mem_cons_of_mem _ hx)) (h.step hd)
  have hend := hloop (deltaLines file) ⟨s, [], [], [], 0, 0⟩ hp ⟨rfl, by simp, by simp⟩
  rw [← foldl_syncLine] at hend
  unfold runFederalDeltaSync
  rw [rowsOf_congr (flushBloom_table _)]
  unfold flushDel flushAdd
  dsimp only
  rw [rowsOf_processDel hend.delBatch, rowsOf_processAdd hend.addBatch, hend.rows]

def lastAction (file : List String) (p : String) : Option Action :=
  (((deltaLines file).filter fun d => decide (d.e164 = p)).getLast?).map DeltaLine.action

theorem lastAction_mem {file : List String} {p : String} {a : Action}
    (h : lastAction file p = some a) : ∃ d ∈ deltaLines file, d.e164 = p ∧ d.action = a := by
  unfold lastAction at h
  obtain ⟨d, hd, ha⟩ := Option.map_eq_some_iff.1 h
  obtain ⟨hm, hp⟩ := List.mem_filter.1 (List.mem_of_getLast? hd)
  exact ⟨d, hm, by simpa using hp, ha⟩

theorem lastAction_none {file : List String} {p : String} (h : lastAction file p = none) :
    ∀ d ∈ deltaLines file, d.e164 ≠ p := by
  intro d hd hp
  unfold lastAction at h
  rw [Option.map_eq_none_iff, List.getLast?_eq_none_iff] at h
  have hm : d ∈ (deltaLines file).filter fun d => decide (d.e164 = p) :=
    List.mem_filter.2 ⟨hd, by simpa using hp⟩
  rw [h] at hm
  simp at hm

/-- Each phone the file names is listed exactly if its last line adds it, and
the rows of the others stay. -/
def DeltaApplied (db : MySQL) (now : Int) (file : List String) (s : DncStore) : Prop :=
  (∀ p a, lastAction file p = some a →
    (Listed now p (runFederalDeltaSync db file s).store ↔ a = .add)) ∧
  ∀ p, lastAction file p = none → rowsOf p (runFederalDeltaSync db file s).store = rowsOf p s

/-- When the file and the table leave a phone with last action `a` as they should. -/
def Settles (db : MySQL) (now : Int) (file : List String) (s : DncStore) (p : String) :
    Action → Prop
  | .add => (Listed now p s ∧ p ∉ dels (deltaLines file)) ∨
      (¬ Known db p s ∧ ¬ Overtaken (deltaLines file) p)
  | .del => Known db p s ∨ p ∉ adds (deltaLines file) ∨ Overtaken (deltaLines file) p

theorem federal_delta_applied_iff (db : MySQL) (now : Int) (hclock : ∀ k, db.clock k ≤ now)
    (file : List String) (s : DncStore) :
    DeltaApplied db now file s ↔
      ∀ p a, lastAction file p = some a → Settles db now file s p a := by
  have hphone : ∀ p a, lastAction file p = some a →
      ((Listed now p (runFederalDeltaSync db file s).store ↔ a = .add) ↔
        Settles db now file s p a) := by
    intro p a ha
    obtain ⟨d, hd, hp, hda⟩ := lastAction_mem ha
    rw [listed_runFederalDeltaSync hclock]
    cases a with
    | add =>
      have hadd : p ∈ adds (deltaLines file) :=
        List.mem_map.2 ⟨d, List.mem_filter.2 ⟨hd, by simp [hda]⟩, hp⟩
      simp [Settles, hadd]
    | del =>
      have hdel : p ∈ dels (deltaLines file) :=
        List.mem_map.2 ⟨d, List.mem_filter.2 ⟨hd, by simp [hda]⟩, hp⟩
      simp only [Settles, hdel, not_true_eq_false, and_false, false_or, reduceCtorEq, iff_false]
      tauto
  constructor
  · intro h p a ha
    exact (hphone p a ha).1 (h.1 p a ha)
  · intro h
    refine ⟨fun p a ha => (hphone p a ha).2 (h p a ha), ?_⟩
    intro p hp
    exact rowsOf_runFederalDeltaSync (lastAction_none hp)

theorem new_phone_added :
    DeltaApplied ⟨id, fun _ => 10⟩ 20 ["4155551212 2026-05-01 A"] DncStore.empty := by
  have hclock : ∀ k, (MySQL.mk id fun _ => 10).clock k ≤ 20 := by
    intro k
    show (10 : Int) ≤ 20
    omega
  apply (federal_delta_applied_iff _ _ hclock _ _).2
  intro p a ha
  obtain ⟨d, hd, hp, hda⟩ := lastAction_mem ha
  have hlines : deltaLines ["4155551212 2026-05-01 A"] = [⟨"4155551212", "2026-05-01", .add⟩] := by
    decide
  rw [hlines, List.mem_singleton] at hd
  subst hd
  subst hda
  refine Or.inr ⟨by simp [Known, DncStore.empty], ?_⟩
  rintro ⟨n, m, -, hm, -⟩
  rw [hlines] at hm
  simp [dels] at hm

theorem relisted_phone_stays_expired :
    ¬ DeltaApplied ⟨id, fun _ => 10⟩ 20 ["4155551212 2026-05-01 A"]
      ⟨[⟨0, "+14155551212", .federal, "__", "__GLOBAL__", some 5⟩], [], 0⟩ := by
  intro h
  have hadd : lastAction ["4155551212 2026-05-01 A"] "+14155551212" = some .add := by decide
  have hlisted := (h.1 _ _ hadd).2 rfl
  revert hlisted
  decide

end Dnc

end Vici2
