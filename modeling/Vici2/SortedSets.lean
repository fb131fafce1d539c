import Mathlib.Data.List.Sort

/-! Sorted sets of a key-value store: members with scores, kept in rank order,
no member twice. Members of equal score are ranked by their text. -/

namespace Vici2

structure ZSet (α σ : Type*) where
  entries : List (α × σ)
  nodup : (entries.map Prod.fst).Nodup

namespace ZSet

variable {α σ : Type*}

instance : Membership α (ZSet α σ) := ⟨fun z m => m ∈ z.entries.map Prod.fst⟩

instance [DecidableEq α] (z : ZSet α σ) (m : α) : Decidable (m ∈ z) :=
  inferInstanceAs (Decidable (m ∈ z.entries.map Prod.fst))

instance : EmptyCollection (ZSet α σ) := ⟨⟨[], List.nodup_nil⟩⟩

instance [DecidableEq α] [DecidableEq σ] : DecidableEq (ZSet α σ) := fun y z =>
  decidable_of_iff (y.entries = z.entries) (by cases y; cases z; simp)

theorem mem_iff {z : ZSet α σ} {m : α} : m ∈ z ↔ m ∈ z.entries.map Prod.fst := Iff.rfl

@[simp] theorem not_mem_empty (m : α) : m ∉ (∅ : ZSet α σ) := List.not_mem_nil

def Before [ToString α] [LT σ] (x y : α × σ) : Prop :=
  x.2 < y.2 ∨ x.2 = y.2 ∧ toString x.1 ≤ toString y.1

instance [ToString α] [LinearOrder σ] : DecidableRel (Before : α × σ → α × σ → Prop) :=
  fun _ _ => inferInstanceAs (Decidable (_ ∨ _ ∧ _))

def zrem [DecidableEq α] (z : ZSet α σ) (m : α) : ZSet α σ where
  entries := z.entries.filter (fun e => e.1 ≠ m)
  nodup := z.nodup.sublist (List.filter_sublist.map _)

@[simp] theorem mem_zrem [DecidableEq α] {z : ZSet α σ} {m x : α} :
    x ∈ z.zrem m ↔ x ∈ z ∧ x ≠ m := by
  simp only [mem_iff, zrem, List.mem_map, List.mem_filter, decide_eq_true_eq]
  constructor
  · rintro ⟨e, ⟨he, hm⟩, rfl⟩
    exact ⟨⟨e, he, rfl⟩, hm⟩
  · rintro ⟨⟨e, he, rfl⟩, hm⟩
    exact ⟨e, ⟨he, hm⟩, rfl⟩

section Insert

variable [ToString α] [LinearOrder σ]

theorem map_fst_orderedInsert_perm (e : α × σ) (l : List (α × σ)) :
    ((l.orderedInsert Before e).map Prod.fst).Perm (e.1 :: l.map Prod.fst) := by
  simpa using (List.perm_orderedInsert Before e l).map Prod.fst

variable [DecidableEq α]

def zadd (z : ZSet α σ) (m : α) (score : σ) : ZSet α σ where
  entries := (z.zrem m).entries.orderedInsert Before (m, score)
  nodup := by
    rw [(map_fst_orderedInsert_perm (m, score) _).nodup_iff, List.nodup_cons]
    exact ⟨fun h => (mem_zrem.mp (mem_iff.mpr h)).2 rfl, (z.zrem m).nodup⟩

@[simp] theorem mem_zadd {z : ZSet α σ} {m x : α} {score : σ} :
    x ∈ z.zadd m score ↔ x = m ∨ x ∈ z := by
  have hp : x ∈ z.zadd m score ↔ x ∈ m :: (z.zrem m).entries.map Prod.fst :=
    (map_fst_orderedInsert_perm (m, score) _).mem_iff
  rw [hp, List.mem_cons, ← mem_iff, mem_zrem]
  by_cases hx : x = m <;> simp [hx]

end Insert

def zfirst (z : ZSet α σ) : Option α := z.entries.head?.map Prod.fst

def zpopmin (z : ZSet α σ) : Option ((α × σ) × ZSet α σ) :=
  match h : z.entries with
  | [] => none
  | e :: l => some (e, ⟨l, by
      have hn := z.nodup
      rw [h, List.map_cons, List.nodup_cons] at hn
      exact hn.2⟩)

theorem zpopmin_some {z z' : ZSet α σ} {e : α × σ} (h : z.zpopmin = some (e, z')) :
    z.entries = e :: z'.entries := by
  unfold zpopmin at h
  split at h
  · simp at h
  · rename_i e' l hz
    simp only [Option.some.injEq, Prod.mk.injEq] at h
    obtain ⟨rfl, rfl⟩ := h
    exact hz

theorem zfirst_eq_zpopmin (z : ZSet α σ) : z.zfirst = z.zpopmin.map (fun r => r.1.1) := by
  unfold zfirst zpopmin
  split <;> rename_i hz <;> simp [hz]

theorem mem_zpopmin {z z' : ZSet α σ} {e : α × σ} (h : z.zpopmin = some (e, z')) {x : α} :
    x ∈ z' ↔ x ∈ z ∧ x ≠ e.1 := by
  have hz := zpopmin_some h
  have hn := z.nodup
  rw [hz, List.map_cons, List.nodup_cons] at hn
  rw [mem_iff, mem_iff, hz, List.map_cons, List.mem_cons]
  constructor
  · intro hx
    exact ⟨.inr hx, fun he => hn.1 (he ▸ hx)⟩
  · rintro ⟨hx | hx, hne⟩
    · exact False.elim (hne hx)
    · exact hx

theorem mem_of_zpopmin {z z' : ZSet α σ} {e : α × σ} (h : z.zpopmin = some (e, z')) : e.1 ∈ z := by
  rw [mem_iff, zpopmin_some h]
  simp

end ZSet

end Vici2
