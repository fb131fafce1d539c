import Mathlib.Data.Finmap
import Mathlib.Logic.Function.Basic

/-! Maps under keys: what is found after an update, and how many keys of a finite map hold
a value with a given property. -/

namespace Vici2

variable {α β : Type*} [DecidableEq α]

theorem update_some_eq_some {m : α → Option β} {a x : α} {b y : β} :
    Function.update m a (some b) x = some y ↔ (x = a ∧ y = b) ∨ (x ≠ a ∧ m x = some y) := by
  by_cases hx : x = a
  · subst hx
    simp [eq_comm]
  · simp [hx]

theorem update_none_eq_some {m : α → Option β} {a x : α} {y : β} :
    Function.update m a none x = some y ↔ x ≠ a ∧ m x = some y := by
  by_cases hx : x = a
  · subst hx
    simp
  · simp [hx]

def countWhere (p : β → Bool) (m : Finmap fun _ : α => β) : Nat :=
  (m.keys.filter fun a => (m.lookup a).any p = true).card

theorem insert_erase_self (m : Finmap fun _ : α => β) (a : α) (b : β) :
    (m.erase a).insert a b = m.insert a b := by
  apply Finmap.ext_lookup
  intro x
  by_cases hx : x = a
  · subst hx
    rw [Finmap.lookup_insert, Finmap.lookup_insert]
  · rw [Finmap.lookup_insert_of_ne _ hx, Finmap.lookup_insert_of_ne _ hx,
      Finmap.lookup_erase_ne hx]

theorem insert_of_lookup {m : Finmap fun _ : α => β} {a : α} {b : β} (h : m.lookup a = some b) :
    m.insert a b = m := by
  apply Finmap.ext_lookup
  intro x
  by_cases hx : x = a
  · subst hx
    rw [Finmap.lookup_insert, h]
  · rw [Finmap.lookup_insert_of_ne _ hx]

theorem countWhere_insert (p : β → Bool) {m : Finmap fun _ : α => β} {a : α} (b : β)
    (ha : a ∉ m) :
    countWhere p (m.insert a b) = countWhere p m + if p b then 1 else 0 := by
  have hne : ∀ x ∈ m.keys, x ≠ a := by
    rintro x hx rfl
    exact ha (Finmap.mem_keys.mp hx)
  by_cases hb : p b = true
  · have hset : (m.insert a b).keys.filter (fun x => ((m.insert a b).lookup x).any p = true) =
        insert a (m.keys.filter fun x => (m.lookup x).any p = true) := by
      ext x
      by_cases hx : x = a
      · subst hx
        simp [Finmap.mem_keys, hb]
      · simp [Finmap.mem_keys, hx, Finmap.lookup_insert_of_ne]
    have hout : a ∉ m.keys.filter fun x => (m.lookup x).any p = true := by
      intro h
      exact hne a (Finset.mem_of_mem_filter a h) rfl
    unfold countWhere
    rw [hset, Finset.card_insert_of_notMem hout, if_pos hb]
  · have hset : (m.insert a b).keys.filter (fun x => ((m.insert a b).lookup x).any p = true) =
        m.keys.filter fun x => (m.lookup x).any p = true := by
      ext x
      by_cases hx : x = a
      · subst hx
        simp [Finmap.mem_keys, hb, ha]
      · simp [Finmap.mem_keys, hx, Finmap.lookup_insert_of_ne]
    unfold countWhere
    rw [hset, if_neg hb, Nat.add_zero]

theorem countWhere_erase (p : β → Bool) {m : Finmap fun _ : α => β} {a : α} {b : β}
    (h : m.lookup a = some b) :
    countWhere p (m.erase a) + (if p b then 1 else 0) = countWhere p m := by
  rw [← countWhere_insert p b Finmap.notMem_erase_self, insert_erase_self, insert_of_lookup h]

theorem countWhere_eq_zero (p : β → Bool) {m : Finmap fun _ : α => β}
    (h : ∀ a b, m.lookup a = some b → p b = false) : countWhere p m = 0 := by
  unfold countWhere
  rw [Finset.card_eq_zero, Finset.filter_eq_empty_iff]
  intro a _ hp
  obtain ⟨b, hb, hpb⟩ := (Option.any_eq_true p _).mp hp
  rw [h a b hb] at hpb
  simp at hpb

end Vici2
