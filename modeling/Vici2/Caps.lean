import Mathlib.Data.List.Perm.Basic
import Mathlib.Order.Bounds.Basic
import Mathlib.Order.MinMax

/-! Bounds put on a value one after the other, each only where there is one. What is left is
the least of them, in whatever order they come. -/

namespace Vici2

variable {α ι : Type*} [LinearOrder α]

/-- One clamp after the other: a bound there is takes the place of a value above it. -/
def capBy (bound : ι → Option α) (x : α) (i : ι) : α :=
  match bound i with
  | some b => if b < x then b else x
  | none => x

theorem capBy_eq_min (bound : ι → Option α) (x : α) (i : ι) :
    capBy bound x i = ((bound i).elim x fun b => min b x) := by
  unfold capBy
  cases bound i with
  | none => rfl
  | some b =>
    show (if b < x then b else x) = min b x
    by_cases h : b < x
    · rw [if_pos h, min_eq_left h.le]
    · rw [if_neg h, min_eq_right (not_lt.1 h)]

theorem capBy_right_comm (bound : ι → Option α) (x : α) (i j : ι) :
    capBy bound (capBy bound x i) j = capBy bound (capBy bound x j) i := by
  simp only [capBy_eq_min]
  cases bound i with
  | none => rfl
  | some a =>
    cases bound j with
    | none => rfl
    | some b => exact min_left_comm b a x

theorem foldl_capBy_perm (bound : ι → Option α) (x : α) {l l' : List ι} (h : l.Perm l') :
    l.foldl (capBy bound) x = l'.foldl (capBy bound) x :=
  h.foldl_eq' (fun i _ j _ z => capBy_right_comm bound z i j) x

theorem foldl_capBy_mono (bound : ι → Option α) {x y : α} (h : x ≤ y) (l : List ι) :
    l.foldl (capBy bound) x ≤ l.foldl (capBy bound) y := by
  induction l generalizing x y with
  | nil => exact h
  | cons i l ih =>
    apply ih
    rw [capBy_eq_min, capBy_eq_min]
    cases bound i with
    | none => exact h
    | some b => exact min_le_min le_rfl h

/-- The clamps leave the least of the value and the bounds there are. -/
theorem isLeast_foldl_capBy (bound : ι → Option α) (x : α) (l : List ι) :
    IsLeast {b | b ∈ x :: l.filterMap bound} (l.foldl (capBy bound) x) := by
  induction l generalizing x with
  | nil => simp [IsLeast, lowerBounds]
  | cons i l ih =>
    obtain ⟨hmem, hleast⟩ := ih (capBy bound x i)
    rw [List.foldl_cons]
    cases hb : bound i with
    | none =>
      have hcap : capBy bound x i = x := by rw [capBy_eq_min, hb, Option.elim_none]
      rw [hcap] at hmem hleast ⊢
      rw [List.filterMap_cons_none hb]
      exact ⟨hmem, hleast⟩
    | some b =>
      have hcap : capBy bound x i = min b x := by rw [capBy_eq_min, hb, Option.elim_some]
      rw [hcap] at hmem hleast ⊢
      rw [List.filterMap_cons_some hb]
      have hmin : l.foldl (capBy bound) (min b x) ≤ min b x := hleast List.mem_cons_self
      constructor
      · rcases List.mem_cons.1 hmem with heq | hin
        · rw [heq]
          rcases min_choice b x with hb | hx
          · rw [hb]
            exact List.mem_cons_of_mem _ List.mem_cons_self
          · rw [hx]
            exact List.mem_cons_self
        · exact List.mem_cons_of_mem _ (List.mem_cons_of_mem _ hin)
      · intro c hc
        rcases List.mem_cons.1 hc with rfl | hc
        · exact hmin.trans (min_le_right _ _)
        · rcases List.mem_cons.1 hc with rfl | hc
          · exact hmin.trans (min_le_left _ _)
          · exact hleast (List.mem_cons_of_mem _ hc)

end Vici2
