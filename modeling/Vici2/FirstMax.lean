import Mathlib.Data.List.MinMax
import Mathlib.Data.List.Nodup
import Mathlib.Data.List.Sort

/-! The first maximum of a list, as a loop finds it that keeps the best element so far, or a
stable sort. It outlives the removal of other elements. -/

namespace Vici2

variable {α β : Type*} [LinearOrder β] {f : α → β}

/-- One round of the loop: a later element takes over only with a higher score. -/
def keepMax (f : α → β) (best : Option α) (a : α) : Option α :=
  match best with
  | none => some a
  | some b => if f b < f a then some a else some b

theorem foldl_keepMax (f : α → β) (l : List α) : l.foldl (keepMax f) none = l.argmax f := by
  induction l using List.reverseRecOn with
  | nil => rfl
  | append_singleton l a ih =>
    rw [List.foldl_append, ih, List.argmax_concat]
    cases l.argmax f with
    | none => rfl
    | some b => rfl

/-- What comes before the first maximum scores less, what comes after it no more. -/
theorem argmax_eq_some_iff_append {l : List α} {m : α} :
    l.argmax f = some m ↔
      ∃ before after, l = before ++ m :: after ∧ (∀ a ∈ before, f a < f m) ∧
        ∀ a ∈ after, f a ≤ f m := by
  induction l using List.reverseRecOn generalizing m with
  | nil => simp
  | append_singleton l x ih =>
    rw [List.argmax_concat]
    constructor
    · intro h
      cases hbest : l.argmax f with
      | none =>
        rw [hbest] at h
        obtain rfl : x = m := Option.some.inj h
        obtain rfl : l = [] := List.argmax_eq_none.1 hbest
        exact ⟨[], [], rfl, by simp, by simp⟩
      | some b =>
        rw [hbest] at h
        obtain ⟨before, after, rfl, hbefore, hafter⟩ := ih.1 hbest
        by_cases hlt : f b < f x
        · obtain rfl : x = m := Option.some.inj ((if_pos hlt).symm.trans h)
          refine ⟨before ++ b :: after, [], by simp, fun a ha => ?_, by simp⟩
          rcases List.mem_append.1 ha with ha | ha
          · exact (hbefore a ha).trans hlt
          · rcases List.mem_cons.1 ha with rfl | ha
            · exact hlt
            · exact (hafter a ha).trans_lt hlt
        · obtain rfl : b = m := Option.some.inj ((if_neg hlt).symm.trans h)
          refine ⟨before, after ++ [x], by simp, hbefore, fun a ha => ?_⟩
          rcases List.mem_append.1 ha with ha | ha
          · exact hafter a ha
          · rw [List.mem_singleton.1 ha]
            exact not_lt.1 hlt
    · rintro ⟨before, after, heq, hbefore, hafter⟩
      induction after using List.reverseRecOn with
      | nil =>
        obtain ⟨rfl, hx⟩ := List.append_inj' heq rfl
        obtain rfl : x = m := List.head_eq_of_cons_eq hx
        cases hbest : l.argmax f with
        | none => rfl
        | some b => exact if_pos (hbefore b (List.argmax_mem hbest))
      | append_singleton after y _ =>
        have hsplit : l ++ [x] = (before ++ m :: after) ++ [y] := by simpa using heq
        obtain ⟨rfl, hx⟩ := List.append_inj' hsplit rfl
        obtain rfl : x = y := List.head_eq_of_cons_eq hx
        have hbest : (before ++ m :: after).argmax f = some m :=
          ih.2 ⟨before, after, rfl, hbefore, fun a ha => hafter a (List.mem_append_left _ ha)⟩
        rw [hbest]
        exact if_neg (not_lt.2 (hafter x (by simp)))

theorem argmin_eq_some_iff_append {l : List α} {m : α} :
    l.argmin f = some m ↔
      ∃ before after, l = before ++ m :: after ∧ (∀ a ∈ before, f m < f a) ∧
        ∀ a ∈ after, f m ≤ f a := by
  show l.argmax (OrderDual.toDual ∘ f) = some m ↔ _
  rw [argmax_eq_some_iff_append]
  rfl

theorem foldl_keepLeast (f : α → β) (a : α) (l : List α) :
    (a :: l).argmin f = some (l.foldl (fun best a => if f a < f best then a else best) a) := by
  induction l using List.reverseRecOn with
  | nil => rfl
  | append_singleton l x ih =>
    rw [← List.cons_append, List.argmin_concat, ih, List.foldl_append]
    show (if _ then some x else some _) = some (if _ then x else _)
    split_ifs
    · rfl
    · rfl

/-- A stable sort has the first minimum at its head. -/
theorem head?_insertionSort {r : α → α → Prop} [DecidableRel r] (h : ∀ a b, r a b ↔ f a ≤ f b)
    (l : List α) : (l.insertionSort r).head? = l.argmin f := by
  induction l with
  | nil => rfl
  | cons a l ih =>
    rw [List.insertionSort_cons, List.argmin_cons, ← ih]
    cases l.insertionSort r with
    | nil => rfl
    | cons b rest =>
      rw [List.orderedInsert_cons]
      by_cases hab : r a b
      · have hlt : ¬ f b < f a := not_lt.2 ((h a b).1 hab)
        simp [hab, hlt]
      · have hlt : f b < f a := not_le.1 fun hle => hab ((h a b).2 hle)
        simp [hab, hlt]

/-- A first maximum that stays in the list stays the first maximum. -/
theorem argmax_sublist {l l' : List α} {m : α} (h : l.argmax f = some m) (hl : l.Nodup)
    (hsub : l'.Sublist l) (hm : m ∈ l') : l'.argmax f = some m := by
  obtain ⟨before, after, rfl, hbefore, hafter⟩ := argmax_eq_some_iff_append.1 h
  obtain ⟨first, rest, rfl, hfirst, hrest⟩ := List.sublist_append_iff.1 hsub
  have hdisjoint := List.nodup_middle.1 hl
  have hnot : m ∉ before ++ after := (List.nodup_cons.1 hdisjoint).1
  have hmfirst : m ∉ first := fun hin => hnot (List.mem_append_left _ (hfirst.subset hin))
  rcases List.sublist_cons_iff.1 hrest with hdropped | ⟨tail, rfl, htail⟩
  · rcases List.mem_append.1 hm with hin | hin
    · exact absurd hin hmfirst
    · exact absurd (List.mem_append_right _ (hdropped.subset hin)) hnot
  · exact argmax_eq_some_iff_append.2 ⟨first, tail, rfl, fun a ha => hbefore a (hfirst.subset ha),
      fun a ha => hafter a (htail.subset ha)⟩

theorem argmax_erase [DecidableEq α] {l : List α} (hl : l.Nodup) {x : α}
    (h : l.argmax f ≠ some x) : (l.erase x).argmax f = l.argmax f := by
  cases hbest : l.argmax f with
  | none =>
    have hnil : l = [] := List.argmax_eq_none.1 hbest
    simp [hnil]
  | some m =>
    have hne : m ≠ x := by
      rintro rfl
      exact h hbest
    have hm : m ∈ l.erase x := (List.mem_erase_of_ne hne).2 (List.argmax_mem hbest)
    exact argmax_sublist hbest hl List.erase_sublist hm

end Vici2
