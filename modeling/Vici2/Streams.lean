import Mathlib.Algebra.Order.Group.Multiset
import Mathlib.Data.List.Basic
import Mathlib.Data.Multiset.AddSub

/-! Stages of a stream. A stage keeps a state, answers every input with outputs and events,
and is flushed at the end of its input. What a stage makes of its inputs is told input by
input: each is kept as one output or dropped, with events of its own. -/

namespace Vici2

variable {σ ι κ ο ε : Type*}

structure Stage (σ ι ο ε : Type*) where
  init : σ
  transform : σ → ι → σ × List ο × List ε
  flush : σ → List ο × List ε

namespace Stage

variable (T : Stage σ ι ο ε)

def runFrom : σ → List ι → List ο × List ε
  | s, [] => T.flush s
  | s, x :: xs =>
    let step := T.transform s x
    let rest := runFrom step.1 xs
    (step.2.1 ++ rest.1, step.2.2 ++ rest.2)

def run (xs : List ι) : List ο × List ε := T.runFrom T.init xs

/-- Induction over the inputs still to come. -/
theorem runFrom_induction {Q : σ → List ι → List ο → List ε → Prop}
    (hflush : ∀ s, Q s [] (T.flush s).1 (T.flush s).2)
    (hstep : ∀ s x xs out ev, Q (T.transform s x).1 xs out ev →
      Q s (x :: xs) ((T.transform s x).2.1 ++ out) ((T.transform s x).2.2 ++ ev))
    (s : σ) (xs : List ι) : Q s xs (T.runFrom s xs).1 (T.runFrom s xs).2 := by
  induction xs generalizing s with
  | nil => exact hflush s
  | cons x xs ih => exact hstep s x xs _ _ (ih _)

end Stage

/-- The outputs and events split up into the shares of the inputs, in their order: an
input related to an output by `R` is kept, one related to none is dropped. -/
inductive Tracks (R : ι → Option ο → Multiset ε → Prop) : List ι → List ο → Multiset ε → Prop
  | nil : Tracks R [] [] 0
  | drop {x e xs out ev} : R x none e → Tracks R xs out ev → Tracks R (x :: xs) out (e + ev)
  | keep {x y e xs out ev} : R x (some y) e → Tracks R xs out ev →
      Tracks R (x :: xs) (y :: out) (e + ev)

namespace Tracks

variable {R : ι → Option ο → Multiset ε → Prop} {xs xs' : List ι} {out out' : List ο}
  {ev ev' : Multiset ε}

theorem drop_one {x : ι} {e : ε} {evs : List ε} (hx : R x none {e})
    (h : Tracks R xs out (evs : Multiset ε)) :
    Tracks R (x :: xs) out ((e :: evs : List ε) : Multiset ε) := by
  have hdrop := drop hx h
  rwa [Multiset.singleton_add, Multiset.cons_coe] at hdrop

theorem keep_silent {x : ι} {y : ο} (hx : R x (some y) 0) (h : Tracks R xs out ev) :
    Tracks R (x :: xs) (y :: out) ev := by
  have hkeep := keep hx h
  rwa [zero_add] at hkeep

theorem append (h : Tracks R xs out ev) (h' : Tracks R xs' out' ev') :
    Tracks R (xs ++ xs') (out ++ out') (ev + ev') := by
  induction h with
  | nil => simpa using h'
  | drop hx _ ih =>
    rw [add_assoc]
    exact drop hx ih
  | keep hx _ ih =>
    rw [add_assoc]
    exact keep hx ih

/-- A stage that decides input by input. -/
theorem of_map {f : ι → Option ο × List ε} (hf : ∀ x ∈ xs, R x (f x).1 ((f x).2 : Multiset ε)) :
    Tracks R xs ((xs.map f).filterMap Prod.fst)
      (((xs.map f).flatMap Prod.snd : List ε) : Multiset ε) := by
  induction xs with
  | nil => exact nil
  | cons x xs ih =>
    have hx := hf x List.mem_cons_self
    have hxs := ih fun y hy => hf y (List.mem_cons_of_mem _ hy)
    rw [List.map_cons, List.flatMap_cons, ← Multiset.coe_add]
    cases hout : (f x).1 with
    | none =>
      rw [hout] at hx
      rw [List.filterMap_cons_none hout]
      exact drop hx hxs
    | some y =>
      rw [hout] at hx
      rw [List.filterMap_cons_some hout]
      exact keep hx hxs

theorem mono {S : ι → Option ο → Multiset ε → Prop} (hRS : ∀ x o e, R x o e → S x o e)
    (h : Tracks R xs out ev) : Tracks S xs out ev := by
  induction h with
  | nil => exact nil
  | drop hx _ ih => exact drop (hRS _ _ _ hx) ih
  | keep hx _ ih => exact keep (hRS _ _ _ hx) ih

/-- What two stages in a row make of an input. -/
def Comp (R : ι → Option κ → Multiset ε → Prop) (S : κ → Option ο → Multiset ε → Prop) (x : ι)
    (o : Option ο) (e : Multiset ε) : Prop :=
  (R x none e ∧ o = none) ∨ ∃ y e₁ e₂, R x (some y) e₁ ∧ S y o e₂ ∧ e = e₁ + e₂

theorem comp {R : ι → Option κ → Multiset ε → Prop} {S : κ → Option ο → Multiset ε → Prop}
    {ys : List κ} (h : Tracks R xs ys ev) (h' : Tracks S ys out ev') :
    Tracks (Comp R S) xs out (ev + ev') := by
  induction h generalizing out ev' with
  | nil =>
    cases h'
    simpa using nil (R := Comp R S)
  | drop hx _ ih =>
    rw [add_assoc]
    exact drop (.inl ⟨hx, rfl⟩) (ih h')
  | @keep x y e xs ys ev hx _ ih =>
    cases h' with
    | @drop _ e' _ _ ev' hy h' =>
      rw [add_add_add_comm]
      exact drop (.inr ⟨y, e, e', hx, hy, rfl⟩) (ih h')
    | @keep _ z e' _ out ev' hy h' =>
      rw [add_add_add_comm]
      exact keep (.inr ⟨y, e, e', hx, hy, rfl⟩) (ih h')

/-- A mark that every kept input passes on to its output. -/
theorem sublist_map {μ : Type*} {f : ι → μ} {g : ο → μ} (h : Tracks R xs out ev)
    (hmark : ∀ x y e, R x (some y) e → g y = f x) :
    (out.map g).Sublist (xs.map f) := by
  induction h with
  | nil => exact List.Sublist.refl _
  | drop _ _ ih => exact ih.cons _
  | keep hx _ ih =>
    rw [List.map_cons, List.map_cons, hmark _ _ _ hx]
    exact ih.cons_cons _

/-- The share of one input, and those of the inputs before and after it. -/
theorem share {x : ι} {after : List ι} (h : Tracks R (xs ++ x :: after) out ev) :
    ∃ o s out₁ out₂ ev₁ ev₂, Tracks R xs out₁ ev₁ ∧ R x o s ∧ Tracks R after out₂ ev₂ ∧
      out = out₁ ++ (o.toList ++ out₂) ∧ ev = ev₁ + (s + ev₂) := by
  induction xs generalizing out ev with
  | nil =>
    cases h with
    | @drop _ e _ out ev hx h =>
      exact ⟨none, e, [], out, 0, ev, nil, hx, h, rfl, (zero_add _).symm⟩
    | @keep _ y e _ out ev hx h =>
      exact ⟨some y, e, [], out, 0, ev, nil, hx, h, rfl, (zero_add _).symm⟩
  | cons z xs ih =>
    cases h with
    | @drop _ e _ out ev hz h =>
      obtain ⟨o, s, out₁, out₂, ev₁, ev₂, h₁, hx, h₂, hout, hev⟩ := ih h
      exact ⟨o, s, out₁, out₂, e + ev₁, ev₂, drop hz h₁, hx, h₂, hout, by rw [hev, add_assoc]⟩
    | @keep _ y e _ out ev hz h =>
      obtain ⟨o, s, out₁, out₂, ev₁, ev₂, h₁, hx, h₂, hout, hev⟩ := ih h
      exact ⟨o, s, y :: out₁, out₂, e + ev₁, ev₂, keep hz h₁, hx, h₂, by rw [hout]; rfl,
        by rw [hev, add_assoc]⟩

theorem events_of (h : Tracks R xs out ev) {e : ε} (he : e ∈ ev) :
    ∃ x ∈ xs, ∃ o s, R x o s ∧ e ∈ s := by
  induction h with
  | nil => simp at he
  | drop hx _ ih =>
    rcases Multiset.mem_add.1 he with he | he
    · exact ⟨_, List.mem_cons_self, _, _, hx, he⟩
    · obtain ⟨x, hmem, o, s, hR, hs⟩ := ih he
      exact ⟨x, List.mem_cons_of_mem _ hmem, o, s, hR, hs⟩
  | keep hx _ ih =>
    rcases Multiset.mem_add.1 he with he | he
    · exact ⟨_, List.mem_cons_self, _, _, hx, he⟩
    · obtain ⟨x, hmem, o, s, hR, hs⟩ := ih he
      exact ⟨x, List.mem_cons_of_mem _ hmem, o, s, hR, hs⟩

end Tracks

end Vici2
