import Mathlib.Data.List.Basic
import Mathlib.Logic.Function.Basic
import Mathlib.Order.Filter.EventuallyConst
import Mathlib.Order.OrderIsoNat

/-! Runs of a step function. A run is a list of actions; it is judged by the
states it passes through and by the states in which its steps are taken. -/

namespace Vici2

open Filter (EventuallyConst atTop eventuallyConst_atTop_nat)

variable {σ α : Type*}

/-- `P` holds in every state that the run `l` from `s` passes through, its two
ends included. -/
def Always (step : σ → α → σ) (P : σ → Prop) : σ → List α → Prop
  | s, [] => P s
  | s, a :: l => P s ∧ Always step P (step s a) l

/-- Every action of the run is taken in a state that admits it. -/
def EachStep (step : σ → α → σ) (ok : σ → α → Prop) : σ → List α → Prop
  | _, [] => True
  | s, a :: l => ok s a ∧ EachStep step ok (step s a) l

instance Always.instDecidable (step : σ → α → σ) (P : σ → Prop) [DecidablePred P] :
    ∀ s l, Decidable (Always step P s l)
  | s, [] => inferInstanceAs (Decidable (P s))
  | s, a :: l =>
    have := Always.instDecidable step P (step s a) l
    inferInstanceAs (Decidable (P s ∧ _))

instance EachStep.instDecidable (step : σ → α → σ) (ok : σ → α → Prop)
    [∀ s a, Decidable (ok s a)] : ∀ s l, Decidable (EachStep step ok s l)
  | _, [] => inferInstanceAs (Decidable True)
  | s, a :: l =>
    have := EachStep.instDecidable step ok (step s a) l
    inferInstanceAs (Decidable (ok s a ∧ _))

variable {step : σ → α → σ} {P I : σ → Prop} {ok : σ → α → Prop}

theorem Always.first {s : σ} {l : List α} (h : Always step P s l) : P s := by
  cases l with
  | nil => exact h
  | cons a l => exact h.1

theorem Always.last {s : σ} {l : List α} (h : Always step P s l) : P (l.foldl step s) := by
  induction l generalizing s with
  | nil => exact h
  | cons a l ih => exact ih h.2

theorem Always.of_append {s : σ} {l pre post : List α} (h : Always step P s l)
    (hl : l = pre ++ post) : P (pre.foldl step s) := by
  subst hl
  induction pre generalizing s with
  | nil => exact h.first
  | cons a pre ih => exact ih h.2

theorem Always.mono {Q : σ → Prop} (hPQ : ∀ s, P s → Q s) {s : σ} {l : List α}
    (h : Always step P s l) : Always step Q s l := by
  induction l generalizing s with
  | nil => exact hPQ s h
  | cons a l ih => exact ⟨hPQ s h.1, ih h.2⟩

theorem Always.eachStep {q : σ → α → Prop} (hq : ∀ s a, P s → q s a) {s : σ} {l : List α}
    (h : Always step P s l) : EachStep step q s l := by
  induction l generalizing s with
  | nil => trivial
  | cons a l ih => exact ⟨hq s a h.1, ih h.2⟩

theorem EachStep.mono {q : σ → α → Prop} (hq : ∀ s a, ok s a → q s a) {s : σ} {l : List α}
    (h : EachStep step ok s l) : EachStep step q s l := by
  induction l generalizing s with
  | nil => trivial
  | cons a l ih => exact ⟨hq s a h.1, ih h.2⟩

theorem EachStep.and {q : σ → α → Prop} {s : σ} {l : List α} (h : EachStep step ok s l)
    (h' : EachStep step q s l) : EachStep step (fun s a => ok s a ∧ q s a) s l := by
  induction l generalizing s with
  | nil => trivial
  | cons a l ih => exact ⟨⟨h.1, h'.1⟩, ih h.2 h'.2⟩

theorem eachStep_of_forall_mem {q : α → Prop} {l : List α} (h : ∀ a ∈ l, q a) (s : σ) :
    EachStep step (fun _ => q) s l := by
  induction l generalizing s with
  | nil => trivial
  | cons a l ih =>
    exact ⟨h a List.mem_cons_self, ih (fun b hb => h b (List.mem_cons_of_mem _ hb)) (step s a)⟩

/-- The invariant rule: what one admitted step preserves, a run of admitted
steps preserves. -/
theorem always_of_eachStep (hstep : ∀ s a, I s → ok s a → I (step s a)) {s : σ} {l : List α}
    (hs : I s) (hl : EachStep step ok s l) : Always step I s l := by
  induction l generalizing s with
  | nil => exact hs
  | cons a l ih => exact ⟨hs, ih (hstep s a hs hl.1) hl.2⟩

/-- What an invariant and the condition of a step together give, every step of
the run has. -/
theorem eachStep_of_invariant {q : σ → α → Prop} (hstep : ∀ s a, I s → ok s a → I (step s a))
    (hq : ∀ s a, I s → ok s a → q s a) {s : σ} {l : List α} (hs : I s)
    (hl : EachStep step ok s l) : EachStep step q s l := by
  induction l generalizing s with
  | nil => trivial
  | cons a l ih => exact ⟨hq s a hs hl.1, ih (hstep s a hs hl.1) hl.2⟩

theorem always_of_step (hstep : ∀ s a, I s → I (step s a)) {s : σ} (l : List α) (hs : I s) :
    Always step I s l := by
  induction l generalizing s with
  | nil => exact hs
  | cons a l ih => exact ⟨hs, ih (hstep s a hs)⟩

/-- Where a step keeps `P` exactly when it is admitted, a run keeps `P`
throughout exactly when all its steps are admitted. The auxiliary invariant
`I` is kept by every step that keeps `P`. -/
theorem always_iff_eachStep (hI : ∀ s a, I s → P s → P (step s a) → I (step s a))
    (hstep : ∀ s a, I s → P s → (P (step s a) ↔ ok s a)) {s : σ} (l : List α)
    (hs : I s) (hP : P s) : Always step P s l ↔ EachStep step ok s l := by
  induction l generalizing s with
  | nil => exact ⟨fun _ => trivial, fun _ => hP⟩
  | cons a l ih =>
    constructor
    · intro h
      have hP' := h.2.first
      exact ⟨(hstep s a hs hP).mp hP', (ih (hI s a hs hP hP') hP').mp h.2⟩
    · intro h
      have hP' := (hstep s a hs hP).mpr h.1
      exact ⟨hP, (ih (hI s a hs hP hP') hP').mpr h.2⟩

theorem always_and_eachStep_iff {q : σ → α → Prop} (hI : ∀ s a, I s → I (step s a))
    (hstep : ∀ s a, I s → P s → (P (step s a) ∧ q s a ↔ ok s a)) {s : σ} (l : List α)
    (hs : I s) (hP : P s) :
    Always step P s l ∧ EachStep step q s l ↔ EachStep step ok s l := by
  induction l generalizing s with
  | nil => exact ⟨fun _ => trivial, fun _ => ⟨hP, trivial⟩⟩
  | cons a l ih =>
    constructor
    · intro h
      have hP' := h.1.2.first
      exact ⟨(hstep s a hs hP).mp ⟨hP', h.2.1⟩, (ih (hI s a hs) hP').mp ⟨h.1.2, h.2.2⟩⟩
    · intro h
      obtain ⟨hP', hq⟩ := (hstep s a hs hP).mpr h.1
      obtain ⟨halways, heach⟩ := (ih (hI s a hs) hP').mpr h.2
      exact ⟨⟨hP, halways⟩, ⟨hq, heach⟩⟩

theorem eachStep_congr {ok' : σ → α → Prop} (hI : ∀ s a, I s → ok s a → I (step s a))
    (hiff : ∀ s a, I s → (ok' s a ↔ ok s a)) {s : σ} (l : List α) (hs : I s) :
    EachStep step ok' s l ↔ EachStep step ok s l := by
  induction l generalizing s with
  | nil => exact Iff.rfl
  | cons a l ih =>
    constructor
    · intro h
      have ha := (hiff s a hs).mp h.1
      exact ⟨ha, (ih (hI s a hs ha)).mp h.2⟩
    · intro h
      exact ⟨(hiff s a hs).mpr h.1, (ih (hI s a hs h.1)).mpr h.2⟩

theorem always_congr {Q : σ → Prop} (hI : ∀ s a, I s → I (step s a))
    (hiff : ∀ s, I s → (P s ↔ Q s)) {s : σ} (l : List α) (hs : I s) :
    Always step P s l ↔ Always step Q s l := by
  induction l generalizing s with
  | nil => exact hiff s hs
  | cons a l ih => exact and_congr (hiff s hs) (ih (hI s a hs))

/-- A step of one party: what holds of some party afterwards holds of its new state,
or held of another party before. -/
theorem update_cases {ι β : Type*} [DecidableEq ι] {f : ι → β} {i : ι} {b : β} (Q : β → Prop)
    {j : ι} (h : Q (Function.update f i b j)) : (j = i ∧ Q b) ∨ (j ≠ i ∧ Q (f j)) := by
  by_cases hj : j = i
  · subst hj
    rw [Function.update_self] at h
    exact Or.inl ⟨rfl, h⟩
  · rw [Function.update_of_ne hj] at h
    exact Or.inr ⟨hj, h⟩

theorem update_some_cases {ι β : Type*} [DecidableEq ι] {f : ι → Option β} {i j : ι}
    {b : Option β} {x : β} (h : Function.update f i b j = some x) : b = some x ∨ f j = some x := by
  rcases update_cases (fun y => y = some x) h with ⟨-, hb⟩ | ⟨-, hf⟩
  · exact Or.inl hb
  · exact Or.inr hf

/-- A sequence that changes only by falling in rank comes to rest. -/
theorem eventuallyConst_of_rank {f : Nat → σ} (rank : σ → Nat)
    (hstep : ∀ n, f (n + 1) = f n ∨ rank (f (n + 1)) < rank (f n)) :
    EventuallyConst f atTop := by
  have hfall : ∀ n, rank (f (n + 1)) ≤ rank (f n) := by
    intro n
    rcases hstep n with hsame | hlt
    · rw [hsame]
    · exact hlt.le
  let ranks : ℕ →o ℕᵒᵈ := ⟨fun n => OrderDual.toDual (rank (f n)), monotone_nat_of_le_succ hfall⟩
  obtain ⟨n, hn⟩ := WellFoundedGT.monotone_chain_condition ranks
  rw [eventuallyConst_atTop_nat]
  refine ⟨n, fun m hm => ?_⟩
  rcases hstep m with hsame | hlt
  · exact hsame
  · have hm0 : rank (f n) = rank (f m) := hn m hm
    have hm1 : rank (f n) = rank (f (m + 1)) := hn (m + 1) (by omega)
    omega

end Vici2
