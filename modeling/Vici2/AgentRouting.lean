import Mathlib.Data.Int.ConditionallyCompleteOrder
import Mathlib.Data.Prod.Lex
import Vici2.DispatchCycle
import Vici2.FirstMax

/-! The agent that a routing strategy picks, among those eligible for a call. Each strategy
goes by one key, or by two in turn. -/

namespace Vici2

namespace Queue

/-- The strategy prefers the first agent to the second. -/
def Precedes (ig : InGroup) (a b : Agent) : Prop :=
  match ig.routingStrategy with
  | .longestIdle => a.lastReadyChangeTs < b.lastReadyChangeTs
  | .roundRobin => a.lastDispatchedAt < b.lastDispatchedAt
  | .topDown => a.rank < b.rank ∨ a.rank = b.rank ∧ a.lastReadyChangeTs < b.lastReadyChangeTs
  | .fewestCalls =>
    a.callsHandledToday < b.callsHandledToday ∨
      a.callsHandledToday = b.callsHandledToday ∧ a.lastReadyChangeTs < b.lastReadyChangeTs
  | .skillPriority | .other _ =>
    b.skills.matchScore ig.skillRequirements < a.skills.matchScore ig.skillRequirements ∨
      a.skills.matchScore ig.skillRequirements = b.skills.matchScore ig.skillRequirements ∧
        a.lastReadyChangeTs < b.lastReadyChangeTs

/-- The keys of an agent; where a strategy has one only, the second is the same for all. -/
def routingKey (ig : InGroup) (a : Agent) : ℤ ×ₗ ℤ :=
  match ig.routingStrategy with
  | .longestIdle => toLex (a.lastReadyChangeTs, 0)
  | .roundRobin => toLex (a.lastDispatchedAt, 0)
  | .topDown => toLex (a.rank, a.lastReadyChangeTs)
  | .fewestCalls => toLex (a.callsHandledToday, a.lastReadyChangeTs)
  | .skillPriority | .other _ =>
    toLex (-a.skills.matchScore ig.skillRequirements, a.lastReadyChangeTs)

theorem precedes_iff {ig : InGroup} {a b : Agent} :
    Precedes ig a b ↔ routingKey ig a < routingKey ig b := by
  unfold Precedes routingKey
  cases ig.routingStrategy with
  | longestIdle => simp [Prod.Lex.toLex_lt_toLex]
  | roundRobin => simp [Prod.Lex.toLex_lt_toLex]
  | topDown => simp [Prod.Lex.toLex_lt_toLex]
  | fewestCalls => simp [Prod.Lex.toLex_lt_toLex]
  | skillPriority => simp [Prod.Lex.toLex_lt_toLex]
  | other name => simp [Prod.Lex.toLex_lt_toLex]

/-- The comparison of two keys in turn, as `sort.SliceStable` is given it. -/
theorem less_iff {α : Type*} [LinearOrder α] (x y : α) (s t : Int) :
    (if x ≠ y then decide (x < y) else decide (s < t)) = true ↔ toLex (x, s) < toLex (y, t) := by
  rw [Prod.Lex.toLex_lt_toLex]
  by_cases h : x = y
  · simp [h]
  · simp [h]

theorem head?_sliceStable {β : Type*} [LinearOrder β] {f : Agent → β} {less : Agent → Agent → Bool}
    (h : ∀ a b, less a b = true ↔ f a < f b) (candidates : List Agent) :
    (sliceStable less candidates).head? = candidates.argmin f := by
  apply head?_insertionSort
  intro a b
  rw [h, not_lt]

theorem pickLeast_cons (key : Agent → Int) (a : Agent) (rest : List Agent) :
    pickLeast key (a :: rest) = (a :: rest).argmin key :=
  (foldl_keepLeast key a rest).symm

theorem argmin_toLex (key : Agent → Int) (candidates : List Agent) :
    candidates.argmin (fun a => toLex (key a, (0 : ℤ))) = candidates.argmin key := by
  induction candidates with
  | nil => rfl
  | cons a rest ih =>
    rw [List.argmin_cons, List.argmin_cons, ih]
    simp [Prod.Lex.toLex_lt_toLex]

theorem pickByKeyThenIdle_eq (key : Agent → Int) (candidates : List Agent) :
    pickByKeyThenIdle key candidates =
      candidates.argmin fun a => toLex (key a, a.lastReadyChangeTs) :=
  head?_sliceStable (fun a b => less_iff (key a) (key b) a.lastReadyChangeTs b.lastReadyChangeTs)
    candidates

theorem pickSkillPriority_eq (ig : InGroup) (candidates : List Agent) :
    pickSkillPriority ig candidates = candidates.argmin fun a =>
      toLex (-a.skills.matchScore ig.skillRequirements, a.lastReadyChangeTs) := by
  apply head?_sliceStable
  intro a b
  rw [← less_iff]
  simp

theorem pickAgentByStrategy_eq (ig : InGroup) (first : Agent) (rest : List Agent) :
    pickAgentByStrategy ig (first :: rest) = (first :: rest).argmin (routingKey ig) := by
  unfold pickAgentByStrategy routingKey
  cases ig.routingStrategy with
  | skillPriority => exact pickSkillPriority_eq ig _
  | longestIdle => exact (pickLeast_cons _ _ _).trans (argmin_toLex _ _).symm
  | roundRobin => exact (pickLeast_cons _ _ _).trans (argmin_toLex _ _).symm
  | topDown => exact pickByKeyThenIdle_eq _ _
  | fewestCalls => exact pickByKeyThenIdle_eq _ _
  | other name => exact pickSkillPriority_eq ig _

/-- The strategy picks a candidate that no other precedes, the first of these in the list. -/
theorem pickAgentByStrategy_best (ig : InGroup) (first : Agent) (rest : List Agent) :
    ∃ best before after, pickAgentByStrategy ig (first :: rest) = some best ∧
      first :: rest = before ++ best :: after ∧
        (∀ a ∈ first :: rest, ¬ Precedes ig a best) ∧ ∀ a ∈ before, Precedes ig best a := by
  cases hbest : (first :: rest).argmin (routingKey ig) with
  | none => exact absurd (List.argmin_eq_none.1 hbest) (List.cons_ne_nil _ _)
  | some best =>
    obtain ⟨before, after, heq, hbefore, -⟩ := argmin_eq_some_iff_append.1 hbest
    refine ⟨best, before, after, (pickAgentByStrategy_eq ig first rest).trans hbest, heq, ?_, ?_⟩
    · intro a ha hprecedes
      exact List.not_lt_of_mem_argmin ha hbest (precedes_iff.1 hprecedes)
    · exact fun a ha => precedes_iff.2 (hbefore a ha)

end Queue

end Vici2
