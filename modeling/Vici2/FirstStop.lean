import Mathlib.Logic.Function.Iterate
import Mathlib.Tactic.Common

/-! A search over the places that a step leads through: it stops at the first place that
is not passed over, or gives up after a number of places. -/

namespace Vici2

variable {σ β : Type*}

/-- `scan` goes through the places `c`, `next c`, ... and answers `found` of the first that
is not passed over. -/
structure Scans (passed : σ → Bool) (next : σ → σ) (found : σ → β) (fallback : β)
    (scan : Nat → σ → β) : Prop where
  none_left : ∀ c, scan 0 c = fallback
  pass : ∀ n c, passed c = true → scan (n + 1) c = scan n (next c)
  stop : ∀ n c, passed c = false → scan (n + 1) c = found c

theorem Scans.cases {passed : σ → Bool} {next : σ → σ} {found : σ → β} {fallback : β}
    {scan : Nat → σ → β} (h : Scans passed next found fallback scan) (n : Nat) (c : σ) :
    (∃ k < n, (∀ j < k, passed (next^[j] c) = true) ∧ passed (next^[k] c) = false ∧
        scan n c = found (next^[k] c)) ∨
      ((∀ j < n, passed (next^[j] c) = true) ∧ scan n c = fallback) := by
  induction n generalizing c with
  | zero => exact Or.inr ⟨fun j hj => absurd hj (Nat.not_lt_zero j), h.none_left c⟩
  | succ n ih =>
    cases hc : passed c with
    | false => exact Or.inl ⟨0, Nat.succ_pos n, fun j hj => absurd hj (Nat.not_lt_zero j), hc, h.stop n c hc⟩
    | true =>
      -- the places after the first are those of the scan that goes on
      have hfirst : ∀ m, (∀ j < m, passed (next^[j] (next c)) = true) →
          ∀ j < m + 1, passed (next^[j] c) = true := by
        intro m hrest j hj
        cases j with
        | zero => exact hc
        | succ j => exact hrest j (Nat.lt_of_succ_lt_succ hj)
      rw [h.pass n c hc]
      rcases ih (next c) with ⟨k, hk, hpassed, hclear, he⟩ | ⟨hpassed, he⟩
      · exact Or.inl ⟨k + 1, Nat.succ_lt_succ hk, hfirst k hpassed, hclear, he⟩
      · exact Or.inr ⟨hfirst n hpassed, he⟩

end Vici2
