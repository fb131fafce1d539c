import Vici2.Runs
import Mathlib.Data.Finset.Card

/-! The active-call counter of one gateway under `Inc` and `Dec` calls of any channels. A
`Dec` that finds the counter below zero writes it in a second command, and commands of other
calls may come in between. Commands are taken to succeed. -/

namespace Vici2

namespace Gateway

/-- `Inc`: the value it returns and the counter it leaves. -/
def inc (counter : Int) : Int × Int := (counter + 1, counter + 1)

/-- What a `Dec` has to return and do once its DECR has been answered. -/
structure DecReply where
  returned : Int
  clamps : Bool
  deriving DecidableEq, Repr

/-- `Dec` up to its DECR, with the counter that this leaves. -/
def dec (counter : Int) : DecReply × Int :=
  let n := counter - 1
  if n < 0 then (⟨0, true⟩, n) else (⟨n, false⟩, n)

inductive CounterStep
  | inc (channel : Nat)
  | dec (channel : Nat)
  | clamp
  deriving DecidableEq, Repr

/-- The counter, the channels counted by an `Inc` and not yet by a `Dec`, and how many `Dec`
calls have still to write their zero. -/
structure CounterWorld where
  counter : Int
  counted : Finset Nat
  owing : Nat

namespace CounterWorld

def start : CounterWorld := ⟨0, ∅, 0⟩

def step (w : CounterWorld) : CounterStep → CounterWorld
  | .inc channel =>
    { w with
      counter := (inc w.counter).2
      counted := insert channel w.counted }
  | .dec channel =>
    { counter := (dec w.counter).2
      counted := w.counted.erase channel
      owing := if (dec w.counter).1.clamps then w.owing + 1 else w.owing }
  | .clamp => if 0 < w.owing then { w with counter := 0, owing := w.owing - 1 } else w

/-- Once all calls have finished the counter covers the channels that are counted and is
not negative. -/
def Covers (w : CounterWorld) : Prop :=
  w.owing = 0 → (w.counted.card : Int) ≤ w.counter ∧ 0 ≤ w.counter

/-- With no zero to be written, a `Dec` is for a counted channel or the counter has room for
it; when the last zero is written, no channel is counted. -/
def StepOk (w : CounterWorld) : CounterStep → Prop
  | .inc _ => True
  | .dec channel => w.owing = 0 →
      channel ∈ w.counted ∨ (w.counted.card : Int) < w.counter ∨ w.counter = 0
  | .clamp => w.owing = 1 → w.counted = ∅

end CounterWorld

theorem dec_counter (counter : Int) : (dec counter).2 = counter - 1 := by
  simp only [dec]
  split <;> rfl

theorem dec_clamps (counter : Int) : (dec counter).1.clamps = true ↔ counter ≤ 0 := by
  by_cases h : counter - 1 < 0
  · have hle : counter ≤ 0 := by omega
    simp only [dec, if_pos h, hle]
  · have hgt : ¬ counter ≤ 0 := by omega
    simp only [dec, if_neg h, hgt, Bool.false_eq_true]

namespace CounterWorld

variable {w : CounterWorld}

theorem Covers.inc (h : w.Covers) (channel : Nat) : (w.step (.inc channel)).Covers := by
  intro howing
  obtain ⟨hcard, hcounter⟩ := h howing
  have hinsert := Finset.card_insert_le channel w.counted
  constructor
  · simp only [step, Gateway.inc]
    omega
  · simp only [step, Gateway.inc]
    omega

theorem covers_dec_iff (h : w.Covers) (channel : Nat) :
    (w.step (.dec channel)).Covers ↔ w.StepOk (.dec channel) := by
  by_cases howing : w.owing = 0
  · obtain ⟨hcard, hcounter⟩ := h howing
    by_cases hzero : w.counter = 0
    · have hclamps := (dec_clamps w.counter).2 (by omega)
      have howes : (w.step (.dec channel)).owing ≠ 0 := by
        simp [step, hclamps]
      exact ⟨fun _ _ => Or.inr (Or.inr hzero), fun _ hnot => absurd hnot howes⟩
    · have hclamps : (Gateway.dec w.counter).1.clamps = false := by
        rw [Bool.eq_false_iff, ne_eq, dec_clamps]
        omega
      have hstep : w.step (.dec channel) =
          ⟨w.counter - 1, w.counted.erase channel, w.owing⟩ := by
        simp only [step, hclamps, dec_counter, Bool.false_eq_true, if_false]
      rw [hstep]
      by_cases hmem : channel ∈ w.counted
      · have hpos := Finset.card_pos.2 ⟨channel, hmem⟩
        have herase := Finset.card_erase_of_mem hmem
        refine ⟨fun _ _ => Or.inl hmem, fun _ _ => ?_⟩
        dsimp only
        omega
      · have herase := Finset.erase_eq_of_notMem hmem
        constructor
        · intro hcovers _
          have hafter := (hcovers howing).1
          dsimp only at hafter
          rw [herase] at hafter
          exact Or.inr (Or.inl (by omega))
        · intro hok _
          have hroom := (hok howing).resolve_left hmem
          dsimp only
          rw [herase]
          omega
  · have howes : (w.step (.dec channel)).owing ≠ 0 := by
      simp only [step]
      split <;> omega
    exact ⟨fun _ hnot => absurd hnot howing, fun _ hnot => absurd hnot howes⟩

theorem covers_clamp_iff (h : w.Covers) : (w.step .clamp).Covers ↔ w.StepOk .clamp := by
  by_cases hone : w.owing = 1
  · have hstep : w.step .clamp = ⟨0, w.counted, 0⟩ := by
      simp [step, hone]
    rw [hstep]
    constructor
    · intro hcovers _
      have hcard := (hcovers rfl).1
      dsimp only at hcard
      exact Finset.card_eq_zero.1 (by omega)
    · intro hok _
      have hnone := hok hone
      dsimp only
      rw [hnone]
      simp
  · refine ⟨fun _ hnot => absurd hnot hone, fun _ => ?_⟩
    by_cases hpos : 0 < w.owing
    · intro hnot
      simp only [step, if_pos hpos] at hnot
      omega
    · have hsame : w.step .clamp = w := if_neg hpos
      rw [hsame]
      exact h

theorem covers_step_iff (h : w.Covers) (s : CounterStep) : (w.step s).Covers ↔ w.StepOk s := by
  cases s with
  | inc channel => exact ⟨fun _ => trivial, fun _ => h.inc channel⟩
  | dec channel => exact covers_dec_iff h channel
  | clamp => exact covers_clamp_iff h

/-- The counter covers the counted channels whenever all calls have finished, just when
every command of the run meets the condition. -/
theorem counter_covers_iff (steps : List CounterStep) :
    Always step Covers start steps ↔ EachStep step StepOk start steps := by
  have hstart : start.Covers := fun _ => by simp [start]
  exact always_iff_eachStep (I := fun _ => True) (fun _ _ _ _ _ => trivial)
    (fun _ s _ h => covers_step_iff h s) steps trivial hstart

/-- A counter below zero has its zero still to be written, so it is never left so. -/
theorem not_left_negative (steps : List CounterStep) :
    Always step (fun w => w.counter < 0 → 0 < w.owing) start steps := by
  apply always_of_step
  · intro w s h
    cases s with
    | inc channel =>
      intro hneg
      simp only [step, Gateway.inc] at hneg ⊢
      exact h (by omega)
    | dec channel =>
      intro hneg
      simp only [step, dec_counter] at hneg
      have hclamps := (dec_clamps w.counter).2 (by omega)
      simp [step, hclamps]
    | clamp =>
      by_cases hpos : 0 < w.owing
      · intro hneg
        simp only [step, if_pos hpos] at hneg
        omega
      · have hsame : w.step .clamp = w := if_neg hpos
        rw [hsame]
        exact h
  · intro hneg
    simp [start] at hneg

end CounterWorld

/-- A hangup of a channel that was never counted; a channel is counted before the hangup
writes its zero. -/
theorem inc_erased :
    ¬ Always CounterWorld.step CounterWorld.Covers .start [.dec 1, .inc 2, .clamp] := by
  intro h
  have hcovers := h.last rfl
  have hcard : (1 : Int) ≤ 0 := hcovers.1
  omega

end Gateway

end Vici2
