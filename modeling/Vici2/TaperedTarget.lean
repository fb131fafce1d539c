import Mathlib.Tactic.Linarith
import Vici2.Adapt

/-! The drop target of a tapered campaign over its shift, with division checked: its range,
how it moves as time passes, and where it divides by zero. -/

namespace Vici2

namespace Adapt

def checkedDiv (a b : ℚ) : Option ℚ := if b = 0 then none else some (a / b)

/-- `resolveTarget` where a division by zero gives no value. -/
def checkedTarget (mode : DialMethod) (dropPct : ℚ) (shiftStart shiftEnd now : Instant) :
    Option ℚ :=
  if mode ≠ .adaptTapered then some dropPct
  else if shiftStart.isZero ∨ shiftEnd.isZero then some dropPct
  else if now < shiftStart then some (dropPct * (3 / 2))
  else if shiftEnd < now then some dropPct
  else
    (checkedDiv (now.sub shiftStart : ℚ) (shiftEnd.sub shiftStart : ℚ)).map fun progress =>
      dropPct * (3 / 2 - 1 / 2 * progress)

/-- At every instant the target is computed without a division by zero and lies between the
configured one and half as much again, and it never rises afterwards. -/
def Tapers (mode : DialMethod) (dropPct : ℚ) (shiftStart shiftEnd : Instant) : Prop :=
  let target := resolveTarget mode dropPct shiftStart shiftEnd
  ∀ now, checkedTarget mode dropPct shiftStart shiftEnd now = some (target now) ∧
    dropPct ≤ target now ∧ target now ≤ 3 / 2 * dropPct ∧
    ∀ later, now ≤ later → target later ≤ target now

theorem resolveTarget_of_checked {mode : DialMethod} {dropPct target : ℚ}
    {shiftStart shiftEnd now : Instant}
    (h : checkedTarget mode dropPct shiftStart shiftEnd now = some target) :
    resolveTarget mode dropPct shiftStart shiftEnd now = target := by
  unfold checkedTarget checkedDiv at h
  unfold resolveTarget
  split_ifs at h ⊢ with hmode hunset hbefore hafter hzero
  · exact Option.some.inj h
  · exact Option.some.inj h
  · exact Option.some.inj h
  · exact Option.some.inj h
  · simp at h
  · exact Option.some.inj h

theorem instantSub_mono {t u s : Instant} (h : t ≤ u) : t.sub s ≤ u.sub s :=
  max_le_max_left _ (min_le_min_left _ (Int.sub_le_sub_right h s))

theorem instantSub_pos {t s : Instant} (h : s < t) : 0 < t.sub s :=
  lt_max_of_lt_right (lt_min (by norm_num) (Int.sub_pos.2 h))

theorem instantSub_nonneg {t s : Instant} (h : s ≤ t) : 0 ≤ t.sub s :=
  le_max_of_le_right (le_min (by norm_num) (Int.sub_nonneg.2 h))

/-- The part of a shift that has passed, held at zero before the shift and at one after it. -/
def progress (shiftStart shiftEnd now : Instant) : ℚ :=
  if now < shiftStart then 0
  else if shiftEnd < now then 1
  else (now.sub shiftStart : ℚ) / (shiftEnd.sub shiftStart : ℚ)

section Shift

variable {shiftStart shiftEnd : Instant}

theorem progress_within {now : Instant} (h : shiftStart < shiftEnd) (hlo : shiftStart ≤ now)
    (hhi : now ≤ shiftEnd) :
    progress shiftStart shiftEnd now = (now.sub shiftStart : ℚ) / (shiftEnd.sub shiftStart : ℚ) ∧
      0 ≤ progress shiftStart shiftEnd now ∧ progress shiftStart shiftEnd now ≤ 1 := by
  have hdiv : progress shiftStart shiftEnd now =
      (now.sub shiftStart : ℚ) / (shiftEnd.sub shiftStart : ℚ) := by
    unfold progress
    rw [if_neg (not_lt.2 hlo), if_neg (not_lt.2 hhi)]
  have hlen : (0 : ℚ) < (shiftEnd.sub shiftStart : ℚ) := by exact_mod_cast instantSub_pos h
  have hpassed : (0 : ℚ) ≤ (now.sub shiftStart : ℚ) := by exact_mod_cast instantSub_nonneg hlo
  have hle : (now.sub shiftStart : ℚ) ≤ (shiftEnd.sub shiftStart : ℚ) := by
    exact_mod_cast instantSub_mono hhi
  refine ⟨hdiv, ?_, ?_⟩
  · rw [hdiv]
    exact div_nonneg hpassed hlen.le
  · rw [hdiv, div_le_one hlen]
    exact hle

theorem progress_mem (h : shiftStart ≠ shiftEnd) (now : Instant) :
    0 ≤ progress shiftStart shiftEnd now ∧ progress shiftStart shiftEnd now ≤ 1 := by
  by_cases hbefore : now < shiftStart
  · simp [progress, hbefore]
  · by_cases hafter : shiftEnd < now
    · simp [progress, hbefore, hafter]
    · have hlt : shiftStart < shiftEnd :=
        lt_of_le_of_ne ((not_lt.1 hbefore).trans (not_lt.1 hafter)) h
      exact (progress_within hlt (not_lt.1 hbefore) (not_lt.1 hafter)).2

theorem progress_mono (h : shiftStart ≠ shiftEnd) {now later : Instant} (hle : now ≤ later) :
    progress shiftStart shiftEnd now ≤ progress shiftStart shiftEnd later := by
  by_cases hbefore : now < shiftStart
  · have hzero : progress shiftStart shiftEnd now = 0 := if_pos hbefore
    rw [hzero]
    exact (progress_mem h later).1
  · have hlo : shiftStart ≤ later := (not_lt.1 hbefore).trans hle
    by_cases hafter : shiftEnd < later
    · have hone : progress shiftStart shiftEnd later = 1 := by
        unfold progress
        rw [if_neg (not_lt.2 hlo), if_pos hafter]
      rw [hone]
      exact (progress_mem h now).2
    · have hhi : now ≤ shiftEnd := hle.trans (not_lt.1 hafter)
      have hlt : shiftStart < shiftEnd := lt_of_le_of_ne ((not_lt.1 hbefore).trans hhi) h
      rw [(progress_within hlt (not_lt.1 hbefore) hhi).1,
        (progress_within hlt hlo (not_lt.1 hafter)).1]
      have hlen : (0 : ℚ) < (shiftEnd.sub shiftStart : ℚ) := by exact_mod_cast instantSub_pos hlt
      have hmono : (now.sub shiftStart : ℚ) ≤ (later.sub shiftStart : ℚ) := by
        exact_mod_cast instantSub_mono hle
      exact (div_le_div_iff_of_pos_right hlen).2 hmono

theorem checkedTarget_of_unset {mode : DialMethod} {dropPct : ℚ}
    (h : mode ≠ .adaptTapered ∨ shiftStart.isZero ∨ shiftEnd.isZero) (now : Instant) :
    checkedTarget mode dropPct shiftStart shiftEnd now = some dropPct := by
  unfold checkedTarget
  by_cases hmode : mode ≠ .adaptTapered
  · rw [if_pos hmode]
  · rw [if_neg hmode, if_pos (h.resolve_left hmode)]

/-- Outside a shift of no length nothing is divided by zero. -/
theorem checkedTarget_of_shift {dropPct : ℚ} (hset : ¬ (shiftStart.isZero ∨ shiftEnd.isZero))
    (h : shiftStart ≠ shiftEnd) (now : Instant) :
    checkedTarget .adaptTapered dropPct shiftStart shiftEnd now =
      some (dropPct * (3 / 2 - 1 / 2 * progress shiftStart shiftEnd now)) := by
  unfold checkedTarget
  rw [if_neg (not_not.2 rfl), if_neg hset]
  by_cases hbefore : now < shiftStart
  · have hzero : progress shiftStart shiftEnd now = 0 := if_pos hbefore
    rw [if_pos hbefore, hzero, mul_zero, sub_zero]
  · rw [if_neg hbefore]
    by_cases hafter : shiftEnd < now
    · have hone : progress shiftStart shiftEnd now = 1 := by
        unfold progress
        rw [if_neg hbefore, if_pos hafter]
      rw [if_pos hafter, hone]
      norm_num
    · have hlt : shiftStart < shiftEnd :=
        lt_of_le_of_ne ((not_lt.1 hbefore).trans (not_lt.1 hafter)) h
      have hlen : (shiftEnd.sub shiftStart : ℚ) ≠ 0 := by exact_mod_cast (instantSub_pos hlt).ne'
      rw [if_neg hafter, (progress_within hlt (not_lt.1 hbefore) (not_lt.1 hafter)).1]
      unfold checkedDiv
      rw [if_neg hlen]
      rfl

theorem tapers_of_unset {mode : DialMethod} {dropPct : ℚ} (hp : 0 ≤ dropPct)
    (h : mode ≠ .adaptTapered ∨ shiftStart.isZero ∨ shiftEnd.isZero) :
    Tapers mode dropPct shiftStart shiftEnd := by
  have htarget : ∀ now, resolveTarget mode dropPct shiftStart shiftEnd now = dropPct := by
    intro now
    exact resolveTarget_of_checked (checkedTarget_of_unset h now)
  intro now
  simp only [htarget]
  exact ⟨checkedTarget_of_unset h now, le_rfl, by linarith, fun _ _ => le_rfl⟩

theorem tapers_of_shift {dropPct : ℚ} (hp : 0 ≤ dropPct)
    (hset : ¬ (shiftStart.isZero ∨ shiftEnd.isZero)) (h : shiftStart ≠ shiftEnd) :
    Tapers .adaptTapered dropPct shiftStart shiftEnd := by
  have htarget : ∀ now, resolveTarget .adaptTapered dropPct shiftStart shiftEnd now =
      dropPct * (3 / 2 - 1 / 2 * progress shiftStart shiftEnd now) := by
    intro now
    exact resolveTarget_of_checked (checkedTarget_of_shift hset h now)
  intro now
  simp only [htarget]
  obtain ⟨hlo, hhi⟩ := progress_mem h now
  refine ⟨checkedTarget_of_shift hset h now, ?_, ?_, fun later hle => ?_⟩
  · exact le_mul_of_one_le_right hp (by linarith)
  · rw [mul_comm]
    exact mul_le_mul_of_nonneg_right (by linarith) hp
  · have hmono := progress_mono h hle
    exact mul_le_mul_of_nonneg_left (by linarith) hp

theorem nonneg_of_tapers {mode : DialMethod} {dropPct : ℚ}
    (h : Tapers mode dropPct shiftStart shiftEnd) : 0 ≤ dropPct := by
  obtain ⟨-, hlo, hhi, -⟩ := h 0
  linarith

theorem checkedTarget_at_empty_shift {dropPct : ℚ} {shift : Instant} (h : ¬ shift.isZero) :
    checkedTarget .adaptTapered dropPct shift shift shift = none := by
  have hset : ¬ (shift.isZero ∨ shift.isZero) := fun hz => h (hz.elim id id)
  have hlen : ((shift.sub shift : Int) : ℚ) = 0 := by simp [Instant.sub]
  unfold checkedTarget checkedDiv
  rw [if_neg (not_not.2 rfl), if_neg hset, if_neg (lt_irrefl _), if_neg (lt_irrefl _), if_pos hlen]
  rfl

end Shift

/-- The target tapers as described except over a shift that ends when it starts. -/
theorem tapers_iff (mode : DialMethod) (dropPct : ℚ) (shiftStart shiftEnd : Instant) :
    Tapers mode dropPct shiftStart shiftEnd ↔
      0 ≤ dropPct ∧
        ¬ (mode = .adaptTapered ∧ ¬ shiftStart.isZero ∧ shiftStart = shiftEnd) := by
  constructor
  · intro h
    refine ⟨nonneg_of_tapers h, ?_⟩
    rintro ⟨rfl, hset, rfl⟩
    obtain ⟨hsome, -⟩ := h shiftStart
    rw [checkedTarget_at_empty_shift hset] at hsome
    exact absurd hsome (by simp)
  · intro ⟨hp, hshift⟩
    by_cases hunset : mode ≠ .adaptTapered ∨ shiftStart.isZero ∨ shiftEnd.isZero
    · exact tapers_of_unset hp hunset
    · rw [not_or, not_not] at hunset
      obtain ⟨rfl, hset⟩ := hunset
      apply tapers_of_shift hp hset
      rintro rfl
      exact hshift ⟨rfl, fun hz => hset (Or.inl hz), rfl⟩

theorem empty_shift_divides_by_zero : ¬ ∀ (mode : DialMethod) (dropPct : ℚ)
    (shiftStart shiftEnd : Instant), 0 ≤ dropPct → Tapers mode dropPct shiftStart shiftEnd := by
  intro h
  obtain ⟨hsome, -⟩ :=
    h .adaptTapered 3 (unixMilli 28800000) (unixMilli 28800000) (by norm_num) (unixMilli 28800000)
  rw [checkedTarget_at_empty_shift (by decide)] at hsome
  exact absurd hsome (by simp)

end Adapt

end Vici2
