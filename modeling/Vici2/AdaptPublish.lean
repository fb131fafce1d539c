import Vici2.AdaptSteering

/-! When a tick of the adaptive controller that writes no dial level leaves the published
level equal to the last level of the pace state. -/

namespace Vici2

namespace Adapt

namespace AdaptInput

variable (inp : AdaptInput)

def Held : Prop := inp.warmUp = true ∨ inp.mode ≠ .adaptHard ∧ inp.inBand

/-- The level that the law of the mode asks for, before bounds and rounding. -/
def asked : ℚ :=
  let (raiseF, lowerF) := intensityFactors inp.intensity
  let err := inp.target - inp.dropPct30d
  if inp.mode = .adaptHard then
    if inp.target ≤ inp.dropPct30d then inp.current - stepDownHardBase * lowerF
    else inp.current + stepUpBase * raiseF
  else
    inp.current + (if 0 < err then kp * err * raiseF else kp * err * lowerF) +
      (inp.lastIntegral + ki * err * inp.tickSec)

/-- The asked level rounds to the level that the current one rounds to, and the ceiling lets
that level through. -/
def Swallowed : Prop :=
  quantize (clamp inp.asked levelFloor inp.ceil) = quantize inp.current ∧
    quantize inp.current ≤ inp.ceil

end AdaptInput

def TickReads.published (r : TickReads) : Option ℚ := r.dialLevel.map Decimal.value

theorem quantize_of_nonneg {x : ℚ} (hx : 0 ≤ x) :
    quantize x = ((⌊x * 20 + 1 / 2⌋ : Int) : ℚ) / 20 := by
  have hneg : ¬ x * 20 < 0 := by linarith
  simp only [quantize, roundHalf, hneg, if_false, roundHalfPos_eq]

theorem quantize_grid {n : Int} (hn : 0 ≤ n) : quantize ((n : ℚ) / 20) = (n : ℚ) / 20 := by
  have hcast : (0 : ℚ) ≤ n := by exact_mod_cast hn
  rw [quantize_of_nonneg (by linarith)]
  have hfloor : ⌊(n : ℚ) / 20 * 20 + 1 / 2⌋ = n := by
    rw [Int.floor_eq_iff]
    constructor <;> linarith
  rw [hfloor]

theorem quantize_idem {x : ℚ} (hx : 0 ≤ x) : quantize (quantize x) = quantize x := by
  rw [quantize_of_nonneg hx]
  apply quantize_grid
  apply Int.floor_nonneg.2
  linarith

theorem floor_le_quantize {x : ℚ} (hx : levelFloor ≤ x) : levelFloor ≤ quantize x := by
  have hnonneg : 0 ≤ levelFloor := zero_le_one
  have h := quantize_mono hnonneg hx
  rwa [quantize_floor] at h

/-- Rounding a level within the bounds and clamping the result gives the level that another one
rounds to only where both round alike and the ceiling lets it through. -/
theorem clamp_quantize_eq_iff {x y ceil : ℚ} (hx : 1 ≤ x) (hxc : x ≤ ceil) (hy : 1 ≤ y) :
    clamp (quantize x) levelFloor ceil = quantize y ↔
      quantize x = quantize y ∧ quantize y ≤ ceil := by
  have hqx : levelFloor ≤ quantize x := floor_le_quantize hx
  rcases le_or_gt (quantize x) ceil with hle | hgt
  · rw [clamp_of_mem hqx hle]
    constructor
    · intro h
      exact ⟨h, h ▸ hle⟩
    · intro h
      exact h.1
  · have hclamp : clamp (quantize x) levelFloor ceil = ceil := by
      have hfloor : ¬ quantize x < levelFloor := not_lt.2 hqx
      simp only [clamp, hfloor, if_false, hgt, if_true]
    rw [hclamp]
    constructor
    · -- a ceiling on the grid is not passed by rounding what lies below it
      intro h
      have hmono := quantize_mono (by linarith) hxc
      rw [h, quantize_idem (by linarith), ← h] at hmono
      exact absurd hmono (not_le.2 hgt)
    · intro h
      exact absurd (h.1 ▸ h.2) (not_le.2 hgt)

section Decide

variable (inp : AdaptInput)

/-- The level of a tick that does not hold. -/
def landed : ℚ := clamp (quantize (clamp inp.asked levelFloor inp.ceil)) levelFloor inp.ceil

theorem landed_eq_iff : landed inp = quantize inp.current ↔ inp.Swallowed := by
  have hmem := clamp_mem (levelFloor_le_ceil inp) inp.asked
  exact clamp_quantize_eq_iff hmem.1 hmem.2 (current_mem inp).1

theorem clamp_of_le {x lo hi : ℚ} (h : x ≤ hi) : clamp x lo hi = if x < lo then lo else x := by
  simp only [clamp, not_lt.2 h, if_false]

theorem clamp_of_ge {x lo hi : ℚ} (h : lo ≤ x) : clamp x lo hi = if hi < x then hi else x := by
  simp only [clamp, not_lt.2 h, if_false]

theorem hardLimit_lands (hmode : inp.mode = .adaptHard) :
    let out := hardLimit inp inp.target inp.ceil inp.current
    out.newLevel = landed inp ∧ out.needsWrite = decide (landed inp ≠ quantize inp.current) := by
  obtain ⟨hraise, hlower⟩ := intensityFactors_nonneg inp.intensity
  obtain ⟨hlo, hhi⟩ := current_mem inp
  have hnew : (hardLimit inp inp.target inp.ceil inp.current).newLevel = landed inp := by
    unfold landed AdaptInput.asked
    by_cases hover : inp.target ≤ inp.dropPct30d
    · simp only [hardLimit, hover, hmode, if_true]
      rw [clamp_of_le (x := inp.current - _)]
      simp only [stepDownHardBase]
      linarith
    · simp only [hardLimit, hover, hmode, if_true, if_false]
      rw [clamp_of_ge (x := inp.current + _)]
      simp only [stepUpBase]
      linarith
  refine ⟨hnew, ?_⟩
  rw [← hnew]
  rfl

theorem averageWithDeadband_lands (hmode : inp.mode ≠ .adaptHard) (hband : ¬ inp.inBand) :
    let out := averageWithDeadband inp inp.target inp.ceil inp.current
    out.newLevel = landed inp ∧ out.needsWrite = decide (landed inp ≠ quantize inp.current) := by
  have hband' : ¬ |inp.target - inp.dropPct30d| ≤ inp.holdBand := hband
  unfold landed AdaptInput.asked
  simp only [averageWithDeadband, ← AdaptInput.holdBand.eq_1, hband', hmode, if_false]
  exact ⟨rfl, rfl⟩

theorem averageWithDeadband_holds (hband : inp.inBand) :
    let out := averageWithDeadband inp inp.target inp.ceil inp.current
    out.newLevel = inp.current ∧ out.needsWrite = false := by
  have hband' : |inp.target - inp.dropPct30d| ≤ inp.holdBand := hband
  simp only [averageWithDeadband, ← AdaptInput.holdBand.eq_1, hband', if_true]
  exact ⟨trivial, trivial⟩

theorem decide_of_held (h : inp.Held) :
    inp.decide.newLevel = inp.current ∧ inp.decide.needsWrite = false := by
  cases hw : inp.warmUp with
  | true =>
    unfold AdaptInput.decide
    rw [hw]
    exact ⟨rfl, rfl⟩
  | false =>
    obtain ⟨hmode, hband⟩ := h.resolve_left (by simp [hw])
    obtain ⟨reason, hlaw⟩ := decide_average_law hw hmode
    rw [hlaw]
    exact averageWithDeadband_holds inp hband

theorem decide_of_not_held (h : ¬ inp.Held) :
    inp.decide.newLevel = landed inp ∧
      inp.decide.needsWrite = decide (landed inp ≠ quantize inp.current) := by
  have hw : inp.warmUp = false := Bool.eq_false_iff.2 fun hw => h (Or.inl hw)
  by_cases hmode : inp.mode = .adaptHard
  · rw [decide_hard_law hw hmode]
    exact hardLimit_lands inp hmode
  · have hband : ¬ inp.inBand := fun hband => h (Or.inr ⟨hmode, hband⟩)
    obtain ⟨reason, hlaw⟩ := decide_average_law hw hmode
    rw [hlaw]
    exact averageWithDeadband_lands inp hmode hband

end Decide

section Publish

variable (r : TickReads) (cfg : Config)

theorem currentLevel_of_published {d : ℚ} (hd : r.published = some d) (h : 1 ≤ d) :
    r.currentLevel cfg = d := by
  obtain ⟨text, htext, rfl⟩ := Option.map_eq_some_iff.1 hd
  unfold TickReads.currentLevel
  rw [htext]
  exact if_neg (not_lt.2 h)

theorem current_of_published {d : ℚ} (hd : r.published = some d) (h : 1 ≤ d)
    (hceil : d ≤ (r.input cfg).ceil) : (r.input cfg).current = d := by
  have hlevel : (r.input cfg).currentLevel = d := currentLevel_of_published r cfg hd h
  unfold AdaptInput.current
  rw [hlevel]
  exact clamp_of_mem h hceil

/-- A published level that a tick keeps lies within the bounds. -/
theorem newLevel_mem : 1 ≤ (r.decide cfg).newLevel ∧
    (r.decide cfg).newLevel ≤ (r.input cfg).ceil := by
  rw [decide_eq_input]
  by_cases hheld : (r.input cfg).Held
  · rw [(decide_of_held _ hheld).1]
    exact current_mem _
  · rw [(decide_of_not_held _ hheld).1]
    exact clamp_mem (levelFloor_le_ceil _) _

theorem held_publishes (hheld : (r.input cfg).Held) (d : ℚ) (hd : r.published = some d) :
    d = (r.decide cfg).newLevel ↔ 1 ≤ d ∧ d ≤ (r.input cfg).ceil := by
  constructor
  · rintro rfl
    exact newLevel_mem r cfg
  · intro h
    rw [decide_eq_input, (decide_of_held _ hheld).1, current_of_published r cfg hd h.1 h.2]

theorem swallowed_publishes (hheld : ¬ (r.input cfg).Held) (hs : (r.input cfg).Swallowed) (d : ℚ)
    (hd : r.published = some d) :
    d = (r.decide cfg).newLevel ↔ (1 ≤ d ∧ d ≤ (r.input cfg).ceil) ∧ quantize d = d := by
  have hlevel : (r.decide cfg).newLevel = quantize (r.input cfg).current := by
    rw [decide_eq_input, (decide_of_not_held _ hheld).1]
    exact (landed_eq_iff _).2 hs
  constructor
  · intro h
    have hmem : 1 ≤ d ∧ d ≤ (r.input cfg).ceil := h ▸ newLevel_mem r cfg
    rw [current_of_published r cfg hd hmem.1 hmem.2] at hlevel
    exact ⟨hmem, by rw [← hlevel, ← h]⟩
  · intro h
    rw [hlevel, current_of_published r cfg hd h.1.1 h.1.2, h.2]

end Publish

/-- The ceiling was lowered to 2 while 2.50 is published, and the drop rate is on target. -/
def loweredCeiling : Config := { offGridCampaign with adaptiveMaxLevel := 2 }

end Adapt

end Vici2
