import Vici2.AdaptBounds

/-! Which way a tick moves the level. Over the target only the integral term that
earlier ticks left can raise it, by no more than what its bound exceeds the terms of
the present error; a run without ticks under the target leaves no such term. -/

namespace Vici2

namespace Adapt

namespace AdaptInput

/-- The ceiling that `Decide` works with. -/
def ceil (inp : AdaptInput) : ℚ :=
  if inp.adaptiveMaxLevel < levelFloor then levelFloor else inp.adaptiveMaxLevel

/-- The level that a tick starts from. -/
def current (inp : AdaptInput) : ℚ := clamp inp.currentLevel levelFloor inp.ceil

def tickSec (inp : AdaptInput) : ℚ := if inp.tickSeconds ≤ 0 then 15 else inp.tickSeconds

/-- Above the target by more than the hold band. -/
def overTarget (inp : AdaptInput) : Prop := inp.target + inp.holdBand < inp.dropPct30d

instance (inp : AdaptInput) : Decidable inp.overTarget := inferInstanceAs (Decidable (_ < _))

/-- What the proportional term and the new part of the integral term take off the level
when the drop rate is above the target. -/
def relief (inp : AdaptInput) : ℚ :=
  (inp.dropPct30d - inp.target) * (kp * (intensityFactors inp.intensity).2 + ki * inp.tickSec)

/-- What the largest integral term adds against the relief. -/
def lift (inp : AdaptInput) : ℚ := max 0 (iMax - inp.relief)

/-- A tick that charges the integral term: under the target by more than the hold band. -/
def charges (inp : AdaptInput) : Prop :=
  inp.warmUp = false ∧ inp.mode ≠ .adaptHard ∧ inp.dropPct30d + inp.holdBand < inp.target

instance (inp : AdaptInput) : Decidable inp.charges := inferInstanceAs (Decidable (_ ∧ _ ∧ _))

end AdaptInput

/-- A level over the target is not raised, but by rounding to the grid. -/
def NotRaised (inp : AdaptInput) : Prop :=
  inp.overTarget → inp.decide.newLevel ≤ max inp.current (quantize inp.current)

structure Steered (inp : AdaptInput) : Prop where
  hard_over : inp.mode = .adaptHard → inp.target ≤ inp.dropPct30d →
    inp.decide.newLevel ≤ inp.current
  average_over : inp.mode ≠ .adaptHard → inp.overTarget →
    inp.decide.newLevel ≤ max inp.current (quantize (inp.current + inp.lift))
  relieved : inp.lastIntegral ≤ inp.relief → NotRaised inp
  hard_under : inp.mode = .adaptHard → inp.dropPct30d < inp.target →
    min inp.current (quantize inp.current) ≤ inp.decide.newLevel

theorem clamp_le {x lo hi y : ℚ} (hx : x ≤ y) (hlo : lo ≤ y) : clamp x lo hi ≤ y := by
  unfold clamp
  split_ifs with h h'
  · exact hlo
  · exact h'.le.trans hx
  · exact hx

theorem le_clamp {x lo hi y : ℚ} (hx : y ≤ x) (hhi : y ≤ hi) : y ≤ clamp x lo hi := by
  unfold clamp
  split_ifs with h h'
  · exact hx.trans h.le
  · exact hhi
  · exact hx

theorem roundHalfPos_eq (x : ℚ) : roundHalfPos x = (⌊x + 1 / 2⌋ : Int) := by
  have hle := Int.floor_le x
  have hlt := Int.lt_floor_add_one x
  unfold roundHalfPos
  dsimp only
  split_ifs with h
  · have hfloor : ⌊x + 1 / 2⌋ = ⌊x⌋ + 1 := by
      rw [Int.floor_eq_iff]
      push_cast
      constructor <;> linarith
    rw [hfloor]
    push_cast
    rfl
  · have hfloor : ⌊x + 1 / 2⌋ = ⌊x⌋ := by
      rw [Int.floor_eq_iff]
      constructor <;> linarith
    rw [hfloor]

theorem quantize_mono {x y : ℚ} (hx : 0 ≤ x) (h : x ≤ y) : quantize x ≤ quantize y := by
  have hposx : ¬ x * 20 < 0 := by linarith
  have hposy : ¬ y * 20 < 0 := by linarith
  have hfloor : ⌊x * 20 + 1 / 2⌋ ≤ ⌊y * 20 + 1 / 2⌋ := Int.floor_le_floor (by linarith)
  have hcast : (⌊x * 20 + 1 / 2⌋ : ℚ) ≤ ⌊y * 20 + 1 / 2⌋ := by exact_mod_cast hfloor
  unfold quantize roundHalf
  rw [if_neg hposx, if_neg hposy, roundHalfPos_eq, roundHalfPos_eq]
  linarith

theorem quantize_floor : quantize levelFloor = levelFloor := by decide +kernel

section Tick

variable {inp : AdaptInput}

theorem levelFloor_le_ceil (inp : AdaptInput) : levelFloor ≤ inp.ceil := by
  unfold AdaptInput.ceil
  split_ifs with h
  · exact le_rfl
  · exact not_lt.mp h

theorem current_mem (inp : AdaptInput) : levelFloor ≤ inp.current ∧ inp.current ≤ inp.ceil :=
  clamp_mem (levelFloor_le_ceil inp) inp.currentLevel

theorem holdBand_pos (inp : AdaptInput) : 0 < inp.holdBand := by
  unfold AdaptInput.holdBand
  split_ifs with h
  · norm_num
  · exact not_le.mp h

theorem decide_hard_law (hw : inp.warmUp = false) (hmode : inp.mode = .adaptHard) :
    inp.decide = hardLimit inp inp.target inp.ceil inp.current := by
  simp [AdaptInput.decide, hw, hmode, AdaptInput.ceil, AdaptInput.current, AdaptInput.target]

theorem decide_average_law (hw : inp.warmUp = false) (hmode : inp.mode ≠ .adaptHard) :
    ∃ reason, inp.decide =
      { averageWithDeadband inp inp.target inp.ceil inp.current with reason := reason } := by
  unfold AdaptInput.decide AdaptInput.current AdaptInput.ceil AdaptInput.target
  cases hm : inp.mode with
  | adaptHard => exact absurd hm hmode
  | adaptAvg => exact ⟨_, if_neg (Bool.eq_false_iff.1 hw)⟩
  | adaptTapered => exact ⟨_, if_neg (Bool.eq_false_iff.1 hw)⟩
  | other text => exact ⟨_, if_neg (Bool.eq_false_iff.1 hw)⟩

theorem le_lowerFactor {intensity : Int} (h : intensity ≤ 20) :
    4 / 5 ≤ (intensityFactors intensity).2 := by
  have hcast : (intensity : ℚ) ≤ 20 := by exact_mod_cast h
  unfold intensityFactors
  dsimp only
  split_ifs with hpos
  · linarith
  · linarith

theorem lowerFactor_le {intensity : Int} (h : -20 ≤ intensity) :
    (intensityFactors intensity).2 ≤ 6 / 5 := by
  have hcast : (-20 : ℚ) ≤ intensity := by exact_mod_cast h
  unfold intensityFactors
  dsimp only
  split_ifs with hpos
  · norm_num
  · linarith

/-- The step down of `ADAPT_HARD` is larger than what rounding can give back. -/
theorem hard_over_le (hw : inp.warmUp = false) (hmode : inp.mode = .adaptHard)
    (hintensity : inp.intensity ≤ 20) (hover : inp.target ≤ inp.dropPct30d) :
    inp.decide.newLevel ≤ inp.current := by
  obtain ⟨hfloor, -⟩ := current_mem inp
  have hlower := le_lowerFactor hintensity
  rw [decide_hard_law hw hmode]
  unfold hardLimit
  simp only [hover, if_true]
  split_ifs with hstep
  · rw [quantize_floor]
    exact clamp_le hfloor hfloor
  · have hround := abs_quantize_sub_le (x := inp.current - stepDownHardBase * (intensityFactors inp.intensity).2)
      (le_trans (by norm_num [levelFloor]) (not_lt.mp hstep))
    rw [abs_le, halfQuantum] at hround
    refine clamp_le ?_ hfloor
    have hbase : stepDownHardBase = 1 / 5 := rfl
    rw [hbase] at hround ⊢
    linarith [hround.2]

theorem hard_under_le (hw : inp.warmUp = false) (hmode : inp.mode = .adaptHard)
    (hunder : inp.dropPct30d < inp.target) :
    min inp.current (quantize inp.current) ≤ inp.decide.newLevel := by
  obtain ⟨hfloor, hceil⟩ := current_mem inp
  have hraise := (intensityFactors_nonneg inp.intensity).1
  have hpos : 0 ≤ inp.current := le_trans (by norm_num [levelFloor]) hfloor
  have hup : ∀ level, inp.current ≤ level →
      min inp.current (quantize inp.current) ≤ clamp (quantize level) levelFloor inp.ceil := by
    intro level hlevel
    refine le_clamp ?_ ((min_le_left _ _).trans hceil)
    exact (min_le_right _ _).trans (quantize_mono hpos hlevel)
  rw [decide_hard_law hw hmode]
  unfold hardLimit
  simp only [not_le.mpr hunder, if_false]
  apply hup
  split_ifs with h
  · exact hceil
  · have hbase : stepUpBase = 1 / 20 := rfl
    rw [hbase]
    linarith

theorem tickSec_pos (inp : AdaptInput) : 0 < inp.tickSec := by
  unfold AdaptInput.tickSec
  split_ifs with h
  · norm_num
  · exact not_le.mp h

/-- Where an averaging mode takes the level over the target: the remembered integral less the
relief, within bounds. -/
def AdaptInput.eased (inp : AdaptInput) : ℚ :=
  clamp (inp.current + (inp.lastIntegral - inp.relief)) levelFloor inp.ceil

theorem average_over (hw : inp.warmUp = false) (hmode : inp.mode ≠ .adaptHard)
    (hover : inp.overTarget) :
    inp.decide.newLevel = clamp (quantize inp.eased) levelFloor inp.ceil ∧
      inp.decide.newIntegral = clampIntegral (inp.lastIntegral -
        ki * (inp.dropPct30d - inp.target) * inp.tickSec +
          kBack * (inp.eased - (inp.current + (inp.lastIntegral - inp.relief)))) := by
  have hband := holdBand_pos inp
  unfold AdaptInput.overTarget at hover
  have hneg : ¬ 0 < inp.target - inp.dropPct30d := by linarith
  have hfar : ¬ |inp.target - inp.dropPct30d| ≤ inp.holdBand := by
    rw [abs_of_neg (by linarith)]
    linarith
  have hmove : inp.current + kp * (inp.target - inp.dropPct30d) * (intensityFactors inp.intensity).2 +
      (inp.lastIntegral + ki * (inp.target - inp.dropPct30d) * inp.tickSec) =
        inp.current + (inp.lastIntegral - inp.relief) := by
    unfold AdaptInput.relief
    ring
  have hterm : inp.lastIntegral + ki * (inp.target - inp.dropPct30d) * inp.tickSec =
      inp.lastIntegral - ki * (inp.dropPct30d - inp.target) * inp.tickSec := by ring
  obtain ⟨reason, hlaw⟩ := decide_average_law hw hmode
  rw [hlaw]
  unfold averageWithDeadband
  simp only [← AdaptInput.holdBand.eq_1, ← AdaptInput.tickSec.eq_1, hfar, hneg, if_false, hmove]
  rw [hterm]
  exact ⟨rfl, rfl⟩

theorem average_over_le (hw : inp.warmUp = false) (hmode : inp.mode ≠ .adaptHard)
    (hover : inp.overTarget) {lift : ℚ} (hlift : 0 ≤ lift)
    (hle : inp.lastIntegral - inp.relief ≤ lift) :
    inp.decide.newLevel ≤ max inp.current (quantize (inp.current + lift)) := by
  obtain ⟨hfloor, -⟩ := current_mem inp
  have heased : inp.eased ≤ inp.current + lift := clamp_le (by linarith) (by linarith)
  have hnonneg : 0 ≤ inp.eased :=
    le_trans (by norm_num [levelFloor]) (clamp_mem (levelFloor_le_ceil inp) _).1
  rw [(average_over hw hmode hover).1]
  refine clamp_le ?_ (hfloor.trans (le_max_left _ _))
  exact (quantize_mono hnonneg heased).trans (le_max_right _ _)

theorem hard_over_target (hw : inp.warmUp = false) (hmode : inp.mode = .adaptHard)
    (hintensity : inp.intensity ≤ 20) (hover : inp.overTarget) :
    inp.decide.newLevel ≤ inp.current := by
  have hband := holdBand_pos inp
  unfold AdaptInput.overTarget at hover
  exact hard_over_le hw hmode hintensity (by linarith)

theorem notRaised (hw : inp.warmUp = false) (hintensity : inp.intensity ≤ 20)
    (hrelieved : inp.lastIntegral ≤ inp.relief) : NotRaised inp := by
  intro hover
  by_cases hmode : inp.mode = .adaptHard
  · exact (hard_over_target hw hmode hintensity hover).trans (le_max_left _ _)
  · have hle := average_over_le hw hmode hover le_rfl (by linarith)
    rwa [add_zero] at hle

theorem steered (hw : inp.warmUp = false) (hintensity : inp.intensity ≤ 20)
    (hlast : inp.lastIntegral ≤ iMax) : Steered inp where
  hard_over := fun hmode hover => hard_over_le hw hmode hintensity hover
  average_over := by
    intro hmode hover
    refine average_over_le hw hmode hover (le_max_left _ _) (le_trans ?_ (le_max_right _ _))
    linarith
  relieved := notRaised hw hintensity
  hard_under := hard_under_le hw

theorem relief_nonneg (hover : inp.overTarget) : 0 ≤ inp.relief := by
  have hband := holdBand_pos inp
  have hlower := (intensityFactors_nonneg inp.intensity).2
  have htick := tickSec_pos inp
  unfold AdaptInput.overTarget at hover
  have hfactor : 0 ≤ kp * (intensityFactors inp.intensity).2 + ki * inp.tickSec := by
    unfold kp ki
    linarith
  exact mul_nonneg (by linarith) hfactor

end Tick

section History

theorem clampIntegral_nonpos {i : ℚ} (h : i ≤ 0) : clampIntegral i ≤ 0 :=
  clamp_le h (by norm_num [iMax])

/-- What the back-calculation gives back of the relief is less than what the present error
charges the integral term with. -/
theorem kBack_relief_le {inp : AdaptInput} (hintensity : -20 ≤ inp.intensity)
    (htick : 1 ≤ inp.tickSec) (hover : inp.overTarget) :
    kBack * inp.relief ≤ ki * (inp.dropPct30d - inp.target) * inp.tickSec := by
  have hband := holdBand_pos inp
  have hfactor := lowerFactor_le hintensity
  unfold AdaptInput.overTarget at hover
  have hstep : kBack * (kp * (intensityFactors inp.intensity).2 + ki * inp.tickSec) ≤
      ki * inp.tickSec := by
    unfold kBack kp ki
    linarith
  have herr : 0 ≤ inp.dropPct30d - inp.target := by linarith
  calc kBack * inp.relief
      = (inp.dropPct30d - inp.target) *
          (kBack * (kp * (intensityFactors inp.intensity).2 + ki * inp.tickSec)) := by
        unfold AdaptInput.relief
        ring
    _ ≤ (inp.dropPct30d - inp.target) * (ki * inp.tickSec) := mul_le_mul_of_nonneg_left hstep herr
    _ = ki * (inp.dropPct30d - inp.target) * inp.tickSec := by ring

theorem average_over_nonpos {inp : AdaptInput} (hw : inp.warmUp = false)
    (hmode : inp.mode ≠ .adaptHard) (hintensity : -20 ≤ inp.intensity) (htick : 1 ≤ inp.tickSec)
    (hlast : inp.lastIntegral ≤ 0) (hover : inp.overTarget) : inp.decide.newIntegral ≤ 0 := by
  obtain ⟨hfloor, -⟩ := current_mem inp
  have hrelief := relief_nonneg hover
  have hback := kBack_relief_le hintensity htick hover
  have heased : inp.eased ≤ inp.current := clamp_le (by linarith) hfloor
  rw [(average_over hw hmode hover).2]
  apply clampIntegral_nonpos
  have hgiven : kBack * (inp.eased - (inp.current + (inp.lastIntegral - inp.relief))) ≤
      kBack * (inp.relief - inp.lastIntegral) :=
    mul_le_mul_of_nonneg_left (by linarith) (by norm_num [kBack])
  have hrest : inp.lastIntegral - kBack * inp.lastIntegral ≤ 0 := by
    unfold kBack
    linarith
  linarith

/-- A tick that does not charge the integral term leaves none where there was none. -/
theorem newIntegral_nonpos {inp : AdaptInput} (hintensity : -20 ≤ inp.intensity)
    (htick : 1 ≤ inp.tickSec) (hlast : inp.lastIntegral ≤ 0) (hcharges : ¬ inp.charges) :
    inp.decide.newIntegral ≤ 0 := by
  cases hw : inp.warmUp with
  | true =>
    have hsame : inp.decide.newIntegral = inp.lastIntegral := by simp [AdaptInput.decide, hw]
    rw [hsame]
    exact hlast
  | false =>
    by_cases hmode : inp.mode = .adaptHard
    · rw [decide_hard_law hw hmode]
      exact le_refl 0
    by_cases hover : inp.overTarget
    · exact average_over_nonpos hw hmode hintensity htick hlast hover
    · have hunder : ¬ inp.dropPct30d + inp.holdBand < inp.target :=
        fun h => hcharges ⟨hw, hmode, h⟩
      have hband : |inp.target - inp.dropPct30d| ≤ inp.holdBand := by
        unfold AdaptInput.overTarget at hover
        rw [abs_le]
        constructor <;> linarith
      obtain ⟨reason, hlaw⟩ := decide_average_law hw hmode
      rw [hlaw]
      unfold averageWithDeadband
      simp only [← AdaptInput.holdBand.eq_1, hband, if_true]
      apply clampIntegral_nonpos
      unfold integralBleed
      linarith

theorem nonpos_save {ps : PaceState} (h : ps.integralTerm ≤ 0) :
    parseFloat (savePaceState ps).integralTerm ≤ 0 := by
  have hround := roundHalfEven_le (q := ps.integralTerm * 10 ^ 6) (n := 0) (by
    push_cast
    linarith)
  have hcast : (roundHalfEven (ps.integralTerm * 10 ^ 6) : ℚ) ≤ 0 := by exact_mod_cast hround
  exact div_nonpos_of_nonpos_of_nonneg hcast (by norm_num)

theorem loaded_nonpos {h : PaceHash} (hh : parseFloat h.integralTerm ≤ 0) (t : AdaptTick) :
    ((t.reads h).input t.cfg).lastIntegral ≤ 0 := by
  show ((t.reads h).loaded t.cfg).integralTerm ≤ 0
  unfold TickReads.loaded
  split_ifs
  · exact le_refl 0
  · exact hh

theorem one_le_tickSec (h : PaceHash) (t : AdaptTick) :
    1 ≤ ((t.reads h).input t.cfg).tickSec := by
  show 1 ≤ if (t.cfg.adaptTickSeconds : ℚ) ≤ 0 then (15 : ℚ) else t.cfg.adaptTickSeconds
  split_ifs with hzero
  · norm_num
  · have hpos : 0 < t.cfg.adaptTickSeconds := by exact_mod_cast not_le.mp hzero
    exact_mod_cast hpos

end History

/-- Over every run of ticks from a cold start, in any mix of modes. Over the target a level is
raised by no more than the bound of the integral term lets through, and not at all, but for the
grid, in a run none of whose ticks has charged that term. -/
theorem steered_along_run (l : List AdaptTick)
    (hintensity : ∀ t ∈ l, -20 ≤ t.cfg.intensity ∧ t.cfg.intensity ≤ 20) :
    EachStep adaptTick (fun h t => (t.reads h).warmUp t.cfg = false →
        Steered ((t.reads h).input t.cfg)) {} l ∧
      (EachStep adaptTick (fun h t => ¬ ((t.reads h).input t.cfg).charges) {} l →
        EachStep adaptTick (fun h t => (t.reads h).warmUp t.cfg = false →
          NotRaised ((t.reads h).input t.cfg)) {} l) := by
  have hticks : EachStep adaptTick
      (fun _ t => -20 ≤ t.cfg.intensity ∧ t.cfg.intensity ≤ 20) {} l :=
    eachStep_of_forall_mem hintensity _
  constructor
  · refine eachStep_of_invariant (I := IntegralBounded)
      (fun h t hh _ => IntegralBounded.adaptTick hh t) ?_ integralBounded_start hticks
    intro h t hh ht hw
    exact @steered ((t.reads h).input t.cfg) hw ht.2 (loaded_mem hh t).2
  · intro hcharges
    refine eachStep_of_invariant (I := fun h => parseFloat h.integralTerm ≤ 0) ?_ ?_ (le_refl 0)
      (hticks.and hcharges)
    · intro h t hh ht
      exact nonpos_save (@newIntegral_nonpos ((t.reads h).input t.cfg) ht.1.1 (one_le_tickSec h t)
        (loaded_nonpos hh t) ht.2)
    · intro h t hh ht hw hover
      exact @notRaised ((t.reads h).input t.cfg) hw ht.1.2
        ((loaded_nonpos hh t).trans (relief_nonneg hover)) hover

/-- Neither up while over the target nor, in `ADAPT_HARD`, down while under it. -/
def NeverWrongWay (inp : AdaptInput) : Prop :=
  inp.warmUp = false → (inp.overTarget → inp.decide.newLevel ≤ inp.current) ∧
    (inp.mode = .adaptHard → inp.dropPct30d < inp.target → inp.current ≤ inp.decide.newLevel)

def averageCampaign : Config where
  mode := .adaptAvg
  adaptiveDropPct := 3 / 2
  adaptiveMaxLevel := 5
  autoDialLevel := 1
  intensity := 0
  holdBandPP := 3 / 10
  adaptTickSeconds := 15
  warmupMinAnswered := 0
  warmupMinSeconds := 0

def averageTick (dropPct : ℚ) : AdaptTick := ⟨averageCampaign, none, some dropPct, unixMilli 1000⟩

/-- A dial level of 2.23 set by hand, in a campaign that holds in a narrow band only. -/
def overriddenTick : AdaptTick :=
  ⟨{ averageCampaign with holdBandPP := 1 / 100 }, some ⟨223, 2⟩, some (76 / 50), unixMilli 1000⟩

def hardTick : AdaptTick :=
  ⟨{ offGridCampaign with mode := .adaptHard }, none, some 0, unixMilli 1000⟩

theorem steered_after_dead_calls :
    EachStep adaptTick (fun h t => (t.reads h).warmUp t.cfg = false →
        Steered ((t.reads h).input t.cfg)) {} [averageTick 0, averageTick 2] ∧
      EachStep adaptTick (fun h t => (t.reads h).warmUp t.cfg = false →
        NotRaised ((t.reads h).input t.cfg)) {} [averageTick (3 / 2), averageTick 2] := by
  have hintensity : ∀ l : List ℚ, ∀ t ∈ l.map averageTick,
      -20 ≤ t.cfg.intensity ∧ t.cfg.intensity ≤ 20 := by
    simp [averageTick, averageCampaign]
  exact ⟨(steered_along_run _ (hintensity [0, 2])).1,
    (steered_along_run _ (hintensity [3 / 2, 2])).2 (by decide +kernel)⟩

/-- Built up over one tick without drops, the integral raises the level at a drop rate
half a point over the target; a level that is not on the grid is rounded up over the
target, and rounded down under it. -/
theorem level_raised_over_target :
    ¬ EachStep adaptTick (fun h t => NeverWrongWay ((t.reads h).input t.cfg)) {}
        [averageTick 0, averageTick 2] ∧
      ¬ EachStep adaptTick (fun h t => NeverWrongWay ((t.reads h).input t.cfg)) {} [overriddenTick] ∧
      ¬ EachStep adaptTick (fun h t => NeverWrongWay ((t.reads h).input t.cfg)) {} [hardTick] := by
  refine ⟨?_, ?_, ?_⟩
  · rintro ⟨-, h, -⟩
    have hlevel := (h (by decide +kernel)).1 (by decide +kernel)
    revert hlevel
    decide +kernel
  · rintro ⟨h, -⟩
    have hlevel := (h (by decide +kernel)).1 (by decide +kernel)
    revert hlevel
    decide +kernel
  · rintro ⟨h, -⟩
    have hlevel := (h (by decide +kernel)).2 (by decide +kernel) (by decide +kernel)
    revert hlevel
    decide +kernel

end Adapt

end Vici2
