import Mathlib.Tactic.Linarith
import Vici2.Adapt
import Vici2.Runs

/-! Bounds of the controller over whole runs of ticks from a cold start: the level, the
persisted integral term, the ticks that hold and the steps of `ADAPT_HARD`. A hold
outside the dead band is a step that the 0.05 grid has swallowed, and it leaves the
level on the grid. -/

namespace Vici2

namespace Adapt

/-- What one tick meets beside the pace state. -/
structure AdaptTick where
  cfg : Config
  dialLevel : Option Decimal
  dropPct30d : Option ℚ
  now : Instant

def AdaptTick.reads (t : AdaptTick) (h : PaceHash) : TickReads :=
  ⟨t.dialLevel, t.dropPct30d, h, t.now⟩

def adaptTick (h : PaceHash) (t : AdaptTick) : PaceHash :=
  savePaceState ((t.reads h).nextPaceState t.cfg)

/-- The input of `Decide` in a tick. -/
def TickReads.input (r : TickReads) (cfg : Config) : AdaptInput where
  mode := cfg.mode
  dropPct30d := r.dropPct
  adaptiveDropPct := cfg.adaptiveDropPct
  currentLevel := r.currentLevel cfg
  adaptiveMaxLevel := cfg.adaptiveMaxLevel
  intensity := cfg.intensity
  holdBandPP := cfg.holdBandPP
  lastIntegral := (r.loaded cfg).integralTerm
  lastTickTs := (r.loaded cfg).lastTickTs
  now := r.now
  tickSeconds := cfg.adaptTickSeconds
  warmUp := r.warmUp cfg
  shiftStart := cfg.shiftStartLocal.getD 0
  shiftEnd := cfg.shiftEndLocal.getD 0

theorem decide_eq_input (r : TickReads) (cfg : Config) : r.decide cfg = (r.input cfg).decide := rfl

namespace AdaptInput

/-- The current level clamped to the ceiling. -/
def clampedLevel (inp : AdaptInput) : ℚ := clamp inp.currentLevel levelFloor inp.adaptiveMaxLevel

def target (inp : AdaptInput) : ℚ :=
  resolveTarget inp.mode inp.adaptiveDropPct inp.shiftStart inp.shiftEnd inp.now

def holdBand (inp : AdaptInput) : ℚ := if inp.holdBandPP ≤ 0 then 3 / 10 else inp.holdBandPP

def inBand (inp : AdaptInput) : Prop := |inp.target - inp.dropPct30d| ≤ inp.holdBand

instance (inp : AdaptInput) : Decidable inp.inBand := inferInstanceAs (Decidable (_ ≤ _))

/-- The intensity-scaled step of `ADAPT_HARD`. -/
def hardStep (inp : AdaptInput) : ℚ :=
  if inp.target ≤ inp.dropPct30d then 1 / 5 * (intensityFactors inp.intensity).2
  else 1 / 20 * (intensityFactors inp.intensity).1

end AdaptInput

/-- Half of the 0.05 that levels are quantised to. -/
def halfQuantum : ℚ := 1 / 40

structure TickBounds (inp : AdaptInput) : Prop where
  level : 1 ≤ inp.decide.newLevel ∧ inp.decide.newLevel ≤ inp.adaptiveMaxLevel
  warmUp : inp.decide.actionTaken = .warmUp → inp.decide.newLevel = inp.clampedLevel
  hold : inp.decide.actionTaken = .hold → inp.inBand → inp.decide.newLevel = inp.clampedLevel
  swallowed : inp.decide.actionTaken = .hold → ¬ inp.inBand →
    inp.decide.newLevel = quantize inp.clampedLevel
  hard : inp.mode = .adaptHard → |inp.decide.newLevel - inp.clampedLevel| ≤ inp.hardStep + halfQuantum

def IntegralBounded (h : PaceHash) : Prop :=
  -(1 / 2) ≤ parseFloat h.integralTerm ∧ parseFloat h.integralTerm ≤ 1 / 2

theorem clamp_mem {lo hi : ℚ} (h : lo ≤ hi) (x : ℚ) : lo ≤ clamp x lo hi ∧ clamp x lo hi ≤ hi := by
  unfold clamp
  split_ifs with hlo hhi
  · exact ⟨le_rfl, h⟩
  · exact ⟨h, le_rfl⟩
  · exact ⟨not_lt.mp hlo, not_lt.mp hhi⟩

theorem clamp_of_mem {x lo hi : ℚ} (hlo : lo ≤ x) (hhi : x ≤ hi) : clamp x lo hi = x := by
  simp [clamp, not_lt.mpr hlo, not_lt.mpr hhi]

/-- Clamping brings a value no farther from a point of the interval. -/
theorem abs_clamp_sub_le {x y lo hi : ℚ} (hlo : lo ≤ y) (hhi : y ≤ hi) :
    |clamp x lo hi - y| ≤ |x - y| := by
  unfold clamp
  split_ifs with hx hx'
  · rw [abs_sub_comm, abs_sub_comm x, abs_of_nonneg (by linarith), abs_of_nonneg (by linarith)]
    linarith
  · rw [abs_of_nonneg (by linarith), abs_of_nonneg (by linarith)]
    linarith
  · exact le_rfl

theorem abs_roundHalfPos_sub_le (x : ℚ) : |roundHalfPos x - x| ≤ 1 / 2 := by
  have hle := Int.floor_le x
  have hlt := Int.lt_floor_add_one x
  simp only [roundHalfPos]
  split_ifs with h
  · rw [abs_le]
    constructor <;> linarith
  · rw [abs_le]
    constructor <;> linarith

theorem abs_quantize_sub_le {x : ℚ} (hx : 0 ≤ x) : |quantize x - x| ≤ halfQuantum := by
  have h := abs_roundHalfPos_sub_le (x * 20)
  have hneg : ¬ x * 20 < 0 := by linarith
  have heq : quantize x - x = (roundHalfPos (x * 20) - x * 20) / 20 := by
    simp only [quantize, roundHalf, hneg, if_false]
    ring
  rw [heq, abs_div]
  have h20 : |(20 : ℚ)| = 20 := by norm_num
  rw [h20, halfQuantum]
  linarith

theorem intensityFactors_nonneg (intensity : Int) :
    0 ≤ (intensityFactors intensity).1 ∧ 0 ≤ (intensityFactors intensity).2 := by
  simp only [intensityFactors]
  constructor <;> split_ifs <;> linarith

theorem hardStep_nonneg (inp : AdaptInput) : 0 ≤ inp.hardStep := by
  obtain ⟨hraise, hlower⟩ := intensityFactors_nonneg inp.intensity
  unfold AdaptInput.hardStep
  split_ifs <;> linarith

theorem clampIntegral_mem (i : ℚ) : -(1 / 2) ≤ clampIntegral i ∧ clampIntegral i ≤ 1 / 2 :=
  clamp_mem (by norm_num [iMax]) i

theorem eq_of_hold {new q : ℚ} (h : (if q < new then AdaptAction.raise
    else if new < q then .lowerSoft else .hold) = .hold) : new = q := by
  split_ifs at h with hraise hlower
  exact le_antisymm (not_lt.mp hraise) (not_lt.mp hlower)

/-- `AverageWithDeadband` for a current level within bounds. -/
theorem averageWithDeadband_bounds (inp : AdaptInput) (target : ℚ) {ceil current : ℚ} (hlo : 1 ≤ current)
    (hhi : current ≤ ceil) :
    let out := averageWithDeadband inp target ceil current
    (1 ≤ out.newLevel ∧ out.newLevel ≤ ceil) ∧ out.actionTaken ≠ .warmUp ∧
      (out.actionTaken = .hold → |target - inp.dropPct30d| ≤ inp.holdBand →
        out.newLevel = current) ∧
      (out.actionTaken = .hold → ¬ |target - inp.dropPct30d| ≤ inp.holdBand →
        out.newLevel = quantize current) := by
  simp only [averageWithDeadband, ← AdaptInput.holdBand.eq_1]
  by_cases hband : |target - inp.dropPct30d| ≤ inp.holdBand
  · simp only [hband, if_true]
    exact ⟨⟨hlo, hhi⟩, by simp, fun _ _ => trivial, fun _ h => absurd trivial h⟩
  · simp only [hband, if_false]
    refine ⟨clamp_mem (hlo.trans hhi) _, ?_, fun _ h => h.elim, ?_⟩
    · split_ifs <;> simp
    · exact fun haction _ => eq_of_hold haction

theorem hardLimit_bounds (inp : AdaptInput) (target : ℚ) {ceil current : ℚ} (hlo : 1 ≤ current)
    (hhi : current ≤ ceil) :
    let out := hardLimit inp target ceil current
    (1 ≤ out.newLevel ∧ out.newLevel ≤ ceil) ∧
      out.actionTaken ≠ .warmUp ∧ out.actionTaken ≠ .hold ∧
      |out.newLevel - current| ≤ (if target ≤ inp.dropPct30d then
        1 / 5 * (intensityFactors inp.intensity).2
        else 1 / 20 * (intensityFactors inp.intensity).1) + halfQuantum := by
  obtain ⟨hraise, hlower⟩ := intensityFactors_nonneg inp.intensity
  -- the level before quantisation lies in the bounds, within one step of the current one
  have hmove : ∀ level step : ℚ, 1 ≤ level → level ≤ ceil → |level - current| ≤ step →
      |clamp (quantize level) levelFloor ceil - current| ≤ step + halfQuantum := by
    intro level step h1 hc hstep
    have hclamp := abs_clamp_sub_le (x := quantize level) h1 hc
    have hquantum := abs_quantize_sub_le (x := level) (by linarith)
    have htriangle := abs_sub_le (clamp (quantize level) levelFloor ceil) level current
    simp only [levelFloor] at htriangle ⊢
    linarith
  by_cases hover : target ≤ inp.dropPct30d
  · simp only [hardLimit, hover, if_true]
    refine ⟨clamp_mem (hlo.trans hhi) _, by simp, by simp, hmove _ _ ?_ ?_ ?_⟩
    · split_ifs with h
      · exact le_rfl
      · exact not_lt.mp h
    · split_ifs with h
      · exact hlo.trans hhi
      · simp only [stepDownHardBase]
        linarith
    · split_ifs with h
      · simp only [levelFloor, stepDownHardBase] at h ⊢
        rw [abs_sub_comm, abs_of_nonneg (by linarith)]
        linarith
      · simp only [stepDownHardBase]
        rw [abs_sub_comm, abs_of_nonneg (by linarith)]
        linarith
  · simp only [hardLimit, hover, if_false]
    refine ⟨clamp_mem (hlo.trans hhi) _, by simp, by simp, hmove _ _ ?_ ?_ ?_⟩
    · split_ifs with h
      · exact hlo.trans hhi
      · simp only [stepUpBase]
        linarith
    · split_ifs with h
      · exact le_rfl
      · exact not_lt.mp h
    · split_ifs with h
      · simp only [stepUpBase] at h ⊢
        rw [abs_of_nonneg (by linarith)]
        linarith
      · simp only [stepUpBase]
        rw [abs_of_nonneg (by linarith)]
        linarith

theorem decide_warmUp {inp : AdaptInput} (hceil : 1 ≤ inp.adaptiveMaxLevel)
    (hw : inp.warmUp = true) : inp.decide.newLevel = inp.clampedLevel ∧
      inp.decide.actionTaken = .warmUp := by
  have hmax : ¬ inp.adaptiveMaxLevel < levelFloor := not_lt.mpr hceil
  simp [AdaptInput.decide, hw, hmax, AdaptInput.clampedLevel]

theorem decide_hard {inp : AdaptInput} (hceil : 1 ≤ inp.adaptiveMaxLevel)
    (hw : inp.warmUp = false) (hmode : inp.mode = .adaptHard) :
    inp.decide = hardLimit inp inp.target inp.adaptiveMaxLevel inp.clampedLevel := by
  have hmax : ¬ inp.adaptiveMaxLevel < levelFloor := not_lt.mpr hceil
  simp [AdaptInput.decide, hw, hmode, hmax, AdaptInput.clampedLevel, AdaptInput.target]

theorem decide_average {inp : AdaptInput} (hceil : 1 ≤ inp.adaptiveMaxLevel)
    (hw : inp.warmUp = false) (hmode : inp.mode ≠ .adaptHard) :
    let out := averageWithDeadband inp inp.target inp.adaptiveMaxLevel inp.clampedLevel
    inp.decide.newLevel = out.newLevel ∧ inp.decide.actionTaken = out.actionTaken := by
  have hmax : ¬ inp.adaptiveMaxLevel < levelFloor := not_lt.mpr hceil
  cases hm : inp.mode with
  | adaptHard => exact absurd hm hmode
  | adaptAvg => simp [AdaptInput.decide, hw, hm, hmax, AdaptInput.clampedLevel, AdaptInput.target]
  | adaptTapered =>
    simp [AdaptInput.decide, hw, hm, hmax, AdaptInput.clampedLevel, AdaptInput.target]
  | other text => simp [AdaptInput.decide, hw, hm, hmax, AdaptInput.clampedLevel, AdaptInput.target]

theorem tickBounds {inp : AdaptInput} (hceil : 1 ≤ inp.adaptiveMaxLevel) : TickBounds inp := by
  have hmem : 1 ≤ inp.clampedLevel ∧ inp.clampedLevel ≤ inp.adaptiveMaxLevel :=
    clamp_mem hceil inp.currentLevel
  cases hw : inp.warmUp with
  | true =>
    obtain ⟨hlevel, haction⟩ := decide_warmUp hceil hw
    have hstep := hardStep_nonneg inp
    refine ⟨hlevel ▸ hmem, fun _ => hlevel, ?_, ?_, fun _ => ?_⟩
    · simp [haction]
    · simp [haction]
    · rw [hlevel, sub_self, abs_zero, halfQuantum]
      linarith
  | false =>
    by_cases hmode : inp.mode = .adaptHard
    · obtain ⟨hlevel, hwarm, hhold, hmove⟩ := hardLimit_bounds inp inp.target hmem.1 hmem.2
      rw [← decide_hard hceil hw hmode] at hlevel hwarm hhold hmove
      exact ⟨hlevel, fun h => absurd h hwarm, fun h => absurd h hhold, fun h => absurd h hhold,
        fun _ => hmove⟩
    · obtain ⟨hlevel, hwarm, hhold, hswallowed⟩ :=
        averageWithDeadband_bounds inp inp.target hmem.1 hmem.2
      obtain ⟨hl, ha⟩ := decide_average hceil hw hmode
      rw [← hl] at hlevel hhold hswallowed
      rw [← ha] at hwarm hhold hswallowed
      exact ⟨hlevel, fun h => absurd h hwarm, hhold, hswallowed, fun h => absurd h hmode⟩

theorem averageWithDeadband_integral (inp : AdaptInput) (target ceil current : ℚ) :
    ∃ i, (averageWithDeadband inp target ceil current).newIntegral = clampIntegral i := by
  unfold averageWithDeadband
  dsimp only
  split_ifs <;> exact ⟨_, rfl⟩

/-- The integral term after a tick: that of the pace state in warm-up, none in `ADAPT_HARD`, else
clamped. -/
theorem newIntegral_cases (inp : AdaptInput) :
    (inp.warmUp = true ∧ inp.decide.newIntegral = inp.lastIntegral) ∨
      inp.decide.newIntegral = 0 ∨ ∃ i, inp.decide.newIntegral = clampIntegral i := by
  cases hw : inp.warmUp with
  | true =>
    left
    simp [AdaptInput.decide, hw]
  | false =>
    right
    unfold AdaptInput.decide
    simp only [hw, Bool.false_eq_true, if_false]
    cases inp.mode with
    | adaptHard => exact Or.inl rfl
    | adaptAvg => exact Or.inr (averageWithDeadband_integral inp _ _ _)
    | adaptTapered => exact Or.inr (averageWithDeadband_integral inp _ _ _)
    | other text => exact Or.inr (averageWithDeadband_integral inp _ _ _)

theorem newIntegral_mem {inp : AdaptInput}
    (hlast : -(1 / 2) ≤ inp.lastIntegral ∧ inp.lastIntegral ≤ 1 / 2) :
    -(1 / 2) ≤ inp.decide.newIntegral ∧ inp.decide.newIntegral ≤ 1 / 2 := by
  rcases newIntegral_cases inp with ⟨-, h⟩ | h | ⟨i, h⟩
  · rw [h]
    exact hlast
  · rw [h]
    norm_num
  · rw [h]
    exact clampIntegral_mem i

theorem le_roundHalfEven {q : ℚ} {n : Int} (h : (n : ℚ) ≤ q) : n ≤ roundHalfEven q := by
  have hfloor : n ≤ ⌊q⌋ := Int.le_floor.mpr h
  simp only [roundHalfEven]
  split_ifs <;> omega

theorem roundHalfEven_le {q : ℚ} {n : Int} (h : q ≤ n) : roundHalfEven q ≤ n := by
  have hle : (⌊q⌋ : ℚ) ≤ n := (Int.floor_le q).trans h
  have hceil : q - ⌊q⌋ ≠ 0 → ⌊q⌋ + 1 ≤ n := by
    intro hne
    have hlt : (⌊q⌋ : ℚ) < n :=
      lt_of_lt_of_le (lt_of_le_of_ne (Int.floor_le q) fun h => hne (by linarith)) h
    exact_mod_cast hlt
  have hle' : ⌊q⌋ ≤ n := by exact_mod_cast hle
  simp only [roundHalfEven]
  split_ifs with h1 h2 h3
  · exact hle'
  · exact hceil (by linarith)
  · exact hle'
  · exact hceil (by linarith)

theorem integralBounded_save {ps : PaceState}
    (h : -(1 / 2) ≤ ps.integralTerm ∧ ps.integralTerm ≤ 1 / 2) :
    IntegralBounded (savePaceState ps) := by
  have hr := le_roundHalfEven (q := ps.integralTerm * 10 ^ 6) (n := -500000)
    (by push_cast; linarith)
  have hr' := roundHalfEven_le (q := ps.integralTerm * 10 ^ 6) (n := 500000)
    (by push_cast; linarith)
  have hlo : (-500000 : ℚ) ≤ roundHalfEven (ps.integralTerm * 10 ^ 6) := by exact_mod_cast hr
  have hhi : (roundHalfEven (ps.integralTerm * 10 ^ 6) : ℚ) ≤ 500000 := by exact_mod_cast hr'
  simp only [IntegralBounded, savePaceState, parseFloat, Option.map_some, Option.getD_some,
    Decimal.value, formatFloat]
  have hscale : (1 / 2 : ℚ) * 10 ^ 6 = 500000 := by norm_num
  constructor
  · rw [le_div_iff₀ (by norm_num), neg_mul, hscale]
    exact hlo
  · rw [div_le_iff₀ (by norm_num), hscale]
    exact hhi

theorem loaded_mem {h : PaceHash} (hh : IntegralBounded h) (t : AdaptTick) :
    -(1 / 2) ≤ ((t.reads h).loaded t.cfg).integralTerm ∧
      ((t.reads h).loaded t.cfg).integralTerm ≤ 1 / 2 := by
  unfold TickReads.loaded
  split_ifs
  · norm_num [initPaceState]
  · exact hh

theorem IntegralBounded.adaptTick {h : PaceHash} (hh : IntegralBounded h) (t : AdaptTick) :
    IntegralBounded (adaptTick h t) :=
  integralBounded_save (@newIntegral_mem ((t.reads h).input t.cfg) (loaded_mem hh t))

theorem integralBounded_start : IntegralBounded {} := by norm_num [IntegralBounded, parseFloat]

/-- Over every run of ticks from a cold start, whatever each tick meets and however the
configuration changes above a ceiling of one. -/
theorem adapt_bounds_along_run (l : List AdaptTick)
    (hceil : ∀ t ∈ l, 1 ≤ t.cfg.adaptiveMaxLevel) :
    Always adaptTick IntegralBounded {} l ∧
      EachStep adaptTick (fun h t => TickBounds ((t.reads h).input t.cfg)) {} l := by
  have hticks : EachStep adaptTick (fun _ t => 1 ≤ t.cfg.adaptiveMaxLevel) {} l :=
    eachStep_of_forall_mem hceil _
  constructor
  · exact always_of_step (fun _ t hh => hh.adaptTick t) l integralBounded_start
  · exact hticks.mono fun _ _ ht => tickBounds ht

/-- A campaign whose ceiling is not on the 0.05 grid. -/
def offGridCampaign : Config where
  mode := .adaptAvg
  adaptiveDropPct := 3 / 2
  adaptiveMaxLevel := 58 / 25
  autoDialLevel := 58 / 25
  intensity := 0
  holdBandPP := 3 / 10
  adaptTickSeconds := 15
  warmupMinAnswered := 0
  warmupMinSeconds := 0

def offGridTick (dropPct : ℚ) : AdaptTick := ⟨offGridCampaign, none, some dropPct, unixMilli 1000⟩

theorem adapt_bounds_off_grid :
    (∀ t ∈ [offGridTick 0, offGridTick 5], 1 ≤ t.cfg.adaptiveMaxLevel) ∧
      Always adaptTick IntegralBounded {} [offGridTick 0, offGridTick 5] ∧
      EachStep adaptTick (fun h t => TickBounds ((t.reads h).input t.cfg)) {}
        [offGridTick 0, offGridTick 5] := by
  have hceil : ∀ t ∈ [offGridTick 0, offGridTick 5], 1 ≤ t.cfg.adaptiveMaxLevel := by
    simp [offGridTick, offGridCampaign]
    norm_num
  exact ⟨hceil, adapt_bounds_along_run _ hceil⟩

/-- At level 2.32, its ceiling, a step up is swallowed by the grid: the tick says hold
and sets the level to 2.30. -/
theorem hold_moves_off_grid_level :
    ¬ EachStep adaptTick (fun h t => ((t.reads h).input t.cfg).decide.actionTaken = .hold →
      ((t.reads h).input t.cfg).decide.newLevel = ((t.reads h).input t.cfg).clampedLevel) {}
      [offGridTick 0] := by
  rintro ⟨h, -⟩
  have hlevel := h (by decide +kernel)
  revert hlevel
  decide +kernel

end Adapt

end Vici2
