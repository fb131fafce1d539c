import Vici2.DropGateRecovery

/-! A drop gate under a constant drop percentage. The thresholds that lead back
lie below those that lead up, except where their clamp lifts them above. -/

namespace Vici2.DropGate

open Filter

/-- Ticks at increasing times; a denominator belongs to each. -/
structure TickSchedule where
  denominator : Nat → Int
  now : Nat → Instant
  increasing : ∀ ⦃m n : Nat⦄, m < n → now m < now n

/-- The gate after the first `n` ticks of the schedule. -/
def tickRun (w : GateWorld) (dropPct : ℚ) (t : TickSchedule) : Nat → GateWorld
  | 0 => w
  | n + 1 => tick (tickRun w dropPct t n) dropPct (t.denominator n) (t.now n)

/-- How far the state is from the one that a constant percentage leads to. -/
def settleRank (cfg : CampaignConfig) (dropPct : ℚ) : GateState → Nat
  | .normal => if cfg.dropTargetSoft ≤ dropPct ∨ cfg.effectiveMax ≤ dropPct then 1 else 0
  | .softBreach => if cfg.dropTargetSoft ≤ dropPct ∧ dropPct < cfg.effectiveMax then 0 else 1
  | .hardBreach => if cfg.effectiveMax ≤ dropPct then 0 else 2

/-- The percentage lies below both thresholds, or not below the clamp of the thresholds that
lead back. -/
def Settles (cfg : CampaignConfig) (dropPct : ℚ) : Prop :=
  dropPct < min cfg.effectiveMax cfg.dropTargetSoft ∨ 1 / 10 ≤ dropPct

theorem releaseThreshold_le {cfg : CampaignConfig} {p : ℚ} (hp : 1 / 10 ≤ p)
    (hmax : cfg.effectiveMax ≤ p) : cfg.releaseThreshold ≤ p := by
  unfold CampaignConfig.releaseThreshold hysteresisPP
  dsimp only
  split_ifs with h
  · exact hp
  · linarith

theorem softReturnThreshold_le {cfg : CampaignConfig} {p : ℚ} (hp : 1 / 10 ≤ p)
    (hsoft : cfg.dropTargetSoft ≤ p) : cfg.softReturnThreshold ≤ p := by
  simp only [CampaignConfig.softReturnThreshold]
  split_ifs with h
  · exact hp
  · linarith

theorem clamp_le_releaseThreshold (cfg : CampaignConfig) : 1 / 10 ≤ cfg.releaseThreshold := by
  simp only [CampaignConfig.releaseThreshold]
  split_ifs with h
  · exact le_refl _
  · exact not_lt.1 h

theorem clamp_le_softReturnThreshold (cfg : CampaignConfig) :
    1 / 10 ≤ cfg.softReturnThreshold := by
  simp only [CampaignConfig.softReturnThreshold]
  split_ifs with h
  · exact le_refl _
  · exact not_lt.1 h

/-- Where the percentage settles, a tick that changes the state takes it closer. -/
theorem tick_rank {w : GateWorld} {p : ℚ} (h : Settles w.gate.cfg p) (d : Int) (now : Instant) :
    (tick w p d now).gate.state = w.gate.state ∨
      settleRank w.gate.cfg p (tick w p d now).gate.state <
        settleRank w.gate.cfg p w.gate.state := by
  have hback : w.gate.cfg.effectiveMax ≤ p → w.gate.cfg.releaseThreshold ≤ p := by
    intro hmax
    rcases h with hlow | hclamp
    · exact absurd hmax (not_le.2 (lt_of_lt_of_le hlow (min_le_left _ _)))
    · exact releaseThreshold_le hclamp hmax
  have hreturn : w.gate.cfg.dropTargetSoft ≤ p → w.gate.cfg.softReturnThreshold ≤ p := by
    intro hsoft
    rcases h with hlow | hclamp
    · exact absurd hsoft (not_le.2 (lt_of_lt_of_le hlow (min_le_right _ _)))
    · exact softReturnThreshold_le hclamp hsoft
  by_cases hd : d < warmupDenominatorFloor
  · simp [tick, hd]
  · cases hs : w.gate.state with
    | normal =>
      by_cases hmax : w.gate.cfg.effectiveMax ≤ p
      · simp [tick, hd, hs, hmax, settleRank]
      · by_cases hsoft : w.gate.cfg.dropTargetSoft ≤ p
        · simp [tick, hd, hs, hmax, hsoft, settleRank, not_le.1 hmax]
        · simp [tick, hd, hs, hmax, hsoft]
    | softBreach =>
      by_cases hmax : w.gate.cfg.effectiveMax ≤ p
      · simp [tick, hd, hs, hmax, settleRank, not_lt.2 hmax]
      · by_cases hsoft : w.gate.cfg.dropTargetSoft ≤ p
        · simp [tick, hd, hs, hmax, not_lt.2 (hreturn hsoft)]
        · by_cases hlow : p < w.gate.cfg.softReturnThreshold
          · simp [tick, hd, hs, hmax, hsoft, hlow, settleRank]
          · simp [tick, hd, hs, hmax, hlow]
    | hardBreach =>
      by_cases hrelease : p < w.gate.cfg.releaseThreshold ∧ w.gate.dwellElapsed now
      · have hmax : ¬ w.gate.cfg.effectiveMax ≤ p := fun hle =>
          absurd hrelease.1 (not_lt.2 (hback hle))
        by_cases hlow : p < w.gate.cfg.softReturnThreshold
        · have hsoft : ¬ w.gate.cfg.dropTargetSoft ≤ p := fun hle =>
            absurd hlow (not_lt.2 (hreturn hle))
          simp [tick, hd, hs, hrelease, hlow, hmax, hsoft, settleRank]
        · simp only [tick, hd, hs, hrelease, hlow, if_false, if_true, and_self, settleRank, hmax,
            transitionToSoftBreach_state]
          right
          split_ifs <;> omega
      · simp [tick, hd, hs, hrelease]

/-- Elsewhere no state survives a tick above the warm-up floor, `HARD_BREACH` past its dwell. -/
theorem tick_state_ne {w : GateWorld} {p : ℚ} {d : Int} {now : Instant}
    (h : ¬ Settles w.gate.cfg p) (hd : warmupDenominatorFloor ≤ d)
    (hdwell : w.gate.state = .hardBreach → w.gate.dwellElapsed now) :
    (tick w p d now).gate.state ≠ w.gate.state := by
  obtain ⟨hlow, hclamp⟩ := not_or.1 h
  have hp : p < 1 / 10 := not_le.1 hclamp
  have hreturn : p < w.gate.cfg.softReturnThreshold :=
    lt_of_lt_of_le hp (clamp_le_softReturnThreshold _)
  have hrelease : p < w.gate.cfg.releaseThreshold :=
    lt_of_lt_of_le hp (clamp_le_releaseThreshold _)
  have hd' : ¬ d < warmupDenominatorFloor := not_lt.2 hd
  cases hs : w.gate.state with
  | normal =>
    by_cases hmax : w.gate.cfg.effectiveMax ≤ p
    · simp [tick, hd', hs, hmax]
    · have hsoft : w.gate.cfg.dropTargetSoft ≤ p := by
        rcases min_le_iff.1 (not_lt.1 hlow) with hle | hle
        · exact absurd hle hmax
        · exact hle
      simp [tick, hd', hs, hmax, hsoft]
  | softBreach =>
    by_cases hmax : w.gate.cfg.effectiveMax ≤ p
    · simp [tick, hd', hs, hmax]
    · simp [tick, hd', hs, hmax, hreturn]
  | hardBreach =>
    simp [tick, hd', hs, hrelease, hreturn, hdwell hs]

theorem dwellElapsed_of_le (g : DropGate) {now : Instant}
    (h : g.engagedAt + seconds g.cfg.recoverSeconds ≤ now) : g.dwellElapsed now := by
  have hlt : (g.cfg.recoverSeconds * nsPerSecond).bmod (2 ^ 64) < ((2 ^ 64 : Nat) + 1) / 2 :=
    Int.bmod_lt (by norm_num)
  have hfits : seconds g.cfg.recoverSeconds ≤ 2 ^ 63 - 1 := Int.le_of_lt_add_one hlt
  show seconds g.cfg.recoverSeconds ≤ Instant.sub now g.engagedAt
  exact le_max_of_le_right (le_min hfits (Int.le_sub_left_of_add_le h))

namespace TickSchedule

theorem le_now (t : TickSchedule) (n : Nat) : t.now 0 + n ≤ t.now n := by
  induction n with
  | zero => simp
  | succ n ih =>
    have hlt : t.now n + 1 ≤ t.now (n + 1) := t.increasing (Nat.lt_succ_self n)
    push_cast
    linarith

end TickSchedule

variable {w : GateWorld} {p : ℚ} {t : TickSchedule}

theorem tickRun_cfg (w : GateWorld) (p : ℚ) (t : TickSchedule) (n : Nat) :
    (tickRun w p t n).gate.cfg = w.gate.cfg := by
  induction n with
  | zero => rfl
  | succ n ih => exact (tick_cfg _ p _ _).trans ih

theorem tickRun_eq_of_hardBreach {n : Nat}
    (h : ∀ m, n ≤ m → (tickRun w p t m).gate.state = .hardBreach) (k : Nat) :
    tickRun w p t (n + k) = tickRun w p t n := by
  induction k with
  | zero => rfl
  | succ k ih =>
    have hs := h (n + k) (by omega)
    have hs' := h (n + k + 1) (by omega)
    exact (tick_eq_of_hardBreach hs hs').trans ih

theorem tickRun_settles (h : Settles w.gate.cfg p) :
    EventuallyConst (fun n => (tickRun w p t n).gate.state) atTop := by
  apply eventuallyConst_of_rank (settleRank w.gate.cfg p)
  intro n
  have hcfg := tickRun_cfg w p t n
  have hrank := tick_rank (w := tickRun w p t n) (by rw [hcfg]; exact h) (t.denominator n) (t.now n)
  rw [hcfg] at hrank
  exact hrank

/-- Ticks that keep reaching the warm-up floor keep moving the state. -/
theorem tickRun_alternates (h : ¬ Settles w.gate.cfg p)
    (hd : ∃ᶠ n in atTop, warmupDenominatorFloor ≤ t.denominator n) :
    ¬ EventuallyConst (fun n => (tickRun w p t n).gate.state) atTop := by
  intro hconst
  obtain ⟨n, hn⟩ := eventuallyConst_atTop_nat.1 hconst
  have hstate : ∀ k, (tickRun w p t (n + k)).gate.state = (tickRun w p t n).gate.state := by
    intro k
    induction k with
    | zero => rfl
    | succ k ih => exact (hn (n + k) (by omega)).trans ih
  -- the first tick after `n` at which a dwell begun by then has elapsed
  let late : Int := (tickRun w p t n).gate.engagedAt + seconds w.gate.cfg.recoverSeconds
  obtain ⟨m, hm, hfloor⟩ := frequently_atTop.1 hd (n + (late - t.now 0).toNat)
  obtain ⟨k, rfl⟩ := Nat.exists_eq_add_of_le (show n ≤ m by omega)
  have hcfg := tickRun_cfg w p t (n + k)
  refine tick_state_ne (w := tickRun w p t (n + k)) (by rw [hcfg]; exact h) hfloor ?_
    (hn (n + k) (by omega))
  intro hs
  have hhard : ∀ i, n ≤ i → (tickRun w p t i).gate.state = .hardBreach := by
    intro i hi
    obtain ⟨j, rfl⟩ := Nat.exists_eq_add_of_le hi
    exact (hstate j).trans ((hstate k).symm.trans hs)
  have hsame := tickRun_eq_of_hardBreach hhard k
  have hnow := t.le_now (n + k)
  apply dwellElapsed_of_le
  rw [hcfg, hsame]
  have hlate : late - t.now 0 ≤ (late - t.now 0).toNat := Int.self_le_toNat _
  have hmk : ((late - t.now 0).toNat : Int) ≤ ((n + k : Nat) : Int) := by
    exact_mod_cast (by omega : (late - t.now 0).toNat ≤ n + k)
  show late ≤ t.now (n + k)
  linarith

/-- Ticks at a constant percentage come to rest in one state, whatever gate they start from,
just when they stay below the warm-up floor in the end, or the percentage lies below both
thresholds, or it is at least the 0.10 that the thresholds leading back are raised to. -/
theorem tickRun_settles_iff (w : GateWorld) (p : ℚ) (t : TickSchedule) :
    EventuallyConst (fun n => (tickRun w p t n).gate.state) atTop ↔
      (∀ᶠ n in atTop, t.denominator n < warmupDenominatorFloor) ∨
        p < min w.gate.cfg.effectiveMax w.gate.cfg.dropTargetSoft ∨ 1 / 10 ≤ p := by
  constructor
  · intro hconst
    by_contra hnot
    obtain ⟨hwarm, hsettles⟩ := not_or.1 hnot
    have hd : ∃ᶠ n in atTop, warmupDenominatorFloor ≤ t.denominator n := by
      simpa only [not_eventually, not_lt] using hwarm
    exact tickRun_alternates hsettles hd hconst
  · rintro (hwarm | hsettles)
    · obtain ⟨n, hn⟩ := eventually_atTop.1 hwarm
      rw [eventuallyConst_atTop_nat]
      refine ⟨n, fun m hm => ?_⟩
      simp [tickRun, tick, hn m hm]
    · exact tickRun_settles hsettles

def lowSoftTarget : CampaignConfig where
  tenantID := 1
  campaignID := 42
  dialMethod := "PREDICTIVE"
  dropTargetSoft := 1 / 20
  dropTargetMax := 3 / 2
  recoverSeconds := 300

/-- The ticker, a tick every fifteen seconds with a thousand answered calls. -/
def steadyTicks : TickSchedule where
  denominator _ := 1000
  now n := unixEpoch + n * (15 * nsPerSecond)
  increasing := by
    intro m n hlt
    have hlt' : (m : Int) < n := by exact_mod_cast hlt
    show unixEpoch + m * (15 * nsPerSecond) < unixEpoch + n * (15 * nsPerSecond)
    unfold nsPerSecond
    omega

/-- At 0.07 percent the gate goes up to `SOFT_BREACH` and back on every other tick. -/
theorem low_soft_target_alternates :
    lowSoftTarget.validate.isOk = true ∧
      ¬ EventuallyConst
        (fun n => (tickRun (init lowSoftTarget) (7 / 100) steadyTicks n).gate.state) atTop := by
  constructor
  · decide +kernel
  · apply tickRun_alternates
    · have hlow : ¬ (7 / 100 : ℚ) <
          min lowSoftTarget.effectiveMax lowSoftTarget.dropTargetSoft := by
        decide +kernel
      have hclamp : ¬ (1 / 10 : ℚ) ≤ 7 / 100 := by norm_num
      exact not_or.2 ⟨hlow, hclamp⟩
    · have hfloor : warmupDenominatorFloor ≤ 1000 := by decide
      exact Frequently.of_forall fun _ => hfloor

/-- The clamp is harmless for every percentage just when no threshold lies below it. -/
theorem settles_all_iff (cfg : CampaignConfig) :
    (∀ p, Settles cfg p) ↔ 1 / 10 ≤ cfg.effectiveMax ∧ 1 / 10 ≤ cfg.dropTargetSoft := by
  constructor
  · intro h
    have hmin := h (min cfg.effectiveMax cfg.dropTargetSoft)
    rcases hmin with hlt | hle
    · exact absurd hlt (lt_irrefl _)
    · exact le_min_iff.1 hle
  · rintro ⟨hmax, hsoft⟩ p
    rcases lt_or_ge p (min cfg.effectiveMax cfg.dropTargetSoft) with hlt | hle
    · exact Or.inl hlt
    · exact Or.inr ((le_min hmax hsoft).trans hle)

end Vici2.DropGate
