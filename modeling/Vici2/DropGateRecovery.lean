import Vici2.DropGateAgreement

/-! The reconciler beside the drop gate. It sets the `drop_gated` key on severe drift
without telling the state machine, whose ticks release the key from `HARD_BREACH` only. -/

namespace Vici2.DropGate

def driftWarnThreshold : ℚ := 5 / 10000

def driftPageThreshold : ℚ := 1 / 100

def drift (streamDropped dbDropped : Int) : ℚ :=
  if 0 < dbDropped then |((streamDropped - dbDropped : Int) : ℚ)| / dbDropped
  else if 0 < streamDropped then 1
  else 0

/-- `reconcile`; a count is `none` where its query failed. -/
def reconcile (w : GateWorld) (streamDropped dbDropped : Option Int) : GateWorld :=
  match streamDropped, dbDropped with
  | some streamDropped, some dbDropped =>
    let drift := drift streamDropped dbDropped
    if drift ≤ driftWarnThreshold then w
    else if drift ≤ driftPageThreshold then w
    else { w with keys := { w.keys with dropGated := some "1" } }
  | _, _ => w

def SevereDrift (streamDropped dbDropped : Option Int) : Prop :=
  ∃ s ∈ streamDropped, ∃ d ∈ dbDropped, driftPageThreshold < drift s d

/-- The reconciler reads both counts and has nothing to report, or a query fails. -/
def NoDrift (streamDropped dbDropped : Option Int) : Prop :=
  ∀ s ∈ streamDropped, ∀ d ∈ dbDropped, drift s d ≤ driftWarnThreshold

inductive RecoveryAction
  | tick (dropPct : ℚ) (denominator : Int)
  | forceRelease (operatorID : Int) (reason : String)
  | reconcile (streamDropped dbDropped : Option Int)
  deriving DecidableEq, Repr

/-- An action, and the nanoseconds since the one before it. -/
structure RecoveryStep where
  elapsed : Nat
  action : RecoveryAction
  deriving DecidableEq, Repr

structure ClockedGate where
  world : GateWorld
  now : Instant

namespace ClockedGate

def step (w : ClockedGate) (s : RecoveryStep) : ClockedGate where
  now := w.now + s.elapsed
  world :=
    match s.action with
    | .tick dropPct denominator => tick w.world dropPct denominator (w.now + s.elapsed)
    | .forceRelease operatorID reason =>
      (forceRelease w.world operatorID reason (w.now + s.elapsed)).2
    | .reconcile streamDropped dbDropped => DropGate.reconcile w.world streamDropped dbDropped

end ClockedGate

namespace RecoveryStep

/-- What may happen once the trouble is over. -/
def Calm (s : RecoveryStep) : Prop :=
  match s.action with
  | .tick dropPct _ => dropPct = 0
  | .forceRelease _ _ => True
  | .reconcile streamDropped dbDropped => NoDrift streamDropped dbDropped

def IsTick (s : RecoveryStep) : Prop := ∃ dropPct denominator, s.action = .tick dropPct denominator

/-- A tick that the warm-up floor does not keep from a transition. -/
def Decides (s : RecoveryStep) : Prop :=
  ∃ dropPct denominator, s.action = .tick dropPct denominator ∧
    warmupDenominatorFloor ≤ denominator

end RecoveryStep

/-- A tick and, more than the recovery time later, one above the warm-up floor. -/
def Spans (recoverSeconds : Int) (rest : List RecoveryStep) : Prop :=
  ∃ before first between last after, rest = before ++ first :: (between ++ last :: after) ∧
    first.IsTick ∧ last.Decides ∧
    recoverSeconds * nsPerSecond <
      (((between ++ [last]).map RecoveryStep.elapsed).sum : Int)

/-- However the run goes on from here, once it has been calm for the recovery time the key
is gone. -/
def Recoverable (w : ClockedGate) : Prop :=
  ∀ rest, (∀ s ∈ rest, s.Calm) → Spans w.world.gate.cfg.recoverSeconds rest →
    (rest.foldl ClockedGate.step w).world.keys.dropGated = none

/-- Severe drift is seen in `HARD_BREACH` only, and no tick releases into `SOFT_BREACH`. -/
def StepRecovers (w : ClockedGate) (s : RecoveryStep) : Prop :=
  match s.action with
  | .tick dropPct denominator =>
    ¬ ReleasesToSoft w.world dropPct denominator (w.now + s.elapsed)
  | .forceRelease _ _ => True
  | .reconcile streamDropped dbDropped =>
    SevereDrift streamDropped dbDropped → w.world.gate.state = .hardBreach

/-- A campaign that `New` accepts; the recovery time is a MySQL `INT`. -/
structure StoredCampaign where
  cfg : CampaignConfig
  valid : cfg.validate = .ok ()
  column : cfg.recoverSeconds < 2 ^ 31

def StoredCampaign.start (c : StoredCampaign) (now : Instant) : ClockedGate := ⟨init c.cfg, now⟩

theorem reconcile_of_severeDrift {w : GateWorld} {stream db : Option Int}
    (h : SevereDrift stream db) :
    reconcile w stream db = { w with keys := { w.keys with dropGated := some "1" } } := by
  obtain ⟨s, rfl, d, rfl, hdrift⟩ := h
  have hpage : ¬ drift s d ≤ driftPageThreshold := not_le.2 hdrift
  have hwarn : ¬ drift s d ≤ driftWarnThreshold := by
    intro hle
    exact hpage (hle.trans (by norm_num [driftWarnThreshold, driftPageThreshold]))
  simp only [reconcile, if_neg hwarn, if_neg hpage]

theorem reconcile_of_not_severeDrift {w : GateWorld} {stream db : Option Int}
    (h : ¬ SevereDrift stream db) : reconcile w stream db = w := by
  cases stream with
  | none => rfl
  | some s =>
    cases db with
    | none => rfl
    | some d =>
      have hpage : drift s d ≤ driftPageThreshold := by
        by_contra hlt
        exact h ⟨s, rfl, d, rfl, not_le.1 hlt⟩
      simp only [reconcile, if_pos hpage, ite_self]

theorem NoDrift.not_severeDrift {stream db : Option Int} (h : NoDrift stream db) :
    ¬ SevereDrift stream db := by
  rintro ⟨s, hs, d, hd, hdrift⟩
  have hle : drift s d ≤ driftPageThreshold :=
    (h s hs d hd).trans (by norm_num [driftWarnThreshold, driftPageThreshold])
  exact absurd hdrift (not_lt.2 hle)

namespace StoredCampaign

theorem accepted (c : StoredCampaign) :
    0 < c.cfg.dropTargetMax ∧ 0 < c.cfg.dropTargetSoft ∧ 60 ≤ c.cfg.recoverSeconds := by
  have hvalid := c.valid
  unfold CampaignConfig.validate at hvalid
  split_ifs at hvalid with hmax _ hsoft _ _ hrecover
  exact ⟨not_le.1 hmax, not_le.1 hsoft, not_lt.1 hrecover⟩

theorem effectiveMax_pos (c : StoredCampaign) : 0 < c.cfg.effectiveMax := by
  obtain ⟨hmax, -, -⟩ := c.accepted
  unfold CampaignConfig.effectiveMax
  split_ifs with hoverride
  · exact lt_min hmax hoverride
  · exact hmax

theorem seconds_recover (c : StoredCampaign) :
    seconds c.cfg.recoverSeconds = c.cfg.recoverSeconds * nsPerSecond := by
  obtain ⟨-, -, hrecover⟩ := c.accepted
  have hcolumn := c.column
  have hlow : -(((2 ^ 64 : Nat) : Int) / 2) ≤ c.cfg.recoverSeconds * nsPerSecond := by
    unfold nsPerSecond
    omega
  have hhigh : c.cfg.recoverSeconds * nsPerSecond < (((2 ^ 64 : Nat) : Int) + 1) / 2 := by
    unfold nsPerSecond
    omega
  exact Int.bmod_eq_of_le hlow hhigh

end StoredCampaign

theorem releaseThreshold_pos (cfg : CampaignConfig) : 0 < cfg.releaseThreshold := by
  unfold CampaignConfig.releaseThreshold
  dsimp only
  split_ifs with h
  · norm_num
  · exact lt_of_lt_of_le (by norm_num) (not_lt.1 h)

theorem softReturnThreshold_pos (cfg : CampaignConfig) : 0 < cfg.softReturnThreshold := by
  unfold CampaignConfig.softReturnThreshold
  dsimp only
  split_ifs with h
  · norm_num
  · exact lt_of_lt_of_le (by norm_num) (not_lt.1 h)

theorem tick_cfg (w : GateWorld) (p : ℚ) (d : Int) (now : Instant) :
    (tick w p d now).gate.cfg = w.gate.cfg := by
  by_cases hsoft : ReleasesToSoft w p d now
  · rw [tick_of_releasesToSoft hsoft]
    rfl
  · rcases tick_cases hsoft with he | he | ⟨-, he⟩ | he <;> rw [he] <;> rfl

variable {c : StoredCampaign} {w : ClockedGate} {s : RecoveryStep}

namespace ClockedGate

/-- The gate runs the campaign; engaged, it has its key and was engaged in the past. -/
structure Inv (c : StoredCampaign) (w : ClockedGate) : Prop where
  cfg : w.world.gate.cfg = c.cfg
  key : w.world.gate.state = .hardBreach → w.world.keys.dropGated.isSome = true
  engaged : w.world.gate.state = .hardBreach → w.world.gate.engagedAt ≤ w.now

theorem step_cfg (w : ClockedGate) (s : RecoveryStep) :
    (w.step s).world.gate.cfg = w.world.gate.cfg := by
  unfold step
  cases s.action with
  | tick p d => exact tick_cfg w.world p d _
  | forceRelease op reason =>
    simp only [forceRelease]
    split <;> rfl
  | reconcile stream db =>
    by_cases h : SevereDrift stream db
    · simp only [reconcile_of_severeDrift h]
    · simp only [reconcile_of_not_severeDrift h]

theorem Inv.later (h : w.Inv c) (d : Nat) : Inv c ⟨w.world, w.now + d⟩ where
  cfg := h.cfg
  key := h.key
  engaged hs := by
    have hle : w.world.gate.engagedAt ≤ w.now := h.engaged hs
    have hnow : w.now ≤ w.now + d := Int.le_add_of_nonneg_right (Int.natCast_nonneg d)
    exact le_trans hle hnow

theorem Inv.of_not_hardBreach (hcfg : w.world.gate.cfg = c.cfg)
    (hs : w.world.gate.state ≠ .hardBreach) : w.Inv c :=
  ⟨hcfg, fun h => absurd h hs, fun h => absurd h hs⟩

theorem Inv.step (h : w.Inv c) (s : RecoveryStep) : (w.step s).Inv c := by
  have hcfg := (step_cfg w s).trans h.cfg
  have hlater := h.later s.elapsed
  unfold ClockedGate.step at hcfg ⊢
  cases haction : s.action with
  | tick p d =>
    rw [haction] at hcfg
    dsimp only at hcfg ⊢
    by_cases hsoft : ReleasesToSoft w.world p d (w.now + s.elapsed)
    · rw [tick_of_releasesToSoft hsoft] at hcfg ⊢
      exact Inv.of_not_hardBreach hcfg (by simp [transitionToSoftBreach])
    · rcases tick_cases hsoft with he | he | ⟨-, he⟩ | he
      · rw [he]
        exact hlater
      · rw [he] at hcfg ⊢
        exact ⟨hcfg, fun _ => rfl, fun _ => le_refl _⟩
      · rw [he] at hcfg ⊢
        exact Inv.of_not_hardBreach hcfg (by simp [transitionToSoftBreach])
      · rw [he] at hcfg ⊢
        exact Inv.of_not_hardBreach hcfg (by simp [transitionToNormal])
  | forceRelease op reason =>
    rw [haction] at hcfg
    by_cases hs : w.world.gate.state = .hardBreach
    · simp only [forceRelease, if_pos hs] at hcfg ⊢
      exact Inv.of_not_hardBreach hcfg (by simp [transitionToNormal])
    · simp only [forceRelease, if_neg hs]
      exact hlater
  | reconcile stream db =>
    by_cases hsevere : SevereDrift stream db
    · simp only [reconcile_of_severeDrift hsevere]
      exact ⟨hlater.cfg, fun _ => rfl, hlater.engaged⟩
    · simp only [reconcile_of_not_severeDrift hsevere]
      exact hlater

theorem agrees_step_iff (h : Agrees w.world) (s : RecoveryStep) :
    Agrees (w.step s).world ↔ StepRecovers w s := by
  unfold ClockedGate.step StepRecovers
  cases s.action with
  | tick p d => exact h.tick_iff p d _
  | forceRelease op reason => exact iff_of_true (h.forceRelease op reason _) trivial
  | reconcile stream db =>
    by_cases hsevere : SevereDrift stream db
    · simp [reconcile_of_severeDrift hsevere, Agrees, hsevere]
    · simp only [reconcile_of_not_severeDrift hsevere]
      exact iff_of_true h fun hs => absurd hs hsevere

/-- Calm steps leave the key to itself once the machine is not in `HARD_BREACH`. -/
theorem calm_of_not_hardBreach (h : w.Inv c) (hs : w.world.gate.state ≠ .hardBreach)
    (hcalm : s.Calm) :
    (w.step s).world.gate.state ≠ .hardBreach ∧
      (w.step s).world.keys.dropGated = w.world.keys.dropGated := by
  unfold step
  unfold RecoveryStep.Calm at hcalm
  cases haction : s.action with
  | tick p d =>
    rw [haction] at hcalm
    have hp : p = 0 := hcalm
    subst hp
    have hmax : ¬ w.world.gate.cfg.effectiveMax ≤ 0 := by
      rw [h.cfg]
      exact not_le.2 c.effectiveMax_pos
    by_cases hd : d < warmupDenominatorFloor
    · simp only [tick, if_pos hd]
      exact ⟨hs, trivial⟩
    · cases hstate : w.world.gate.state with
      | hardBreach => exact absurd hstate hs
      | normal =>
        have hsoft : ¬ w.world.gate.cfg.dropTargetSoft ≤ 0 := by
          rw [h.cfg]
          exact not_le.2 c.accepted.2.1
        simp only [tick, if_neg hd, hstate, if_neg hmax, if_neg hsoft]
        exact ⟨by decide, trivial⟩
      | softBreach =>
        simp only [tick, if_neg hd, hstate, if_neg hmax,
          if_pos (softReturnThreshold_pos w.world.gate.cfg), transitionToNormal]
        exact ⟨by decide, rfl⟩
  | forceRelease op reason =>
    simp only [forceRelease, if_neg hs]
    exact ⟨hs, trivial⟩
  | reconcile stream db =>
    rw [haction] at hcalm
    have hnone : NoDrift stream db := hcalm
    simp only [reconcile_of_not_severeDrift hnone.not_severeDrift]
    exact ⟨hs, trivial⟩

/-- A calm step in `HARD_BREACH` changes nothing or releases the key. -/
theorem calm_of_hardBreach (hs : w.world.gate.state = .hardBreach) (hcalm : s.Calm) :
    (w.step s).world = w.world ∨
      (w.step s).world.gate.state ≠ .hardBreach ∧ (w.step s).world.keys.dropGated = none := by
  have hnormal : ∀ p source now,
      (transitionToNormal w.world p source now).gate.state ≠ .hardBreach ∧
        (transitionToNormal w.world p source now).keys.dropGated = none := by
    intro p source now
    simp [transitionToNormal, hs, GateKeys.appendTransitionStream]
  unfold step
  unfold RecoveryStep.Calm at hcalm
  cases haction : s.action with
  | tick p d =>
    rw [haction] at hcalm
    have hp : p = 0 := hcalm
    subst hp
    by_cases hd : d < warmupDenominatorFloor
    · left
      simp only [tick, if_pos hd]
    · simp only [tick, if_neg hd, hs]
      split_ifs with hrelease hsoft
      · exact Or.inr (hnormal _ _ _)
      · exact absurd (softReturnThreshold_pos w.world.gate.cfg) hsoft
      · exact Or.inl rfl
  | forceRelease op reason =>
    right
    simp only [forceRelease, if_pos hs]
    exact hnormal _ _ _
  | reconcile stream db =>
    rw [haction] at hcalm
    have hnone : NoDrift stream db := hcalm
    left
    simp only [reconcile_of_not_severeDrift hnone.not_severeDrift]

end ClockedGate

namespace ClockedGate

theorem now_foldl (rest : List RecoveryStep) :
    (rest.foldl step w).now = w.now + ((rest.map RecoveryStep.elapsed).sum : Nat) := by
  induction rest generalizing w with
  | nil => simp
  | cons s rest ih =>
    rw [List.foldl_cons, ih, List.map_cons, List.sum_cons, Nat.cast_add]
    exact Int.add_assoc _ _ _

theorem calm_run_of_not_hardBreach (h : w.Inv c) (hs : w.world.gate.state ≠ .hardBreach)
    {rest : List RecoveryStep} (hcalm : ∀ s ∈ rest, s.Calm) :
    (rest.foldl step w).world.gate.state ≠ .hardBreach ∧
      (rest.foldl step w).world.keys.dropGated = w.world.keys.dropGated := by
  induction rest generalizing w with
  | nil => exact ⟨hs, rfl⟩
  | cons s rest ih =>
    obtain ⟨hstate, hkey⟩ := calm_of_not_hardBreach h hs (hcalm s List.mem_cons_self)
    have hrest := ih (h.step s) hstate fun t ht => hcalm t (List.mem_cons_of_mem _ ht)
    exact ⟨hrest.1, hrest.2.trans hkey⟩

theorem calm_run_of_hardBreach (h : w.Inv c) (hs : w.world.gate.state = .hardBreach)
    {rest : List RecoveryStep} (hcalm : ∀ s ∈ rest, s.Calm) :
    (rest.foldl step w).world = w.world ∨
      (rest.foldl step w).world.gate.state ≠ .hardBreach ∧
        (rest.foldl step w).world.keys.dropGated = none := by
  induction rest generalizing w with
  | nil => exact Or.inl rfl
  | cons s rest ih =>
    have htail : ∀ t ∈ rest, t.Calm := fun t ht => hcalm t (List.mem_cons_of_mem _ ht)
    rw [List.foldl_cons]
    rcases calm_of_hardBreach hs (hcalm s List.mem_cons_self) with hsame | ⟨hstate, hkey⟩
    · have hrest := ih (h.step s) (by rw [hsame]; exact hs) htail
      rw [hsame] at hrest
      exact hrest
    · obtain ⟨hstate', hkey'⟩ := calm_run_of_not_hardBreach (h.step s) hstate htail
      exact Or.inr ⟨hstate', hkey'.trans hkey⟩

/-- A calm tick above the floor, the recovery time after the engagement, releases the key. -/
theorem releases (h : w.Inv c) (hs : w.world.gate.state = .hardBreach) (hcalm : s.Calm)
    (hdecides : s.Decides)
    (hdwell : w.world.gate.engagedAt + c.cfg.recoverSeconds * nsPerSecond ≤ w.now + s.elapsed) :
    (w.step s).world.gate.state ≠ .hardBreach ∧ (w.step s).world.keys.dropGated = none := by
  obtain ⟨p, d, haction, hd⟩ := hdecides
  unfold RecoveryStep.Calm at hcalm
  rw [haction] at hcalm
  have hp : p = 0 := hcalm
  subst hp
  have helapsed : w.world.gate.dwellElapsed (w.now + s.elapsed) := by
    have hcolumn := c.column
    have hfits : c.cfg.recoverSeconds * nsPerSecond ≤ 2 ^ 63 - 1 := by
      unfold nsPerSecond
      omega
    unfold dwellElapsed Instant.sub
    rw [h.cfg, c.seconds_recover]
    have hdiff : c.cfg.recoverSeconds * nsPerSecond ≤
        w.now + s.elapsed - w.world.gate.engagedAt := Int.le_sub_left_of_add_le hdwell
    exact le_max_of_le_right (le_min hfits hdiff)
  unfold step
  rw [haction]
  simp only [tick, if_neg (not_lt.2 hd), hs, releaseThreshold_pos, helapsed, and_self, if_true,
    softReturnThreshold_pos, transitionToNormal, GateKeys.appendTransitionStream]
  exact ⟨by decide, trivial⟩

theorem recoverable_of_agrees (h : w.Inv c) (hagrees : Agrees w.world) : Recoverable w := by
  intro rest hcalm hspans
  by_cases hs : w.world.gate.state = .hardBreach
  · obtain ⟨before, first, between, last, after, rfl, -, hdecides, hlong⟩ := hspans
    rw [h.cfg] at hlong
    have hsplit : before ++ first :: (between ++ last :: after) =
        (before ++ first :: between) ++ last :: after := by
      simp
    rw [hsplit] at hcalm ⊢
    rw [List.foldl_append, List.foldl_cons]
    have hcalmHead : ∀ s ∈ before ++ first :: between, s.Calm := fun s hmem =>
      hcalm s (List.mem_append_left _ hmem)
    have hcalmLast : last.Calm := hcalm last (by simp)
    have hcalmAfter : ∀ s ∈ after, s.Calm := fun s hmem => hcalm s (by simp [hmem])
    have hinv : ((before ++ first :: between).foldl step w).Inv c :=
      List.foldlRecOn _ step h fun _ hw s _ => Inv.step hw s
    have hnow := now_foldl (w := w) (before ++ first :: between)
    have hreleased : (((before ++ first :: between).foldl step w).step last).world.gate.state ≠
        .hardBreach ∧
        (((before ++ first :: between).foldl step w).step last).world.keys.dropGated = none := by
      rcases calm_run_of_hardBreach h hs hcalmHead with hsame | ⟨hstate, hkey⟩
      · have hengaged := h.engaged hs
        apply releases hinv (by rw [hsame]; exact hs) hcalmLast hdecides
        rw [hsame, hnow]
        have hsum : ((between ++ [last]).map RecoveryStep.elapsed).sum ≤
            ((before ++ first :: between).map RecoveryStep.elapsed).sum + last.elapsed := by
          simp only [List.map_append, List.map_cons, List.map_nil, List.sum_append,
            List.sum_cons, List.sum_nil]
          omega
        have hsum' : (((between ++ [last]).map RecoveryStep.elapsed).sum : Int) ≤
            ((((before ++ first :: between).map RecoveryStep.elapsed).sum : Nat) : Int) +
              last.elapsed := by
          exact_mod_cast hsum
        linarith
      · obtain ⟨hstate', hkey'⟩ := calm_of_not_hardBreach hinv hstate hcalmLast
        exact ⟨hstate', hkey'.trans hkey⟩
    obtain ⟨-, hkey⟩ := calm_run_of_not_hardBreach (hinv.step last) hreleased.1 hcalmAfter
    exact hkey.trans hreleased.2
  · have hnone := hagrees.dropGated_eq_none hs
    exact (calm_run_of_not_hardBreach h hs hcalm).2.trans hnone

/-- Two ticks with nothing dropped, further apart than the recovery time. -/
def calmTicks (recoverSeconds : Int) : List RecoveryStep :=
  [⟨0, .tick 0 warmupDenominatorFloor⟩,
    ⟨(recoverSeconds * nsPerSecond + 1).toNat, .tick 0 warmupDenominatorFloor⟩]

theorem calmTicks_calm (n : Int) : ∀ s ∈ calmTicks n, s.Calm := by
  intro s hs
  simp only [calmTicks, List.mem_cons, List.not_mem_nil, or_false] at hs
  rcases hs with rfl | rfl
  · rfl
  · rfl

theorem calmTicks_spans (n : Int) : Spans n (calmTicks n) := by
  refine ⟨[], _, [], _, [], rfl, ⟨0, _, rfl⟩, ⟨0, _, rfl, le_refl _⟩, ?_⟩
  have hle := Int.self_le_toNat (n * nsPerSecond + 1)
  simp only [List.nil_append, List.map_cons, List.map_nil, List.sum_cons, List.sum_nil]
  push_cast
  omega

/-- A state is recoverable just when the key agrees with the machine. -/
theorem recoverable_iff (h : w.Inv c) : Recoverable w ↔ Agrees w.world := by
  constructor
  · intro hrecoverable
    refine ⟨fun hkey => ?_, h.key⟩
    by_contra hs
    have hgone := hrecoverable _ (calmTicks_calm _) (calmTicks_spans _)
    rw [(calm_run_of_not_hardBreach h hs (calmTicks_calm _)).2] at hgone
    rw [hgone] at hkey
    cases hkey
  · exact recoverable_of_agrees h

end ClockedGate

/-- From a fresh gate every state of a run can recover, just when the reconciler sees severe
drift in `HARD_BREACH` only and no tick releases into `SOFT_BREACH`. -/
theorem recoverable_along_run_iff (c : StoredCampaign) (now : Instant)
    (steps : List RecoveryStep) :
    Always ClockedGate.step Recoverable (c.start now) steps ↔
      EachStep ClockedGate.step StepRecovers (c.start now) steps := by
  have hinv : (c.start now).Inv c :=
    ClockedGate.Inv.of_not_hardBreach rfl (by simp [StoredCampaign.start, init])
  have hagrees : Agrees (c.start now).world := by
    simp [Agrees, StoredCampaign.start, init]
  refine always_iff_eachStep (I := ClockedGate.Inv c)
    (fun _ s hi _ _ => ClockedGate.Inv.step hi s) ?_ steps hinv
    ((ClockedGate.recoverable_iff hinv).2 hagrees)
  intro w s hi hrecoverable
  rw [ClockedGate.recoverable_iff (hi.step s)]
  exact ClockedGate.agrees_step_iff ((ClockedGate.recoverable_iff hi).1 hrecoverable) s

def defaultStored : StoredCampaign where
  cfg :=
    { tenantID := 1
      campaignID := 42
      dialMethod := "PREDICTIVE"
      dropTargetSoft := defaultDropTargetSoft
      dropTargetMax := defaultDropTargetMax
      recoverSeconds := defaultRecoverSeconds }
  valid := by decide +kernel
  column := by decide

/-- The stream lags far behind the table while the machine is in `NORMAL`; the key that this
sets outlives any calm. -/
theorem drift_in_normal_sticks :
    ¬ Always ClockedGate.step Recoverable (defaultStored.start 0)
      [⟨60000000000, .reconcile (some 0) (some 10)⟩] := by
  intro h
  have hgone := h.last _ (ClockedGate.calmTicks_calm _) (ClockedGate.calmTicks_spans _)
  exact absurd hgone (by decide +kernel)

end Vici2.DropGate
