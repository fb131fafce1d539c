import Mathlib.Data.Rat.Floor
import Mathlib.Tactic.Linarith
import Mathlib.Tactic.Positivity
import Vici2.Caps

/-! The pacing decision of a campaign: how many calls to place next, from the agents and the
dial level of its mode, under four clamps. Floats are exact rationals. -/

namespace Vici2

namespace Pacing

inductive DialMethod
  | manual
  | progressive
  | ratio
  | adaptHard
  | adaptAvg
  | adaptTapered
  | other (text : String)
  deriving DecidableEq, Repr

structure CampaignConfig where
  dialMethod : DialMethod
  autoDialLevel : ℚ
  adaptiveMaxLevel : ℚ
  availableOnlyTally : Bool
  callsPerSecond : Int
  rampUpFactor : ℚ
  minCallBufferSecs : ℚ
  pacingTickMs : Int

structure Snapshot where
  config : CampaignConfig
  readyAgents : Int
  inCallAgents : Int
  wrapupAgents : Int
  activeCalls : Int
  dialLevel : ℚ
  dropGated : Bool
  gwHeadroom : Int
  avgWaitToAnswerMs : Int

inductive Clamp
  | buffer
  | gw
  | drop
  | ramp
  deriving DecidableEq, Repr

structure DecideResult where
  desired : Int := 0
  base : Int := 0
  level : ℚ := 0
  agentCount : Int := 0
  clampsFired : List Clamp := []
  deriving DecidableEq, Repr

def validateAndDefault (cfg : CampaignConfig) : CampaignConfig :=
  { cfg with
    callsPerSecond := if cfg.callsPerSecond < 1 then 1 else cfg.callsPerSecond
    rampUpFactor := if cfg.rampUpFactor < 1 then 2 else cfg.rampUpFactor
    minCallBufferSecs := if cfg.minCallBufferSecs < 1 / 2 then 2 else cfg.minCallBufferSecs
    pacingTickMs :=
      if cfg.pacingTickMs < 200 ∨ 5000 < cfg.pacingTickMs then 1000 else cfg.pacingTickMs
    adaptiveMaxLevel := if cfg.adaptiveMaxLevel ≤ 0 then 3 else cfg.adaptiveMaxLevel }

/-- `math.Round`: halves go away from zero. -/
def mathRound (x : ℚ) : Int := if x < 0 then -⌊-x + 1 / 2⌋ else ⌊x + 1 / 2⌋

def resolveLevel (snap : Snapshot) : ℚ :=
  match snap.config.dialMethod with
  | .manual => 0
  | .progressive => 1
  | .ratio => snap.config.autoDialLevel
  | .adaptHard | .adaptAvg | .adaptTapered | .other _ =>
    if 0 < snap.dialLevel then snap.dialLevel
    else if 0 < snap.config.autoDialLevel then snap.config.autoDialLevel
    else 1

def resolveAgents (snap : Snapshot) : Int :=
  match snap.config.dialMethod with
  | .progressive => snap.readyAgents
  | .ratio =>
    if snap.config.availableOnlyTally then snap.readyAgents
    else snap.readyAgents + snap.inCallAgents + snap.wrapupAgents
  | .manual | .adaptHard | .adaptAvg | .adaptTapered | .other _ => snap.readyAgents

namespace Snapshot

variable (snap : Snapshot)

def withActiveCalls (n : Int) : Snapshot := { snap with activeCalls := n }

def target : Int := mathRound (resolveAgents snap * resolveLevel snap)

def bufferMax : Int :=
  ⌊snap.config.minCallBufferSecs * 1000 * resolveAgents snap / snap.avgWaitToAnswerMs⌋

def rampMax : Int :=
  let rampFactor := if snap.config.rampUpFactor < 1 then 2 else snap.config.rampUpFactor
  let rampMax := ⌈resolveLevel snap⌉ * ⌈rampFactor⌉
  if rampMax < 1 then 1 else rampMax

/-- The bound that a clamp sets, where it applies. -/
def bound : Clamp → Option Int
  | .buffer =>
    if 0 < snap.avgWaitToAnswerMs ∧ 0 < resolveAgents snap then some snap.bufferMax else none
  | .gw => if 0 ≤ snap.gwHeadroom then some snap.gwHeadroom else none
  | .drop => if snap.dropGated then some 1 else none
  | .ramp => some snap.rampMax

def clamp (r : Int × List Clamp) (c : Clamp) : Int × List Clamp :=
  match snap.bound c with
  | some b => if b < r.1 then (b, r.2 ++ [c]) else r
  | none => r

def modeBase : Int :=
  if snap.target - snap.activeCalls < 0 then 0 else snap.target - snap.activeCalls

/-- `Decide` with its clamps in some order. -/
def decideInOrder (order : List Clamp) : DecideResult :=
  if snap.config.dialMethod = .manual then {}
  else
    let r := order.foldl snap.clamp (snap.modeBase, [])
    { desired := if r.1 < 0 then 0 else r.1
      base := snap.modeBase
      level := resolveLevel snap
      agentCount := resolveAgents snap
      clampsFired := r.2 }

def decide : DecideResult := snap.decideInOrder [.buffer, .gw, .drop, .ramp]

/-- The mode base and the bounds of the clamps that apply; a manual campaign has only a base of
zero. -/
def bounds : List Int :=
  if snap.config.dialMethod = .manual then [0]
  else snap.modeBase :: [Clamp.buffer, .gw, .drop, .ramp].filterMap snap.bound

end Snapshot

section Results

variable (snap : Snapshot)

theorem clamp_fst (r : Int × List Clamp) (c : Clamp) :
    (snap.clamp r c).1 = capBy snap.bound r.1 c := by
  unfold Snapshot.clamp capBy
  cases snap.bound c with
  | none => rfl
  | some b => exact apply_ite Prod.fst _ _ _

theorem foldl_clamp_fst (order : List Clamp) (r : Int × List Clamp) :
    (order.foldl snap.clamp r).1 = order.foldl (capBy snap.bound) r.1 := by
  induction order generalizing r with
  | nil => rfl
  | cons c order ih => rw [List.foldl_cons, List.foldl_cons, ih, clamp_fst]

theorem ite_neg_eq_max (n : Int) : (if n < 0 then 0 else n) = max 0 n := by
  by_cases h : n < 0
  · rw [if_pos h, max_eq_left h.le]
  · rw [if_neg h, max_eq_right (not_lt.1 h)]

theorem desired_of_manual {snap : Snapshot} (h : snap.config.dialMethod = .manual)
    (order : List Clamp) : (snap.decideInOrder order).desired = 0 := by
  unfold Snapshot.decideInOrder
  rw [if_pos h]

theorem desired_eq {snap : Snapshot} (h : snap.config.dialMethod ≠ .manual) (order : List Clamp) :
    (snap.decideInOrder order).desired =
      max 0 (order.foldl (capBy snap.bound) snap.modeBase) := by
  unfold Snapshot.decideInOrder
  rw [if_neg h, ← ite_neg_eq_max, ← foldl_clamp_fst snap order (snap.modeBase, [])]

theorem desired_isLeast : ∃ m, IsLeast {b | b ∈ snap.bounds} m ∧ snap.decide.desired = max 0 m := by
  unfold Snapshot.bounds Snapshot.decide
  by_cases h : snap.config.dialMethod = .manual
  · rw [if_pos h, desired_of_manual h]
    exact ⟨0, by simp [IsLeast, lowerBounds], rfl⟩
  · rw [if_neg h, desired_eq h]
    exact ⟨_, isLeast_foldl_capBy _ _ _, rfl⟩

theorem desired_nonneg : 0 ≤ snap.decide.desired := by
  obtain ⟨m, -, hm⟩ := desired_isLeast snap
  rw [hm]
  exact le_max_left 0 m

theorem decideInOrder_perm {order : List Clamp} (h : order.Perm [.buffer, .gw, .drop, .ramp]) :
    (snap.decideInOrder order).desired = snap.decide.desired := by
  unfold Snapshot.decide
  by_cases hmanual : snap.config.dialMethod = .manual
  · rw [desired_of_manual hmanual, desired_of_manual hmanual]
  · rw [desired_eq hmanual, desired_eq hmanual, foldl_capBy_perm _ _ h]

theorem modeBase_nonneg : 0 ≤ snap.modeBase := by
  unfold Snapshot.modeBase
  rw [ite_neg_eq_max]
  exact le_max_left _ _

theorem desired_le_modeBase (h : snap.config.dialMethod ≠ .manual) :
    snap.decide.desired ≤ snap.modeBase := by
  obtain ⟨m, hleast, hm⟩ := desired_isLeast snap
  have hbase : snap.modeBase ∈ snap.bounds := by
    unfold Snapshot.bounds
    rw [if_neg h]
    exact List.mem_cons_self
  rw [hm]
  exact max_le (modeBase_nonneg snap) (hleast.2 hbase)

/-- Calls under way and calls to place stay within what the mode asks for. -/
theorem active_add_desired_le (h : 0 < snap.decide.desired) :
    snap.activeCalls + snap.decide.desired ≤ snap.target := by
  have hmode : snap.config.dialMethod ≠ .manual := by
    intro hmanual
    have hzero : snap.decide.desired = 0 := desired_of_manual hmanual _
    omega
  have hle := desired_le_modeBase snap hmode
  unfold Snapshot.modeBase at hle
  split at hle
  · omega
  · omega

theorem bound_withActiveCalls (n : Int) : (snap.withActiveCalls n).bound = snap.bound := by
  funext c
  cases c with
  | buffer => rfl
  | gw => rfl
  | drop => rfl
  | ramp => rfl

theorem modeBase_anti {n : Int} (h : snap.activeCalls ≤ n) :
    (snap.withActiveCalls n).modeBase ≤ snap.modeBase := by
  have hmore : (snap.withActiveCalls n).modeBase = max 0 (snap.target - n) := ite_neg_eq_max _
  have hless : snap.modeBase = max 0 (snap.target - snap.activeCalls) := ite_neg_eq_max _
  rw [hmore, hless]
  apply max_le_max_left
  omega

theorem desired_anti {n : Int} (h : snap.activeCalls ≤ n) :
    (snap.withActiveCalls n).decide.desired ≤ snap.decide.desired := by
  unfold Snapshot.decide
  by_cases hmanual : snap.config.dialMethod = .manual
  · have hmanual' : (snap.withActiveCalls n).config.dialMethod = .manual := hmanual
    rw [desired_of_manual hmanual, desired_of_manual hmanual']
  · have hmanual' : (snap.withActiveCalls n).config.dialMethod ≠ .manual := hmanual
    rw [desired_eq hmanual, desired_eq hmanual', bound_withActiveCalls]
    exact max_le_max_left 0 (foldl_capBy_mono _ (modeBase_anti snap h) _)

theorem one_le_rampMax : 1 ≤ snap.rampMax := by
  unfold Snapshot.rampMax
  dsimp only
  generalize ⌈resolveLevel snap⌉ * _ = r
  split
  · exact le_rfl
  · omega

theorem bound_nonneg (h : 0 ≤ snap.config.minCallBufferSecs) {c : Clamp} {b : Int}
    (hb : snap.bound c = some b) : 0 ≤ b := by
  cases c with
  | buffer =>
    obtain ⟨⟨havg, hagents⟩, hsome⟩ := Option.ite_none_right_eq_some.1 hb
    obtain rfl := Option.some.inj hsome
    apply Int.floor_nonneg.2
    have havg' : (0 : ℚ) < snap.avgWaitToAnswerMs := by exact_mod_cast havg
    have hagents' : (0 : ℚ) < resolveAgents snap := by exact_mod_cast hagents
    positivity
  | gw =>
    obtain ⟨hroom, hsome⟩ := Option.ite_none_right_eq_some.1 hb
    obtain rfl := Option.some.inj hsome
    exact hroom
  | drop =>
    obtain ⟨-, hsome⟩ := Option.ite_none_right_eq_some.1 hb
    obtain rfl := Option.some.inj hsome
    exact Int.one_nonneg
  | ramp =>
    obtain rfl := Option.some.inj hb
    exact Int.one_nonneg.trans (one_le_rampMax snap)

theorem bounds_nonneg (h : 0 ≤ snap.config.minCallBufferSecs) : ∀ b ∈ snap.bounds, 0 ≤ b := by
  intro b hb
  unfold Snapshot.bounds at hb
  split at hb
  · exact (List.mem_singleton.1 hb).ge
  · rcases List.mem_cons.1 hb with rfl | hb
    · exact modeBase_nonneg snap
    · obtain ⟨c, -, hc⟩ := List.mem_filterMap.1 hb
      exact bound_nonneg snap h hc

theorem validated_buffer (cfg : CampaignConfig) :
    0 ≤ (validateAndDefault cfg).minCallBufferSecs := by
  show 0 ≤ if cfg.minCallBufferSecs < 1 / 2 then 2 else cfg.minCallBufferSecs
  split
  · norm_num
  · linarith

/-- What `Decide` returns is the least of the bounds that apply, or zero if that is negative,
which it never is under a validated configuration. -/
theorem decide_composes_bounds :
    0 ≤ snap.decide.desired ∧
      (∃ m, IsLeast {b | b ∈ snap.bounds} m ∧ snap.decide.desired = max 0 m) ∧
      (∀ cfg, snap.config = validateAndDefault cfg →
        IsLeast {b | b ∈ snap.bounds} snap.decide.desired) ∧
      (∀ order : List Clamp, order.Perm [.buffer, .gw, .drop, .ramp] →
        (snap.decideInOrder order).desired = snap.decide.desired) ∧
      (0 < snap.decide.desired → snap.activeCalls + snap.decide.desired ≤ snap.target) ∧
      ∀ n, snap.activeCalls ≤ n →
        (snap.withActiveCalls n).decide.desired ≤ snap.decide.desired := by
  refine ⟨desired_nonneg snap, desired_isLeast snap, fun cfg hcfg => ?_,
    fun order h => decideInOrder_perm snap h, active_add_desired_le snap,
    fun n h => desired_anti snap h⟩
  obtain ⟨m, hleast, hm⟩ := desired_isLeast snap
  have hbuffer : 0 ≤ snap.config.minCallBufferSecs := hcfg ▸ validated_buffer cfg
  rw [hm, max_eq_right (bounds_nonneg snap hbuffer m hleast.1)]
  exact hleast

end Results

/-- One agent and a call buffer of minus one second. -/
def negativeBuffer : Snapshot where
  config := ⟨.progressive, 1, 3, false, 5, 2, -1, 1000⟩
  readyAgents := 1
  inCallAgents := 0
  wrapupAgents := 0
  activeCalls := 0
  dialLevel := 0
  dropGated := false
  gwHeadroom := -1
  avgWaitToAnswerMs := 4000

theorem negative_bound_not_returned :
    ¬ ∀ snap : Snapshot, IsLeast {b | b ∈ snap.bounds} snap.decide.desired := by
  intro h
  have hbound : negativeBuffer.bound .buffer = some negativeBuffer.bufferMax := by
    have happlies : 0 < negativeBuffer.avgWaitToAnswerMs ∧ 0 < resolveAgents negativeBuffer := by
      decide
    simp only [Snapshot.bound, happlies, and_self, if_true]
  have hmode : negativeBuffer.config.dialMethod ≠ .manual := by decide
  have hmem : negativeBuffer.bufferMax ∈ negativeBuffer.bounds := by
    unfold Snapshot.bounds
    rw [if_neg hmode]
    apply List.mem_cons_of_mem
    exact List.mem_filterMap.2 ⟨.buffer, List.mem_cons_self, hbound⟩
  have hneg : negativeBuffer.bufferMax < 0 := by
    apply Int.floor_lt.2
    norm_num [negativeBuffer, resolveAgents]
  have hle := (h negativeBuffer).2 hmem
  have hnonneg := desired_nonneg negativeBuffer
  omega

end Pacing

end Vici2
