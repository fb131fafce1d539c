import Vici2.DropGate
import Vici2.Runs

/-! The `drop_gated` key against the in-memory state. Every transition keeps
the two in agreement except the release into `SOFT_BREACH`, which leaves the
key set; a restart restores agreement unless its MySQL query fails. -/

namespace Vici2.DropGate

def Agrees (w : GateWorld) : Prop :=
  w.keys.dropGated.isSome = true ↔ w.gate.state = .hardBreach

instance : DecidablePred Agrees := fun _ => inferInstanceAs (Decidable (_ ↔ _))

def ReleasesToSoft (w : GateWorld) (dropPct : ℚ) (denominator : Int) (now : Instant) : Prop :=
  w.gate.state = .hardBreach ∧ warmupDenominatorFloor ≤ denominator ∧
    dropPct < w.gate.cfg.releaseThreshold ∧ w.gate.dwellElapsed now ∧
    w.gate.cfg.softReturnThreshold ≤ dropPct

/-- A tick stays off the release into `SOFT_BREACH`, and a restart that finds
the key set gets an answer from MySQL. -/
def StepAgrees (w : GateWorld) : GateAction → Prop
  | .tick dropPct denominator now => ¬ ReleasesToSoft w dropPct denominator now
  | .forceRelease _ _ _ => True
  | .restart query _ => query = none → w.keys.dropGated = none

theorem tick_of_releasesToSoft {w : GateWorld} {p : ℚ} {d : Int} {now : Instant}
    (h : ReleasesToSoft w p d now) : tick w p d now = transitionToSoftBreach w p := by
  obtain ⟨hs, hd, hr, he, hsoft⟩ := h
  simp only [tick, hs, not_lt.mpr hd, if_false, hr, he, and_self, if_true, not_lt.mpr hsoft]

theorem tick_cases {w : GateWorld} {p : ℚ} {d : Int} {now : Instant}
    (h : ¬ ReleasesToSoft w p d now) :
    tick w p d now = w ∨ tick w p d now = transitionToHardBreach w p .auto now ∨
      (w.gate.state = .normal ∧ tick w p d now = transitionToSoftBreach w p) ∨
      tick w p d now = transitionToNormal w p .auto now := by
  by_cases hd : d < warmupDenominatorFloor
  · left; simp [tick, hd]
  · cases hs : w.gate.state with
    | normal =>
      simp only [tick, hs, hd, if_false]
      split_ifs <;> simp
    | softBreach =>
      simp only [tick, hs, hd, if_false]
      split_ifs <;> simp
    | hardBreach =>
      simp only [tick, hs, hd, if_false]
      split_ifs with hr hsoft
      · simp
      · exact False.elim (h ⟨hs, not_lt.mp hd, hr.1, hr.2, not_lt.mp hsoft⟩)
      · simp

@[simp] theorem transitionToHardBreach_state (w : GateWorld) (p : ℚ) (source : TransitionSource)
    (now : Instant) : (transitionToHardBreach w p source now).gate.state = .hardBreach := rfl

@[simp] theorem transitionToSoftBreach_state (w : GateWorld) (p : ℚ) :
    (transitionToSoftBreach w p).gate.state = .softBreach := rfl

@[simp] theorem transitionToNormal_state (w : GateWorld) (p : ℚ) (source : TransitionSource)
    (now : Instant) : (transitionToNormal w p source now).gate.state = .normal := rfl

theorem tick_eq_of_hardBreach {w : GateWorld} {p : ℚ} {d : Int} {now : Instant}
    (hs : w.gate.state = .hardBreach) (hs' : (tick w p d now).gate.state = .hardBreach) :
    tick w p d now = w := by
  by_cases hd : d < warmupDenominatorFloor
  · simp [tick, hd]
  · by_cases hrelease : p < w.gate.cfg.releaseThreshold ∧ w.gate.dwellElapsed now
    · by_cases hlow : p < w.gate.cfg.softReturnThreshold
      · simp [tick, hd, hs, hrelease, hlow] at hs'
      · simp [tick, hd, hs, hrelease, hlow] at hs'
    · simp [tick, hd, hs, hrelease]

theorem agrees_hardBreach (w : GateWorld) (p : ℚ) (source : TransitionSource) (now : Instant) :
    Agrees (transitionToHardBreach w p source now) := by
  simp [Agrees, transitionToHardBreach, GateKeys.appendTransitionStream, GateKeys.publish]

theorem agrees_softBreach_iff (w : GateWorld) (p : ℚ) :
    Agrees (transitionToSoftBreach w p) ↔ w.keys.dropGated = none := by
  simp [Agrees, transitionToSoftBreach, GateKeys.publish]

theorem Agrees.dropGated_eq_none {w : GateWorld} (h : Agrees w) (hs : w.gate.state ≠ .hardBreach) :
    w.keys.dropGated = none := by
  rw [← Option.not_isSome_iff_eq_none]
  exact fun hk => hs (h.mp hk)

theorem Agrees.transitionToNormal {w : GateWorld} (h : Agrees w) (p : ℚ)
    (source : TransitionSource) (now : Instant) :
    Agrees (transitionToNormal w p source now) := by
  by_cases hs : w.gate.state = .hardBreach
  · simp [Agrees, DropGate.transitionToNormal, hs, GateKeys.appendTransitionStream]
  · simp [Agrees, DropGate.transitionToNormal, hs, h.dropGated_eq_none hs]

theorem Agrees.tick_iff {w : GateWorld} (h : Agrees w) (p : ℚ) (d : Int) (now : Instant) :
    Agrees (tick w p d now) ↔ ¬ ReleasesToSoft w p d now := by
  constructor
  · intro ht hr
    rw [tick_of_releasesToSoft hr, agrees_softBreach_iff] at ht
    have hk := h.mpr hr.1
    simp [ht] at hk
  · intro hr
    rcases tick_cases hr with he | he | ⟨hn, he⟩ | he <;> rw [he]
    · exact h
    · exact agrees_hardBreach w p .auto now
    · exact (agrees_softBreach_iff w p).mpr (h.dropGated_eq_none (by simp [hn]))
    · exact h.transitionToNormal p .auto now

theorem Agrees.forceRelease {w : GateWorld} (h : Agrees w) (op : Int) (reason : String)
    (now : Instant) : Agrees (forceRelease w op reason now).2 := by
  by_cases hs : w.gate.state = .hardBreach
  · simpa [DropGate.forceRelease, hs] using h.transitionToNormal _ .operator now
  · simpa [DropGate.forceRelease, hs] using h

theorem agrees_recover (w : GateWorld) (counts : Int × Int) (now : Instant) :
    Agrees (recover w (some counts) now) := by
  cases hk : w.keys.dropGated with
  | none =>
    simp only [recover, hk, Option.isSome_none, Bool.false_eq_true, or_false, false_and, if_false]
    split_ifs
    all_goals simp [Agrees]
  | some v => simp [recover, hk, Agrees]

theorem agrees_restart_iff (w : GateWorld) (query : Option (Int × Int)) (now : Instant) :
    Agrees (restart w query now) ↔ (query = none → w.keys.dropGated = none) := by
  cases query with
  | none => simp [restart, recover, Agrees]
  | some counts => simp [restart, agrees_recover]

theorem Agrees.step_iff {w : GateWorld} (h : Agrees w) (a : GateAction) :
    Agrees (step w a) ↔ StepAgrees w a := by
  cases a with
  | tick p d now => exact h.tick_iff p d now
  | forceRelease op reason now => exact iff_of_true (h.forceRelease op reason now) trivial
  | restart query now => exact agrees_restart_iff w query now

/-- From a fresh gate, the key and the state agree after every step of a run
exactly when no step releases into `SOFT_BREACH` and no restart that finds the
key set fails its MySQL query. -/
theorem dropGated_iff_hardBreach_along_run (cfg : CampaignConfig) (l : List GateAction) :
    Always step Agrees (init cfg) l ↔ EachStep step StepAgrees (init cfg) l :=
  always_iff_eachStep (I := fun _ => True) (fun _ _ _ _ _ => trivial)
    (fun _ a _ h => h.step_iff a) l trivial (by simp [Agrees, init])

def wideReleaseBand : CampaignConfig where
  tenantID := 1
  campaignID := 42
  dialMethod := "PROGRESSIVE"
  dropTargetSoft := 1
  dropTargetMax := 3
  recoverSeconds := 60

theorem dropGated_survives_release_to_soft :
    wideReleaseBand.validate.isOk = true ∧
      ¬ Always step Agrees (init wideReleaseBand)
        [.tick 3 1000 (1000 * nsPerSecond), .tick 1 1000 (1060 * nsPerSecond)] := by
  decide +kernel

end Vici2.DropGate
