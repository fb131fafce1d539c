import Vici2.DropGateRecovery

/-! The dwell of the drop gate over runs with restarts. The instant of an engagement is
followed beside the gate, which keeps it in memory and, shortened to whole seconds, in two
records of Valkey; a restart reads back the records that it finds. -/

namespace Vici2.DropGate

/-- Which of the gate's records a restarted process finds. -/
structure Survivors where
  dropGated : Bool
  engagedAt : Bool
  transitions : Bool
  deriving DecidableEq, Repr

def GateKeys.surviving (k : GateKeys) (s : Survivors) : GateKeys :=
  { k with
    dropGated := if s.dropGated then k.dropGated else none
    dropGateEngagedAt := if s.engagedAt then k.dropGateEngagedAt else none
    dropGateTransitions := if s.transitions then k.dropGateTransitions else [] }

inductive DwellAction
  | tick (dropPct : ℚ) (denominator : Int)
  | forceRelease (operatorID : Int) (reason : String)
  | restart (query : Option (Int × Int)) (survivors : Survivors)
  deriving DecidableEq, Repr

/-- An action, and the nanoseconds since the one before it. -/
structure DwellStep where
  elapsed : Nat
  action : DwellAction
  deriving DecidableEq, Repr

/-- A gate, the time, and the instant at which the gate was last engaged. -/
structure DwellGate where
  world : GateWorld
  now : Instant
  engagedSince : Instant

namespace DwellGate

def act (w : GateWorld) (now : Instant) : DwellAction → GateWorld
  | .tick dropPct denominator => tick w dropPct denominator now
  | .forceRelease operatorID reason => (forceRelease w operatorID reason now).2
  | .restart query survivors => restart { w with keys := w.keys.surviving survivors } query now

/-- A gate that was engaged before the step, by whatever process, keeps the instant. -/
def step (w : DwellGate) (s : DwellStep) : DwellGate where
  world := act w.world (w.now + s.elapsed) s.action
  now := w.now + s.elapsed
  engagedSince := if w.world.gate.state = .hardBreach then w.engagedSince else w.now + s.elapsed

def dwell (w : DwellGate) : Int := w.world.gate.cfg.recoverSeconds * nsPerSecond

/-- Whoever leaves `HARD_BREACH` without an operator has been there for the recovery time. -/
def DwellKept (w : DwellGate) (s : DwellStep) : Prop :=
  w.world.gate.state = .hardBreach → (w.step s).world.gate.state ≠ .hardBreach →
    (∀ operatorID reason, s.action ≠ .forceRelease operatorID reason) →
    w.engagedSince + w.dwell ≤ w.now + s.elapsed

def IsTick (s : DwellStep) : Prop := ∃ dropPct denominator, s.action = .tick dropPct denominator

/-- However ticks go on from here, the dwell is kept. -/
def Dwells (w : DwellGate) : Prop :=
  ∀ ticks, (∀ s ∈ ticks, IsTick s) → EachStep step DwellKept w ticks

end DwellGate

/-- The text of the engagement that `Recover` goes by, where one survives. -/
def GateKeys.engagementRecord (k : GateKeys) : Option Int :=
  k.dropGateEngagedAt.or
    (((k.dropGateTransitions.reverse.take 20).find? fun e => e.action = .engage).map
      TransitionEntry.ts)

/-- A restart of an engaged gate comes after the dwell, or finds `drop_gated` and no record of
an earlier engagement. Another restart finds no `drop_gated` and a rate below the maximum, or
`drop_gated` and no record of an engagement in the past. -/
def RestartOk (w : DwellGate) (s : DwellStep) : Prop :=
  match s.action with
  | .tick _ _ => True
  | .forceRelease _ _ => True
  | .restart query survivors =>
    let keys := w.world.keys.surviving survivors
    if w.world.gate.state = .hardBreach then
      w.engagedSince + w.dwell ≤ w.now + s.elapsed ∨
        query ≠ none ∧ keys.dropGated ≠ none ∧
          ∀ text ∈ keys.engagementRecord, w.engagedSince ≤ parseRFC3339 text
    else
      ∀ counts ∈ query,
        if keys.dropGated = none then
          dropRate counts.1 counts.2 < w.world.gate.cfg.effectiveMax
        else
          ∀ text ∈ keys.engagementRecord, w.now + s.elapsed ≤ parseRFC3339 text

/-- A fresh gate of the campaign, some time after the Unix epoch. -/
def StoredCampaign.startDwell (c : StoredCampaign) (sinceEpoch : Nat) : DwellGate where
  world := init c.cfg
  now := unixEpoch + sinceEpoch
  engagedSince := unixEpoch + sinceEpoch

namespace GateKeys

/-- No record shows the zero time. -/
structure Dated (k : GateKeys) : Prop where
  key : ∀ text ∈ k.dropGateEngagedAt, 0 < text
  stream : ∀ e ∈ k.dropGateTransitions, 0 < e.ts

theorem Dated.surviving {k : GateKeys} (h : k.Dated) (s : Survivors) : (k.surviving s).Dated := by
  constructor
  · intro text ht
    cases hs : s.engagedAt with
    | true => exact h.key text (by simpa [GateKeys.surviving, hs] using ht)
    | false => simp [GateKeys.surviving, hs] at ht
  · intro e he
    cases hs : s.transitions with
    | true => exact h.stream e (by simpa [GateKeys.surviving, hs] using he)
    | false => simp [GateKeys.surviving, hs] at he

theorem Dated.recoveredEngagedAt {k : GateKeys} (h : k.Dated) (now : Instant) :
    recoveredEngagedAt k now = (k.engagementRecord.map parseRFC3339).getD now := by
  have hpos : ∀ text : Int, 0 < text → parseRFC3339 text ≠ 0 := by
    intro text ht
    exact (Int.mul_pos ht (by decide)).ne'
  cases hkey : k.dropGateEngagedAt with
  | some text =>
    have htext := hpos text (h.key text (by simp [hkey]))
    simp [DropGate.recoveredEngagedAt, engagementRecord, hkey, htext]
  | none =>
    cases hfind : (k.dropGateTransitions.reverse.take 20).find? fun e => e.action = .engage with
    | none =>
      simp [DropGate.recoveredEngagedAt, readEngagedAtFromStream, engagementRecord, hkey, hfind]
    | some e =>
      have hmem : e ∈ k.dropGateTransitions := by
        have htake := List.mem_of_find?_eq_some hfind
        exact List.mem_reverse.1 (List.mem_of_mem_take htake)
      have htext := hpos e.ts (h.stream e hmem)
      simp [DropGate.recoveredEngagedAt, readEngagedAtFromStream, engagementRecord, hkey, hfind,
        htext]

end GateKeys

theorem formatRFC3339_pos {now : Instant} (h : unixEpoch ≤ now) : 0 < formatRFC3339 now := by
  unfold unixEpoch nsPerSecond at h
  unfold formatRFC3339 nsPerSecond
  omega

theorem dated_keys_append {k : GateKeys} (h : k.Dated) (action : TransitionAction) (p : ℚ)
    (source : TransitionSource) {now : Instant} (hnow : unixEpoch ≤ now) :
    ∀ e ∈ (k.appendTransitionStream action p source now).dropGateTransitions, 0 < e.ts := by
  intro e he
  rcases List.mem_append.1 he with hold | hnew
  · exact h.stream e hold
  · rw [List.mem_singleton.1 hnew]
    exact formatRFC3339_pos hnow

theorem dated_transitionToHardBreach {w : GateWorld} (h : w.keys.Dated) (p : ℚ)
    (source : TransitionSource) {now : Instant} (hnow : unixEpoch ≤ now) :
    (transitionToHardBreach w p source now).keys.Dated where
  key text ht := by
    have htext : formatRFC3339 now = text := Option.some.inj ht
    rw [← htext]
    exact formatRFC3339_pos hnow
  stream := dated_keys_append h .engage p source hnow

theorem dated_transitionToNormal {w : GateWorld} (h : w.keys.Dated) (p : ℚ)
    (source : TransitionSource) {now : Instant} (hnow : unixEpoch ≤ now) :
    (transitionToNormal w p source now).keys.Dated := by
  by_cases hs : w.gate.state = .hardBreach
  · simp only [transitionToNormal, if_pos hs]
    exact ⟨by simp [GateKeys.appendTransitionStream], dated_keys_append h .release p source hnow⟩
  · simp only [transitionToNormal, if_neg hs]
    exact h

theorem dated_tick {w : GateWorld} (h : w.keys.Dated) (p : ℚ) (d : Int) {now : Instant}
    (hnow : unixEpoch ≤ now) : (tick w p d now).keys.Dated := by
  by_cases hsoft : ReleasesToSoft w p d now
  · rw [tick_of_releasesToSoft hsoft]
    exact ⟨h.key, h.stream⟩
  · rcases tick_cases hsoft with he | he | ⟨-, he⟩ | he <;> rw [he]
    · exact h
    · exact dated_transitionToHardBreach h p .auto hnow
    · exact ⟨h.key, h.stream⟩
    · exact dated_transitionToNormal h p .auto hnow

theorem dated_restart {w : GateWorld} (h : w.keys.Dated) (query : Option (Int × Int))
    (now : Instant) : (restart w query now).keys.Dated := by
  cases query with
  | none => exact h
  | some counts =>
    simp only [restart, recover]
    split_ifs
    all_goals exact ⟨h.key, h.stream⟩

theorem restart_cfg (w : GateWorld) (query : Option (Int × Int)) (now : Instant) :
    (restart w query now).gate.cfg = w.gate.cfg := by
  cases query with
  | none => rfl
  | some counts =>
    simp only [restart, recover]
    split_ifs
    all_goals rfl

/-- A restart that finds `drop_gated` engages the gate as of the record. -/
theorem restart_of_gated (w : GateWorld) (counts : Int × Int) (now : Instant)
    (h : w.keys.Dated) (hk : w.keys.dropGated ≠ none) :
    (restart w (some counts) now).gate =
      ⟨w.gate.cfg, .hardBreach, (w.keys.engagementRecord.map parseRFC3339).getD now⟩ := by
  obtain ⟨v, hv⟩ := Option.ne_none_iff_exists'.1 hk
  simp only [restart, recover, hv, Option.isSome_some, or_true, if_true]
  exact congrArg (DropGate.mk _ _) (GateKeys.Dated.recoveredEngagedAt ⟨h.key, h.stream⟩ now)

theorem restart_of_not_gated (w : GateWorld) (counts : Int × Int) (now : Instant)
    (hk : w.keys.dropGated = none) :
    if dropRate counts.1 counts.2 < w.gate.cfg.effectiveMax then
      (restart w (some counts) now).gate.state ≠ .hardBreach
    else (restart w (some counts) now).gate = ⟨w.gate.cfg, .hardBreach, 0⟩ := by
  by_cases hrate : dropRate counts.1 counts.2 < w.gate.cfg.effectiveMax
  · rw [if_pos hrate]
    simp only [restart, recover, hk, Option.isSome_none, Bool.false_eq_true, or_false, false_and,
      if_false, not_le.2 hrate]
    split_ifs
    all_goals simp
  · rw [if_neg hrate]
    simp [restart, recover, hk, not_lt.1 hrate]

namespace DwellGate

variable {c : StoredCampaign} {w : DwellGate} {s : DwellStep}

structure Inv (c : StoredCampaign) (w : DwellGate) : Prop where
  cfg : w.world.gate.cfg = c.cfg
  clock : unixEpoch ≤ w.now
  since : w.engagedSince ≤ w.now
  dated : w.world.keys.Dated

/-- In `HARD_BREACH` the machine counts from the engagement or later, or the dwell is over. -/
def Counts (w : DwellGate) : Prop :=
  w.world.gate.state = .hardBreach →
    w.engagedSince ≤ w.world.gate.engagedAt ∨ w.engagedSince + w.dwell ≤ w.now

theorem Inv.step (h : w.Inv c) (s : DwellStep) : (w.step s).Inv c := by
  have hclock : unixEpoch ≤ w.now + s.elapsed :=
    le_trans h.clock (Int.le_add_of_nonneg_right (Int.natCast_nonneg _))
  have hsince : (w.step s).engagedSince ≤ w.now + s.elapsed := by
    have hle : w.engagedSince ≤ w.now + s.elapsed :=
      le_trans h.since (Int.le_add_of_nonneg_right (Int.natCast_nonneg _))
    by_cases hs : w.world.gate.state = .hardBreach
    · simpa [DwellGate.step, hs] using hle
    · simp [DwellGate.step, hs]
  have hrest : (act w.world (w.now + s.elapsed) s.action).gate.cfg = c.cfg ∧
      (act w.world (w.now + s.elapsed) s.action).keys.Dated := by
    cases s.action with
    | tick p d => exact ⟨(tick_cfg _ _ _ _).trans h.cfg, dated_tick h.dated p d hclock⟩
    | forceRelease op reason =>
      by_cases hs : w.world.gate.state = .hardBreach
      · simp only [act, forceRelease, if_pos hs]
        exact ⟨h.cfg, dated_transitionToNormal h.dated _ _ hclock⟩
      · simp only [act, forceRelease, if_neg hs]
        exact ⟨h.cfg, h.dated⟩
    | restart query survivors =>
      exact ⟨(restart_cfg _ _ _).trans h.cfg, dated_restart (h.dated.surviving survivors) query _⟩
  exact ⟨hrest.1, hclock, hsince, hrest.2⟩

theorem Inv.dwell_eq (h : w.Inv c) : w.dwell = c.cfg.recoverSeconds * nsPerSecond := by
  rw [dwell, h.cfg]

theorem Inv.dwell_bounds (h : w.Inv c) : 0 < w.dwell ∧ w.dwell ≤ unixEpoch := by
  obtain ⟨-, -, hrecover⟩ := c.accepted
  have hcolumn := c.column
  rw [h.dwell_eq]
  unfold unixEpoch nsPerSecond
  constructor
  · omega
  · omega

theorem Inv.dwellElapsed_iff (h : w.Inv c) (now : Instant) :
    w.world.gate.dwellElapsed now ↔ w.world.gate.engagedAt + w.dwell ≤ now := by
  have hbounds := h.dwell_bounds
  have hfits : w.dwell ≤ 2 ^ 63 - 1 := by
    have hcolumn := c.column
    rw [h.dwell_eq]
    unfold nsPerSecond
    omega
  have hseconds : seconds w.world.gate.cfg.recoverSeconds = w.dwell := by
    rw [h.cfg, c.seconds_recover, h.dwell_eq]
  show seconds w.world.gate.cfg.recoverSeconds ≤ Instant.sub now w.world.gate.engagedAt ↔ _
  rw [hseconds]
  unfold Instant.sub
  constructor
  · intro hle
    rcases le_max_iff.1 hle with hlow | hmin
    · exact absurd (hbounds.1.trans_le hlow) (by norm_num)
    · have hsub := (le_min_iff.1 hmin).2
      linarith
  · intro hle
    exact le_max_of_le_right (le_min hfits (Int.le_sub_left_of_add_le hle))

theorem Inv.tick_leaves_iff (h : w.Inv c) (hs : w.world.gate.state = .hardBreach) {p : ℚ}
    {d : Int} {now : Instant} :
    (tick w.world p d now).gate.state ≠ .hardBreach ↔
      warmupDenominatorFloor ≤ d ∧ p < w.world.gate.cfg.releaseThreshold ∧
        w.world.gate.engagedAt + w.dwell ≤ now := by
  rw [← h.dwellElapsed_iff now]
  by_cases hd : d < warmupDenominatorFloor
  · simp [tick, hd, hs, not_le.2 hd]
  · by_cases hrelease : p < w.world.gate.cfg.releaseThreshold ∧ w.world.gate.dwellElapsed now
    · refine iff_of_true ?_ ⟨not_lt.1 hd, hrelease⟩
      simp only [tick, hd, hs, hrelease, if_false, if_true, and_self]
      split_ifs
      · simp [transitionToNormal]
      · simp [transitionToSoftBreach]
    · refine iff_of_false ?_ fun hall => hrelease hall.2
      simp [tick, hd, hs, hrelease]

theorem tick_engagedAt {w : GateWorld} {p : ℚ} {d : Int} {now : Instant}
    (hbefore : w.gate.state ≠ .hardBreach) (hs : (tick w p d now).gate.state = .hardBreach) :
    (tick w p d now).gate.engagedAt = now := by
  have hsoft : ¬ ReleasesToSoft w p d now := fun hr => hbefore hr.1
  rcases tick_cases hsoft with he | he | ⟨-, he⟩ | he
  · rw [he] at hs
    exact absurd hs hbefore
  · rw [he]
    rfl
  · rw [he] at hs
    cases hs
  · rw [he] at hs
    cases hs

theorem Counts.tick (hw : w.Counts) {p : ℚ} {d : Int} (haction : s.action = .tick p d) :
    (w.step s).Counts := by
  intro hs'
  have htick : (w.step s).world = DropGate.tick w.world p d (w.now + s.elapsed) := by
    simp [step, act, haction]
  have hcfg : (w.step s).dwell = w.dwell := by
    rw [dwell, htick, tick_cfg, dwell]
  rw [hcfg]
  rw [htick] at hs' ⊢
  by_cases hs : w.world.gate.state = .hardBreach
  · rw [tick_eq_of_hardBreach hs hs']
    have hsince : (w.step s).engagedSince = w.engagedSince := by
      simp [step, hs]
    have hnow : w.now ≤ (w.step s).now := Int.le_add_of_nonneg_right (Int.natCast_nonneg _)
    rw [hsince]
    rcases hw hs with hcount | hover
    · exact Or.inl hcount
    · exact Or.inr (le_trans hover hnow)
  · left
    rw [tick_engagedAt hs hs']
    simp [step, hs]

theorem Counts.dwellKept (h : w.Inv c) (hw : w.Counts) {p : ℚ} {d : Int}
    (haction : s.action = .tick p d) : DwellKept w s := by
  intro hs hleaves _
  have htick : (w.step s).world = DropGate.tick w.world p d (w.now + s.elapsed) := by
    simp [step, act, haction]
  rw [htick, h.tick_leaves_iff hs] at hleaves
  have helapsed : (0 : Int) ≤ s.elapsed := Int.natCast_nonneg _
  rcases hw hs with hcount | hover
  · have hdwell := hleaves.2.2
    linarith
  · linarith

theorem Counts.dwells (h : w.Inv c) (hw : w.Counts) : w.Dwells := by
  intro ticks hticks
  induction ticks generalizing w with
  | nil => trivial
  | cons s rest ih =>
    obtain ⟨p, d, haction⟩ := hticks s List.mem_cons_self
    have hrest : ∀ t ∈ rest, IsTick t := fun t ht => hticks t (List.mem_cons_of_mem _ ht)
    exact ⟨hw.dwellKept h haction, ih (h.step s) (hw.tick haction) hrest⟩

/-- The tick with nothing dropped at the first instant that the machine lets it release. -/
def firstRelease (w : DwellGate) : DwellStep where
  elapsed := (w.world.gate.engagedAt + w.dwell - w.now).toNat
  action := .tick 0 warmupDenominatorFloor

theorem Inv.dwells_iff (h : w.Inv c) : w.Dwells ↔ w.Counts := by
  constructor
  · intro hdwells hs
    by_contra hnot
    obtain ⟨hcount, hover⟩ := not_or.1 hnot
    have hstep := (hdwells [firstRelease w] (by simp [IsTick, firstRelease])).1
    have htoNat : ((w.world.gate.engagedAt + w.dwell - w.now).toNat : Int) =
        max (w.world.gate.engagedAt + w.dwell - w.now) 0 := Int.toNat_eq_max _
    have hleaves : (w.step (firstRelease w)).world.gate.state ≠ .hardBreach := by
      refine (h.tick_leaves_iff hs).2 ⟨le_refl _, releaseThreshold_pos _, ?_⟩
      have hle := le_max_left (w.world.gate.engagedAt + w.dwell - w.now) 0
      simp only [firstRelease, htoNat]
      linarith
    have hkept := hstep hs hleaves (by simp [firstRelease])
    simp only [firstRelease, htoNat] at hkept
    rcases max_cases (w.world.gate.engagedAt + w.dwell - w.now) 0 with ⟨hmax, -⟩ | ⟨hmax, -⟩
    · rw [hmax] at hkept
      exact hcount (by linarith)
    · rw [hmax] at hkept
      exact hover (by linarith)
  · exact fun hw => hw.dwells h

theorem step_restart {query : Option (Int × Int)} {survivors : Survivors}
    (haction : s.action = .restart query survivors) :
    (w.step s).world =
      restart { w.world with keys := w.world.keys.surviving survivors } query
        (w.now + s.elapsed) := by
  simp [step, act, haction]

theorem dwell_step_restart {query : Option (Int × Int)} {survivors : Survivors}
    (haction : s.action = .restart query survivors) : (w.step s).dwell = w.dwell := by
  rw [dwell, step_restart haction, restart_cfg, dwell]

/-- What `Counts` asks of an engaged gate is not asked of another. -/
theorem counts_of_not_hardBreach (hs : w.world.gate.state ≠ .hardBreach) : w.Counts :=
  fun h => absurd h hs

theorem counts_iff_of_hardBreach {cfg : CampaignConfig} {engagedAt : Instant}
    (h : w.world.gate = ⟨cfg, .hardBreach, engagedAt⟩) :
    w.Counts ↔ w.engagedSince ≤ engagedAt ∨ w.engagedSince + w.dwell ≤ w.now := by
  have hs : w.world.gate.state = .hardBreach := by rw [h]
  have hengaged : w.world.gate.engagedAt = engagedAt := by rw [h]
  unfold Counts
  rw [hengaged]
  exact ⟨fun hcounts => hcounts hs, fun hcounts _ => hcounts⟩

theorem dwellKept_restart_iff {query : Option (Int × Int)} {survivors : Survivors}
    (haction : s.action = .restart query survivors) (hs : w.world.gate.state = .hardBreach) :
    DwellKept w s ↔ (w.step s).world.gate.state = .hardBreach ∨
      w.engagedSince + w.dwell ≤ w.now + s.elapsed := by
  constructor
  · intro hkept
    by_cases hs' : (w.step s).world.gate.state = .hardBreach
    · exact Or.inl hs'
    · exact Or.inr (hkept hs hs' (by simp [haction]))
  · rintro (hs' | hover) _ hleaves _
    · exact absurd hs' hleaves
    · exact hover

theorem record_le_iff {k : GateKeys} {t now : Instant} (h : t ≤ now) :
    t ≤ (k.engagementRecord.map parseRFC3339).getD now ↔
      ∀ text ∈ k.engagementRecord, t ≤ parseRFC3339 text := by
  cases hrecord : k.engagementRecord with
  | none => simp [h]
  | some text => simp

theorem restart_engaged_iff (h : w.Inv c) {query : Option (Int × Int)} {survivors : Survivors}
    (haction : s.action = .restart query survivors) (hs : w.world.gate.state = .hardBreach) :
    (w.step s).Counts ∧ DwellKept w s ↔ RestartOk w s := by
  have hworld := step_restart (w := w) haction
  have hdated := h.dated.surviving survivors
  have hnow : w.now ≤ w.now + s.elapsed := Int.le_add_of_nonneg_right (Int.natCast_nonneg _)
  have hsince : (w.step s).engagedSince = w.engagedSince := by
    simp [step, hs]
  simp only [RestartOk, haction, if_pos hs]
  rw [dwellKept_restart_iff haction hs]
  by_cases hover : w.engagedSince + w.dwell ≤ w.now + s.elapsed
  · refine iff_of_true ⟨fun _ => Or.inr ?_, Or.inr hover⟩ (Or.inl hover)
    rw [dwell_step_restart haction, hsince]
    exact hover
  · simp only [hover, or_false, false_or]
    cases query with
    | none =>
      have hnormal : (w.step s).world.gate.state ≠ .hardBreach := by
        rw [hworld]
        simp [restart, recover]
      exact iff_of_false (fun hboth => hnormal hboth.2) (by simp)
    | some counts =>
      by_cases hk : (w.world.keys.surviving survivors).dropGated = none
      · refine iff_of_false ?_ fun hok => hok.2.1 hk
        rintro ⟨hcounts, hs'⟩
        have hgate := restart_of_not_gated
          { w.world with keys := w.world.keys.surviving survivors } counts (w.now + s.elapsed) hk
        rw [← hworld] at hgate
        split_ifs at hgate with hrate
        · exact hgate hs'
        · rw [counts_iff_of_hardBreach hgate, hsince, dwell_step_restart haction] at hcounts
          have hbounds := h.dwell_bounds
          have hclock := h.clock
          rcases hcounts with hzero | hover'
          · exact hover (by linarith)
          · exact hover hover'
      · have hgate := restart_of_gated
          { w.world with keys := w.world.keys.surviving survivors } counts (w.now + s.elapsed) hdated hk
        rw [← hworld] at hgate
        have hs' : (w.step s).world.gate.state = .hardBreach := by rw [hgate]
        have hover' : ¬ w.engagedSince + w.dwell ≤ (w.step s).now := hover
        rw [counts_iff_of_hardBreach hgate, hsince, dwell_step_restart haction]
        simp only [hs', hover', hk, or_false, and_true, ne_eq, reduceCtorEq, not_false_eq_true,
          true_and]
        exact record_le_iff (le_trans h.since hnow)

theorem restart_idle_iff (h : w.Inv c) {query : Option (Int × Int)} {survivors : Survivors}
    (haction : s.action = .restart query survivors) (hs : w.world.gate.state ≠ .hardBreach) :
    (w.step s).Counts ∧ DwellKept w s ↔ RestartOk w s := by
  have hworld := step_restart (w := w) haction
  have hdated := h.dated.surviving survivors
  have hsince : (w.step s).engagedSince = w.now + s.elapsed := by
    simp [step, hs]
  have hkept : DwellKept w s := fun hs' => absurd hs' hs
  have hbounds := h.dwell_bounds
  have hover : ¬ w.now + s.elapsed + w.dwell ≤ (w.step s).now := by
    show ¬ w.now + s.elapsed + w.dwell ≤ w.now + s.elapsed
    linarith
  simp only [RestartOk, haction, if_neg hs, hkept, and_true]
  cases query with
  | none =>
    have hnormal : (w.step s).world.gate.state ≠ .hardBreach := by
      rw [hworld]
      simp [restart, recover]
    exact iff_of_true (counts_of_not_hardBreach hnormal) (by simp)
  | some counts =>
    simp only [Option.mem_some_iff, forall_eq']
    by_cases hk : (w.world.keys.surviving survivors).dropGated = none
    · rw [if_pos hk]
      have hgate := restart_of_not_gated
        { w.world with keys := w.world.keys.surviving survivors } counts (w.now + s.elapsed) hk
      rw [← hworld] at hgate
      split_ifs at hgate with hrate
      · exact iff_of_true (counts_of_not_hardBreach hgate) hrate
      · refine iff_of_false ?_ hrate
        rw [counts_iff_of_hardBreach hgate, hsince, dwell_step_restart haction]
        have hclock := h.clock
        have helapsed : (0 : Int) ≤ s.elapsed := Int.natCast_nonneg _
        rintro (hzero | hover')
        · linarith
        · exact hover hover'
    · rw [if_neg hk]
      have hgate := restart_of_gated
        { w.world with keys := w.world.keys.surviving survivors } counts (w.now + s.elapsed) hdated hk
      rw [← hworld] at hgate
      rw [counts_iff_of_hardBreach hgate, hsince, dwell_step_restart haction]
      simp only [hover, or_false]
      exact record_le_iff (le_refl _)

theorem Inv.step_iff (h : w.Inv c) (hw : w.Dwells) (s : DwellStep) :
    (w.step s).Dwells ∧ DwellKept w s ↔ RestartOk w s := by
  rw [(h.step s).dwells_iff]
  have hcounts := h.dwells_iff.1 hw
  cases haction : s.action with
  | tick p d =>
    refine iff_of_true ⟨hcounts.tick haction, hcounts.dwellKept h haction⟩ ?_
    simp [RestartOk, haction]
  | forceRelease op reason =>
    have hleaves : (w.step s).world.gate.state ≠ .hardBreach := by
      by_cases hs : w.world.gate.state = .hardBreach
      · simp [DwellGate.step, act, haction, forceRelease, hs, transitionToNormal]
      · simp [DwellGate.step, act, haction, forceRelease, hs]
    refine iff_of_true ⟨counts_of_not_hardBreach hleaves, fun _ _ hauto => ?_⟩ ?_
    · exact absurd haction (hauto op reason)
    · simp [RestartOk, haction]
  | restart query survivors =>
    by_cases hs : w.world.gate.state = .hardBreach
    · exact restart_engaged_iff h haction hs
    · exact restart_idle_iff h haction hs

theorem inv_start (c : StoredCampaign) (sinceEpoch : Nat) :
    (c.startDwell sinceEpoch).Inv c where
  cfg := rfl
  clock := Int.le_add_of_nonneg_right (Int.natCast_nonneg _)
  since := le_refl _
  dated := ⟨by simp [StoredCampaign.startDwell, init], by simp [StoredCampaign.startDwell, init]⟩

/-- From a fresh gate, no step of a run leaves `HARD_BREACH` before the recovery time unless an
operator asks for it, and no tick could from any state of the run, just when its restarts find
what they need. -/
theorem dwell_kept_along_run_iff (c : StoredCampaign) (sinceEpoch : Nat)
    (steps : List DwellStep) :
    Always step Dwells (c.startDwell sinceEpoch) steps ∧
        EachStep step DwellKept (c.startDwell sinceEpoch) steps ↔
      EachStep step RestartOk (c.startDwell sinceEpoch) steps := by
  have hinv := inv_start c sinceEpoch
  have hcounts : (c.startDwell sinceEpoch).Counts :=
    counts_of_not_hardBreach (by simp [StoredCampaign.startDwell, init])
  apply always_and_eachStep_iff (I := Inv c)
  · exact fun _ s hi => hi.step s
  · exact fun _ s hi hw => hi.step_iff hw s
  · exact hinv
  · exact hcounts.dwells hinv

/-- The first process of a campaign finds a rate above the maximum and no `drop_gated`. It
engages the gate as of the zero time, and a tick one second later releases it. -/
theorem restart_engages_without_instant :
    ¬ EachStep step DwellKept (defaultStored.startDwell 0)
      [⟨0, .restart (some (20, 1000)) ⟨true, true, true⟩⟩, ⟨1000000000, .tick 0 1000⟩] := by
  intro h
  have hkept := h.2.1
  exact absurd (hkept (by decide +kernel) (by decide +kernel) (by simp)) (by decide +kernel)

end DwellGate

end Vici2.DropGate
