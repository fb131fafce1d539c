import Vici2.CircuitBreaker

/-! The condition under which the circuit breaker keeps its guarantee is exact: a step
that does not meet it can be continued to a state in which the guarantee fails. -/

namespace Vici2

namespace Esl

variable {D : Int} {history : List BreakerEvent} {w : BreakerWorld}

/-- The opening that a breaker which is not closed goes back to: its attempts are those
allowed since, and none of them has recorded an outcome. -/
structure BreakerWorld.Live (w : BreakerWorld) : Prop where
  last : w.breaker.state ≠ .cbClosed → ∃ later earlier,
    w.history = later ++ .opened w.breaker.openAt :: earlier ∧
      attempts later = probes w.history ∧ ∀ a ∈ probes w.history, .recorded a ∉ later
  recorded : ∀ a, .recorded a ∈ w.history → w.phase a = .ended
  unused : ∃ n, ∀ a ≥ n, w.phase a = .fresh

theorem BreakerWorld.live_start (threshold D now : Int) : (start threshold D now).Live where
  last h := absurd rfl h
  recorded _ h := absurd h List.not_mem_nil
  unused := ⟨0, fun _ _ => rfl⟩

theorem exists_unused {phase : Nat → AttemptPhase} (h : ∃ n, ∀ a ≥ n, phase a = .fresh) (a : Nat)
    (p : AttemptPhase) : ∃ n, ∀ b ≥ n, (if b = a then p else phase b) = .fresh := by
  obtain ⟨n, hn⟩ := h
  refine ⟨max n (a + 1), fun b hb => ?_⟩
  have hne : b ≠ a := by omega
  rw [if_neg hne]
  exact hn b (by omega)

theorem BreakerWorld.Live.setPhase (h : w.Live) {a : Nat} (hrecorded : .recorded a ∉ w.history)
    (p : AttemptPhase) : (w.setPhase a p).Live where
  last := h.last
  recorded b hb := by
    have hne : b ≠ a := fun heq => hrecorded (heq ▸ hb)
    exact (if_neg hne).trans (h.recorded b hb)
  unused := exists_unused h.unused a p

theorem BreakerWorld.Live.move (h : w.Live) (hopen : w.breaker.state ≠ .cbClosed) :
    ({ w with breaker := { w.breaker with state := .cbHalfOpen } } : BreakerWorld).Live where
  last _ := h.last hopen
  recorded := h.recorded
  unused := h.unused

theorem BreakerWorld.Live.allow (h : w.Live) :
    ({ w with breaker := (w.breaker.allow w.now).2 } : BreakerWorld).Live := by
  rcases w.breaker.allow_cases w.now with ⟨-, heq⟩ | ⟨hstate, heq⟩ | ⟨-, heq⟩
  · rw [heq]
    exact h
  · rw [heq]
    apply h.move
    rcases hstate with hhalf | ⟨hopen, -⟩
    · rw [hhalf]
      decide
    · rw [hopen]
      decide
  · rw [heq]
    exact h

theorem BreakerWorld.Live.readState (h : w.Live) :
    ({ w with breaker := (w.breaker.readState w.now).2 } : BreakerWorld).Live := by
  rcases w.breaker.readState_cases w.now with heq | ⟨hopen, -, heq⟩
  · rw [heq]
    exact h
  · rw [heq]
    exact h.move (by rw [hopen]; decide)

theorem BreakerWorld.Live.allowed (h : w.Live) {a : Nat} (hrecorded : .recorded a ∉ w.history) :
    ({ w with history := .allowed a w.now :: w.history } : BreakerWorld).Live where
  last hstate := by
    obtain ⟨later, earlier, hsplit, hattempts, hnone⟩ := h.last hstate
    refine ⟨.allowed a w.now :: later, earlier, by rw [hsplit]; rfl, ?_, ?_⟩
    · have hcons : attempts (.allowed a w.now :: later) = a :: attempts later := by
        simp [attempts]
      rw [hcons, hattempts]
      rfl
    · intro b hb hmem
      have hlater : .recorded b ∈ later := by simpa using hmem
      rcases List.mem_cons.1 hb with rfl | hb
      · exact hrecorded (by rw [hsplit]; exact List.mem_append_left _ hlater)
      · exact hnone b hb hlater
  recorded b hb := h.recorded b (by simpa using hb)
  unused := h.unused

theorem BreakerWorld.Live.ask (h : w.Live) {a : Nat}
    (hphase : w.phase a = .fresh ∨ w.phase a = .selected) : (w.ask a).Live := by
  have hrecorded : .recorded a ∉ w.history := by
    intro hmem
    have hended := h.recorded a hmem
    rcases hphase with hfresh | hselected
    · rw [hfresh] at hended
      cases hended
    · rw [hselected] at hended
      cases hended
  unfold BreakerWorld.ask
  cases hallow : w.breaker.allow w.now with
  | mk ok breaker =>
    have hmoved := h.allow
    rw [hallow] at hmoved
    cases ok with
    | false => exact hmoved.setPhase hrecorded .refused
    | true =>
      refine BreakerWorld.Live.setPhase (hmoved.allowed hrecorded) ?_ .allowed
      simpa using hrecorded

theorem BreakerWorld.Live.ended (h : w.Live) {a : Nat} {breaker : CircuitBreaker}
    {history : List BreakerEvent}
    (hlast : breaker.state ≠ .cbClosed → ∃ later earlier,
      history = later ++ .opened breaker.openAt :: earlier ∧
        attempts later = probes history ∧ ∀ b ∈ probes history, .recorded b ∉ later)
    (hmem : ∀ b, .recorded b ∈ history → b = a ∨ .recorded b ∈ w.history) :
    (({ w with breaker := breaker, history := history } : BreakerWorld).setPhase a
      .ended).Live where
  last := hlast
  recorded b hb := by
    by_cases hba : b = a
    · exact if_pos hba
    · exact (if_neg hba).trans (h.recorded b ((hmem b hb).resolve_left hba))
  unused := exists_unused h.unused a .ended

theorem BreakerWorld.Live.finish (h : w.Live) (hinv : w.Inv D) {a : Nat} (how : OriginateEnd)
    (hphase : w.phase a = .allowed) : (w.finish a how).Live := by
  have hrecorded : .recorded a ∉ w.history := by
    intro hmem
    have hended := h.recorded a hmem
    rw [hphase] at hended
    cases hended
  unfold BreakerWorld.finish
  cases how.recorded with
  | none => exact h.setPhase hrecorded .ended
  | some good =>
    cases good with
    | true => exact h.ended (fun hstate => absurd rfl hstate) (fun b hb => by simpa using hb)
    | false =>
      by_cases htrips : w.breaker.trips
      · refine h.ended (a := a) ?_ ?_
        · intro _
          refine ⟨[], .recorded a :: w.history, ?_, ?_, ?_⟩
          · simp only [CircuitBreaker.recordFailure, if_pos htrips, List.nil_append]
          · rw [if_pos htrips]
            rfl
          · intro b _ hmem
            cases hmem
        · intro b hb
          rw [if_pos htrips] at hb
          simpa using hb
      · refine h.ended (a := a) ?_ ?_
        · simp only [CircuitBreaker.recordFailure, if_neg htrips]
          intro hstate
          obtain ⟨later, earlier, hsplit, hattempts, -⟩ := h.last hstate
          have hopen : w.breaker.state = .cbOpen := by
            cases hcase : w.breaker.state with
            | cbClosed => exact absurd hcase hstate
            | cbHalfOpen => exact absurd (Or.inr hcase) htrips
            | cbOpen => rfl
          have hquiet := BreakerInv.quiet hinv hopen
          refine ⟨.recorded a :: later, earlier, by rw [hsplit]; rfl, ?_, ?_⟩
          · simpa [attempts, probes] using hattempts
          · intro b hb
            rw [probes, hquiet] at hb
            cases hb
        · intro b hb
          rw [if_neg htrips] at hb
          simpa using hb

theorem BreakerWorld.Live.step (h : w.Live) (hinv : w.Inv D) (s : BreakerStep) :
    (w.step s).Live := by
  have helapsed : (w.elapse s.elapsed).Live := ⟨h.last, h.recorded, h.unused⟩
  unfold BreakerWorld.step
  cases s.action with
  | select a ready =>
    simp only [BreakerWorld.act]
    split
    · rename_i hphase
      have hrecorded : .recorded a ∉ w.history := by
        intro hmem
        have hended := h.recorded a hmem
        rw [show w.phase a = .fresh from hphase] at hended
        cases hended
      cases ready with
      | false => exact helapsed.setPhase hrecorded .passedOver
      | true => exact helapsed.allow.setPhase hrecorded _
    · exact helapsed
  | ask a =>
    simp only [BreakerWorld.act]
    split
    · rename_i hphase
      exact helapsed.ask hphase
    · exact helapsed
  | finish a how =>
    simp only [BreakerWorld.act]
    split
    · rename_i hphase
      exact helapsed.finish (BreakerInv.elapse hinv s.elapsed) how hphase
    · exact helapsed
  | readState => exact helapsed.readState

theorem BreakerWorld.Live.not_recorded (h : w.Live) {a : Nat} (hphase : w.phase a ≠ .ended) :
    .recorded a ∉ w.history :=
  fun hmem => hphase (h.recorded a hmem)

/-- A second attempt that a half-open breaker lets through. -/
theorem BreakerWorld.Live.second_probe (h : w.Live) {a : Nat}
    (hphase : w.phase a = .fresh ∨ w.phase a = .selected)
    (hhalf : w.breaker.state = .cbHalfOpen) (hprobes : probes w.history ≠ []) :
    ¬ Guarded D (w.ask a).history := by
  obtain ⟨later, earlier, hsplit, hattempts, hnone⟩ := h.last (by rw [hhalf]; decide)
  have hhistory : (w.ask a).history = .allowed a w.now :: later ++
      .opened w.breaker.openAt :: earlier := by
    simp only [BreakerWorld.ask, CircuitBreaker.allow, hhalf, if_true, BreakerWorld.setPhase,
      hsplit, List.cons_append]
  have hcons : attempts (.allowed a w.now :: later) = a :: probes w.history := by
    rw [← hattempts]
    simp [attempts]
  have ha : .recorded a ∉ w.history := by
    apply h.not_recorded
    rcases hphase with hp | hp
    · rw [hp]
      decide
    · rw [hp]
      decide
  apply not_guarded_of_two hhistory
  · have hpos := List.length_pos_of_ne_nil hprobes
    rw [hcons, List.length_cons]
    omega
  · intro b hb hmem
    rw [hcons] at hb
    have hlater : .recorded b ∈ later := by simpa using hmem
    rcases List.mem_cons.1 hb with rfl | hb
    · exact ha (by rw [hsplit]; exact List.mem_append_left _ hlater)
    · exact hnone b hb hlater

/-- A success from before the opening closes the breaker, and two more attempts pass. -/
theorem BreakerWorld.Live.late_success (h : w.Live) {a : Nat} (how : OriginateEnd)
    (hphase : w.phase a = .allowed) (hhow : how.recorded = some true)
    (hstate : w.breaker.state ≠ .cbClosed) (ha : a ∉ probes w.history) :
    ∃ more, EachStep BreakerWorld.step StepOk (w.finish a how) more ∧
      ¬ Guarded D (more.foldl BreakerWorld.step (w.finish a how)).history := by
  obtain ⟨later, earlier, hsplit, hattempts, hnone⟩ := h.last hstate
  obtain ⟨n, hn⟩ := h.unused
  have hx : w.phase (max n (a + 1)) = .fresh := hn _ (by omega)
  have hy : w.phase (max n (a + 1) + 1) = .fresh := hn _ (by omega)
  generalize max n (a + 1) = x at hx hy
  have hxa : x ≠ a := by
    rintro rfl
    rw [hx] at hphase
    cases hphase
  have hya : x + 1 ≠ a := by
    rintro rfl
    rw [hy] at hphase
    cases hphase
  refine ⟨[⟨0, .ask x⟩, ⟨0, .ask (x + 1)⟩], ?_, ?_⟩
  · simp [EachStep, StepOk, BreakerWorld.finish, hhow, succeed, BreakerWorld.setPhase,
      CircuitBreaker.recordSuccess, BreakerWorld.step, act, elapse, BreakerWorld.ask,
      CircuitBreaker.allow, hx, hxa]
  · have hhistory : ([⟨0, .ask x⟩, ⟨0, .ask (x + 1)⟩].foldl BreakerWorld.step
        (w.finish a how)).history =
        (.allowed (x + 1) w.now :: .allowed x w.now :: .recorded a :: later) ++
          .opened w.breaker.openAt :: earlier := by
      simp [BreakerWorld.finish, hhow, succeed, BreakerWorld.setPhase,
        CircuitBreaker.recordSuccess, BreakerWorld.step, act, elapse, BreakerWorld.ask,
        CircuitBreaker.allow, hx, hxa, hy, hya, hsplit]
    have hcons : attempts (.allowed (x + 1) w.now :: .allowed x w.now :: .recorded a :: later) =
        (x + 1) :: x :: probes w.history := by
      rw [← hattempts]
      simp [attempts]
    have hxr : .recorded x ∉ later := fun hmem =>
      h.not_recorded (by rw [hx]; decide) (by rw [hsplit]; exact List.mem_append_left _ hmem)
    have hyr : .recorded (x + 1) ∉ later := fun hmem =>
      h.not_recorded (by rw [hy]; decide) (by rw [hsplit]; exact List.mem_append_left _ hmem)
    apply not_guarded_of_two hhistory
    · rw [hcons]
      simp
    · intro b hb hmem
      rw [hcons] at hb
      have hlater : b = a ∨ .recorded b ∈ later := by simpa using hmem
      rcases List.mem_cons.1 hb with rfl | hb
      · exact hlater.elim hya hyr
      · rcases List.mem_cons.1 hb with rfl | hb
        · exact hlater.elim hxa hxr
        · rcases hlater with rfl | hlater
          · exact ha hb
          · exact hnone b hb hlater

/-- A failure from before the opening trips a half-open breaker again, and the next attempt
does not wait for the one that is out. -/
theorem BreakerWorld.Live.late_failure (h : w.Live) (hinv : w.Inv D) {a : Nat}
    (how : OriginateEnd) (hphase : w.phase a = .allowed) (hhow : how.recorded = some false)
    (hhalf : w.breaker.state = .cbHalfOpen) (hprobes : probes w.history ≠ [])
    (ha : a ∉ probes w.history) :
    ∃ more, EachStep BreakerWorld.step StepOk (w.finish a how) more ∧
      ¬ Guarded D (more.foldl BreakerWorld.step (w.finish a how)).history := by
  obtain ⟨later, earlier, hsplit, hattempts, hnone⟩ := h.last (by rw [hhalf]; decide)
  obtain ⟨x, hx⟩ := h.unused
  have hx : w.phase x = .fresh := hx x (by omega)
  have hxa : x ≠ a := by
    rintro rfl
    rw [hx] at hphase
    cases hphase
  have htrips : w.breaker.trips := Or.inr hhalf
  have hduration : w.breaker.openDuration = D := BreakerInv.duration hinv
  refine ⟨[⟨D.toNat, .ask x⟩], ?_, ?_⟩
  · simp [EachStep, StepOk, BreakerWorld.finish, hhow, fail, BreakerWorld.setPhase,
      CircuitBreaker.recordFailure, htrips, hx, hxa]
  · have hhistory : ([⟨D.toNat, .ask x⟩].foldl BreakerWorld.step (w.finish a how)).history =
        (.allowed x (w.now + D.toNat) :: .opened w.now :: .recorded a :: later) ++
          .opened w.breaker.openAt :: earlier := by
      simp [BreakerWorld.finish, hhow, fail, BreakerWorld.setPhase, CircuitBreaker.recordFailure,
        htrips, BreakerWorld.step, act, elapse, BreakerWorld.ask, CircuitBreaker.allow, hx, hxa,
        hsplit, hduration]
    have hcons : attempts (.allowed x (w.now + D.toNat) :: .opened w.now :: .recorded a :: later) =
        x :: probes w.history := by
      rw [← hattempts]
      simp [attempts]
    have hxr : .recorded x ∉ later := fun hmem =>
      h.not_recorded (by rw [hx]; decide) (by rw [hsplit]; exact List.mem_append_left _ hmem)
    apply not_guarded_of_two hhistory
    · have hpos := List.length_pos_of_ne_nil hprobes
      rw [hcons, List.length_cons]
      omega
    · intro b hb hmem
      rw [hcons] at hb
      have hlater : b = a ∨ .recorded b ∈ later := by simpa using hmem
      rcases List.mem_cons.1 hb with rfl | hb
      · exact hlater.elim hxa hxr
      · rcases hlater with rfl | hlater
        · exact ha hb
        · exact hnone b hb hlater

theorem BreakerWorld.unguarded_of_not_stepOk (h : w.Live) (hinv : w.Inv D) {s : BreakerStep}
    (hbad : ¬ StepOk w s) :
    ∃ more, EachStep step StepOk (w.step s) more ∧
      ¬ Guarded D (more.foldl step (w.step s)).history := by
  have helapsed : (w.elapse s.elapsed).Live := ⟨h.last, h.recorded, h.unused⟩
  have hinv' : (w.elapse s.elapsed).Inv D := BreakerInv.elapse hinv s.elapsed
  unfold step
  unfold StepOk at hbad
  cases haction : s.action with
  | select a ready =>
    rw [haction] at hbad
    exact absurd trivial hbad
  | readState =>
    rw [haction] at hbad
    exact absurd trivial hbad
  | ask a =>
    rw [haction] at hbad
    simp only [Classical.not_imp] at hbad
    obtain ⟨hphase, hhalf, hprobes⟩ := hbad
    have hact : (w.elapse s.elapsed).act (.ask a) = (w.elapse s.elapsed).ask a := if_pos hphase
    rw [hact]
    exact ⟨[], trivial, helapsed.second_probe hphase hhalf hprobes⟩
  | finish a how =>
    rw [haction] at hbad
    simp only [Classical.not_imp] at hbad
    obtain ⟨hphase, hbad⟩ := hbad
    have hact : (w.elapse s.elapsed).act (.finish a how) = (w.elapse s.elapsed).finish a how :=
      if_pos hphase
    rw [hact]
    cases hhow : how.recorded with
    | none =>
      rw [hhow] at hbad
      exact absurd trivial hbad
    | some good =>
      rw [hhow] at hbad
      cases good with
      | true =>
        obtain ⟨hstate, ha⟩ := not_or.1 hbad
        exact helapsed.late_success how hphase hhow hstate ha
      | false =>
        obtain ⟨hhalf, hbad⟩ := Classical.not_imp.1 hbad
        obtain ⟨hprobes, ha⟩ := not_or.1 hbad
        exact helapsed.late_failure hinv' how hphase hhow hhalf hprobes ha

/-- The condition is exact: after a run that meets it, a step meets it just when the
guarantee holds however the run goes on within the condition. -/
theorem stepOk_iff_guarded (threshold openDuration now : Int) (steps : List BreakerStep)
    (h : EachStep BreakerWorld.step StepOk (.start threshold openDuration now) steps)
    (s : BreakerStep) :
    let w := steps.foldl BreakerWorld.step (.start threshold openDuration now)
    StepOk w s ↔
      ∀ more, EachStep BreakerWorld.step StepOk (w.step s) more →
        Guarded openDuration (more.foldl BreakerWorld.step (w.step s)).history := by
  intro w
  have hboth : Always BreakerWorld.step (fun w => w.Inv openDuration ∧ w.Live)
      (.start threshold openDuration now) steps := by
    refine always_of_eachStep (fun w s hw hok => ⟨hw.1.step hok, hw.2.step hw.1 s⟩) ?_ h
    exact ⟨breakerInv_start threshold openDuration now, BreakerWorld.live_start _ _ _⟩
  obtain ⟨hinv, hlive⟩ := hboth.last
  constructor
  · intro hok more hmore
    exact BreakerInv.guarded ((hinv.step hok).run hmore).last
  · intro hall
    by_contra hbad
    obtain ⟨more, hmore, hunguarded⟩ := BreakerWorld.unguarded_of_not_stepOk hlive hinv hbad
    exact hunguarded (hall more hmore)

end Esl

end Vici2
