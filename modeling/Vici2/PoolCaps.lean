import Vici2.KeyedCount
import Vici2.PoolPicker

/-! The caps of a number pool, command by command: what each command does to the
counters, and what a run of undisturbed picks keeps. -/

namespace Vici2

namespace Pool

/-- What the counters say about the picks made so far. -/
structure CountersOk (config : PoolConfig) (k : Counters) : Prop where
  concurrent : ∀ d, (k.concurrent d).getD 0 = k.held d
  held_le : config.maxConcurrent > 0 → ∀ d, (k.held d : Int) ≤ config.maxConcurrent
  made_le : config.dailyCap > 0 → ∀ day d, (k.made day d : Int) ≤ config.dailyCap
  future : ∀ day d, k.today < day → k.made day d = 0
  born_le : ∀ d e, k.daily d = some e → e.born ≤ k.today
  expires : ∀ d e, k.daily d = some e → ∃ t, e.expireAt = some t
  counted : ∀ d e, k.daily d = some e → e.born = k.today →
    e.value = k.made k.today d ∧ ∀ t, e.expireAt = some t → k.midnight ≤ t
  uncounted : ∀ d, (∀ e, k.daily d = some e → e.born ≠ k.today) → k.made k.today d = 0

def Candidate.Ok (config : PoolConfig) (c : Candidate) : Prop :=
  (config.dailyCap > 0 → c.daily.getD 0 < config.dailyCap) ∧
    (config.maxConcurrent > 0 → c.concurrent.getD 0 < config.maxConcurrent)

/-- A pick has read counters below the caps. -/
def Stage.Ok (config : PoolConfig) (now : Int) : Stage → Prop
  | .checkDaily _ _ eligible => ∀ c ∈ eligible, c.Ok config
  | .checkConcurrent _ _ daily _ eligible =>
    (config.dailyCap > 0 → daily.getD 0 < config.dailyCap) ∧ ∀ c ∈ eligible, c.Ok config
  | .incrConcurrent picked => picked.Ok config
  | .readClock picked => picked.Ok config
  | .untilMidnight picked _ => picked.Ok config
  | .setNx picked midnight ttl => picked.Ok config ∧ midnight ≤ now + ttl
  | .incrDaily picked => picked.Ok config
  | .returned _ => True

structure Inv (config : PoolConfig) (w : World) : Prop where
  counters : CountersOk config w.counters
  picks : ∀ stage ∈ w.picks, stage.Ok config w.counters.now

theorem Inv.capsKept {config : PoolConfig} {w : World} (hw : Inv config w) : CapsKept config w where
  concurrent := hw.counters.held_le
  daily := hw.counters.made_le
  expiry := by
    intro d e he
    obtain ⟨t, ht⟩ := hw.counters.expires d e (Option.filter_eq_some_iff.1 he).1
    rw [ht]
    exact Option.some_ne_none t

section Reads

variable {config : PoolConfig}

theorem getD_lt_of_not_reached {val : Option Int} {cap : Int} (hcap : cap > 0)
    (h : capReached val cap = false) : val.getD 0 < cap := by
  cases val with
  | none => exact hcap
  | some v =>
    have hv : ¬ cap ≤ v := of_decide_eq_false h
    exact Int.not_le.1 hv

theorem foldl_mem {α : Type} {f : α → α → α} (hf : ∀ a b, f a b = a ∨ f a b = b) (l : List α) (a : α) :
    l.foldl f a ∈ a :: l := by
  induction l generalizing a with
  | nil => exact List.mem_singleton_self a
  | cons b l ih =>
    rw [List.foldl_cons]
    rcases List.mem_cons.1 (ih (f a b)) with h | h
    · rw [h]
      rcases hf a b with hfirst | hsecond
      · rw [hfirst]
        exact List.mem_cons_self
      · rw [hsecond]
        exact List.mem_cons_of_mem _ List.mem_cons_self
    · exact List.mem_cons_of_mem _ (List.mem_cons_of_mem _ h)

theorem pickLRU_mem {eligible : List Candidate} {c : Candidate} (h : pickLRU eligible = some c) :
    c ∈ eligible := by
  cases eligible with
  | nil => cases h
  | cons a cs =>
    obtain rfl := Option.some.inj h
    apply foldl_mem
    intro a b
    split
    · exact Or.inr rfl
    · exact Or.inl rfl

theorem pickMember_mem {strategy : Strategy} {eligible : List Candidate} {cursor : Int} {r : Nat}
    {c : Candidate} (h : pickMember strategy eligible cursor r = some c) : c ∈ eligible := by
  cases strategy with
  | roundRobin => exact List.mem_of_getElem? h
  | random => exact List.mem_of_getElem? h
  | leastRecentlyUsed => exact pickLRU_mem h
  | healthWeightedLru => exact List.mem_of_getElem? h

end Reads

section Commands

variable {config : PoolConfig} {k : Counters}

theorem CountersOk.setCursor (hk : CountersOk config k) (cursor : Int) :
    CountersOk config { k with cursor := cursor } :=
  { hk with }

theorem CountersOk.advanceCursor (hk : CountersOk config k) (strategy : Strategy) :
    CountersOk config (k.advanceCursor strategy) := by
  unfold Counters.advanceCursor
  split
  · exact hk.setCursor _
  · exact hk

theorem now_advanceCursor (k : Counters) (strategy : Strategy) :
    (k.advanceCursor strategy).now = k.now := by
  unfold Counters.advanceCursor
  split
  · rfl
  · rfl

/-- The concurrent counter of one number changes with the picks it counts. -/
theorem CountersOk.setConcurrent (hk : CountersOk config k) {d v : Int} {n : Nat} (hn : v = n)
    (hle : config.maxConcurrent > 0 → (n : Int) ≤ config.maxConcurrent) :
    CountersOk config { k with
      concurrent := Function.update k.concurrent d (some v)
      held := Function.update k.held d n } :=
  { hk with
    concurrent := by
      intro d'
      by_cases hd : d' = d
      · subst d'
        simp only [Function.update_self]
        exact hn
      · simp only [Function.update_of_ne hd]
        exact hk.concurrent d'
    held_le := by
      intro hcap d'
      by_cases hd : d' = d
      · subst d'
        simp only [Function.update_self]
        exact hle hcap
      · simp only [Function.update_of_ne hd]
        exact hk.held_le hcap d' }

theorem CountersOk.incrConcurrent (hk : CountersOk config k) {c : Candidate} (hc : c.Ok config)
    (hread : config.maxConcurrent > 0 → (k.concurrent c.member.didId).getD 0 ≤ c.concurrent.getD 0) :
    CountersOk config (k.incrConcurrent c.member.didId) := by
  have hcount := hk.concurrent c.member.didId
  apply hk.setConcurrent
  · rw [hcount]
    rfl
  · intro hcap
    have hbelow := hc.2 hcap
    have hnow := hread hcap
    omega

theorem CountersOk.release (hk : CountersOk config k) (d : Int) : CountersOk config (k.release d) := by
  have hcount := hk.concurrent d
  unfold Counters.release
  split
  · exact hk
  · next hheld =>
    apply hk.setConcurrent
    · rw [hcount]
      omega
    · intro hcap
      have hle := hk.held_le hcap d
      omega

theorem today_lt_midnight (k : Counters) : k.now < k.midnight := by
  unfold Counters.midnight Counters.today msPerDay
  omega

theorem liveDaily_of_born (hk : CountersOk config k) {d : Int} {e : DailyCounter}
    (he : k.daily d = some e) (hborn : e.born = k.today) : k.liveDaily d = some e := by
  obtain ⟨t, ht⟩ := hk.expires d e he
  have hmidnight := (hk.counted d e he hborn).2 t ht
  have hnow := today_lt_midnight k
  unfold Counters.liveDaily
  rw [Option.filter_eq_some_iff]
  refine ⟨he, ?_⟩
  rw [ht]
  simp only [Option.all_some, decide_eq_true_eq]
  omega

/-- The daily counter of one number is the one of today and counts its picks. -/
theorem CountersOk.setDaily (hk : CountersOk config k) {d : Int} {e : DailyCounter} {n : Nat} {t : Int}
    (hborn : e.born = k.today) (hvalue : e.value = n) (hexpire : e.expireAt = some t)
    (hmidnight : k.midnight ≤ t) (hle : config.dailyCap > 0 → (n : Int) ≤ config.dailyCap) :
    CountersOk config { k with
      daily := Function.update k.daily d (some e)
      made := Function.update k.made k.today (Function.update (k.made k.today) d n) } := by
  refine
    { hk with
      made_le := ?_
      future := ?_
      born_le := ?_
      expires := ?_
      counted := ?_
      uncounted := ?_ }
  · intro hcap day d'
    by_cases hday : day = k.today
    · subst day
      simp only [Function.update_self]
      by_cases hd : d' = d
      · subst d'
        simp only [Function.update_self]
        exact hle hcap
      · simp only [Function.update_of_ne hd]
        exact hk.made_le hcap k.today d'
    · simp only [Function.update_of_ne hday]
      exact hk.made_le hcap day d'
  · intro day d' hday
    have hday : k.today < day := hday
    simp only [Function.update_of_ne (Int.ne_of_gt hday)]
    exact hk.future day d' hday
  · intro d' e' he
    rcases update_some_eq_some.1 he with ⟨-, rfl⟩ | ⟨-, he⟩
    · exact Int.le_of_eq hborn
    · exact hk.born_le d' e' he
  · intro d' e' he
    rcases update_some_eq_some.1 he with ⟨-, rfl⟩ | ⟨-, he⟩
    · exact ⟨t, hexpire⟩
    · exact hk.expires d' e' he
  · intro d' e' he hborn'
    show e'.value = (Function.update k.made k.today (Function.update (k.made k.today) d n) k.today d' : Nat) ∧
      ∀ t', e'.expireAt = some t' → k.midnight ≤ t'
    rw [Function.update_self]
    rcases update_some_eq_some.1 he with ⟨rfl, rfl⟩ | ⟨hd, he⟩
    · rw [Function.update_self]
      refine ⟨hvalue, ?_⟩
      intro t' ht'
      rw [hexpire] at ht'
      obtain rfl := Option.some.inj ht'
      exact hmidnight
    · rw [Function.update_of_ne hd]
      exact hk.counted d' e' he hborn'
  · intro d' hd'
    show Function.update k.made k.today (Function.update (k.made k.today) d n) k.today d' = 0
    rw [Function.update_self]
    by_cases hd : d' = d
    · subst d'
      exact absurd hborn (hd' e (Function.update_self d (some e) k.daily))
    · rw [Function.update_of_ne hd]
      apply hk.uncounted d'
      intro e' he
      exact hd' e' ((Function.update_of_ne hd (some e) k.daily).trans he)

theorem CountersOk.setNxDaily (hk : CountersOk config k) {d midnight ttl : Int}
    (hclock : midnight ≤ k.now + ttl) (hday : k.liveDaily d = none → midnight = k.midnight) :
    CountersOk config (k.setNxDaily d ttl) := by
  unfold Counters.setNxDaily
  split
  · exact hk
  · next hlive =>
    have hfresh : k.made k.today d = 0 := by
      apply hk.uncounted d
      intro e he hborn
      rw [liveDaily_of_born hk he hborn] at hlive
      cases hlive
    have hmidnight := hday hlive
    have hmade : Function.update k.made k.today (Function.update (k.made k.today) d 0) = k.made := by
      rw [← hfresh, Function.update_eq_self, Function.update_eq_self]
    have hset := hk.setDaily (d := d) (e := ⟨0, some (k.now + ttl), k.today⟩) (n := 0) rfl rfl rfl
      (by omega) (fun hcap => by omega)
    rw [hmade] at hset
    exact hset

theorem CountersOk.incrDaily (hk : CountersOk config k) {c : Candidate} (hc : c.Ok config)
    {e : DailyCounter} (hlive : k.liveDaily c.member.didId = some e) (hborn : e.born = k.today)
    (hread : config.dailyCap > 0 → e.value ≤ c.daily.getD 0) :
    CountersOk config (k.incrDaily c.member.didId) := by
  have he := (Option.filter_eq_some_iff.1 hlive).1
  obtain ⟨t, ht⟩ := hk.expires _ e he
  obtain ⟨hvalue, hmidnight⟩ := hk.counted _ e he hborn
  unfold Counters.incrDaily
  rw [hlive]
  dsimp only
  apply hk.setDaily
  · exact hborn
  · show e.value + 1 = _
    rw [hvalue]
    rfl
  · exact ht
  · exact hmidnight t ht
  · intro hcap
    have hbelow := hc.1 hcap
    have hnow := hread hcap
    omega

theorem CountersOk.tick (hk : CountersOk config k) (ms : Nat) :
    CountersOk config { k with now := k.now + ms } := by
  have hle : k.today ≤ (k.now + ms) / msPerDay := by
    unfold Counters.today msPerDay
    omega
  by_cases hday : (k.now + ms) / msPerDay = k.today
  · have hmidnight : ((k.now + ms) / msPerDay + 1) * msPerDay = k.midnight := by
      unfold Counters.midnight
      rw [hday]
    exact
      { hk with
        future := fun day d h => hk.future day d (Int.lt_of_le_of_lt hle h)
        born_le := fun d e he => Int.le_trans (hk.born_le d e he) hle
        counted := by
          intro d e he hborn
          obtain ⟨hvalue, hexpire⟩ := hk.counted d e he (Eq.trans hborn hday)
          refine ⟨?_, ?_⟩
          · show e.value = k.made ((k.now + ms) / msPerDay) d
            rw [hday]
            exact hvalue
          · intro t ht
            show ((k.now + ms) / msPerDay + 1) * msPerDay ≤ t
            rw [hmidnight]
            exact hexpire t ht
        uncounted := by
          intro d hd
          show k.made ((k.now + ms) / msPerDay) d = 0
          rw [hday]
          exact hk.uncounted d fun e he hborn => hd e he (Eq.trans hborn hday.symm) }
  · have hlt : k.today < (k.now + ms) / msPerDay := by omega
    exact
      { hk with
        future := fun day d h => hk.future day d (Int.lt_of_le_of_lt hle h)
        born_le := fun d e he => Int.le_trans (hk.born_le d e he) hle
        counted := by
          intro d e he hborn
          have hborn : e.born = (k.now + ms) / msPerDay := hborn
          have hborn_le := hk.born_le d e he
          omega
        uncounted := fun d _ => hk.future _ d hlt }

end Commands

section Steps

variable {config : PoolConfig} {k : Counters}

theorem Stage.Ok.later {now now' : Int} (h : now ≤ now') {stage : Stage}
    (hstage : stage.Ok config now) : stage.Ok config now' := by
  cases stage with
  | setNx picked midnight ttl => exact ⟨hstage.1, Int.le_trans hstage.2 (Int.add_le_add_right h ttl)⟩
  | checkDaily hint todo eligible => exact hstage
  | checkConcurrent hint m daily todo eligible => exact hstage
  | incrConcurrent picked => exact hstage
  | readClock picked => exact hstage
  | untilMidnight picked midnight => exact hstage
  | incrDaily picked => exact hstage
  | returned picked => exact hstage

theorem now_setNxDaily (k : Counters) (d ttl : Int) : (k.setNxDaily d ttl).now = k.now := by
  unfold Counters.setNxDaily
  split
  · rfl
  · rfl

theorem now_release (k : Counters) (d : Int) : (k.release d).now = k.now := by
  unfold Counters.release
  split
  · rfl
  · rfl

theorem now_advance (config : PoolConfig) (k : Counters) (r : Nat) (stage : Stage) :
    (stage.advance config k r).1.now = k.now := by
  cases stage with
  | checkDaily hint todo eligible =>
    cases todo with
    | nil =>
      unfold Stage.advance
      dsimp only
      split
      · rfl
      · split
        · exact now_advanceCursor k _
        · exact now_advanceCursor k _
    | cons m todo =>
      unfold Stage.advance
      dsimp only
      repeat' split
      all_goals rfl
  | checkConcurrent hint m daily todo eligible =>
    unfold Stage.advance
    dsimp only
    repeat' split
    all_goals rfl
  | setNx picked midnight ttl => exact now_setNxDaily k _ ttl
  | incrConcurrent picked => rfl
  | readClock picked => rfl
  | untilMidnight picked midnight => rfl
  | incrDaily picked => rfl
  | returned picked => rfl

theorem ok_checkDaily_nil (hk : CountersOk config k) {eligible : List Candidate}
    (heligible : ∀ c ∈ eligible, c.Ok config) (hint : String) (r : Nat) :
    CountersOk config ((Stage.checkDaily hint [] eligible).advance config k r).1 ∧
      ((Stage.checkDaily hint [] eligible).advance config k r).2.Ok config k.now := by
  unfold Stage.advance
  dsimp only
  split
  · exact ⟨hk, trivial⟩
  · split
    · exact ⟨hk.advanceCursor _, trivial⟩
    · next picked hpick => exact ⟨hk.advanceCursor _, heligible picked (pickMember_mem hpick)⟩

theorem ok_checkDaily_cons {eligible : List Candidate} (heligible : ∀ c ∈ eligible, c.Ok config)
    (hint : String) (m : PoolMember) (todo : List PoolMember) (r : Nat) :
    ((Stage.checkDaily hint (m :: todo) eligible).advance config k r).1 = k ∧
      ((Stage.checkDaily hint (m :: todo) eligible).advance config k r).2.Ok config k.now := by
  unfold Stage.advance
  dsimp only
  split
  · exact ⟨rfl, heligible⟩
  · split
    · exact ⟨rfl, heligible⟩
    · split
      · next hcap =>
        split
        · exact ⟨rfl, heligible⟩
        · next hreached =>
          exact ⟨rfl, fun _ => getD_lt_of_not_reached hcap (Bool.eq_false_iff.2 hreached), heligible⟩
      · next hcap => exact ⟨rfl, fun h => absurd h hcap, heligible⟩

theorem ok_checkConcurrent {eligible : List Candidate} {daily : Option Int}
    (hdaily : config.dailyCap > 0 → daily.getD 0 < config.dailyCap)
    (heligible : ∀ c ∈ eligible, c.Ok config) (hint : String) (m : PoolMember)
    (todo : List PoolMember) (r : Nat) :
    ((Stage.checkConcurrent hint m daily todo eligible).advance config k r).1 = k ∧
      ((Stage.checkConcurrent hint m daily todo eligible).advance config k r).2.Ok config k.now := by
  have happend : ∀ c : Candidate, c.Ok config → ∀ c' ∈ eligible ++ [c], c'.Ok config := by
    intro c hc c' hc'
    rcases List.mem_append.1 hc' with hc' | hc'
    · exact heligible c' hc'
    · obtain rfl := List.mem_singleton.1 hc'
      exact hc
  unfold Stage.advance
  dsimp only
  split
  · next hcap =>
    split
    · exact ⟨rfl, heligible⟩
    · next hreached =>
      refine ⟨rfl, happend _ ⟨hdaily, fun _ => ?_⟩⟩
      exact getD_lt_of_not_reached hcap (Bool.eq_false_iff.2 hreached)
  · next hcap => exact ⟨rfl, happend _ ⟨hdaily, fun h => absurd h hcap⟩⟩

theorem ok_advance (hk : CountersOk config k) {stage : Stage} (hstage : stage.Ok config k.now)
    (hquiet : stage.Undisturbed config k) (r : Nat) :
    CountersOk config (stage.advance config k r).1 ∧ (stage.advance config k r).2.Ok config k.now := by
  cases stage with
  | checkDaily hint todo eligible =>
    cases todo with
    | nil => exact ok_checkDaily_nil hk hstage hint r
    | cons m todo =>
      obtain ⟨hsame, hok⟩ := ok_checkDaily_cons (k := k) hstage hint m todo r
      rw [hsame]
      exact ⟨hk, hok⟩
  | checkConcurrent hint m daily todo eligible =>
    obtain ⟨hsame, hok⟩ := ok_checkConcurrent (k := k) hstage.1 hstage.2 hint m todo r
    rw [hsame]
    exact ⟨hk, hok⟩
  | incrConcurrent picked => exact ⟨hk.incrConcurrent hstage hquiet, hstage⟩
  | readClock picked => exact ⟨hk, hstage⟩
  | untilMidnight picked midnight =>
    refine ⟨hk, hstage, ?_⟩
    show midnight ≤ k.now + max 1000 (midnight - k.now)
    omega
  | setNx picked midnight ttl =>
    refine ⟨hk.setNxDaily hstage.2 ?_, hstage.1⟩
    intro hlive
    simp only [Stage.Undisturbed, hlive] at hquiet
    exact hquiet
  | incrDaily picked =>
    cases hlive : k.liveDaily picked.member.didId with
    | none =>
      simp only [Stage.Undisturbed, hlive] at hquiet
    | some e =>
      simp only [Stage.Undisturbed, hlive] at hquiet
      exact ⟨hk.incrDaily hstage hlive hquiet.1 hquiet.2, trivial⟩
  | returned picked => exact ⟨hk, trivial⟩

theorem Inv.step {w : World} (hw : Inv config w) {a : Action} (ha : Undisturbed config w a) :
    Inv config (step config w a) := by
  cases a with
  | begin hint members =>
    refine ⟨hw.counters, ?_⟩
    intro stage hstage
    rcases List.mem_append.1 hstage with hstage | hstage
    · exact hw.picks stage hstage
    · obtain rfl := List.mem_singleton.1 hstage
      intro c hc
      cases hc
  | advance i r =>
    simp only [Pool.step]
    split
    · exact hw
    · next stage hi =>
      have hstage := hw.picks stage (List.mem_of_getElem? hi)
      obtain ⟨hcounters, hnext⟩ := ok_advance hw.counters hstage (ha stage hi) r
      refine ⟨hcounters, ?_⟩
      intro other hother
      dsimp only at hother ⊢
      rw [now_advance]
      rcases List.mem_or_eq_of_mem_set hother with hother | rfl
      · exact hw.picks other hother
      · exact hnext
  | release d =>
    refine ⟨hw.counters.release d, ?_⟩
    intro stage hstage
    show stage.Ok config (w.counters.release d).now
    rw [now_release]
    exact hw.picks stage hstage
  | tick ms =>
    refine ⟨hw.counters.tick ms, ?_⟩
    intro stage hstage
    exact (hw.picks stage hstage).later (Int.le_add_of_nonneg_right (Int.natCast_nonneg ms))

end Steps

theorem inv_unused (config : PoolConfig) (now : Int) : Inv config (World.unused now) where
  counters :=
    { concurrent := fun _ => rfl
      held_le := fun hcap _ => Int.le_of_lt hcap
      made_le := fun hcap _ _ => Int.le_of_lt hcap
      future := fun _ _ _ => rfl
      born_le := fun _ _ he => by cases he
      expires := fun _ _ he => by cases he
      counted := fun _ _ he => by cases he
      uncounted := fun _ _ => rfl }
  picks := fun _ h => by cases h

theorem caps_kept_while_undisturbed (config : PoolConfig) (now : Int) (l : List Action)
    (hl : EachStep (step config) (Undisturbed config) (World.unused now) l) :
    Always (step config) (CapsKept config) (World.unused now) l := by
  have hinv : Always (step config) (Inv config) (World.unused now) l :=
    always_of_eachStep (fun _ _ hw ha => hw.step ha) (inv_unused config now) hl
  exact hinv.mono fun _ hw => hw.capsKept

/-- One number, two calls at a time and three a day. -/
def smallPool : PoolConfig := ⟨.leastRecentlyUsed, 3, 2⟩

def oneNumber : List PoolMember := [⟨1, 9, "+14155550100", "415", 0, false⟩]

/-- All commands of the pick `i` of a pool with one member. -/
def pickAlone (i : Nat) : List Action := List.replicate 8 (.advance i 0)

/-- Two picks, a release, a third pick, and one on the next day. -/
def twoDays : List Action :=
  [.begin "" oneNumber] ++ pickAlone 0 ++ [.tick 1000, .begin "415" oneNumber] ++ pickAlone 1 ++
    [.release 9, .begin "" oneNumber] ++ pickAlone 2 ++ [.release 9, .tick 86400000, .begin "" oneNumber] ++
    pickAlone 3

theorem picks_of_two_days_within_caps :
    EachStep (step smallPool) (Undisturbed smallPool) (World.unused 0) twoDays ∧
      Always (step smallPool) (CapsKept smallPool) (World.unused 0) twoDays := by
  have hquiet : EachStep (step smallPool) (Undisturbed smallPool) (World.unused 0) twoDays := by
    decide
  exact ⟨hquiet, caps_kept_while_undisturbed smallPool 0 twoDays hquiet⟩

/-- The pool allows one call of the number at a time, and one a day. -/
def oneCall : PoolConfig := ⟨.random, 1, 1⟩

/-- Two pods read the counters before either of them increments. -/
def twoPods : List Action :=
  [.begin "" oneNumber, .begin "" oneNumber, .advance 0 0, .advance 1 0, .advance 0 0, .advance 1 0] ++
    List.replicate 6 (.advance 0 0) ++ List.replicate 6 (.advance 1 0)

/-- Midnight comes between the two commands of a pick for the daily counter. -/
def overMidnight : List Action :=
  [.begin "" oneNumber] ++ List.replicate 7 (.advance 0 0) ++ [.tick 86400001, .advance 0 0]

theorem caps_broken_by_interleaving :
    (¬ ∀ (config : PoolConfig) (now : Int) (l : List Action), config.maxConcurrent > 0 → ∀ d,
      ((l.foldl (step config) (World.unused now)).counters.held d : Int) ≤ config.maxConcurrent) ∧
    (¬ ∀ (config : PoolConfig) (now : Int) (l : List Action), config.dailyCap > 0 → ∀ day d,
      ((l.foldl (step config) (World.unused now)).counters.made day d : Int) ≤ config.dailyCap) ∧
    ¬ ∀ (config : PoolConfig) (now : Int) (l : List Action) (d : Int) (e : DailyCounter),
      (l.foldl (step config) (World.unused now)).counters.liveDaily d = some e → e.expireAt ≠ none := by
  refine ⟨?_, ?_, ?_⟩
  · intro h
    exact absurd (h oneCall 0 twoPods (by decide) 9) (by decide)
  · intro h
    exact absurd (h oneCall 0 twoPods (by decide) 0 9) (by decide)
  · intro h
    exact h oneCall 0 overMidnight 9 ⟨1, none, 1⟩ (by decide) rfl

end Pool

end Vici2
