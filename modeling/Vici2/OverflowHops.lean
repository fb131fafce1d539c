import Vici2.ParseInt
import Vici2.QueueMembership

/-! Executions of the overflow of one call, on any number of pods. Every command to
Valkey is a step of its own, so the count that an execution has loaded may be old by the
time it is tested. -/

namespace Vici2

namespace Queue

open Agents

structure OverflowConfig where
  action : OverflowAction
  target : Option String
  deriving DecidableEq, Repr

/-- The branch in which an execution has ended; `added` says whether the call was put
into the queue of the target. -/
inductive OverflowEnd
  | skipped
  | failed
  | hangup
  | voicemail (target : String)
  | callbackOffer
  | externalTransfer (target : String)
  | reEnqueue (added : Bool)
  deriving DecidableEq, Repr

/-- How far `checkOverflow` and `Execute` have come with a call. -/
inductive ExecutionStage
  | listed
  | overdue
  | loaded
  | removed
  | exitMarked
  | incrementing (target : String)
  | reEnqueueing (target : String)
  | ended (how : OverflowEnd)
  deriving DecidableEq, Repr

/-- The last four fields but one are those of the `QueuedCall` that the execution holds. -/
structure Execution where
  loopIngroup : String
  deadline : Int
  cfg : OverflowConfig
  callUUID : String
  ingroupID : String
  baseScore : Int
  overflowHops : Int
  stage : ExecutionStage
  deriving DecidableEq, Repr

/-- What becomes of a command: it is executed and answered, it is executed and the
answer is lost, or it is not executed. -/
inductive Sent
  | answered
  | lost
  | refused
  deriving DecidableEq, Repr

/-- `HINCRBY` by one: the new value and the HASH with it. -/
def hincrBy (h : Hash) (f : String) : Option (Int × Hash) :=
  let old := match h f with
    | none => some 0
    | some v => (Picker.parseInt64 v.toList).filter fun n => toString n = v
  match old with
  | none => none
  | some n => if n < 2 ^ 63 - 1 then some (n + 1, hset h [(f, toString (n + 1))]) else none

/-- `Execute`, up to the increment of the hop counter. -/
def Execution.execute (e : Execution) : ExecutionStage :=
  if maxOverflowHops ≤ e.overflowHops then .ended .hangup
  else
    match e.cfg.action with
    | .hangup => .ended .hangup
    | .overflowIngroup =>
      if e.cfg.target.getD "" = "" then .ended .hangup else .incrementing (e.cfg.target.getD "")
    | .voicemail =>
      let target := e.cfg.target.getD ""
      .ended (.voicemail (if target = "" then e.ingroupID else target))
    | .callbackOffer => .ended .callbackOffer
    | .externalTransfer =>
      if e.cfg.target.getD "" = "" then .ended .hangup
      else .ended (.externalTransfer (e.cfg.target.getD ""))
    | .other _ => .ended .hangup

def executeOverflowIngroup (s : QueueStore) (e : Execution) (target : String) (sent : Sent) :
    QueueStore × Execution :=
  let failed := { e with stage := .ended .failed }
  match sent, hincrBy (s.calls.queueCall e.callUUID) "overflow_hops" with
  | .refused, _ => (s, failed)
  | _, none => (s, failed)
  | sent, some (newHops, h) =>
    let s := { s with calls :=
      { s.calls with queueCall := Function.update s.calls.queueCall e.callUUID h } }
    if sent = .lost then (s, failed)
    else if maxOverflowHops ≤ newHops then
      (s, { e with overflowHops := newHops, stage := .ended .hangup })
    else
      (s, { e with overflowHops := newHops, ingroupID := target, stage := .reEnqueueing target })

/-- The next command of an execution. -/
def advance (s : QueueStore) (e : Execution) (sent : Sent) (now : Int) : QueueStore × Execution :=
  let h := s.calls.queueCall e.callUUID
  match e.stage with
  | .listed =>
    let enterTs := if sent = .answered then parseIntValue (field h "enter_ts") else 0
    (s, { e with
      stage := if enterTs = 0 ∨ e.deadline < enterTs then .ended .skipped else .overdue })
  | .overdue =>
    if sent ≠ .answered ∨ queueCallFields.all (fun f => (h f).isNone) then
      (s, { e with stage := .ended .skipped })
    else
      (s, { e with
        ingroupID := field h "ingroup_id"
        baseScore := parseIntValue (field h "base_score")
        overflowHops := parseIntValue (field h "overflow_hops")
        stage := .loaded })
  | .loaded =>
    (if sent = .refused then s
      else s.withQueue e.loopIngroup ((s.calls.queue e.loopIngroup).zrem e.callUUID),
      { e with stage := .removed })
  | .removed =>
    (if sent = .refused then s
      else s.hsetCall e.callUUID [("exit_at", toString now), ("exit_reason", "timeout")],
      { e with stage := .exitMarked })
  | .exitMarked => (s, { e with stage := e.execute })
  | .incrementing target => executeOverflowIngroup s e target sent
  | .reEnqueueing target =>
    (if sent = .refused then s
      else s.withQueue target ((s.calls.queue target).zadd e.callUUID e.baseScore),
      { e with stage := .ended (.reEnqueue (sent ≠ .refused)) })
  | .ended _ => (s, e)

/-- The store with every execution that a sweep of a dispatcher loop has begun. -/
structure HopWorld where
  store : QueueStore
  executions : List Execution

inductive HopAction
  | enroll (igid callUUID callerID : String) (now : Int) (lead : Option (Int × Int))
  | dispatch (igid callUUID : String) (userID nowMs : Int)
  | leave (igid callUUID : String)
  | exit (callUUID : String) (exitAt : Option Int) (exitReason : String)
  | announce (callUUID : String) (now : Int)
  | restore (r : QueueCallRow)
  | list (igid callUUID : String) (maxWaitSec now : Int) (cfg : OverflowConfig)
  | advance (k : Nat) (sent : Sent) (now : Int)
  deriving Repr

def hopStep (w : HopWorld) : HopAction → HopWorld
  | .enroll igid callUUID callerID now lead =>
    { w with store := enroll w.store igid callUUID callerID now lead }
  | .dispatch igid callUUID userID nowMs =>
    match dispatchInbound w.store.calls igid callUUID userID nowMs with
    | .ok calls => { w with store := { w.store with calls := calls } }
    | .error _ => w
  | .leave igid callUUID =>
    { w with store := w.store.withQueue igid ((w.store.calls.queue igid).zrem callUUID) }
  | .exit callUUID exitAt exitReason =>
    { w with
      store := w.store.hsetCall callUUID
        ((exitAt.map fun t => ("exit_at", toString t)).toList ++ [("exit_reason", exitReason)]) }
  | .announce callUUID now =>
    { w with store := w.store.hsetCall callUUID [("last_announce_ts", toString now)] }
  | .restore r =>
    { w with
      store := w.store.withQueue r.ingroupID
        (zaddNX (w.store.calls.queue r.ingroupID) r.callUUID r.baseScore) }
  | .list igid callUUID maxWaitSec now cfg =>
    if 0 < maxWaitSec ∧ callUUID ∈ w.store.calls.queue igid then
      { w with
        executions := w.executions ++
          [⟨igid, now - maxWaitSec * 1000, cfg, callUUID, "", 0, 0, .listed⟩] }
    else w
  | .advance k sent now =>
    match w.executions[k]? with
    | none => w
    | some e =>
      let r := advance w.store e sent now
      ⟨r.1, w.executions.set k r.2⟩

def HopAction.enrolls (callUUID : String) : HopAction → Bool
  | .enroll _ x _ _ _ => x = callUUID
  | _ => false

def HopAction.advances (k : Nat) : HopAction → Bool
  | .advance k' _ _ => k' = k
  | _ => false

def Execution.reEnqueued (e : Execution) : Bool := e.stage = .ended (.reEnqueue true)

/-- How often overflow has put the call into a queue. -/
def HopWorld.reEnqueues (w : HopWorld) (callUUID : String) : Nat :=
  w.executions.countP fun e => e.callUUID = callUUID ∧ e.reEnqueued

theorem parseInt64_toString {n : Nat} (hn : n < 2 ^ 63) :
    Picker.parseInt64 (toString (n : Int)).toList = some (n : Int) := by
  have hrange : Picker.InInt64 n := by
    unfold Picker.InInt64
    omega
  rw [Picker.parseInt64_text, Option.filter_some, if_pos (decide_eq_true hrange)]

theorem hincrBy_toString {h : Hash} {f : String} {n : Nat} (hn : n < 2 ^ 63)
    (hf : h f = some (toString (n : Int))) :
    hincrBy h f =
      if n + 1 < 2 ^ 63 then
        some (((n + 1 : Nat) : Int), hset h [(f, toString ((n + 1 : Nat) : Int))])
      else none := by
  unfold hincrBy
  simp only [hf, parseInt64_toString hn, Option.filter, decide_true, if_true]
  have hiff : ((n : Int) < 2 ^ 63 - 1) ↔ n + 1 < 2 ^ 63 := by omega
  simp only [hiff, Int.natCast_add, Int.cast_ofNat_Int]

/-- The HASH of the call counts `n` hops. -/
def HopsAre (s : QueueStore) (callUUID : String) (n : Nat) : Prop :=
  n < 2 ^ 63 ∧ s.calls.queueCall callUUID "overflow_hops" = some (toString (n : Int))

theorem HopsAre.hsetCall {s : QueueStore} {callUUID : String} {n : Nat}
    (h : HopsAre s callUUID n) {pairs : List (String × String)}
    (hp : hset (fun _ => none) pairs "overflow_hops" = none) (x : String) :
    HopsAre (s.hsetCall x pairs) callUUID n := by
  refine ⟨h.1, ?_⟩
  have hold := h.2
  by_cases hx : callUUID = x
  · subst hx
    simp only [QueueStore.hsetCall, Function.update_self]
    rw [hset_apply, hp, hold]
    rfl
  · simp only [QueueStore.hsetCall, Function.update_of_ne hx, hold]

theorem HopsAre.withQueue {s : QueueStore} {callUUID : String} {n : Nat}
    (h : HopsAre s callUUID n) (igid : String) (z : ZSet String Int) :
    HopsAre (s.withQueue igid z) callUUID n := h

theorem HopsAre.dispatch {s : QueueStore} {callUUID igid x : String} {userID nowMs : Int}
    {calls : CallStore} {n : Nat} (h : HopsAre s callUUID n)
    (hd : dispatchInbound s.calls igid x userID nowMs = .ok calls) :
    HopsAre { s with calls := calls } callUUID n := by
  unfold dispatchInbound at hd
  split_ifs at hd
  cases hd
  exact h.hsetCall rfl x

/-- The execution has passed both tests and adds the call to a queue, or has done so. -/
def Execution.passed (e : Execution) : Bool :=
  match e.stage with
  | .reEnqueueing _ => true
  | .ended (.reEnqueue _) => true
  | _ => false

/-- An execution that holds a count at the limit has not come to `Execute`, or has hung up. -/
def Execution.Bounded (e : Execution) : Prop :=
  maxOverflowHops ≤ e.overflowHops →
    e.stage = .loaded ∨ e.stage = .removed ∨ e.stage = .exitMarked ∨ e.stage = .ended .hangup

theorem execute_of_limit {e : Execution} (h : maxOverflowHops ≤ e.overflowHops) :
    e.execute = .ended .hangup := if_pos h

theorem execute_not_passed (e : Execution) :
    Execution.passed { e with stage := e.execute } = false := by
  unfold Execution.execute Execution.passed
  split_ifs <;> cases e.cfg.action <;> simp

theorem executeOverflowIngroup_callUUID (s : QueueStore) (e : Execution) (target : String)
    (sent : Sent) : (executeOverflowIngroup s e target sent).2.callUUID = e.callUUID := by
  unfold executeOverflowIngroup
  split
  · rfl
  · rfl
  · split_ifs <;> rfl

theorem executeOverflowIngroup_bounded {s : QueueStore} {e : Execution} {target : String}
    {sent : Sent} (he : e.overflowHops < maxOverflowHops) :
    (executeOverflowIngroup s e target sent).2.Bounded := by
  unfold executeOverflowIngroup
  split
  · exact fun h => absurd h (Int.not_le.2 he)
  · exact fun h => absurd h (Int.not_le.2 he)
  · split_ifs with hlost hlimit
    · exact fun h => absurd h (Int.not_le.2 he)
    · exact fun _ => Or.inr (Or.inr (Or.inr rfl))
    · exact fun h => absurd h hlimit

theorem advance_callUUID (s : QueueStore) (e : Execution) (sent : Sent) (now : Int) :
    (advance s e sent now).2.callUUID = e.callUUID := by
  unfold advance
  split
  · rfl
  · dsimp only
    split_ifs <;> rfl
  · rfl
  · rfl
  · rfl
  · exact executeOverflowIngroup_callUUID _ _ _ _
  · rfl
  · rfl

theorem Execution.Bounded.below {e : Execution} (he : e.Bounded)
    (hstage : ¬ (e.stage = .loaded ∨ e.stage = .removed ∨ e.stage = .exitMarked ∨
      e.stage = .ended .hangup)) : e.overflowHops < maxOverflowHops := by
  by_contra h
  exact hstage (he (Int.not_lt.1 h))

theorem Execution.Bounded.advance {s : QueueStore} {e : Execution} (he : e.Bounded) (sent : Sent)
    (now : Int) : (advance s e sent now).2.Bounded := by
  unfold Queue.advance
  split
  · next hstage =>
    have h := he.below (by simp [hstage])
    exact fun h' => absurd h' (Int.not_le.2 h)
  · next hstage =>
    have h := he.below (by simp [hstage])
    dsimp only
    split_ifs
    · exact fun h' => absurd h' (Int.not_le.2 h)
    · exact fun _ => Or.inl rfl
  · exact fun _ => Or.inr (Or.inl rfl)
  · exact fun _ => Or.inr (Or.inr (Or.inl rfl))
  · exact fun h => Or.inr (Or.inr (Or.inr (execute_of_limit h)))
  · next hstage =>
    have h := he.below (by simp [hstage])
    exact executeOverflowIngroup_bounded h
  · next hstage =>
    have h := he.below (by simp [hstage])
    exact fun h' => absurd h' (Int.not_le.2 h)
  · exact he

/-- A step of an execution leaves the count of a call alone, or raises the count of its own
call; it passes the second test only with a raised count below the limit. -/
theorem executeOverflowIngroup_hops {s : QueueStore} {e : Execution} {n : Nat}
    (h : HopsAre s e.callUUID n) (target : String) (sent : Sent) :
    let r := executeOverflowIngroup s e target sent
    (HopsAre r.1 e.callUUID n ∧ r.2.passed = false) ∨
      (HopsAre r.1 e.callUUID (n + 1) ∧ (r.2.passed = true → n + 1 < 3)) := by
  intro r
  have hincr := hincrBy_toString h.1 h.2
  by_cases hroom : n + 1 < 2 ^ 63
  · rw [if_pos hroom] at hincr
    have hstore : HopsAre { s with calls := { s.calls with
        queueCall := Function.update s.calls.queueCall e.callUUID
          (hset (s.calls.queueCall e.callUUID)
            [("overflow_hops", toString ((n + 1 : Nat) : Int))]) } } e.callUUID (n + 1) := by
      refine ⟨hroom, ?_⟩
      simp [hset]
    cases sent with
    | refused => exact Or.inl ⟨h, rfl⟩
    | lost =>
      right
      simp only [r, executeOverflowIngroup, hincr]
      exact ⟨hstore, fun hp => Bool.noConfusion hp⟩
    | answered =>
      right
      simp only [r, executeOverflowIngroup, hincr, reduceCtorEq, if_false]
      split_ifs with hlimit
      · exact ⟨hstore, fun hp => Bool.noConfusion hp⟩
      · have hlow : n + 1 < 3 := by
          unfold maxOverflowHops at hlimit
          omega
        exact ⟨hstore, fun _ => hlow⟩
  · rw [if_neg hroom] at hincr
    left
    cases sent <;> simp only [r, executeOverflowIngroup, hincr] <;> exact ⟨h, rfl⟩

theorem advance_incrementing {s : QueueStore} {e : Execution} {target : String} (sent : Sent)
    (now : Int) (hstage : e.stage = .incrementing target) :
    advance s e sent now = executeOverflowIngroup s e target sent := by
  simp only [advance, hstage]

/-- Only the increment writes a hop count. -/
theorem advance_keeps {s : QueueStore} {e : Execution} {x : String} {n : Nat} (sent : Sent)
    (now : Int) (hstage : ∀ target, e.stage ≠ .incrementing target) (h : HopsAre s x n) :
    HopsAre (advance s e sent now).1 x n := by
  unfold advance
  split
  · exact h
  · dsimp only
    split_ifs <;> exact h
  · dsimp only
    split_ifs
    · exact h
    · exact h.withQueue _ _
  · dsimp only
    split_ifs
    · exact h
    · exact h.hsetCall rfl _
  · exact h
  · next target htarget => exact absurd htarget (hstage target)
  · dsimp only
    split_ifs
    · exact h
    · exact h.withQueue _ _
  · exact h

theorem advance_passed {s : QueueStore} {e : Execution} (sent : Sent) (now : Int)
    (hstage : ∀ target, e.stage ≠ .incrementing target) :
    (advance s e sent now).2.passed = e.passed := by
  unfold advance
  split
  · next hlisted =>
    simp only [Execution.passed, hlisted]
    split_ifs <;> rfl
  · next hoverdue =>
    dsimp only
    split_ifs <;> simp only [Execution.passed, hoverdue]
  · next hloaded => simp only [Execution.passed, hloaded]
  · next hremoved => simp only [Execution.passed, hremoved]
  · next hmarked =>
    have hno : e.passed = false := by simp only [Execution.passed, hmarked]
    rw [hno]
    exact execute_not_passed e
  · next target htarget => exact absurd htarget (hstage target)
  · next target hreEnqueueing => simp only [Execution.passed, hreEnqueueing]
  · rfl

theorem advance_hops {s : QueueStore} {e : Execution} (sent : Sent) (now : Int) {n : Nat}
    (h : HopsAre s e.callUUID n) :
    let r := advance s e sent now
    (HopsAre r.1 e.callUUID n ∧ r.2.passed = e.passed) ∨
      (HopsAre r.1 e.callUUID (n + 1) ∧ e.passed = false ∧ (r.2.passed = true → n + 1 < 3)) := by
  intro r
  by_cases hstage : ∃ target, e.stage = .incrementing target
  · obtain ⟨target, hstage⟩ := hstage
    have hp : e.passed = false := by simp only [Execution.passed, hstage]
    have hr : r = executeOverflowIngroup s e target sent := advance_incrementing sent now hstage
    rw [hr, hp]
    rcases executeOverflowIngroup_hops h target sent with ⟨hn, hno⟩ | ⟨hn, hyes⟩
    · exact Or.inl ⟨hn, hno⟩
    · exact Or.inr ⟨hn, rfl, hyes⟩
  · have hother : ∀ target, e.stage ≠ .incrementing target := not_exists.1 hstage
    exact Or.inl ⟨advance_keeps sent now hother h, advance_passed sent now hother⟩

theorem executeOverflowIngroup_other {s : QueueStore} {e : Execution} {target x : String}
    {sent : Sent} {n : Nat} (hx : x ≠ e.callUUID) (h : HopsAre s x n) :
    HopsAre (executeOverflowIngroup s e target sent).1 x n := by
  have hkeep : ∀ f, HopsAre { s with calls := { s.calls with
      queueCall := Function.update s.calls.queueCall e.callUUID f } } x n := by
    intro f
    refine ⟨h.1, ?_⟩
    simpa only [Function.update_of_ne hx] using h.2
  unfold executeOverflowIngroup
  split
  · exact h
  · exact h
  · split_ifs <;> exact hkeep _

theorem advance_other {s : QueueStore} {e : Execution} {x : String} (sent : Sent) (now : Int)
    {n : Nat} (hx : x ≠ e.callUUID) (h : HopsAre s x n) :
    HopsAre (advance s e sent now).1 x n := by
  by_cases hstage : ∃ target, e.stage = .incrementing target
  · obtain ⟨target, hstage⟩ := hstage
    rw [advance_incrementing sent now hstage]
    exact executeOverflowIngroup_other hx h
  · exact advance_keeps sent now (not_exists.1 hstage) h

def Execution.passedBy (callUUID : String) (e : Execution) : Bool :=
  e.callUUID = callUUID ∧ e.passed

/-- What holds of a call over its life: every execution that has passed the second test
has a count of its own, one or two. -/
structure HopInv (w : HopWorld) (callUUID : String) (n : Nat) : Prop where
  hops : HopsAre w.store callUUID n
  passes : w.executions.countP (Execution.passedBy callUUID) ≤ min n 2
  bounded : ∀ e ∈ w.executions, e.callUUID = callUUID → e.Bounded

theorem HopInv.reEnqueues_le {w : HopWorld} {callUUID : String} {n : Nat}
    (h : HopInv w callUUID n) : w.reEnqueues callUUID ≤ 2 := by
  have hmono : w.reEnqueues callUUID ≤ w.executions.countP (Execution.passedBy callUUID) := by
    apply List.countP_mono_left
    intro e _ he
    have hcond := of_decide_eq_true he
    have hstage : e.stage = .ended (.reEnqueue true) := of_decide_eq_true hcond.2
    have hp : e.passed = true := by simp [Execution.passed, hstage]
    exact decide_eq_true ⟨hcond.1, hp⟩
  have hpasses := h.passes
  omega

theorem HopInv.advance {w : HopWorld} {callUUID : String} {n : Nat} (h : HopInv w callUUID n)
    (k : Nat) (sent : Sent) (now : Int) :
    ∃ m, HopInv (hopStep w (.advance k sent now)) callUUID m := by
  cases hk : w.executions[k]? with
  | none =>
    refine ⟨n, ?_⟩
    simpa only [hopStep, hk] using h
  | some e =>
    obtain ⟨hlt, hget⟩ := List.getElem?_eq_some_iff.1 hk
    have hmem : e ∈ w.executions := List.mem_of_getElem? hk
    have hcall := advance_callUUID w.store e sent now
    have hcount := List.countP_set (p := Execution.passedBy callUUID) (l := w.executions)
      (a := (Queue.advance w.store e sent now).2) hlt
    rw [hget] at hcount
    have hpos : Execution.passedBy callUUID e = true →
        0 < w.executions.countP (Execution.passedBy callUUID) :=
      fun he => List.countP_pos_iff.2 ⟨e, hmem, he⟩
    have hpasses := h.passes
    have hbounded : ∀ e' ∈ w.executions.set k (Queue.advance w.store e sent now).2,
        e'.callUUID = callUUID → e'.Bounded := by
      intro e' he' hx
      rcases List.mem_or_eq_of_mem_set he' with he' | rfl
      · exact h.bounded e' he' hx
      · exact (h.bounded e hmem (hcall.symm.trans hx)).advance sent now
    have hstep : hopStep w (.advance k sent now) = ⟨(Queue.advance w.store e sent now).1,
        w.executions.set k (Queue.advance w.store e sent now).2⟩ := by
      simp only [hopStep, hk]
    rw [hstep]
    by_cases hx : callUUID = e.callUUID
    · subst hx
      rcases advance_hops sent now h.hops with ⟨hhops, hp⟩ | ⟨hhops, hp, hlow⟩
      · refine ⟨n, hhops, ?_, hbounded⟩
        have hsame : Execution.passedBy e.callUUID (Queue.advance w.store e sent now).2 =
            Execution.passedBy e.callUUID e := by
          simp only [Execution.passedBy, hcall, hp]
        simp only [hcount, hsame]
        split_ifs with he
        · have := hpos he
          omega
        · omega
      · refine ⟨n + 1, hhops, ?_, hbounded⟩
        have hbefore : Execution.passedBy e.callUUID e = false := by
          simp [Execution.passedBy, hp]
        simp only [hcount, hbefore, Bool.false_eq_true, if_false]
        split_ifs with he
        · have hafter : (Queue.advance w.store e sent now).2.passed = true := by
            have he' := of_decide_eq_true he
            exact he'.2
          have := hlow hafter
          omega
        · omega
    · refine ⟨n, advance_other sent now hx h.hops, ?_, hbounded⟩
      have hbefore : Execution.passedBy callUUID e = false := by
        simp [Execution.passedBy, Ne.symm hx]
      have hafter : Execution.passedBy callUUID (Queue.advance w.store e sent now).2 = false := by
        simp [Execution.passedBy, hcall, Ne.symm hx]
      simp only [hcount, hbefore, hafter, Bool.false_eq_true, if_false]
      omega

theorem HopInv.store {w : HopWorld} {callUUID : String} {n : Nat} (h : HopInv w callUUID n)
    {s : QueueStore} (hs : HopsAre s callUUID n) : HopInv { w with store := s } callUUID n :=
  ⟨hs, h.passes, h.bounded⟩

theorem HopInv.step {w : HopWorld} {callUUID : String} (h : ∃ n, HopInv w callUUID n)
    (a : HopAction) (ha : a.enrolls callUUID = false) : ∃ n, HopInv (hopStep w a) callUUID n := by
  obtain ⟨n, h⟩ := h
  cases a with
  | enroll igid x callerID now lead =>
    have hx : callUUID ≠ x := fun he => by simp [HopAction.enrolls, he] at ha
    refine ⟨n, h.store ⟨h.hops.1, ?_⟩⟩
    simpa only [enroll, Function.update_of_ne hx] using h.hops.2
  | dispatch igid x userID nowMs =>
    refine ⟨n, ?_⟩
    cases hd : dispatchInbound w.store.calls igid x userID nowMs with
    | error e => simpa only [hopStep, hd] using h
    | ok calls =>
      have hs := h.hops.dispatch hd
      simpa only [hopStep, hd] using h.store hs
  | leave igid x => exact ⟨n, h.store (h.hops.withQueue _ _)⟩
  | exit x exitAt exitReason =>
    refine ⟨n, h.store (h.hops.hsetCall ?_ x)⟩
    cases exitAt <;> rfl
  | announce x now => exact ⟨n, h.store (h.hops.hsetCall rfl x)⟩
  | restore r => exact ⟨n, h.store (h.hops.withQueue _ _)⟩
  | list igid x maxWaitSec now cfg =>
    refine ⟨n, ?_⟩
    simp only [hopStep]
    split_ifs with hdue
    · refine ⟨h.hops, ?_, ?_⟩
      · have hnew : Execution.passedBy callUUID
            ⟨igid, now - maxWaitSec * 1000, cfg, x, "", 0, 0, .listed⟩ = false := by
          simp [Execution.passedBy, Execution.passed]
        rw [List.countP_append, List.countP_singleton, hnew]
        exact h.passes
      · intro e he hx
        rcases List.mem_append.1 he with he | he
        · exact h.bounded e he hx
        · rw [List.mem_singleton.1 he]
          exact fun hlimit => absurd hlimit (by simp [maxOverflowHops])
    · exact h
  | advance k sent now => exact h.advance k sent now

/-- How many commands an execution at the limit still makes before it hangs up. -/
def ExecutionStage.left : ExecutionStage → Nat
  | .loaded => 3
  | .removed => 2
  | .exitMarked => 1
  | _ => 0

/-- An execution at the limit on its way into the hangup branch. -/
def Execution.Hanging (m : Nat) (e : Execution) : Prop :=
  maxOverflowHops ≤ e.overflowHops ∧ e.Bounded ∧ e.stage.left ≤ m

theorem Execution.Hanging.hangup {e : Execution} (h : e.Hanging 0) : e.stage = .ended .hangup := by
  obtain ⟨hlimit, hbounded, hleft⟩ := h
  rcases hbounded hlimit with hs | hs | hs | hs
  · simp [hs, ExecutionStage.left] at hleft
  · simp [hs, ExecutionStage.left] at hleft
  · simp [hs, ExecutionStage.left] at hleft
  · exact hs

theorem Execution.Hanging.advance {e : Execution} {m : Nat} (h : e.Hanging m) (s : QueueStore)
    (sent : Sent) (now : Int) : (advance s e sent now).2.Hanging (m - 1) := by
  obtain ⟨hlimit, hbounded, hleft⟩ := h
  have hb := hbounded.advance (s := s) sent now
  rcases hbounded hlimit with hs | hs | hs | hs
  · rw [hs] at hleft
    simp only [Queue.advance, hs] at hb ⊢
    refine ⟨hlimit, hb, ?_⟩
    simp only [ExecutionStage.left] at hleft ⊢
    omega
  · rw [hs] at hleft
    simp only [Queue.advance, hs] at hb ⊢
    refine ⟨hlimit, hb, ?_⟩
    simp only [ExecutionStage.left] at hleft ⊢
    omega
  · simp only [Queue.advance, hs] at hb ⊢
    refine ⟨hlimit, hb, ?_⟩
    rw [execute_of_limit hlimit]
    exact Nat.zero_le _
  · have hr : Queue.advance s e sent now = (s, e) := by
      simp only [Queue.advance, hs]
    rw [hr]
    refine ⟨hlimit, hbounded, ?_⟩
    rw [hs]
    exact Nat.zero_le _

theorem executions_hopStep {w : HopWorld} {i : Nat} {e : Execution} (he : w.executions[i]? = some e)
    (a : HopAction) (ha : a.advances i = false) : (hopStep w a).executions[i]? = some e := by
  cases a with
  | advance k sent now =>
    have hk : k ≠ i := fun hk => by simp [HopAction.advances, hk] at ha
    cases hget : w.executions[k]? with
    | none => simpa only [hopStep, hget] using he
    | some e' =>
      simp only [hopStep, hget]
      rw [List.getElem?_set_ne hk, he]
  | list igid x maxWaitSec now cfg =>
    simp only [hopStep]
    split_ifs
    · rw [List.getElem?_append_left (List.getElem?_eq_some_iff.1 he).1, he]
    · exact he
  | dispatch igid x userID nowMs =>
    simp only [hopStep]
    split <;> exact he
  | _ => exact he

/-- An execution at the limit hangs up after three commands of its own, whatever else
happens. -/
theorem hanging_run {i m : Nat} (l : List HopAction) {w : HopWorld} {e : Execution}
    (he : w.executions[i]? = some e) (h : e.Hanging m) :
    ∃ e', (l.foldl hopStep w).executions[i]? = some e' ∧
      e'.Hanging (m - l.countP (·.advances i)) := by
  induction l generalizing w e m with
  | nil => exact ⟨e, he, h⟩
  | cons a l ih =>
    by_cases ha : a.advances i = true
    · obtain ⟨sent, now, rfl⟩ : ∃ sent now, a = .advance i sent now := by
        cases a with
        | advance k sent now => exact ⟨sent, now, by simpa [HopAction.advances] using ha⟩
        | _ => exact Bool.noConfusion ha
      have hnext : (hopStep w (.advance i sent now)).executions[i]? =
          some (advance w.store e sent now).2 := by
        simp only [hopStep, he]
        rw [List.getElem?_set_self (List.getElem?_eq_some_iff.1 he).1]
      obtain ⟨e', he', hh⟩ := ih hnext (h.advance w.store sent now)
      refine ⟨e', he', ?_⟩
      rw [List.countP_cons_of_pos ha, Nat.add_comm, Nat.sub_add_eq]
      exact hh
    · have ha' : a.advances i = false := Bool.eq_false_iff.2 ha
      obtain ⟨e', he', hh⟩ := ih (executions_hopStep he a ha') h
      refine ⟨e', he', ?_⟩
      rw [List.countP_cons_of_neg ha]
      exact hh

theorem HopInv.enrolled {w : HopWorld} {callUUID : String}
    (hnew : ∀ e ∈ w.executions, e.callUUID ≠ callUUID) (igid callerID : String) (now : Int)
    (lead : Option (Int × Int)) :
    HopInv (hopStep w (.enroll igid callUUID callerID now lead)) callUUID 0 := by
  have hnone : w.executions.countP (Execution.passedBy callUUID) = 0 := by
    rw [List.countP_eq_zero]
    intro e he
    simp [Execution.passedBy, hnew e he]
  refine ⟨⟨by decide, ?_⟩, ?_, ?_⟩
  · simp only [hopStep, enroll, Function.update_self]
    rw [hset_apply]
    rfl
  · exact Nat.le_of_eq hnone
  · exact fun e he hx => absurd hx (hnew e he)

/-- Whatever the in-groups overflow into and however the executions interleave, an enrolled
call is re-enqueued by overflow at most `MaxOverflowHops - 1` times, and an execution that
holds a count at the limit ends in the hangup branch. -/
theorem overflow_chains_end {w : HopWorld} {callUUID : String}
    (hnew : ∀ e ∈ w.executions, e.callUUID ≠ callUUID) (igid callerID : String) (now : Int)
    (lead : Option (Int × Int)) (l : List HopAction) (hlife : ∀ a ∈ l, a.enrolls callUUID = false) :
    let w₀ := hopStep w (.enroll igid callUUID callerID now lead)
    Always hopStep (fun w => (w.reEnqueues callUUID : Int) ≤ maxOverflowHops - 1) w₀ l ∧
      ∀ (i : Nat) (e : Execution), (l.foldl hopStep w₀).executions[i]? = some e →
        e.callUUID = callUUID → maxOverflowHops ≤ e.overflowHops → ∀ l' : List HopAction,
          3 ≤ l'.countP (·.advances i) →
          ((l'.foldl hopStep (l.foldl hopStep w₀)).executions[i]?).map Execution.stage =
            some (.ended .hangup) := by
  intro w₀
  have hstart : ∃ n, HopInv w₀ callUUID n := ⟨0, HopInv.enrolled hnew igid callerID now lead⟩
  have hrun : Always hopStep (fun w => ∃ n, HopInv w callUUID n) w₀ l :=
    always_of_eachStep (fun w a h ha => HopInv.step h a ha) hstart (eachStep_of_forall_mem hlife w₀)
  constructor
  · refine hrun.mono ?_
    rintro w ⟨n, hw⟩
    have hle := hw.reEnqueues_le
    unfold maxOverflowHops
    omega
  · intro i e he hx hlimit l' hturns
    obtain ⟨n, hlast⟩ := hrun.last
    have hbounded := hlast.bounded e (List.mem_of_getElem? he) hx
    have hleft : e.stage.left ≤ 3 := by
      cases e.stage <;> simp [ExecutionStage.left]
    obtain ⟨e', he', hh⟩ := hanging_run l' he ⟨hlimit, hbounded, hleft⟩
    rw [Nat.sub_eq_zero_of_le hturns] at hh
    rw [he', Option.map_some, hh.hangup]

def HopWorld.start : HopWorld := ⟨QueueStore.empty, []⟩

/-- One sweep overflows the call from `a` into `a`; a second one finds it there again. -/
def cyclicSweep (k : Nat) : List HopAction :=
  .list "a" "u" 30 100000 ⟨.overflowIngroup, some "a"⟩ ::
    List.replicate 7 (.advance k .answered 100000)

theorem overflow_chains_end_cyclic :
    let w₀ := hopStep .start (.enroll "a" "u" "" 1000 none)
    let l := cyclicSweep 0 ++ cyclicSweep 1 ++ cyclicSweep 2
    Always hopStep (fun w => (w.reEnqueues "u" : Int) ≤ maxOverflowHops - 1) w₀ l ∧
      ∀ (i : Nat) (e : Execution), (l.foldl hopStep w₀).executions[i]? = some e →
        e.callUUID = "u" → maxOverflowHops ≤ e.overflowHops → ∀ l' : List HopAction,
          3 ≤ l'.countP (·.advances i) →
          ((l'.foldl hopStep (l.foldl hopStep w₀)).executions[i]?).map Execution.stage =
            some (.ended .hangup) :=
  overflow_chains_end (w := .start) (fun _ he => absurd he List.not_mem_nil) "a" "" 1000 none
    (cyclicSweep 0 ++ cyclicSweep 1 ++ cyclicSweep 2) (by decide)

example : (((cyclicSweep 0 ++ cyclicSweep 1 ++ cyclicSweep 2).foldl hopStep
    (hopStep .start (.enroll "a" "u" "" 1000 none))).executions.map Execution.stage) =
    [.ended (.reEnqueue true), .ended (.reEnqueue true), .ended .hangup] := by decide +kernel

end Queue

end Vici2
