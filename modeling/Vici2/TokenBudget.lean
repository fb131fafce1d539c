import Vici2.KeyedCount
import Vici2.Runs

/-! The `dispatch_tokens` counter of one campaign, shared by every picker pod.
An acquire is a `DECR` and, where the result is negative, a second command that
restores it; the pacer's `SET` starts a new epoch and so does an expiry. -/

namespace Vici2

namespace Tokens

structure TokenKey where
  val : Int
  ttl : Bool
  deriving DecidableEq, Repr

/-- `INCRBY` as `DECR` and `INCR` use it: a missing key starts at zero without a
time to live, an existing one keeps its own. -/
def incrBy (key : Option TokenKey) (n : Int) : TokenKey :=
  match key with
  | some k => { k with val := k.val + n }
  | none => ⟨n, false⟩

def decr (key : Option TokenKey) : TokenKey := incrBy key (-1)

def incr (key : Option TokenKey) : TokenKey := incrBy key 1

def publishTokens (n : Int) : TokenKey := ⟨n, true⟩

/-- Between two commands of the bucket: a dispatcher has to restore a negative
result, or holds a token; each from the epoch of its `DECR`. -/
inductive Dispatcher
  | restoring (epoch : Nat)
  | holding (epoch : Nat)
  deriving DecidableEq, Repr

structure TokenWorld where
  key : Option TokenKey
  dispatchers : Finmap fun _ : Nat => Dispatcher
  epoch : Nat
  granted : Int
  succeeded : Nat
  released : Nat

def TokenWorld.empty : TokenWorld := ⟨none, ∅, 0, 0, 0, 0⟩

inductive TokenAction
  | acquireDecr (d : Nat)
  | restoreIncr (d : Nat)
  | release (d : Nat)
  | spend (d : Nat)
  | publish (n : Int)
  | expire

def TokenWorld.nextEpoch (w : TokenWorld) (key : Option TokenKey) (granted : Int) : TokenWorld where
  key := key
  dispatchers := w.dispatchers
  epoch := w.epoch + 1
  granted := granted
  succeeded := 0
  released := 0

def step (w : TokenWorld) : TokenAction → TokenWorld
  | .acquireDecr d =>
    match w.dispatchers.lookup d with
    | some _ => w
    | none =>
      let key := decr w.key
      if key.val < 0 then
        { w with
          key := some key
          dispatchers := w.dispatchers.insert d (.restoring w.epoch) }
      else
        { w with
          key := some key
          dispatchers := w.dispatchers.insert d (.holding w.epoch)
          succeeded := w.succeeded + 1 }
  | .restoreIncr d =>
    match w.dispatchers.lookup d with
    | some (.restoring _) =>
      { w with key := some (incr w.key), dispatchers := w.dispatchers.erase d }
    | _ => w
  | .release d =>
    match w.dispatchers.lookup d with
    | some (.holding e) =>
      { w with
        key := some (incr w.key)
        dispatchers := w.dispatchers.erase d
        released := if e = w.epoch then w.released + 1 else w.released }
    | _ => w
  | .spend d =>
    match w.dispatchers.lookup d with
    | some (.holding _) => { w with dispatchers := w.dispatchers.erase d }
    | _ => w
  | .publish n => w.nextEpoch (some (publishTokens n)) n
  | .expire =>
    match w.key with
    | some ⟨_, true⟩ => w.nextEpoch none 0
    | _ => w

/-- No more acquisitions in the epoch than tokens granted and given back. -/
def WithinBudget (w : TokenWorld) : Prop :=
  (w.succeeded : Int) ≤ max w.granted 0 + w.released

def Dispatcher.restores : Dispatcher → Option Nat
  | .restoring e => some e
  | .holding _ => none

def Dispatcher.holds : Dispatcher → Option Nat
  | .restoring _ => none
  | .holding e => some e

/-- An `INCR` runs in the epoch of the `DECR` it answers. -/
def StepInEpoch (w : TokenWorld) : TokenAction → Prop
  | .restoreIncr d => ∀ e ∈ (w.dispatchers.lookup d).bind Dispatcher.restores, e = w.epoch
  | .release d => ∀ e ∈ (w.dispatchers.lookup d).bind Dispatcher.holds, e = w.epoch
  | _ => True

instance : ∀ w a, Decidable (StepInEpoch w a)
  | _, .restoreIncr _ => inferInstanceAs (Decidable (∀ e ∈ Option.bind _ _, e = _))
  | _, .release _ => inferInstanceAs (Decidable (∀ e ∈ Option.bind _ _, e = _))
  | _, .acquireDecr _ => instDecidableTrue
  | _, .spend _ => instDecidableTrue
  | _, .publish _ => instDecidableTrue
  | _, .expire => instDecidableTrue

instance : DecidablePred WithinBudget := fun _ => inferInstanceAs (Decidable (_ ≤ _))

def restoringNow (w : TokenWorld) : Nat :=
  countWhere (fun s => s = Dispatcher.restoring w.epoch) w.dispatchers

structure Balanced (w : TokenWorld) : Prop where
  balance : (w.key.elim 0 TokenKey.val : Int) =
    w.granted - w.succeeded + w.released - restoringNow w
  within : WithinBudget w
  past : ∀ d e, w.dispatchers.lookup d = some (.restoring e) → e ≤ w.epoch

theorem incrBy_val (key : Option TokenKey) (n : Int) :
    (incrBy key n).val = key.elim 0 TokenKey.val + n := by
  cases key with
  | none => simp [incrBy]
  | some k => rfl

theorem past_insert {w : TokenWorld} (hw : Balanced w) {d : Nat} {s : Dispatcher}
    (hs : ∀ e, s = .restoring e → e ≤ w.epoch) (d' e : Nat)
    (h : (w.dispatchers.insert d s).lookup d' = some (.restoring e)) : e ≤ w.epoch := by
  by_cases hd : d' = d
  · subst hd
    rw [Finmap.lookup_insert] at h
    exact hs e (Option.some.inj h)
  · rw [Finmap.lookup_insert_of_ne _ hd] at h
    exact hw.past d' e h

theorem past_erase {w : TokenWorld} (hw : Balanced w) (d d' e : Nat)
    (h : (w.dispatchers.erase d).lookup d' = some (.restoring e)) : e ≤ w.epoch := by
  by_cases hd : d' = d
  · subst hd
    rw [Finmap.lookup_erase] at h
    simp at h
  · rw [Finmap.lookup_erase_ne hd] at h
    exact hw.past d' e h

theorem Balanced.acquireDecr {w : TokenWorld} (hw : Balanced w) (d : Nat) :
    Balanced (step w (.acquireDecr d)) := by
  have hbal := hw.balance
  have hwithin := hw.within
  unfold step
  dsimp only
  cases hd : w.dispatchers.lookup d with
  | some s => exact hw
  | none =>
    have hnew : d ∉ w.dispatchers := Finmap.lookup_eq_none.mp hd
    have hval : (decr w.key).val = w.key.elim 0 TokenKey.val - 1 := incrBy_val w.key (-1)
    by_cases hneg : (decr w.key).val < 0
    · have hcount := countWhere_insert (fun s => s = Dispatcher.restoring w.epoch)
        (.restoring w.epoch) hnew
      simp only [if_pos hneg]
      refine ⟨?_, hwithin, past_insert hw fun e he => ?_⟩
      · simp only [restoringNow, Option.elim_some, decide_true, if_true] at hcount hbal ⊢
        rw [hcount, hval]
        push_cast
        omega
      · cases he
        exact le_refl _
    · have hcount := countWhere_insert (fun s => s = Dispatcher.restoring w.epoch)
        (.holding w.epoch) hnew
      simp only [if_neg hneg]
      refine ⟨?_, ?_, past_insert hw fun e he => by simp at he⟩
      · simp [restoringNow] at hcount hbal ⊢
        rw [hcount, hval]
        omega
      · simp only [WithinBudget, restoringNow] at hbal ⊢
        push_cast
        omega

theorem Balanced.restoreIncr {w : TokenWorld} (hw : Balanced w) {d : Nat}
    (hok : StepInEpoch w (.restoreIncr d)) : Balanced (step w (.restoreIncr d)) := by
  have hbal := hw.balance
  unfold step
  dsimp only
  rcases hd : w.dispatchers.lookup d with _ | (e | e)
  · exact hw
  · obtain rfl : e = w.epoch := by simpa [StepInEpoch, hd, Dispatcher.restores, Dispatcher.holds] using hok
    have hcount := countWhere_erase (fun s => s = Dispatcher.restoring w.epoch) hd
    have hval : (incr w.key).val = w.key.elim 0 TokenKey.val + 1 := incrBy_val w.key 1
    refine ⟨?_, hw.within, past_erase hw d⟩
    simp only [restoringNow, Option.elim_some, decide_true, if_true] at hcount hbal ⊢
    rw [hval]
    omega
  · exact hw

theorem Balanced.release {w : TokenWorld} (hw : Balanced w) {d : Nat}
    (hok : StepInEpoch w (.release d)) : Balanced (step w (.release d)) := by
  have hbal := hw.balance
  have hwithin := hw.within
  unfold step
  dsimp only
  rcases hd : w.dispatchers.lookup d with _ | (e | e)
  · exact hw
  · exact hw
  · obtain rfl : e = w.epoch := by simpa [StepInEpoch, hd, Dispatcher.restores, Dispatcher.holds] using hok
    have hcount := countWhere_erase (fun s => s = Dispatcher.restoring w.epoch) hd
    have hval : (incr w.key).val = w.key.elim 0 TokenKey.val + 1 := incrBy_val w.key 1
    refine ⟨?_, ?_, past_erase hw d⟩
    · simp [restoringNow] at hcount hbal ⊢
      rw [hval, hcount]
      omega
    · simp only [WithinBudget, if_true] at hwithin ⊢
      push_cast
      omega

theorem Balanced.spend {w : TokenWorld} (hw : Balanced w) (d : Nat) :
    Balanced (step w (.spend d)) := by
  have hbal := hw.balance
  unfold step
  dsimp only
  rcases hd : w.dispatchers.lookup d with _ | (e | e)
  · exact hw
  · exact hw
  · have hcount := countWhere_erase (fun s => s = Dispatcher.restoring w.epoch) hd
    refine ⟨?_, hw.within, past_erase hw d⟩
    simp [restoringNow] at hcount hbal ⊢
    rw [hcount]
    omega

theorem Balanced.nextEpoch {w : TokenWorld} (hw : Balanced w) {key : Option TokenKey}
    {granted : Int} (hkey : key.elim 0 TokenKey.val = granted) :
    Balanced (w.nextEpoch key granted) := by
  have hzero : restoringNow (w.nextEpoch key granted) = 0 := by
    refine countWhere_eq_zero _ fun d s hs => ?_
    by_contra hr
    have he : s = .restoring (w.epoch + 1) :=
      of_decide_eq_true ((Bool.not_eq_false _).mp hr)
    have hle := hw.past d (w.epoch + 1) (he ▸ hs)
    omega
  refine ⟨?_, ?_, fun d e hd => ?_⟩
  · rw [hzero]
    simpa [TokenWorld.nextEpoch] using hkey
  · simp only [WithinBudget, TokenWorld.nextEpoch]
    push_cast
    omega
  · have hle := hw.past d e hd
    simp only [TokenWorld.nextEpoch]
    omega

theorem Balanced.step {w : TokenWorld} (hw : Balanced w) (a : TokenAction)
    (hok : StepInEpoch w a) : Balanced (step w a) := by
  cases a with
  | acquireDecr d => exact hw.acquireDecr d
  | restoreIncr d => exact hw.restoreIncr hok
  | release d => exact hw.release hok
  | spend d => exact hw.spend d
  | publish n => exact hw.nextEpoch rfl
  | expire =>
    simp only [Tokens.step]
    rcases w.key with _ | ⟨v, ttl⟩
    · exact hw
    · cases ttl with
      | false => exact hw
      | true => exact hw.nextEpoch rfl

theorem balanced_empty : Balanced TokenWorld.empty := by
  refine ⟨?_, ?_, fun d e hd => ?_⟩
  · rfl
  · simp [WithinBudget, TokenWorld.empty]
  · simp [TokenWorld.empty] at hd

/-- In a run where every `INCR` falls in the epoch of its `DECR`, no epoch sees
more acquisitions than tokens granted and given back. -/
theorem token_budget_along_run (l : List TokenAction)
    (hl : EachStep step StepInEpoch TokenWorld.empty l) :
    Always step WithinBudget TokenWorld.empty l := by
  have hbal := always_of_eachStep (I := Balanced) (fun w a hw hok => hw.step a hok)
    balanced_empty hl
  exact hbal.mono fun _ hw => hw.within

theorem token_budget_two_pods :
    EachStep step StepInEpoch TokenWorld.empty
        [.publish 1, .acquireDecr 0, .acquireDecr 1, .restoreIncr 1, .release 0, .acquireDecr 1,
          .expire, .acquireDecr 2] ∧
      Always step WithinBudget TokenWorld.empty
        [.publish 1, .acquireDecr 0, .acquireDecr 1, .restoreIncr 1, .release 0, .acquireDecr 1,
          .expire, .acquireDecr 2] :=
  ⟨by decide, token_budget_along_run _ (by decide)⟩

/-- A token given back after its key expired is acquired with nothing granted. -/
theorem release_after_expiry_overspends :
    ¬ Always step WithinBudget TokenWorld.empty
      [.publish 1, .acquireDecr 0, .expire, .release 0, .acquireDecr 1] := by
  decide

end Tokens

end Vici2
