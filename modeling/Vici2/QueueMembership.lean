import Vici2.DispatchCycle

/-! Which queue a waiting call is in, over enrolments, dispatches, hangups, overflows
and reconciliations of one tenant. A dispatch does not close the row in `queue_calls`
and an overflow does not move it, and the janitor puts every open row back into the
queue of the in-group the row names. -/

namespace Vici2

namespace Queue

open Agents

structure QueueCallRow where
  callUUID : String
  ingroupID : String
  baseScore : Int
  enterAt : Int
  exitAt : Option Int := none
  exitReason : Option String := none
  deriving DecidableEq, Repr

inductive OverflowAction
  | hangup
  | overflowIngroup
  | voicemail
  | callbackOffer
  | externalTransfer
  | other (name : String)
  deriving DecidableEq, Repr

def maxOverflowHops : Int := 3

/-- How far `checkOverflow` has come with a call. -/
inductive OverflowStage
  | loaded
  | removed
  | requeued (target : String)
  deriving DecidableEq, Repr

/-- A call that the dispatcher of an in-group is overflowing, as it was loaded. -/
structure Overflow where
  callUUID : String
  ingroupID : String
  baseScore : Int
  hops : Int
  stage : OverflowStage
  deriving DecidableEq, Repr

def Overflow.moving (o : Overflow) : Bool := o.stage ≠ .loaded

/-- The store with the rows of `queue_calls`. Statements that the API has still to make
are in `inserts` and `exits`, the call that a dispatcher loop is overflowing in
`overflows`, rows that a janitor has read and not yet restored in `restoring`. `home` is
the in-group that the call was last enrolled in or overflowed to. -/
structure QueueWorld where
  store : QueueStore
  rows : List QueueCallRow
  inserts : List QueueCallRow
  exits : List (String × Int × String)
  overflows : Nat → Option Overflow
  restoring : List QueueCallRow
  home : String → Option String

inductive MembershipAction
  | enroll (igid callUUID callerID : String) (now : Int) (lead : Option (Int × Int))
  | insertRow (k : Nat) (ok : Bool)
  | foreignRow (row : QueueCallRow)
  | dispatch (igid callUUID : String) (userID nowMs : Int)
  | hangup (callUUID : String) (now : Int)
  | exitCallback (callUUID : String) (now : Int)
  | updateExit (k : Nat) (ok : Bool)
  | overflowLoad (loop : Nat) (igid callUUID : String) (maxWaitSec now : Int)
  | overflowRemove (loop : Nat) (now : Int)
  | overflowExecute (loop : Nat) (action : OverflowAction) (target : Option String)
  | reEnqueue (loop : Nat) (ok : Bool)
  | reconcile (now : Int)
  | restore (k : Nat) (ok : Bool)
  | agents (agents : AgentStore) (readyAgents : String → ZSet Int Int)

def QueueStore.withQueue (s : QueueStore) (igid : String) (z : ZSet String Int) : QueueStore :=
  { s with calls := { s.calls with queue := Function.update s.calls.queue igid z } }

def QueueStore.hsetCall (s : QueueStore) (callUUID : String) (pairs : List (String × String)) :
    QueueStore :=
  { s with calls := { s.calls with
      queueCall := Function.update s.calls.queueCall callUUID
        (hset (s.calls.queueCall callUUID) pairs) } }

/-- `ZADD NX` -/
def zaddNX (z : ZSet String Int) (callUUID : String) (score : Int) : ZSet String Int :=
  if callUUID ∈ z then z else z.zadd callUUID score

def enrollRow (igid callUUID : String) (now : Int) (lead : Option (Int × Int)) : QueueCallRow where
  callUUID := callUUID
  ingroupID := igid
  baseScore := now - computePriorityBoost 0 ((lead.map Prod.snd).getD 0) true * 1000
  enterAt := now

/-- The queue that the HASH of a call names, without the call. -/
def QueueStore.leaveQueue (s : QueueStore) (callUUID : String) : QueueStore :=
  match s.calls.queueCall callUUID "ingroup_id" with
  | some igid => s.withQueue igid ((s.calls.queue igid).zrem callUUID)
  | none => s

def closeRows (rows : List QueueCallRow) (exit : String × Int × String) : List QueueCallRow :=
  rows.map fun r =>
    if r.callUUID = exit.1 then { r with exitAt := some exit.2.1, exitReason := some exit.2.2 }
    else r

def twoHoursMs : Int := 7200000

/-- The rows that `ReconcileOnStartup` restores. -/
def openRows (rows : List QueueCallRow) (now : Int) : List QueueCallRow :=
  rows.filter fun r => r.exitAt = none ∧ now - twoHoursMs < r.enterAt

/-- What `checkOverflow` loads of a call that has waited too long. -/
def loadOverflow (s : QueueStore) (igid callUUID : String) (maxWaitSec now : Int) :
    Option Overflow :=
  let h := s.calls.queueCall callUUID
  let enterTs := parseIntValue (field h "enter_ts")
  if 0 < maxWaitSec ∧ callUUID ∈ s.calls.queue igid ∧ enterTs ≠ 0 ∧
      enterTs ≤ now - maxWaitSec * 1000 then
    some ⟨callUUID, igid, parseIntValue (field h "base_score"),
      parseIntValue (field h "overflow_hops"), .loaded⟩
  else none

/-- `Execute` up to the re-enqueue: the hops it writes and the in-group it will add the
call to. Every other outcome leaves the queues alone. -/
def overflowTarget (o : Overflow) (hops : Int) (action : OverflowAction) (target : Option String) :
    Option (Int × String) :=
  if maxOverflowHops ≤ o.hops then none
  else
    match action, target with
    | .overflowIngroup, some target => if target = "" then none else some (hops + 1, target)
    | _, _ => none

def QueueWorld.setOverflow (w : QueueWorld) (loop : Nat) (o : Option Overflow) : QueueWorld :=
  { w with overflows := Function.update w.overflows loop o }

def removeStep (w : QueueWorld) (loop : Nat) (o : Overflow) (now : Int) : QueueWorld :=
  let store := w.store.withQueue o.ingroupID ((w.store.calls.queue o.ingroupID).zrem o.callUUID)
  { w.setOverflow loop (some { o with stage := .removed }) with
    store := store.hsetCall o.callUUID [("exit_at", toString now), ("exit_reason", "timeout")] }

def executeStep (w : QueueWorld) (loop : Nat) (o : Overflow) (action : OverflowAction)
    (target : Option String) : QueueWorld :=
  let hops := parseIntValue (field (w.store.calls.queueCall o.callUUID) "overflow_hops")
  match overflowTarget o hops action target with
  | none => w.setOverflow loop none
  | some (hops, target) =>
    { w.setOverflow loop (if maxOverflowHops ≤ hops then none
        else some { o with hops := hops, stage := .requeued target }) with
      store := w.store.hsetCall o.callUUID [("overflow_hops", toString hops)] }

def reEnqueueStep (w : QueueWorld) (loop : Nat) (o : Overflow) (target : String) (ok : Bool) :
    QueueWorld :=
  if ok then
    { w.setOverflow loop none with
      store := w.store.withQueue target ((w.store.calls.queue target).zadd o.callUUID o.baseScore)
      home := Function.update w.home o.callUUID (some target) }
  else w.setOverflow loop none

def restoreStep (w : QueueWorld) (k : Nat) (r : QueueCallRow) (ok : Bool) : QueueWorld :=
  let w := { w with restoring := w.restoring.eraseIdx k }
  if ok then
    let queue := zaddNX (w.store.calls.queue r.ingroupID) r.callUUID r.baseScore
    { w with store := w.store.withQueue r.ingroupID queue }
  else w

def membershipStep (w : QueueWorld) : MembershipAction → QueueWorld
  | .enroll igid callUUID callerID now lead =>
    { w with
      store := enroll w.store igid callUUID callerID now lead
      inserts := w.inserts ++ [enrollRow igid callUUID now lead]
      home := Function.update w.home callUUID (some igid) }
  | .insertRow k ok =>
    match w.inserts[k]? with
    | none => w
    | some r =>
      { w with inserts := w.inserts.eraseIdx k, rows := if ok then w.rows ++ [r] else w.rows }
  | .foreignRow row => { w with rows := w.rows ++ [row] }
  | .dispatch igid callUUID userID nowMs =>
    match dispatchInbound w.store.calls igid callUUID userID nowMs with
    | .ok calls => { w with store := { w.store with calls := calls } }
    | .error _ => w
  | .hangup callUUID now =>
    { w with
      store := hangup w.store callUUID now
      exits := if (w.store.calls.queueCall callUUID "ingroup_id").isSome then
        w.exits ++ [(callUUID, now, "caller_hangup")] else w.exits }
  | .exitCallback callUUID now =>
    { w with
      store := (w.store.leaveQueue callUUID).hsetCall callUUID
        [("exit_at", toString now), ("exit_reason", "callback")]
      exits := w.exits ++ [(callUUID, now, "callback")] }
  | .updateExit k ok =>
    match w.exits[k]? with
    | none => w
    | some e =>
      { w with exits := w.exits.eraseIdx k, rows := if ok then closeRows w.rows e else w.rows }
  | .overflowLoad loop igid callUUID maxWaitSec now =>
    match w.overflows loop, loadOverflow w.store igid callUUID maxWaitSec now with
    | none, some o => w.setOverflow loop (some o)
    | _, _ => w
  | .overflowRemove loop now =>
    match w.overflows loop with
    | none => w
    | some o => if o.stage = .loaded then removeStep w loop o now else w
  | .overflowExecute loop action target =>
    match w.overflows loop with
    | none => w
    | some o => if o.stage = .removed then executeStep w loop o action target else w
  | .reEnqueue loop ok =>
    match w.overflows loop with
    | none => w
    | some o =>
      match o.stage with
      | .requeued target => reEnqueueStep w loop o target ok
      | _ => w
  | .reconcile now => { w with restoring := w.restoring ++ openRows w.rows now }
  | .restore k ok =>
    match w.restoring[k]? with
    | none => w
    | some r => restoreStep w k r ok
  | .agents agents readyAgents =>
    { w with store := { w.store with calls :=
        { w.store.calls with agents := agents, readyAgents := readyAgents } } }

def QueueWorld.start : QueueWorld := ⟨QueueStore.empty, [], [], [], fun _ => none, [], fun _ => none⟩

/-- The call was handed to an agent, or its caller hung up. -/
def QueueWorld.finished (w : QueueWorld) (callUUID : String) : Prop :=
  (w.store.calls.queueCall callUUID "dispatch_at").isSome = true ∨
    w.store.hungUp callUUID = true

def OneQueue (w : QueueWorld) : Prop :=
  ∀ callUUID igid igid', callUUID ∈ w.store.calls.queue igid →
    callUUID ∈ w.store.calls.queue igid' → igid = igid'

/-- A call that is finished stays so and enters no queue. -/
def NeverBack (w : QueueWorld) (a : MembershipAction) : Prop :=
  ∀ callUUID, w.finished callUUID → (membershipStep w a).finished callUUID ∧
    ∀ igid, callUUID ∈ (membershipStep w a).store.calls.queue igid →
      callUUID ∈ w.store.calls.queue igid

/-- An overflow has taken the call out of its queue and not yet put it into another. -/
def QueueWorld.moving (w : QueueWorld) (callUUID : String) : Prop :=
  ∃ loop o, w.overflows loop = some o ∧ o.callUUID = callUUID ∧ o.moving = true

/-- A call is enrolled once, before it has ended; an overflow takes out of the queue a
call that is still there and puts back one that has not ended; and a restored row is
that of a call still waiting in the in-group of the row. -/
def Orderly (w : QueueWorld) : MembershipAction → Prop
  | .enroll _ callUUID _ _ _ => w.home callUUID = none ∧ ¬ w.finished callUUID
  | .overflowRemove loop _ => ∀ o, w.overflows loop = some o → o.stage = .loaded →
    o.callUUID ∈ w.store.calls.queue o.ingroupID
  | .reEnqueue loop _ => ∀ o target, w.overflows loop = some o → o.stage = .requeued target →
    ¬ w.finished o.callUUID
  | .restore k _ => ∀ r, w.restoring[k]? = some r →
    w.home r.callUUID = some r.ingroupID ∧ ¬ w.finished r.callUUID ∧ ¬ w.moving r.callUUID
  | _ => True

structure MembershipInv (w : QueueWorld) : Prop where
  home : ∀ callUUID igid, callUUID ∈ w.store.calls.queue igid → w.home callUUID = some igid
  apart : ∀ callUUID igid, w.moving callUUID → callUUID ∉ w.store.calls.queue igid
  enrolled : ∀ loop o, w.overflows loop = some o → w.home o.callUUID ≠ none
  single : ∀ loop loop' o o', w.overflows loop = some o → w.overflows loop' = some o' →
    o.moving = true → o'.moving = true → o.callUUID = o'.callUUID → loop = loop'

theorem MembershipInv.oneQueue {w : QueueWorld} (hw : MembershipInv w) : OneQueue w := by
  intro callUUID igid igid' h h'
  exact Option.some.inj ((hw.home callUUID igid h).symm.trans (hw.home callUUID igid' h'))

/-- No call has entered a queue. -/
def Shrinks (w w' : QueueWorld) : Prop :=
  ∀ callUUID igid, callUUID ∈ w'.store.calls.queue igid → callUUID ∈ w.store.calls.queue igid

theorem mem_withQueue {s : QueueStore} {igid igid' callUUID : String} {z : ZSet String Int} :
    callUUID ∈ (s.withQueue igid z).calls.queue igid' ↔
      (igid' = igid ∧ callUUID ∈ z) ∨ (igid' ≠ igid ∧ callUUID ∈ s.calls.queue igid') := by
  by_cases h : igid' = igid
  · subst igid'
    simp [QueueStore.withQueue]
  · simp [QueueStore.withQueue, h]

theorem mem_zrem_queue {s : QueueStore} {igid igid' callUUID gone : String}
    (h : callUUID ∈ (s.withQueue igid ((s.calls.queue igid).zrem gone)).calls.queue igid') :
    callUUID ∈ s.calls.queue igid' ∧ (igid' = igid → callUUID ≠ gone) := by
  rcases mem_withQueue.mp h with ⟨rfl, hz⟩ | ⟨hne, hz⟩
  · exact ⟨(ZSet.mem_zrem.mp hz).1, fun _ => (ZSet.mem_zrem.mp hz).2⟩
  · exact ⟨hz, fun he => absurd he hne⟩

theorem mem_zaddNX {z : ZSet String Int} {callUUID x : String} {score : Int} :
    x ∈ zaddNX z callUUID score ↔ x = callUUID ∨ x ∈ z := by
  unfold zaddNX
  split_ifs with h
  · constructor
    · exact .inr
    · rintro (rfl | hx)
      · exact h
      · exact hx
  · exact ZSet.mem_zadd

theorem mem_leaveQueue {s : QueueStore} {igid callUUID x : String}
    (h : x ∈ (s.leaveQueue callUUID).calls.queue igid) : x ∈ s.calls.queue igid := by
  unfold QueueStore.leaveQueue at h
  split at h
  · exact (mem_zrem_queue h).1
  · exact h

theorem mem_hangup {s : QueueStore} {igid callUUID x : String} {now : Int}
    (h : x ∈ (hangup s callUUID now).calls.queue igid) : x ∈ s.calls.queue igid := by
  have hleave : (hangup s callUUID now).calls.queue = (s.leaveQueue callUUID).calls.queue := by
    unfold hangup QueueStore.leaveQueue
    split <;> simp_all [QueueStore.withQueue]
  rw [hleave] at h
  exact mem_leaveQueue h

theorem mem_dispatchInbound {s s' : CallStore} {igid igid' callUUID x : String}
    {userID nowMs : Int} (hd : dispatchInbound s igid callUUID userID nowMs = .ok s')
    (h : x ∈ s'.queue igid') : x ∈ s.queue igid' := by
  unfold dispatchInbound at hd
  split at hd
  · cases hd
  · split at hd
    · cases hd
    · obtain rfl := Except.ok.inj hd
      by_cases hi : igid' = igid
      · subst igid'
        simp only [Function.update_self] at h
        exact (ZSet.mem_zrem.mp h).1
      · simpa only [Function.update_of_ne hi] using h

/-- A step that puts no call into a queue and takes none on the way to another. -/
theorem MembershipInv.shrink {w w' : QueueWorld} (hw : MembershipInv w) (hs : Shrinks w w')
    (hhome : w'.home = w.home) (hoverflows : w'.overflows = w.overflows) : MembershipInv w' := by
  constructor
  · intro callUUID igid h
    rw [hhome]
    exact hw.home callUUID igid (hs callUUID igid h)
  · intro callUUID igid hm h
    have hm' : w.moving callUUID := by
      simpa only [QueueWorld.moving, hoverflows] using hm
    exact hw.apart callUUID igid hm' (hs callUUID igid h)
  · rw [hoverflows, hhome]
    exact hw.enrolled
  · rw [hoverflows]
    exact hw.single

/-- A step of one dispatcher loop with the call it is overflowing. -/
theorem MembershipInv.setLoop {w w' : QueueWorld} (hw : MembershipInv w) (loop : Nat)
    (new : Option Overflow) (hoverflows : w'.overflows = Function.update w.overflows loop new)
    (hhome : w'.home = w.home) (hs : Shrinks w w')
    (henrolled : ∀ o, new = some o → w.home o.callUUID ≠ none)
    (hout : ∀ o, new = some o → o.moving = true → ∀ igid, o.callUUID ∉ w'.store.calls.queue igid)
    (halone : ∀ o, new = some o → o.moving = true → ∀ loop' o', loop' ≠ loop →
      w.overflows loop' = some o' → o'.moving = true → o'.callUUID ≠ o.callUUID) :
    MembershipInv w' := by
  have hcases : ∀ loop' o, w'.overflows loop' = some o →
      (loop' = loop ∧ new = some o) ∨ (loop' ≠ loop ∧ w.overflows loop' = some o) := by
    intro loop' o h
    rw [hoverflows] at h
    exact update_cases (fun x => x = some o) h
  constructor
  · intro callUUID igid h
    rw [hhome]
    exact hw.home callUUID igid (hs callUUID igid h)
  · rintro callUUID igid ⟨loop', o, ho, rfl, hm⟩ h
    rcases hcases loop' o ho with ⟨-, ho⟩ | ⟨-, ho⟩
    · exact hout o ho hm igid h
    · exact hw.apart o.callUUID igid ⟨loop', o, ho, rfl, hm⟩ (hs _ igid h)
  · intro loop' o ho
    rw [hhome]
    rcases hcases loop' o ho with ⟨-, ho⟩ | ⟨-, ho⟩
    · exact henrolled o ho
    · exact hw.enrolled loop' o ho
  · intro loop₁ loop₂ o₁ o₂ h₁ h₂ hm₁ hm₂ hcall
    rcases hcases loop₁ o₁ h₁ with ⟨rfl, h₁⟩ | ⟨hl₁, h₁⟩
    · rcases hcases loop₂ o₂ h₂ with ⟨rfl, -⟩ | ⟨hl₂, h₂⟩
      · rfl
      · exact absurd hcall.symm (halone o₁ h₁ hm₁ loop₂ o₂ hl₂ h₂ hm₂)
    · rcases hcases loop₂ o₂ h₂ with ⟨rfl, h₂⟩ | ⟨-, h₂⟩
      · exact absurd hcall (halone o₂ h₂ hm₂ loop₁ o₁ hl₁ h₁ hm₁)
      · exact hw.single loop₁ loop₂ o₁ o₂ h₁ h₂ hm₁ hm₂ hcall

/-- A step that puts one call into one queue. -/
theorem MembershipInv.add {w w' : QueueWorld} (hw : MembershipInv w) (callUUID igid : String)
    (hqueue : ∀ x igid', x ∈ w'.store.calls.queue igid' →
      (x = callUUID ∧ igid' = igid) ∨ x ∈ w.store.calls.queue igid')
    (hhome : w'.home = Function.update w.home callUUID (some igid))
    (hold : ∀ igid', callUUID ∈ w.store.calls.queue igid' → igid' = igid)
    (hoverflows : ∀ loop o, w'.overflows loop = some o → w.overflows loop = some o)
    (hnot : ¬ w'.moving callUUID) : MembershipInv w' := by
  have hmoving : ∀ x, w'.moving x → w.moving x := by
    rintro x ⟨loop, o, ho, hx, hm⟩
    exact ⟨loop, o, hoverflows loop o ho, hx, hm⟩
  constructor
  · intro x igid' h
    rw [hhome]
    rcases hqueue x igid' h with ⟨rfl, rfl⟩ | h
    · exact Function.update_self _ _ _
    · by_cases hx : x = callUUID
      · subst x
        rw [Function.update_self, hold igid' h]
      · rw [Function.update_of_ne hx]
        exact hw.home x igid' h
  · intro x igid' hm h
    rcases hqueue x igid' h with ⟨rfl, -⟩ | h
    · exact hnot hm
    · exact hw.apart x igid' (hmoving x hm) h
  · intro loop o ho
    rw [hhome]
    by_cases hx : o.callUUID = callUUID
    · rw [hx, Function.update_self]
      simp
    · rw [Function.update_of_ne hx]
      exact hw.enrolled loop o (hoverflows loop o ho)
  · intro loop loop' o o' ho ho'
    exact hw.single loop loop' o o' (hoverflows loop o ho) (hoverflows loop' o' ho')

theorem loadOverflow_some {s : QueueStore} {igid callUUID : String} {maxWaitSec now : Int}
    {o : Overflow} (h : loadOverflow s igid callUUID maxWaitSec now = some o) :
    o.callUUID = callUUID ∧ o.stage = .loaded ∧ callUUID ∈ s.calls.queue igid := by
  unfold loadOverflow at h
  simp only at h
  split_ifs at h with hc
  obtain rfl := Option.some.inj h
  exact ⟨rfl, rfl, hc.2.1⟩

theorem shrinks_refl (w : QueueWorld) : Shrinks w w := fun _ _ => id

theorem shrinks_removeStep (w : QueueWorld) (loop : Nat) (o : Overflow) (now : Int) :
    Shrinks w (removeStep w loop o now) := fun _ _ h => (mem_zrem_queue h).1

theorem MembershipInv.remove {w : QueueWorld} (hw : MembershipInv w) {loop : Nat} {o : Overflow}
    (ho : w.overflows loop = some o) (now : Int)
    (hmem : o.callUUID ∈ w.store.calls.queue o.ingroupID) :
    MembershipInv (removeStep w loop o now) := by
  refine hw.setLoop loop _ rfl rfl (shrinks_removeStep w loop o now) ?_ ?_ ?_
  · rintro o' h
    obtain rfl := Option.some.inj h
    exact hw.enrolled loop o ho
  · rintro o' h - igid hq
    obtain rfl := Option.some.inj h
    obtain ⟨hq, hne⟩ := mem_zrem_queue hq
    exact hne (hw.oneQueue o.callUUID igid o.ingroupID hq hmem) rfl
  · rintro o' h - loop' o'' - ho'' hm hcall
    obtain rfl := Option.some.inj h
    exact hw.apart o.callUUID o.ingroupID ⟨loop', o'', ho'', hcall, hm⟩ hmem

theorem MembershipInv.execute {w : QueueWorld} (hw : MembershipInv w) {loop : Nat} {o : Overflow}
    (ho : w.overflows loop = some o) (hm : o.moving = true) (action : OverflowAction)
    (target : Option String) : MembershipInv (executeStep w loop o action target) := by
  unfold executeStep
  simp only
  split
  · exact hw.setLoop loop none rfl rfl (shrinks_refl w) (by simp) (by simp) (by simp)
  · rename_i hops target' _
    refine hw.setLoop loop _ rfl rfl (fun _ _ => id) ?_ ?_ ?_
    all_goals
      intro o' h
      split_ifs at h
      obtain rfl := Option.some.inj h
    · exact hw.enrolled loop o ho
    · exact fun _ igid => hw.apart o.callUUID igid ⟨loop, o, ho, rfl, hm⟩
    · exact fun _ loop' o'' hne ho'' hm' hcall =>
        hne (hw.single loop' loop o'' o ho'' ho hm' hm hcall)

theorem mem_reEnqueueStep {w : QueueWorld} {loop : Nat} {o : Overflow} {target : String} {ok : Bool}
    {x igid : String} (h : x ∈ (reEnqueueStep w loop o target ok).store.calls.queue igid) :
    (x = o.callUUID ∧ igid = target) ∨ x ∈ w.store.calls.queue igid := by
  cases ok with
  | false => exact .inr h
  | true =>
    have hadd : x ∈ (w.store.withQueue target
        ((w.store.calls.queue target).zadd o.callUUID o.baseScore)).calls.queue igid := h
    rcases mem_withQueue.mp hadd with ⟨rfl, hz⟩ | ⟨-, hz⟩
    · rcases ZSet.mem_zadd.mp hz with rfl | hz
      · exact .inl ⟨rfl, rfl⟩
      · exact .inr hz
    · exact .inr hz

theorem MembershipInv.reEnqueue {w : QueueWorld} (hw : MembershipInv w) {loop : Nat} {o : Overflow}
    (ho : w.overflows loop = some o) (hm : o.moving = true) (target : String) (ok : Bool) :
    MembershipInv (reEnqueueStep w loop o target ok) := by
  cases ok with
  | false => exact hw.setLoop loop none rfl rfl (shrinks_refl w) (by simp) (by simp) (by simp)
  | true =>
    have hother : ∀ loop' o', (reEnqueueStep w loop o target true).overflows loop' = some o' →
        loop' ≠ loop ∧ w.overflows loop' = some o' := by
      intro loop' o' h
      rcases update_cases (fun x => x = some o') h with ⟨-, hnone⟩ | hother
      · cases hnone
      · exact hother
    refine hw.add o.callUUID target (fun _ _ h => mem_reEnqueueStep h) rfl ?_ ?_ ?_
    · intro igid h
      exact absurd h (hw.apart o.callUUID igid ⟨loop, o, ho, rfl, hm⟩)
    · intro loop' o' h
      exact (hother loop' o' h).2
    · rintro ⟨loop', o', h, hcall, hm'⟩
      obtain ⟨hl, ho'⟩ := hother loop' o' h
      exact hl (hw.single loop' loop o' o ho' ho hm' hm hcall)

theorem mem_enroll {s : QueueStore} {igid callUUID callerID : String} {now : Int}
    {lead : Option (Int × Int)} {x igid' : String}
    (h : x ∈ (enroll s igid callUUID callerID now lead).calls.queue igid') :
    (x = callUUID ∧ igid' = igid) ∨ x ∈ s.calls.queue igid' := by
  by_cases hi : igid' = igid
  · subst igid'
    simp only [enroll, Function.update_self] at h
    rcases ZSet.mem_zadd.mp h with rfl | h
    · exact .inl ⟨rfl, rfl⟩
    · exact .inr h
  · simp only [enroll, Function.update_of_ne hi] at h
    exact .inr h

theorem MembershipInv.enroll {w : QueueWorld} (hw : MembershipInv w)
    (igid callUUID callerID : String) (now : Int) (lead : Option (Int × Int))
    (hnew : w.home callUUID = none) :
    MembershipInv (membershipStep w (.enroll igid callUUID callerID now lead)) := by
  refine hw.add callUUID igid (fun _ _ h => mem_enroll h) rfl ?_ (fun _ _ => id) ?_
  · intro igid' h
    have hhome := hw.home callUUID igid' h
    rw [hnew] at hhome
    cases hhome
  · rintro ⟨loop, o, ho, rfl, -⟩
    exact hw.enrolled loop o ho hnew

theorem mem_restoreStep {w : QueueWorld} {k : Nat} {r : QueueCallRow} {ok : Bool}
    {x igid : String} (h : x ∈ (restoreStep w k r ok).store.calls.queue igid) :
    (x = r.callUUID ∧ igid = r.ingroupID) ∨ x ∈ w.store.calls.queue igid := by
  cases ok with
  | false => exact .inr h
  | true =>
    have hadd : x ∈ (w.store.withQueue r.ingroupID (zaddNX (w.store.calls.queue r.ingroupID)
        r.callUUID r.baseScore)).calls.queue igid := h
    rcases mem_withQueue.mp hadd with ⟨rfl, hz⟩ | ⟨-, hz⟩
    · rcases mem_zaddNX.mp hz with rfl | hz
      · exact .inl ⟨rfl, rfl⟩
      · exact .inr hz
    · exact .inr hz

theorem restoreStep_keeps (w : QueueWorld) (k : Nat) (r : QueueCallRow) (ok : Bool) :
    (restoreStep w k r ok).home = w.home ∧ (restoreStep w k r ok).overflows = w.overflows := by
  cases ok <;> exact ⟨rfl, rfl⟩

theorem MembershipInv.restore {w : QueueWorld} (hw : MembershipInv w) (k : Nat) {r : QueueCallRow}
    (ok : Bool) (hhome : w.home r.callUUID = some r.ingroupID) (hstill : ¬ w.moving r.callUUID) :
    MembershipInv (restoreStep w k r ok) := by
  obtain ⟨hhome', hoverflows⟩ := restoreStep_keeps w k r ok
  refine hw.add r.callUUID r.ingroupID (fun _ _ h => mem_restoreStep h) ?_ ?_ ?_ ?_
  · rw [hhome', ← hhome, Function.update_eq_self]
  · intro igid h
    exact Option.some.inj ((hw.home r.callUUID igid h).symm.trans hhome)
  · intro loop o h
    rwa [hoverflows] at h
  · simpa only [QueueWorld.moving, hoverflows] using hstill

/-- The actions that may put a call into a queue. -/
def MembershipAction.enters : MembershipAction → Bool
  | .enroll _ _ _ _ _ => true
  | .reEnqueue _ _ => true
  | .restore _ _ => true
  | _ => false

theorem shrinks_step (w : QueueWorld) {a : MembershipAction} (h : a.enters = false) :
    Shrinks w (membershipStep w a) := by
  cases a with
  | enroll igid callUUID callerID now lead => cases h
  | insertRow k ok =>
    simp only [membershipStep]
    split <;> exact shrinks_refl w
  | foreignRow row => exact shrinks_refl w
  | dispatch igid callUUID userID nowMs =>
    simp only [membershipStep]
    split
    · rename_i hd
      exact fun x igid' h => mem_dispatchInbound hd h
    · exact shrinks_refl w
  | hangup callUUID now => exact fun _ _ h => mem_hangup h
  | exitCallback callUUID now => exact fun _ _ h => mem_leaveQueue h
  | updateExit k ok =>
    simp only [membershipStep]
    split <;> exact shrinks_refl w
  | overflowLoad loop igid callUUID maxWaitSec now =>
    simp only [membershipStep]
    split <;> exact shrinks_refl w
  | overflowRemove loop now =>
    simp only [membershipStep]
    split
    · exact shrinks_refl w
    · split_ifs
      · exact shrinks_removeStep w loop _ now
      · exact shrinks_refl w
  | overflowExecute loop action target =>
    simp only [membershipStep]
    split
    · exact shrinks_refl w
    · split_ifs
      · unfold executeStep
        simp only
        split <;> exact fun _ _ => id
      · exact shrinks_refl w
  | reEnqueue loop ok => cases h
  | reconcile now => exact shrinks_refl w
  | restore k ok => cases h
  | agents agents readyAgents => exact fun _ _ => id

theorem MembershipInv.load {w : QueueWorld} (hw : MembershipInv w) (loop : Nat)
    {igid callUUID : String} {maxWaitSec now : Int} {o : Overflow}
    (hload : loadOverflow w.store igid callUUID maxWaitSec now = some o) :
    MembershipInv { w with overflows := Function.update w.overflows loop (some o) } := by
  obtain ⟨rfl, hstage, hmem⟩ := loadOverflow_some hload
  have hstill : o.moving = false := by simp [Overflow.moving, hstage]
  refine hw.setLoop loop (some o) rfl rfl (shrinks_refl w) ?_ ?_ ?_
  · intro o' h
    obtain rfl := Option.some.inj h
    rw [hw.home o.callUUID igid hmem]
    simp
  · intro o' h hm
    obtain rfl := Option.some.inj h
    simp [hstill] at hm
  · intro o' h hm
    obtain rfl := Option.some.inj h
    simp [hstill] at hm

theorem MembershipInv.step {w : QueueWorld} (hw : MembershipInv w) {a : MembershipAction}
    (ha : Orderly w a) : MembershipInv (membershipStep w a) := by
  cases a with
  | enroll igid callUUID callerID now lead => exact hw.enroll igid callUUID callerID now lead ha.1
  | insertRow k ok =>
    simp only [membershipStep]
    split
    · exact hw
    · exact hw.shrink (shrinks_refl w) rfl rfl
  | foreignRow row => exact hw.shrink (shrinks_refl w) rfl rfl
  | dispatch igid callUUID userID nowMs =>
    simp only [membershipStep]
    split
    · rename_i calls hd
      exact hw.shrink (fun x igid' h => mem_dispatchInbound hd h) rfl rfl
    · exact hw
  | hangup callUUID now => exact hw.shrink (fun _ _ h => mem_hangup h) rfl rfl
  | exitCallback callUUID now => exact hw.shrink (fun _ _ h => mem_leaveQueue h) rfl rfl
  | updateExit k ok =>
    simp only [membershipStep]
    split
    · exact hw
    · exact hw.shrink (shrinks_refl w) rfl rfl
  | overflowLoad loop igid callUUID maxWaitSec now =>
    simp only [membershipStep]
    split
    · rename_i o _ hload
      exact hw.load loop hload
    · exact hw
  | overflowRemove loop now =>
    simp only [membershipStep]
    split
    · exact hw
    · rename_i o ho
      split_ifs with hstage
      · exact hw.remove ho now (ha o ho hstage)
      · exact hw
  | overflowExecute loop action target =>
    simp only [membershipStep]
    split
    · exact hw
    · rename_i o ho
      split_ifs with hstage
      · exact hw.execute ho (by simp [Overflow.moving, hstage]) action target
      · exact hw
  | reEnqueue loop ok =>
    simp only [membershipStep]
    split
    · exact hw
    · rename_i o ho
      split
      · rename_i target hstage
        exact hw.reEnqueue ho (by simp [Overflow.moving, hstage]) target ok
      · exact hw
  | reconcile now => exact hw.shrink (shrinks_refl w) rfl rfl
  | restore k ok =>
    simp only [membershipStep]
    split
    · exact hw
    · rename_i r hr
      obtain ⟨hhome, -, hstill⟩ := ha r hr
      exact hw.restore k ok hhome hstill
  | agents agents readyAgents => exact hw.shrink (fun _ _ => id) rfl rfl

theorem isSome_hset {h : Hash} {f : String} (hf : (h f).isSome = true)
    (l : List (String × String)) : (hset h l f).isSome = true := by
  rw [hset_apply]
  simp [hf]

/-- HASH fields of calls are only ever added, and a caller that has hung up stays so. -/
structure Keeps (s s' : QueueStore) : Prop where
  fields : ∀ callUUID f, (s.calls.queueCall callUUID f).isSome = true →
    (s'.calls.queueCall callUUID f).isSome = true
  hungUp : ∀ callUUID, s.hungUp callUUID = true → s'.hungUp callUUID = true

theorem Keeps.refl (s : QueueStore) : Keeps s s := ⟨fun _ _ => id, fun _ => id⟩

theorem keeps_update {s s' : QueueStore} (callUUID : String) (l : List (String × String))
    (hcall : s'.calls.queueCall =
      Function.update s.calls.queueCall callUUID (hset (s.calls.queueCall callUUID) l))
    (hhung : ∀ x, s.hungUp x = true → s'.hungUp x = true) : Keeps s s' := by
  refine ⟨fun x f h => ?_, hhung⟩
  rw [hcall]
  by_cases hx : x = callUUID
  · subst x
    rw [Function.update_self]
    exact isSome_hset h l
  · rwa [Function.update_of_ne hx]

theorem keeps_dispatch {s : QueueStore} {calls : CallStore} {igid callUUID : String}
    {userID nowMs : Int} (h : dispatchInbound s.calls igid callUUID userID nowMs = .ok calls) :
    Keeps s { s with calls := calls } := by
  unfold dispatchInbound at h
  split at h
  · cases h
  · split at h
    · cases h
    · obtain rfl := Except.ok.inj h
      exact keeps_update callUUID _ rfl fun _ => id

theorem queueCall_leaveQueue (s : QueueStore) (callUUID : String) :
    (s.leaveQueue callUUID).calls.queueCall = s.calls.queueCall ∧
      (s.leaveQueue callUUID).hungUp = s.hungUp := by
  unfold QueueStore.leaveQueue
  split <;> exact ⟨rfl, rfl⟩

theorem keeps_step (w : QueueWorld) (a : MembershipAction) :
    Keeps w.store (membershipStep w a).store := by
  cases a with
  | enroll igid callUUID callerID now lead => exact keeps_update callUUID _ rfl fun _ => id
  | insertRow k ok =>
    simp only [membershipStep]
    split <;> exact Keeps.refl _
  | foreignRow row => exact Keeps.refl _
  | dispatch igid callUUID userID nowMs =>
    simp only [membershipStep]
    split
    · rename_i hd
      exact keeps_dispatch hd
    · exact Keeps.refl _
  | hangup callUUID now =>
    refine keeps_update callUUID _ rfl fun x hx => ?_
    by_cases hc : x = callUUID
    · subst x
      exact Function.update_self _ _ _
    · simpa [membershipStep, hangup, hc] using hx
  | exitCallback callUUID now =>
    obtain ⟨hcall, hhung⟩ := queueCall_leaveQueue w.store callUUID
    refine keeps_update callUUID [("exit_at", toString now), ("exit_reason", "callback")] ?_ ?_
    · simp only [membershipStep, QueueStore.hsetCall, hcall]
    · simp only [membershipStep, QueueStore.hsetCall, hhung, imp_self, implies_true]
  | updateExit k ok =>
    simp only [membershipStep]
    split <;> exact Keeps.refl _
  | overflowLoad loop igid callUUID maxWaitSec now =>
    simp only [membershipStep]
    split <;> exact Keeps.refl _
  | overflowRemove loop now =>
    simp only [membershipStep]
    split
    · exact Keeps.refl _
    · split_ifs
      · exact keeps_update _ _ rfl fun _ => id
      · exact Keeps.refl _
  | overflowExecute loop action target =>
    simp only [membershipStep]
    split
    · exact Keeps.refl _
    · split_ifs
      · unfold executeStep
        simp only
        split
        · exact Keeps.refl _
        · exact keeps_update _ _ rfl fun _ => id
      · exact Keeps.refl _
  | reEnqueue loop ok =>
    simp only [membershipStep]
    split
    · exact Keeps.refl _
    · split
      · cases ok <;> exact ⟨fun _ _ => id, fun _ => id⟩
      · exact Keeps.refl _
  | reconcile now => exact Keeps.refl _
  | restore k ok =>
    simp only [membershipStep]
    split
    · exact Keeps.refl _
    · cases ok <;> exact ⟨fun _ _ => id, fun _ => id⟩
  | agents agents readyAgents => exact ⟨fun _ _ => id, fun _ => id⟩

theorem finished_step {w : QueueWorld} {callUUID : String} (h : w.finished callUUID)
    (a : MembershipAction) : (membershipStep w a).finished callUUID := by
  have hk := keeps_step w a
  rcases h with h | h
  · exact .inl (hk.fields callUUID _ h)
  · exact .inr (hk.hungUp callUUID h)

theorem neverBack_of_shrinks {w : QueueWorld} {a : MembershipAction}
    (h : Shrinks w (membershipStep w a)) : NeverBack w a :=
  fun callUUID hf => ⟨finished_step hf a, fun igid hq => h callUUID igid hq⟩

/-- A step that puts a call into a queue puts in one that has not ended. -/
theorem neverBack_of_add {w : QueueWorld} {a : MembershipAction} (callUUID igid : String)
    (hqueue : ∀ x igid', x ∈ (membershipStep w a).store.calls.queue igid' →
      (x = callUUID ∧ igid' = igid) ∨ x ∈ w.store.calls.queue igid')
    (hlive : ¬ w.finished callUUID) : NeverBack w a := by
  intro x hf
  refine ⟨finished_step hf a, fun igid' hq => ?_⟩
  rcases hqueue x igid' hq with ⟨rfl, -⟩ | hq
  · exact absurd hf hlive
  · exact hq

theorem neverBack_of_orderly {w : QueueWorld} {a : MembershipAction} (ha : Orderly w a) :
    NeverBack w a := by
  by_cases henters : a.enters = true
  · cases a with
    | enroll igid callUUID callerID now lead =>
      exact neverBack_of_add callUUID igid (fun _ _ h => mem_enroll h) ha.2
    | reEnqueue loop ok =>
      cases ho : w.overflows loop with
      | none =>
        apply neverBack_of_shrinks
        simp only [membershipStep, ho]
        exact shrinks_refl w
      | some o =>
        cases hstage : o.stage with
        | loaded =>
          apply neverBack_of_shrinks
          simp only [membershipStep, ho, hstage]
          exact shrinks_refl w
        | removed =>
          apply neverBack_of_shrinks
          simp only [membershipStep, ho, hstage]
          exact shrinks_refl w
        | requeued target =>
          refine neverBack_of_add o.callUUID target ?_ (ha o target ho hstage)
          simp only [membershipStep, ho, hstage]
          exact fun x igid h => mem_reEnqueueStep h
    | restore k ok =>
      cases hr : w.restoring[k]? with
      | none =>
        apply neverBack_of_shrinks
        simp only [membershipStep, hr]
        exact shrinks_refl w
      | some r =>
        refine neverBack_of_add r.callUUID r.ingroupID ?_ (ha r hr).2.1
        simp only [membershipStep, hr]
        exact fun x igid h => mem_restoreStep h
    | _ => cases henters
  · exact neverBack_of_shrinks (shrinks_step w (by simpa using henters))

theorem membershipInv_start : MembershipInv .start := by
  constructor
  · intro callUUID igid h
    exact absurd h (ZSet.not_mem_empty callUUID)
  · intro callUUID igid _ h
    exact absurd h (ZSet.not_mem_empty callUUID)
  · intro loop o h
    cases h
  · intro loop loop' o o' h
    cases h

/-- In a run of orderly steps no call is in two queues and none comes back. -/
theorem one_queue_along_orderly_run (l : List MembershipAction)
    (hl : EachStep membershipStep Orderly .start l) :
    Always membershipStep OneQueue .start l ∧ EachStep membershipStep NeverBack .start l := by
  have hinv := always_of_eachStep (fun w a hw ha => hw.step ha) membershipInv_start hl
  refine ⟨hinv.mono fun w hw => hw.oneQueue, ?_⟩
  exact eachStep_of_invariant (fun _ _ _ _ => trivial) (fun _ _ _ ha => neverBack_of_orderly ha)
    (I := fun _ => True) trivial hl

def enrolled : List MembershipAction :=
  [.enroll "support" "c1" "+15551230000" 1000 none, .insertRow 0 true]

def overflowed : List MembershipAction :=
  [.overflowLoad 0 "support" "c1" 30 40000, .overflowRemove 0 40000,
    .overflowExecute 0 .overflowIngroup (some "sales"), .reEnqueue 0 true]

def reconciled : List MembershipAction := [.reconcile 300000, .restore 0 true]

def agentReady : MembershipAction :=
  .agents { AgentStore.empty with
    byStatus := fun st => if st = .ready then ZSet.zadd ∅ 7 0 else ∅ } fun _ => ∅

theorem one_queue_when_row_is_current :
    EachStep membershipStep Orderly .start (enrolled ++ reconciled ++ overflowed) ∧
      Always membershipStep OneQueue .start (enrolled ++ reconciled ++ overflowed) ∧
      EachStep membershipStep NeverBack .start (enrolled ++ reconciled ++ overflowed) := by
  have horderly : EachStep membershipStep Orderly .start (enrolled ++ reconciled ++ overflowed) := by
    refine ⟨⟨rfl, by rintro (h | h) <;> cases h⟩, trivial, trivial, ?_, trivial, ?_, trivial, ?_, trivial⟩
    · intro r hr
      obtain rfl := Option.some.inj hr
      refine ⟨rfl, ?_, ?_⟩
      · rintro (h | h) <;> revert h <;> decide +kernel
      · rintro ⟨loop, o, ho, -⟩
        cases ho
    · intro o ho _
      obtain rfl := Option.some.inj ho
      decide +kernel
    · intro o target ho _
      obtain rfl := Option.some.inj ho
      rintro (h | h) <;> revert h <;> decide +kernel
  exact ⟨horderly, one_queue_along_orderly_run _ horderly⟩

/-- An overflowed call is restored to the queue it left, and a dispatched one to the
queue it was taken from. -/
theorem reconcile_restores_overflowed_and_dispatched :
    ¬ Always membershipStep OneQueue .start (enrolled ++ overflowed ++ reconciled) ∧
      ¬ EachStep membershipStep NeverBack .start
        (enrolled ++ [agentReady, .dispatch "support" "c1" 7 2000] ++ reconciled) := by
  constructor
  · intro h
    have hone := h.last "c1" "support" "sales" (by decide +kernel) (by decide +kernel)
    revert hone
    decide
  · intro h
    have hback := (h.2.2.2.2.2.1 "c1" (.inl (by decide +kernel))).2 "support" (by decide +kernel)
    revert hback
    decide +kernel

end Queue

end Vici2
