import Vici2.Callbacks
import Vici2.GoTime

/-! Inbound callbacks fired by the dispatcher loops of any number of pods, for one
tenant. The originate event is appended to the stream before the row leaves
`PENDING`, the status is not read again under the fire lock, and the lock is
deleted on every exit by whoever leaves, so an event is emitted once only while
nothing fails between the append and the promotion. -/

namespace Vici2

namespace InboundCallbackFire

open Callbacks (CallbackStatus)

/-- A row of `callbacks` with the phone of its lead. `attempt` counts how often the
row has become `PENDING`. -/
structure CallbackRow where
  leadID : Int
  callbackNumber : Option String
  leadPhone : Option String
  queuePositionAtOffer : Option Int
  originalWaitSeconds : Option Int
  originalIngroupID : Option String
  inbound : Bool
  status : CallbackStatus
  callbackAt : Instant
  createdAt : Instant
  attempt : Nat
  deriving DecidableEq, Repr

structure CallbackTable where
  ids : List Int
  row : Int → CallbackRow

structure InboundCallback where
  id : Int
  row : CallbackRow
  deriving DecidableEq, Repr

/-- A dispatcher loop: one pod, one in-group. -/
structure Worker where
  ingroupID : String
  callbackPositionExpiryMinutes : Int
  outboundCli : String
  tenantDefaultCLI : String

structure OriginateEvent where
  callbackID : Int
  agentUserID : Int
  toNumber : String
  fromNumber : String
  ingroupID : String
  originalWaitSec : Option Int
  queuePositionAtOffer : Option Int
  attempt : Nat
  deriving DecidableEq, Repr

/-- `LIMIT 1` in the order of a query. -/
def firstBy (le : InboundCallback → InboundCallback → Bool) :
    List InboundCallback → Option InboundCallback
  | [] => none
  | cb :: rest =>
    match firstBy le rest with
    | none => some cb
    | some best => if le cb best then some cb else some best

def CallbackTable.rows (t : CallbackTable) : List InboundCallback :=
  t.ids.map fun id => ⟨id, t.row id⟩

/-- `PENDING` rows of source `INBOUND` of the in-group that are due. -/
def CallbackTable.due (t : CallbackTable) (ingroupID : String) (now : Instant) :
    List InboundCallback :=
  t.rows.filter fun cb => cb.row.originalIngroupID = some ingroupID ∧ cb.row.inbound ∧
    cb.row.status = .pending ∧ cb.row.callbackAt ≤ now

def positionBefore (a b : InboundCallback) : Bool :=
  let pa := a.row.queuePositionAtOffer.getD 0
  let pb := b.row.queuePositionAtOffer.getD 0
  pa < pb ∨ (pa = pb ∧ a.row.createdAt ≤ b.row.createdAt)

def createdBefore (a b : InboundCallback) : Bool := a.row.createdAt ≤ b.row.createdAt

def Worker.positionExpiryMinutes (worker : Worker) : Int :=
  if 0 < worker.callbackPositionExpiryMinutes then worker.callbackPositionExpiryMinutes else 60

def CallbackTable.positioned (t : CallbackTable) (worker : Worker) (now : Instant) :
    List InboundCallback :=
  (t.due worker.ingroupID now).filter fun cb => cb.row.queuePositionAtOffer.isSome ∧
    now - worker.positionExpiryMinutes * nsPerMinute ≤ cb.row.createdAt

def fetchNextInboundCallback (t : CallbackTable) (worker : Worker) (now : Instant) :
    Option InboundCallback :=
  match firstBy positionBefore (t.positioned worker now) with
  | some cb => some cb
  | none => firstBy createdBefore (t.due worker.ingroupID now)

def dialNumber (cb : InboundCallback) : String :=
  if cb.row.callbackNumber.getD "" ≠ "" then cb.row.callbackNumber.getD ""
  else cb.row.leadPhone.getD ""

def originateEvent (worker : Worker) (agentUserID : Int) (cb : InboundCallback) :
    OriginateEvent where
  callbackID := cb.id
  agentUserID := agentUserID
  toNumber := dialNumber cb
  fromNumber := if worker.outboundCli = "" then worker.tenantDefaultCLI else worker.outboundCli
  ingroupID := worker.ingroupID
  originalWaitSec := cb.row.originalWaitSeconds
  queuePositionAtOffer := cb.row.queuePositionAtOffer
  attempt := cb.row.attempt

/-- Where a loop stands in `tryFireInboundCallback`; `releasing` counts the `DEL`s it
still makes. -/
inductive Phase
  | idle
  | fetched (agentUserID : Int) (cb : InboundCallback)
  | locked (agentUserID : Int) (cb : InboundCallback)
  | appended (agentUserID : Int) (cb : InboundCallback)
  | releasing (id : Int) (dels : Nat)

/-- The answer to a command. One that goes unanswered has taken effect. -/
inductive Answer
  | ok
  | failed
  | unanswered
  deriving DecidableEq, Repr

structure World (ι : Type) where
  table : CallbackTable
  fireLock : Int → Bool
  emitted : List OriginateEvent
  phase : ι → Phase

inductive Action (ι : Type)
  | fetch (i : ι) (agentUserID : Int) (queueSize : Int) (now : Instant) (ok : Bool)
  | lock (i : ι) (ok : Bool)
  | append (i : ι) (answer : Answer)
  | promote (i : ι) (answer : Answer)
  | release (i : ι) (ok : Bool)
  | crash (i : ι)
  | expire (id : Int)
  | schedule (id : Int) (row : CallbackRow)
  | update (id : Int) (status : CallbackStatus) (callbackAt : Instant)

/-- A row written with a status starts a new attempt when it becomes `PENDING`. -/
def CallbackRow.withStatus (r : CallbackRow) (status : CallbackStatus) : CallbackRow :=
  { r with
    status := status
    attempt := if status = .pending ∧ r.status ≠ .pending then r.attempt + 1 else r.attempt }

def CallbackTable.set (t : CallbackTable) (id : Int) (r : CallbackRow) : CallbackTable :=
  { t with row := Function.update t.row id r }

/-- The `UPDATE` guarded by `status='PENDING'`. -/
def CallbackTable.promote (t : CallbackTable) (id : Int) : CallbackTable :=
  if id ∈ t.ids ∧ (t.row id).status = .pending then t.set id ((t.row id).withStatus .live) else t

def CallbackTable.schedule (t : CallbackTable) (id : Int) (r : CallbackRow) : CallbackTable :=
  if id ∈ t.ids then t
  else { ids := t.ids ++ [id]
         row := Function.update t.row id
          { r with status := .pending, attempt := (t.row id).attempt + 1 } }

def CallbackTable.update (t : CallbackTable) (id : Int) (status : CallbackStatus)
    (callbackAt : Instant) : CallbackTable :=
  if id ∈ t.ids then t.set id { (t.row id).withStatus status with callbackAt := callbackAt } else t

section Step

variable {ι : Type} [DecidableEq ι] (workers : ι → Worker)

def World.goto (w : World ι) (i : ι) (phase : Phase) : World ι :=
  { w with phase := Function.update w.phase i phase }

def World.setLock (w : World ι) (id : Int) (taken : Bool) : World ι :=
  { w with fireLock := Function.update w.fireLock id taken }

def appendStep (w : World ι) (i : ι) (agentUserID : Int) (cb : InboundCallback)
    (answer : Answer) : World ι :=
  let event := originateEvent (workers i) agentUserID cb
  if dialNumber cb = "" then w.goto i (.releasing cb.id 1)
  else match answer with
    | .ok => ({ w with emitted := w.emitted ++ [event] }).goto i (.appended agentUserID cb)
    | .failed => w.goto i (.releasing cb.id 1)
    | .unanswered => ({ w with emitted := w.emitted ++ [event] }).goto i (.releasing cb.id 1)

/-- A failed promotion is answered by two deletions of the lock, one by
`fireInboundCallback` and one by its caller. -/
def promoteStep (w : World ι) (i : ι) (cb : InboundCallback) (answer : Answer) : World ι :=
  match answer with
  | .ok => ({ w with table := w.table.promote cb.id }).goto i (.releasing cb.id 1)
  | .failed => w.goto i (.releasing cb.id 2)
  | .unanswered => ({ w with table := w.table.promote cb.id }).goto i (.releasing cb.id 2)

def step (w : World ι) : Action ι → World ι
  | .fetch i agentUserID queueSize now ok =>
    match w.phase i with
    | .idle =>
      if ok ∧ queueSize ≤ 0 then
        match fetchNextInboundCallback w.table (workers i) now with
        | some cb => w.goto i (.fetched agentUserID cb)
        | none => w
      else w
    | _ => w
  | .lock i ok =>
    match w.phase i with
    | .fetched agentUserID cb =>
      if ok ∧ ¬ w.fireLock cb.id then (w.setLock cb.id true).goto i (.locked agentUserID cb)
      else w.goto i .idle
    | _ => w
  | .append i answer =>
    match w.phase i with
    | .locked agentUserID cb => appendStep workers w i agentUserID cb answer
    | _ => w
  | .promote i answer =>
    match w.phase i with
    | .appended _ cb => promoteStep w i cb answer
    | _ => w
  | .release i ok =>
    match w.phase i with
    | .releasing id (n + 1) =>
      (if ok then w.setLock id false else w).goto i (if n = 0 then .idle else .releasing id n)
    | _ => w
  | .crash i => w.goto i .idle
  | .expire id => w.setLock id false
  | .schedule id row => { w with table := w.table.schedule id row }
  | .update id status callbackAt => { w with table := w.table.update id status callbackAt }

def World.start (table : CallbackTable) : World ι := ⟨table, fun _ => false, [], fun _ => .idle⟩

def OriginateEvent.isFor (id : Int) (attempt : Nat) (e : OriginateEvent) : Bool :=
  e.callbackID = id ∧ e.attempt = attempt

def OncePerAttempt (w : World ι) : Prop :=
  ∀ id attempt, (w.emitted.filter (OriginateEvent.isFor id attempt)).length ≤ 1

/-- The callback a loop works on under the fire lock. -/
def Phase.holds : Phase → Option InboundCallback
  | .locked _ cb => some cb
  | .appended _ cb => some cb
  | _ => none

/-- The attempt that was read is still the one to fire. -/
def Current (t : CallbackTable) (cb : InboundCallback) : Prop :=
  (t.row cb.id).attempt = cb.row.attempt ∧ (t.row cb.id).status = .pending

/-- The lock is taken only for an attempt that is still to be fired and that no other
loop is working on under a lock it has lost; an append is answered; and between the
append and the promotion of an attempt that is still pending nothing fails. -/
def FiresClean (w : World ι) : Action ι → Prop
  | .lock i ok => ∀ agentUserID cb, w.phase i = .fetched agentUserID cb → ok = true →
    w.fireLock cb.id = false →
      Current w.table cb ∧ ∀ j cb', (w.phase j).holds = some cb' → cb'.id ≠ cb.id
  | .append i answer => ∀ agentUserID cb, w.phase i = .locked agentUserID cb →
    dialNumber cb ≠ "" → answer ≠ .unanswered
  | .promote i answer => ∀ agentUserID cb, w.phase i = .appended agentUserID cb →
    Current w.table cb → answer ≠ .failed
  | .crash i => ∀ agentUserID cb, w.phase i = .appended agentUserID cb → ¬ Current w.table cb
  | _ => True

/-- The attempt is over: it will not be pending again. -/
def Spent (t : CallbackTable) (id : Int) (attempt : Nat) : Prop :=
  attempt < (t.row id).attempt ∨ ((t.row id).attempt = attempt ∧ (t.row id).status ≠ .pending)

/-- The attempt has begun. -/
def Reached (t : CallbackTable) (cb : InboundCallback) : Prop :=
  cb.id ∈ t.ids ∧ cb.row.attempt ≤ (t.row cb.id).attempt

/-- The callback a loop has read. -/
def Phase.read : Phase → Option InboundCallback
  | .fetched _ cb => some cb
  | .locked _ cb => some cb
  | .appended _ cb => some cb
  | _ => none

structure Inv (w : World ι) : Prop where
  once : OncePerAttempt w
  exclusive : ∀ i j cb cb', (w.phase i).holds = some cb → (w.phase j).holds = some cb' →
    cb.id = cb'.id → i = j
  reached : ∀ i cb, (w.phase i).read = some cb → Reached w.table cb
  unfired : ∀ i agentUserID cb, w.phase i = .locked agentUserID cb →
    ∀ e ∈ w.emitted, e.isFor cb.id cb.row.attempt = false
  fired : ∀ e ∈ w.emitted, Spent w.table e.callbackID e.attempt ∨
    ∃ i agentUserID cb, w.phase i = .appended agentUserID cb ∧ cb.id = e.callbackID ∧
      cb.row.attempt = e.attempt

/-- Rows stay, and no attempt becomes pending again. -/
structure Progress (t t' : CallbackTable) : Prop where
  ids : ∀ id ∈ t.ids, id ∈ t'.ids
  attempts : ∀ id, (t.row id).attempt < (t'.row id).attempt ∨
    ((t.row id).attempt = (t'.row id).attempt ∧
      ((t'.row id).status = .pending → (t.row id).status = .pending))

theorem Progress.refl (t : CallbackTable) : Progress t t := ⟨fun _ => id, fun _ => .inr ⟨rfl, id⟩⟩

theorem progress_set (t : CallbackTable) (id : Int) (r : CallbackRow)
    (h : (t.row id).attempt < r.attempt ∨ ((t.row id).attempt = r.attempt ∧
      (r.status = .pending → (t.row id).status = .pending))) : Progress t (t.set id r) := by
  refine ⟨fun _ hmem => hmem, fun id' => ?_⟩
  by_cases hid : id' = id
  · subst id'
    simpa [CallbackTable.set] using h
  · simp [CallbackTable.set, hid]

theorem attempt_withStatus (r : CallbackRow) (status : CallbackStatus) :
    r.attempt < (r.withStatus status).attempt ∨ (r.attempt = (r.withStatus status).attempt ∧
      (status = .pending → r.status = .pending)) := by
  by_cases h : status = .pending ∧ r.status ≠ .pending
  · left
    simp [CallbackRow.withStatus, h]
  · right
    refine ⟨by simp [CallbackRow.withStatus, h], fun hs => ?_⟩
    by_contra hr
    exact h ⟨hs, hr⟩

theorem progress_promote (t : CallbackTable) (id : Int) : Progress t (t.promote id) := by
  unfold CallbackTable.promote
  split_ifs
  · exact progress_set t id _ (attempt_withStatus (t.row id) .live)
  · exact Progress.refl t

theorem progress_update (t : CallbackTable) (id : Int) (status : CallbackStatus)
    (callbackAt : Instant) : Progress t (t.update id status callbackAt) := by
  unfold CallbackTable.update
  split_ifs
  · exact progress_set t id _ (attempt_withStatus (t.row id) status)
  · exact Progress.refl t

theorem progress_schedule (t : CallbackTable) (id : Int) (r : CallbackRow) :
    Progress t (t.schedule id r) := by
  unfold CallbackTable.schedule
  split_ifs
  · exact Progress.refl t
  · refine ⟨fun _ hmem => List.mem_append_left _ hmem, fun id' => ?_⟩
    by_cases hid : id' = id
    · subst id'
      simp
    · simp [hid]

theorem Spent.progress {t t' : CallbackTable} {id : Int} {attempt : Nat} (h : Spent t id attempt)
    (hp : Progress t t') : Spent t' id attempt := by
  rcases h with h | ⟨h, hs⟩
  · left
    rcases hp.attempts id with hp | ⟨hp, -⟩ <;> omega
  · rcases hp.attempts id with hp | ⟨hp, hs'⟩
    · left
      omega
    · exact .inr ⟨hp ▸ h, fun hpending => hs (hs' hpending)⟩

theorem Reached.progress {t t' : CallbackTable} {cb : InboundCallback} (h : Reached t cb)
    (hp : Progress t t') : Reached t' cb := by
  refine ⟨hp.ids cb.id h.1, ?_⟩
  have hle := h.2
  rcases hp.attempts cb.id with hp | ⟨hp, -⟩ <;> omega

theorem Reached.spent {t : CallbackTable} {cb : InboundCallback} (hr : Reached t cb)
    (h : ¬ Current t cb) : Spent t cb.id cb.row.attempt := by
  rcases Nat.lt_or_eq_of_le hr.2 with hlt | heq
  · exact .inl hlt
  · exact .inr ⟨heq.symm, fun hs => h ⟨heq.symm, hs⟩⟩

theorem Spent.not_current {t : CallbackTable} {cb : InboundCallback}
    (h : Spent t cb.id cb.row.attempt) : ¬ Current t cb := by
  rintro ⟨hattempt, hs⟩
  rcases h with h | ⟨-, h⟩
  · omega
  · exact h hs

/-- A promotion that takes effect ends the attempt, whoever else wrote the row. -/
theorem Reached.spent_promote {t : CallbackTable} {cb : InboundCallback} (hr : Reached t cb) :
    Spent (t.promote cb.id) cb.id cb.row.attempt := by
  by_cases hcurrent : Current t cb
  · right
    simp [CallbackTable.promote, hr.1, hcurrent.2, CallbackTable.set, CallbackRow.withStatus,
      hcurrent.1]
  · exact (hr.spent hcurrent).progress (progress_promote t cb.id)

theorem firstBy_mem {le : InboundCallback → InboundCallback → Bool} {l : List InboundCallback}
    {cb : InboundCallback} (h : firstBy le l = some cb) : cb ∈ l := by
  induction l generalizing cb with
  | nil => simp [firstBy] at h
  | cons a l ih =>
    simp only [firstBy] at h
    split at h
    · simp_all
    · rename_i best hbest
      have hmem := ih hbest
      split_ifs at h
      · simp_all
      · obtain rfl := Option.some.inj h
        exact List.mem_cons_of_mem _ hmem

theorem fetchNextInboundCallback_mem {t : CallbackTable} {worker : Worker} {now : Instant}
    {cb : InboundCallback} (h : fetchNextInboundCallback t worker now = some cb) :
    cb ∈ t.due worker.ingroupID now := by
  unfold fetchNextInboundCallback at h
  split at h
  · rename_i hfirst
    obtain rfl := Option.some.inj h
    exact (List.mem_filter.mp (firstBy_mem hfirst)).1
  · exact firstBy_mem h

theorem reached_of_fetch {t : CallbackTable} {worker : Worker} {now : Instant}
    {cb : InboundCallback} (h : fetchNextInboundCallback t worker now = some cb) :
    Reached t cb := by
  have hmem : cb ∈ t.rows := (List.mem_filter.mp (fetchNextInboundCallback_mem h)).1
  obtain ⟨id, hid, rfl⟩ := List.mem_map.mp hmem
  exact ⟨hid, le_rfl⟩

variable {workers}

/-- A step that emits nothing. The loop `i` may end its work under the lock, provided
that what it has appended is spent. -/
theorem Inv.leave {w w' : World ι} (hw : Inv w) (i : ι) (p : Phase)
    (hphase : w'.phase = Function.update w.phase i p) (htable : Progress w.table w'.table)
    (hemitted : w'.emitted = w.emitted) (hp : p.holds = none)
    (hread : ∀ cb, p.read = some cb → Reached w'.table cb)
    (hspent : ∀ agentUserID cb, w.phase i = .appended agentUserID cb →
      Spent w'.table cb.id cb.row.attempt) : Inv w' := by
  have hother : ∀ j cb, (w'.phase j).holds = some cb → j ≠ i ∧ (w.phase j).holds = some cb := by
    intro j cb hj
    rw [hphase] at hj
    rcases update_cases (fun p : Phase => p.holds = some cb) hj with ⟨-, hnone⟩ | hother
    · rw [hp] at hnone
      cases hnone
    · exact hother
  constructor
  · intro id attempt
    rw [hemitted]
    exact hw.once id attempt
  · exact fun j k cb cb' hj hk h => hw.exclusive j k cb cb' (hother j cb hj).2 (hother k cb' hk).2 h
  · intro j cb hj
    rw [hphase] at hj
    rcases update_cases (fun p : Phase => p.read = some cb) hj with ⟨-, hj⟩ | ⟨-, hj⟩
    · exact hread cb hj
    · exact (hw.reached j cb hj).progress htable
  · intro j agentUserID cb hj
    have hholds := hother j cb (by rw [hj]; rfl)
    rw [hphase, Function.update_of_ne hholds.1] at hj
    rw [hemitted]
    exact hw.unfired j agentUserID cb hj
  · rw [hemitted]
    intro e he
    rcases hw.fired e he with hs | ⟨j, agentUserID, cb, hj, hid, hattempt⟩
    · exact .inl (hs.progress htable)
    · by_cases hji : j = i
      · subst j
        have hs := hspent agentUserID cb hj
        rw [hid, hattempt] at hs
        exact .inl hs
      · refine .inr ⟨j, agentUserID, cb, ?_, hid, hattempt⟩
        rw [hphase, Function.update_of_ne hji]
        exact hj

omit [DecidableEq ι] in
theorem Inv.withTable {w : World ι} (hw : Inv w) {t : CallbackTable} (ht : Progress w.table t) :
    Inv { w with table := t } := by
  refine ⟨hw.once, hw.exclusive, fun i cb hi => (hw.reached i cb hi).progress ht, hw.unfired, ?_⟩
  intro e he
  rcases hw.fired e he with hs | h
  · exact .inl (hs.progress ht)
  · exact .inr h

theorem Inv.lock {w : World ι} (hw : Inv w) {i : ι} {agentUserID : Int} {cb : InboundCallback}
    (hi : w.phase i = .fetched agentUserID cb) (hcurrent : Current w.table cb)
    (halone : ∀ j cb', (w.phase j).holds = some cb' → cb'.id ≠ cb.id) :
    Inv ((w.setLock cb.id true).goto i (.locked agentUserID cb)) := by
  have hreached : Reached w.table cb := hw.reached i cb (by rw [hi]; rfl)
  have hholds : ∀ j cb', (((w.setLock cb.id true).goto i (.locked agentUserID cb)).phase j).holds =
      some cb' → (j = i ∧ cb' = cb) ∨ (w.phase j).holds = some cb' := by
    intro j cb' hj
    rcases update_cases (fun p : Phase => p.holds = some cb') hj with ⟨rfl, hself⟩ | ⟨-, hj⟩
    · exact .inl ⟨rfl, (Option.some.inj hself).symm⟩
    · exact .inr hj
  constructor
  · exact hw.once
  · intro j k cb₁ cb₂ hj hk hid
    rcases hholds j cb₁ hj with ⟨hji, hcb₁⟩ | hj'
    · rcases hholds k cb₂ hk with ⟨hki, -⟩ | hk'
      · rw [hji, hki]
      · exact absurd (hid.symm.trans (by rw [hcb₁])) (halone k cb₂ hk')
    · rcases hholds k cb₂ hk with ⟨-, hcb₂⟩ | hk'
      · exact absurd (hid.trans (by rw [hcb₂])) (halone j cb₁ hj')
      · exact hw.exclusive j k cb₁ cb₂ hj' hk' hid
  · intro j cb' hj
    rcases update_cases (fun p : Phase => p.read = some cb') hj with ⟨-, hj⟩ | ⟨-, hj⟩
    · obtain rfl := Option.some.inj hj
      exact hreached
    · exact hw.reached j cb' hj
  · intro j agent cb' hj
    rcases update_cases (fun p : Phase => p = .locked agent cb') hj with ⟨-, hj⟩ | ⟨-, hj⟩
    · obtain ⟨-, rfl⟩ := Phase.locked.inj hj
      -- an event of this attempt would be spent, or its loop still under the lock
      intro e he
      by_contra hfor
      have hfor' : e.callbackID = cb.id ∧ e.attempt = cb.row.attempt := by
        simpa [OriginateEvent.isFor] using hfor
      rcases hw.fired e he with hs | ⟨k, a, cb', hk, hid, -⟩
      · rw [hfor'.1, hfor'.2] at hs
        exact hs.not_current hcurrent
      · exact halone k cb' (by rw [hk]; rfl) (hid.trans hfor'.1)
    · exact hw.unfired j agent cb' hj
  · intro e he
    rcases hw.fired e he with hs | ⟨j, a, cb', hj, hid, hattempt⟩
    · exact .inl hs
    · have hji : j ≠ i := by
        rintro rfl
        rw [hi] at hj
        cases hj
      exact .inr ⟨j, a, cb', (Function.update_of_ne hji _ _).trans hj, hid, hattempt⟩

theorem Inv.append {w : World ι} (hw : Inv w) {i : ι} {agentUserID : Int} {cb : InboundCallback}
    (hi : w.phase i = .locked agentUserID cb) {e : OriginateEvent} (hid : e.callbackID = cb.id)
    (hattempt : e.attempt = cb.row.attempt) :
    Inv (({ w with emitted := w.emitted ++ [e] }).goto i (.appended agentUserID cb)) := by
  -- the loop works on the callback it had locked
  have hholds : ∀ j cb', ((({ w with emitted := w.emitted ++ [e] }).goto i
      (.appended agentUserID cb)).phase j).holds = some cb' → (w.phase j).holds = some cb' := by
    intro j cb' hj
    rcases update_cases (fun p : Phase => p.holds = some cb') hj with ⟨rfl, hself⟩ | ⟨-, hj⟩
    · rw [hi]
      exact hself
    · exact hj
  constructor
  · intro id attempt
    have honce := hw.once id attempt
    by_cases hfor : e.isFor id attempt = true
    · have hnone : w.emitted.filter (OriginateEvent.isFor id attempt) = [] := by
        apply List.filter_eq_nil_iff.mpr
        intro e' he'
        have hunfired := hw.unfired i agentUserID cb hi e' he'
        have heq : cb.id = id ∧ cb.row.attempt = attempt := by
          simpa [OriginateEvent.isFor, hid, hattempt] using hfor
        rw [heq.1, heq.2] at hunfired
        simp [hunfired]
      simp [World.goto, List.filter_append, hnone, hfor]
    · simpa [World.goto, List.filter_append, hfor] using honce
  · exact fun j k cb₁ cb₂ hj hk h => hw.exclusive j k cb₁ cb₂ (hholds j cb₁ hj) (hholds k cb₂ hk) h
  · intro j cb' hj
    rcases update_cases (fun p : Phase => p.read = some cb') hj with ⟨rfl, hself⟩ | ⟨-, hj⟩
    · exact hw.reached j cb' (by rw [hi]; exact hself)
    · exact hw.reached j cb' hj
  · intro j agent cb' hj e' he'
    obtain ⟨-, hj⟩ | ⟨hji, hj⟩ := update_cases (fun p : Phase => p = .locked agent cb') hj
    · cases hj
    rcases List.mem_append.mp he' with he' | he'
    · exact hw.unfired j agent cb' hj e' he'
    · obtain rfl := List.mem_singleton.mp he'
      have hne : cb.id ≠ cb'.id := fun h =>
        hji (hw.exclusive j i cb' cb (by rw [hj]; rfl) (by rw [hi]; rfl) h.symm)
      simp [OriginateEvent.isFor, hid, hne]
  · intro e' he'
    rcases List.mem_append.mp he' with he' | he'
    · rcases hw.fired e' he' with hs | ⟨j, agent, cb', hj, hid', hattempt'⟩
      · exact .inl hs
      · have hji : j ≠ i := by
          rintro rfl
          rw [hi] at hj
          cases hj
        exact .inr ⟨j, agent, cb', (Function.update_of_ne hji _ _).trans hj, hid', hattempt'⟩
    · obtain rfl := List.mem_singleton.mp he'
      exact .inr ⟨i, agentUserID, cb, Function.update_self _ _ _, hid.symm, hattempt.symm⟩

theorem Inv.appendStep {w : World ι} (hw : Inv w) {i : ι} {agentUserID : Int}
    {cb : InboundCallback} (hi : w.phase i = .locked agentUserID cb) {answer : Answer}
    (hclean : dialNumber cb ≠ "" → answer ≠ .unanswered) :
    Inv (appendStep workers w i agentUserID cb answer) := by
  have hspent : ∀ agent cb', w.phase i = .appended agent cb' →
      Spent w.table cb'.id cb'.row.attempt := by
    intro agent cb' h
    rw [hi] at h
    cases h
  unfold InboundCallbackFire.appendStep
  split_ifs with hnumber
  · exact hw.leave i _ rfl (Progress.refl _) rfl rfl (fun _ h => by cases h) hspent
  · cases answer with
    | ok => exact hw.append hi rfl rfl
    | failed => exact hw.leave i _ rfl (Progress.refl _) rfl rfl (fun _ h => by cases h) hspent
    | unanswered => exact absurd rfl (hclean hnumber)

theorem Inv.promoteStep {w : World ι} (hw : Inv w) {i : ι} {agentUserID : Int}
    {cb : InboundCallback} (hi : w.phase i = .appended agentUserID cb) {answer : Answer}
    (hclean : Current w.table cb → answer ≠ .failed) : Inv (promoteStep w i cb answer) := by
  have hreached : Reached w.table cb := hw.reached i cb (by rw [hi]; rfl)
  have hown : ∀ {t : CallbackTable}, Spent t cb.id cb.row.attempt → ∀ agent cb',
      w.phase i = .appended agent cb' → Spent t cb'.id cb'.row.attempt := by
    intro t hs agent cb' h
    rw [hi] at h
    obtain ⟨-, rfl⟩ := Phase.appended.inj h
    exact hs
  cases answer with
  | ok =>
    exact hw.leave i _ rfl (progress_promote w.table cb.id) rfl rfl (fun _ h => by cases h)
      (hown hreached.spent_promote)
  | failed =>
    have hs := hreached.spent fun h => hclean h rfl
    exact hw.leave i _ rfl (Progress.refl _) rfl rfl (fun _ h => by cases h) (hown hs)
  | unanswered =>
    exact hw.leave i _ rfl (progress_promote w.table cb.id) rfl rfl (fun _ h => by cases h)
      (hown hreached.spent_promote)

theorem Inv.step {w : World ι} (hw : Inv w) {a : Action ι} (ha : FiresClean w a) :
    Inv (step workers w a) := by
  cases a with
  | fetch i agentUserID queueSize now ok =>
    simp only [InboundCallbackFire.step]
    split
    · rename_i hi
      split_ifs
      · split
        · rename_i cb hfetch
          refine hw.leave i _ rfl (Progress.refl _) rfl rfl ?_ fun agent cb' h => ?_
          · intro cb' h
            obtain rfl := Option.some.inj h
            exact reached_of_fetch hfetch
          · rw [hi] at h
            cases h
        · exact hw
      · exact hw
    · exact hw
  | lock i ok =>
    simp only [InboundCallbackFire.step]
    split
    · rename_i agentUserID cb hi
      split_ifs with hfree
      · obtain ⟨hcurrent, halone⟩ := ha agentUserID cb hi hfree.1 (by simpa using hfree.2)
        exact hw.lock hi hcurrent halone
      · refine hw.leave i _ rfl (Progress.refl _) rfl rfl (fun _ h => by cases h) fun agent cb' h => ?_
        rw [hi] at h
        cases h
    · exact hw
  | append i answer =>
    simp only [InboundCallbackFire.step]
    split
    · rename_i agentUserID cb hi
      exact hw.appendStep hi (ha agentUserID cb hi)
    · exact hw
  | promote i answer =>
    simp only [InboundCallbackFire.step]
    split
    · rename_i agentUserID cb hi
      exact hw.promoteStep hi (ha agentUserID cb hi)
    · exact hw
  | release i ok =>
    simp only [InboundCallbackFire.step]
    split
    · rename_i id n hi
      refine hw.leave i (if n = 0 then .idle else .releasing id n) ?_ ?_ ?_ ?_ ?_ ?_
      · cases ok <;> rfl
      · cases ok <;> exact Progress.refl _
      · cases ok <;> rfl
      · split_ifs <;> rfl
      · intro cb h
        split_ifs at h <;> cases h
      · intro agent cb' h
        rw [hi] at h
        cases h
    · exact hw
  | crash i =>
    refine hw.leave i .idle rfl (Progress.refl _) rfl rfl (fun _ h => by cases h) fun agent cb h => ?_
    have hreached : Reached w.table cb := hw.reached i cb (by rw [h]; rfl)
    exact hreached.spent (ha agent cb h)
  | expire id => exact ⟨hw.once, hw.exclusive, hw.reached, hw.unfired, hw.fired⟩
  | schedule id row => exact hw.withTable (progress_schedule w.table id row)
  | update id status callbackAt => exact hw.withTable (progress_update w.table id status callbackAt)

omit [DecidableEq ι] in
theorem inv_start (table : CallbackTable) : Inv (World.start table : World ι) := by
  constructor
  · intro id attempt
    simp [World.start]
  · intro i j cb cb' h
    cases h
  · intro i cb h
    cases h
  · intro i agentUserID cb h
    cases h
  · intro e he
    cases he

/-- One event for each attempt, in every run in which locks are taken for current
attempts that nobody works on and nothing fails between append and promotion. -/
theorem fired_once_of_firesClean (workers : ι → Worker) (table : CallbackTable)
    (l : List (Action ι)) (hl : EachStep (step workers) FiresClean (.start table) l) :
    Always (step workers) OncePerAttempt (.start table) l := by
  have hinv := always_of_eachStep (fun w a hw ha => hw.step ha) (inv_start table) hl
  exact hinv.mono fun w hw => hw.once

end Step

def dueCallback : CallbackRow where
  leadID := 5
  callbackNumber := some "+15551230000"
  leadPhone := none
  queuePositionAtOffer := some 3
  originalWaitSeconds := some 240
  originalIngroupID := some "support"
  inbound := true
  status := .pending
  callbackAt := 1
  createdAt := 1
  attempt := 1

def oneCallback : CallbackTable := ⟨[9], fun _ => dueCallback⟩

def supportLoop : Unit → Worker := fun _ => ⟨"support", 60, "+15559870000", "+15559870000"⟩

def fireCycle (promotion : Answer) (dels : List Bool) : List (Action Unit) :=
  [.fetch () 7 0 1 true, .lock () true, .append () .ok, .promote () promotion] ++
    dels.map (.release ())

theorem fired_once_when_promoted :
    EachStep (step supportLoop) FiresClean (.start oneCallback)
        (fireCycle .ok [true] ++ fireCycle .ok [true]) ∧
      Always (step supportLoop) OncePerAttempt (.start oneCallback)
        (fireCycle .ok [true] ++ fireCycle .ok [true]) := by
  have hclean : EachStep (step supportLoop) FiresClean (.start oneCallback)
      (fireCycle .ok [true] ++ fireCycle .ok [true]) := by
    refine ⟨trivial, ?_, ?_, ?_, trivial, trivial, ?_, ?_, ?_, trivial, trivial⟩
    · intro agentUserID cb h _ _
      obtain ⟨-, rfl⟩ := Phase.fetched.inj h
      exact ⟨⟨rfl, rfl⟩, fun _ _ h => by cases h⟩
    · exact fun _ _ _ _ => by decide
    · exact fun _ _ _ _ => by decide
    · intro agentUserID cb h
      cases h
    · exact fun _ _ _ _ => by decide
    · exact fun _ _ _ _ => by decide
  exact ⟨hclean, fired_once_of_firesClean supportLoop oneCallback _ hclean⟩

/-- The event is appended, the promotion fails, the lock is given back: the next cycle
of the same loop appends the event again. -/
theorem failed_promotion_fires_twice :
    ¬ Always (step supportLoop) OncePerAttempt (.start oneCallback)
      (fireCycle .failed [true, true] ++ fireCycle .ok [true]) := by
  intro h
  have honce := h.last 9 1
  revert honce
  decide

end InboundCallbackFire

end Vici2
